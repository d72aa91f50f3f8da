/-! Binary64 numbers, by their bits and by their exact values. Every finite magnitude is a whole
number of units of `2 ^ -1074`, so reading a number and rounding a quotient to a number stay in
`Nat`: `Binary64.reading` is the exact value and `Binary64.ofRatio` the number nearest to a
quotient. All arithmetic here is the exact result followed by that one rounding. -/

namespace Rejoin

/-- A binary64 number: sign in bit 63, exponent in bits 52 to 62, fraction below. -/
structure Binary64 where
  bits : UInt64
  deriving DecidableEq

namespace Binary64

/-- What a bit pattern stands for; a finite magnitude is counted in units of `2 ^ -1074`. -/
inductive Reading where
  | nan
  | infinite (negative : Bool)
  | finite (negative : Bool) (units : Nat)
  deriving DecidableEq

/-- The number of units in one. -/
def one : Nat := Nat.pow 2 1074

/-- The weight of the sign in the bits. -/
def signWeight : Nat := 0x8000000000000000

/-- The weight of the leading digit among the 53 of a number, and of the exponent in the bits. -/
def leading : Nat := 0x10000000000000

def isNegative (number : Binary64) : Bool :=
  signWeight ≤ number.bits.toNat

/-- The value of a number, read off its bits. -/
def reading (number : Binary64) : Reading :=
  let exponent := number.bits.toNat % signWeight / leading
  let fraction := number.bits.toNat % leading
  if exponent = 2047 then
    if fraction = 0 then .infinite number.isNegative else .nan
  else if exponent = 0 then
    .finite number.isNegative fraction
  else
    .finite number.isNegative ((leading + fraction) * Nat.pow 2 (exponent - 1))

/-! ### Rounding -/

/-- The whole number nearest to a quotient; a half goes to the even neighbour. -/
def divNearestEven (numerator denominator : Nat) : Nat :=
  let quotient := numerator / denominator
  let rest := numerator % denominator
  if 2 * rest < denominator ∨ 2 * rest = denominator ∧ quotient % 2 = 0 then quotient
  else quotient + 1

/-- The distance between neighbouring numbers from `units` upwards: the first 53 binary digits are
kept. -/
def spacing (units : Nat) : Nat := Nat.pow 2 (units.log2 - 52)

/-- A quotient of units to the nearest number, still in units. -/
def roundUnits (numerator denominator : Nat) : Nat :=
  let step := spacing (numerator / denominator)
  divNearestEven numerator (denominator * step) * step

/-- The number with a magnitude of `units`, of which the digits after the first 53 are dropped.
Magnitudes from `2 ^ 1024` on are infinite. -/
def ofUnits (negative : Bool) (units : Nat) : Binary64 :=
  let exponent := units.log2 - 52
  let magnitude := min (exponent * leading + units / Nat.pow 2 exponent) (2047 * leading)
  ⟨UInt64.ofNat ((if negative then signWeight else 0) + magnitude)⟩

/-- The number nearest to a quotient, a half going to the even neighbour. -/
def ofRatio (negative : Bool) (numerator denominator : Nat) : Binary64 :=
  ofUnits negative (roundUnits (numerator * one) denominator)

def ofNat (value : Nat) : Binary64 := ofRatio false value 1

def nan : Binary64 := ⟨0x7ff8000000000000⟩

def infinity (negative : Bool) : Binary64 :=
  ⟨if negative then 0xfff0000000000000 else 0x7ff0000000000000⟩

def zero (negative : Bool) : Binary64 := ofUnits negative 0

def half : Binary64 := ofRatio false 1 2

/-! ### Arithmetic -/

def neg (number : Binary64) : Binary64 := ⟨number.bits ^^^ 0x8000000000000000⟩

def mul (left right : Binary64) : Binary64 :=
  match left.reading, right.reading with
  | .nan, _ | _, .nan => nan
  | .infinite s, .infinite t => infinity (s ^^ t)
  | .infinite s, .finite t units => if units = 0 then nan else infinity (s ^^ t)
  | .finite s units, .infinite t => if units = 0 then nan else infinity (s ^^ t)
  | .finite s left, .finite t right => ofUnits (s ^^ t) (roundUnits (left * right) one)

def isFinite (number : Binary64) : Bool :=
  match number.reading with
  | .finite _ _ => true
  | _ => false

/-- Between zero and one, both included; negative zero counts as zero. -/
def inUnitInterval (number : Binary64) : Bool :=
  match number.reading with
  | .finite true units => units = 0
  | .finite false units => units ≤ one
  | _ => false

/-- The whole part, held between zero and `bound`; zero for a NaN. -/
def floorWithin (bound : Nat) (number : Binary64) : Nat :=
  match number.reading with
  | .infinite false => bound
  | .finite false units => min bound (units / one)
  | _ => 0

/-- The nearest whole number, a half going away from zero, held between `low` and `high`; zero for a
NaN. -/
def nearestWithin (low high : Int) (number : Binary64) : Int :=
  match number.reading with
  | .nan => 0
  | .infinite true => low
  | .infinite false => high
  | .finite negative units =>
    let magnitude : Int := ((2 * units + one) / (2 * one) : Nat)
    max low (min high (if negative then -magnitude else magnitude))

end Binary64

end Rejoin
