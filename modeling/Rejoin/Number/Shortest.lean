import Rejoin.Number.Decimal

/-! The shortest decimal numeral that reads back as a given binary64 number, and its written forms.

`Shortest.numeral` tries grids of one digit, two digits and so on; on each it looks at the two
neighbours of the number, and takes the nearer of those that still read back. `Layout` holds what
the written forms decide for themselves: where positional writing ends, whether a point is always
written, the sign of an exponent, and which of two equally near numerals is taken. -/

namespace Rejoin

namespace Shortest

/-- Which of two equally near numerals is taken. -/
inductive Tie where
  | upper
  | even
  deriving DecidableEq

/-- The magnitudes that read back as one number, in quarters of a unit. The ends belong to it when
the number's last binary digit is even. -/
structure Reach where
  low : Nat
  high : Nat
  closed : Bool

def reach (units : Nat) : Reach :=
  let step := Binary64.spacing units
  let below := if 1 < step ∧ units = Binary64.leading * step then step else 2 * step
  ⟨4 * units - below, 4 * units + 2 * step, units / step % 2 = 0⟩

/-- Whether `quarters / divisor` lies in the reach. -/
def Reach.holds (reach : Reach) (quarters divisor : Nat) : Bool :=
  if reach.closed then reach.low * divisor ≤ quarters ∧ quarters ≤ reach.high * divisor
  else reach.low * divisor < quarters ∧ quarters < reach.high * divisor

/-- The grid of the multiples of `10 ^ place`: a multiple `m` is `m * scale / divisor` units. -/
structure Grid where
  place : Int
  scale : Nat
  divisor : Nat

def grid (place : Int) : Grid :=
  if 0 ≤ place then ⟨place, Binary64.one * Nat.pow 10 place.toNat, 1⟩
  else ⟨place, Binary64.one, Nat.pow 10 (-place).toNat⟩

/-- The neighbour of a number on a grid that reads back, the nearer one if both do. -/
def Grid.nearest? (tie : Tie) (units : Nat) (grid : Grid) : Option Decimal :=
  let reach := reach units
  let lower := units * grid.divisor / grid.scale
  let upper := lower + 1
  let below := units * grid.divisor - lower * grid.scale
  let above := upper * grid.scale - units * grid.divisor
  let holds (multiple : Nat) := reach.holds (4 * multiple * grid.scale) grid.divisor
  let preferLower := below < above ∨ below = above ∧ tie = .even ∧ lower % 2 = 0
  if holds lower ∧ (preferLower ∨ ¬ holds upper) then some ⟨lower, grid.place⟩
  else if holds upper then some ⟨upper, grid.place⟩
  else none

/-- The place of the first decimal digit of a positive magnitude. -/
def leadingPlace (units : Nat) : Int :=
  if Binary64.one ≤ units then ((Nat.toDigits 10 (units / Binary64.one)).length - 1 : Nat)
  else
    match (List.range 400).find? fun places => Binary64.one ≤ units * Nat.pow 10 places with
    | some places => -(places : Int)
    | none => 0

/-- The decimal numeral of fewest digits that reads back as a positive magnitude, and of those the
nearest. Seventeen digits always read back. -/
def numeral (tie : Tie) (units : Nat) : Decimal :=
  let leading := leadingPlace units
  let found := (List.range 17).findSome? fun (further : Nat) =>
    (grid (leading - further)).nearest? tie units
  found.getD ⟨units, 0⟩

end Shortest

/-- How a number is written. -/
structure Layout where
  /-- Whether a number whose point stands after so many digits is written without an exponent. -/
  positional : Int → Bool
  /-- Whether a whole number is written with `.0` behind it. -/
  alwaysPoint : Bool
  /-- Whether a positive exponent is written with its sign. -/
  plusSign : Bool
  tie : Shortest.Tie

namespace Layout

def zeros (count : Nat) : List Char := List.replicate count '0'

/-- Digits with the point after `place` of them, and zeros where digits are missing. -/
def positionalText (layout : Layout) (digits : List Char) (place : Int) : List Char :=
  if place ≤ 0 then '0' :: '.' :: (zeros (-place).toNat ++ digits)
  else if digits.length ≤ place.toNat then
    digits ++ zeros (place.toNat - digits.length) ++ if layout.alwaysPoint then ['.', '0'] else []
  else digits.take place.toNat ++ '.' :: digits.drop place.toNat

/-- One digit before the point, and the exponent behind an `e`. -/
def exponentText (layout : Layout) (digits : List Char) (place : Int) : List Char :=
  let exponent := place - 1
  let sign := if exponent < 0 then ['-'] else if layout.plusSign then ['+'] else []
  let fraction := if digits.length ≤ 1 then [] else '.' :: digits.drop 1
  digits.take 1 ++ fraction ++ 'e' :: (sign ++ Nat.toDigits 10 exponent.natAbs)

/-- A decimal numeral without the zeros at its end. -/
def significant (numeral : Decimal) : List Char :=
  (numeral.digitText.reverse.dropWhile (· = '0')).reverse

def magnitudeText (layout : Layout) (units : Nat) : List Char :=
  if units = 0 then '0' :: if layout.alwaysPoint then ['.', '0'] else []
  else
    let numeral := Shortest.numeral layout.tie units
    let digits := significant numeral
    if layout.positional numeral.pointPlace then layout.positionalText digits numeral.pointPlace
    else layout.exponentText digits numeral.pointPlace

def write (layout : Layout) (number : Binary64) : String :=
  match number.reading with
  | .nan => "NaN"
  | .infinite negative => if negative then "-inf" else "inf"
  | .finite negative units =>
    String.ofList ((if negative then ['-'] else []) ++ layout.magnitudeText units)

/-- The form of numbers in messages: never an exponent. -/
def message : Layout := ⟨fun _ => true, false, false, .upper⟩

/-- The form of numbers in descriptions of values: an exponent below `10 ^ -4` and from `10 ^ 16`
on. -/
def description : Layout := ⟨fun place => -3 ≤ place ∧ place ≤ 16, true, false, .upper⟩

/-- The form of numbers in documents: an exponent below `10 ^ -5` and from `10 ^ 16` on. -/
def document : Layout := ⟨fun place => -4 ≤ place ∧ place ≤ 16, true, true, .even⟩

end Layout

end Rejoin
