/-! Spans of time in whole nanoseconds, as long as `2 ^ 64` seconds less one nanosecond. Sums and
differences stop at the ends of that range; products beyond it are refused. -/

namespace Rejoin

/-- The nanoseconds of the longest span. -/
def Duration.maxNanos : Nat := 18446744073709551615999999999

structure Duration where
  nanos : Nat
  nanos_le : nanos ≤ Duration.maxNanos
  deriving DecidableEq

namespace Duration

def perSecond : Nat := 1000000000

def perMilli : Nat := 1000000

def perMicro : Nat := 1000

instance : LE Duration := ⟨fun left right => left.nanos ≤ right.nanos⟩

instance : DecidableLE Duration := fun left right =>
  inferInstanceAs (Decidable (left.nanos ≤ right.nanos))

@[ext] theorem ext {left right : Duration} (h : left.nanos = right.nanos) : left = right := by
  cases left; cases right; simp_all

theorem le_iff {left right : Duration} : left ≤ right ↔ left.nanos ≤ right.nanos := Iff.rfl

def ofNanos? (nanos : Nat) : Option Duration :=
  if h : nanos ≤ maxNanos then some ⟨nanos, h⟩ else none

/-- The span of so many nanoseconds, or the longest one. -/
def ofNanos (nanos : Nat) : Duration := ⟨min nanos maxNanos, Nat.min_le_right _ _⟩

def zero : Duration := ofNanos 0

def ofMillis (millis : UInt64) : Duration := ofNanos (millis.toNat * perMilli)

def ofSeconds (seconds : UInt64) : Duration := ofNanos (seconds.toNat * perSecond)

theorem nanos_ofMillis (millis : UInt64) : (ofMillis millis).nanos = millis.toNat * perMilli := by
  have := millis.toNat_lt
  simp only [ofMillis, ofNanos, maxNanos, perMilli]
  omega

/-- A span of whole seconds and nanoseconds beside them. -/
def ofParts (seconds : UInt64) (rest : UInt32) : Duration :=
  ofNanos (seconds.toNat * perSecond + rest.toNat)

/-- The span of a count of nanoseconds, cut up into whole seconds in a word of 64 bits and the rest in
one of 32. -/
def ofCount (nanos : Nat) : Duration :=
  ofParts (UInt64.ofNat (nanos / perSecond)) (UInt32.ofNat (nanos % perSecond))

/-- Up to the longest span the seconds and the rest fit in their words. -/
theorem parts_of_le {nanos : Nat} (h : nanos ≤ maxNanos) :
    (UInt64.ofNat (nanos / perSecond)).toNat = nanos / perSecond ∧
      (UInt32.ofNat (nanos % perSecond)).toNat = nanos % perSecond := by
  have hseconds : nanos / perSecond < UInt64.size :=
    Nat.div_lt_of_lt_mul (Nat.lt_of_le_of_lt h (by decide))
  have hrest : nanos % perSecond < UInt32.size :=
    Nat.lt_of_lt_of_le (Nat.mod_lt _ (by decide)) (by decide)
  exact ⟨UInt64.toNat_ofNat_of_lt' hseconds, UInt32.toNat_ofNat_of_lt' hrest⟩

theorem nanos_ofCount {nanos : Nat} (h : nanos ≤ maxNanos) : (ofCount nanos).nanos = nanos := by
  obtain ⟨hseconds, hrest⟩ := parts_of_le h
  rw [ofCount, ofParts, hseconds, hrest, Nat.div_add_mod', ofNanos]
  exact Nat.min_eq_left h

def isZero (span : Duration) : Bool := span.nanos = 0

/-- The whole milliseconds in a span. -/
def millis (span : Duration) : Nat := span.nanos / perMilli

/-- The fewest whole milliseconds that are no shorter than the span. -/
def millisUp (span : Duration) : Nat := (span.nanos + (perMilli - 1)) / perMilli

def add (left right : Duration) : Duration := ofNanos (left.nanos + right.nanos)

def sub (left right : Duration) : Duration :=
  ⟨left.nanos - right.nanos, Nat.le_trans (Nat.sub_le _ _) left.nanos_le⟩

/-- The product, unless it is beyond the longest span. -/
def times? (span : Duration) (factor : Nat) : Option Duration := ofNanos? (span.nanos * factor)

def divide (span : Duration) (divisor : Nat) : Duration :=
  ⟨span.nanos / divisor, Nat.le_trans (Nat.div_le_self _ _) span.nanos_le⟩

/-! ### Written form -/

/-- `rest` out of `10 ^ places` as a fraction without zeros at its end, and without its point if
nothing is left. -/
def fractionText (rest places : Nat) : List Char :=
  let digits := Nat.toDigits 10 rest
  let padded := List.replicate (places - digits.length) '0' ++ digits
  let kept := (padded.reverse.dropWhile (· = '0')).reverse
  if kept = [] then [] else '.' :: kept

/-- A count in one unit, with what is left over as its fraction. -/
def unitText (nanos places : Nat) (unit : String) : String :=
  let weight := Nat.pow 10 places
  String.ofList (Nat.toDigits 10 (nanos / weight) ++ fractionText (nanos % weight) places) ++ unit

/-- The span in the largest of seconds, milliseconds, microseconds and nanoseconds that it
reaches. -/
def text (span : Duration) : String :=
  if perSecond ≤ span.nanos then unitText span.nanos 9 "s"
  else if perMilli ≤ span.nanos then unitText span.nanos 6 "ms"
  else if perMicro ≤ span.nanos then unitText span.nanos 3 "µs"
  else unitText span.nanos 0 "ns"

end Duration

end Rejoin
