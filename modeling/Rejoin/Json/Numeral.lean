import Rejoin.Json
import Rejoin.Number.Decimal

/-! Numbers in JSON texts. A numeral without point and exponent is kept exactly if it fits a word;
any other becomes the binary64 number nearest to it, unless that is infinite. -/

namespace Rejoin.Json

/-- The parts of a written number. -/
structure Numeral where
  negative : Bool
  whole : List Char
  /-- The digits behind the point, if there is one. -/
  places : Option (List Char)
  /-- The sign and the digits of the exponent, if there is one. -/
  exponent : Option (Bool × List Char)
  deriving DecidableEq

namespace Numeral

def largestWord : Nat := 0xffffffffffffffff

/-- The value of a numeral without its sign. -/
def magnitude (numeral : Numeral) : Decimal :=
  let places := numeral.places.getD []
  let exponent : Int :=
    match numeral.exponent with
    | some (true, digits) => -Decimal.valueOf digits
    | some (false, digits) => Decimal.valueOf digits
    | none => 0
  ⟨Decimal.valueOf (numeral.whole ++ places), exponent - places.length⟩

/-- The word that a whole number fits. A negative zero fits none. -/
def word? (negative : Bool) (value : Nat) : Option Number :=
  if negative then
    if value ≠ 0 ∧ value ≤ 0x8000000000000000 then some (.negative (UInt64.ofNat value)) else none
  else if value ≤ largestWord then some (.natural (UInt64.ofNat value)) else none

/-- The nearest binary64 number. -/
def nearest (numeral : Numeral) : Number :=
  let value := numeral.magnitude.toBinary64 numeral.negative
  if value.isFinite then .float value else .tooLarge

def value (numeral : Numeral) : Number :=
  if numeral.places.isNone ∧ numeral.exponent.isNone then
    (word? numeral.negative (Decimal.valueOf numeral.whole)).getD numeral.nearest
  else numeral.nearest

end Numeral

end Rejoin.Json
