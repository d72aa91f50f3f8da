import Rejoin.Number.Binary64

/-! Decimal numerals and the binary64 numbers nearest to them. -/

namespace Rejoin

/-- The value `digits * 10 ^ exponent`. -/
structure Decimal where
  digits : Nat
  exponent : Int
  deriving DecidableEq

namespace Decimal

/-- The written form of the digits, without sign, point or exponent. -/
def digitText (numeral : Decimal) : List Char := Nat.toDigits 10 numeral.digits

/-- The number of places before the point, negative when zeros follow the point. -/
def pointPlace (numeral : Decimal) : Int := numeral.digitText.length + numeral.exponent

/-- The value of a run of decimal digits. -/
def valueOf (digits : List Char) : Nat :=
  digits.foldl (fun value digit => 10 * value + (digit.toNat - '0'.toNat)) 0

/-- The nearest binary64 number. Numerals beyond `10 ^ 400` are infinite and those below `10 ^ -400`
zero whatever their digits. -/
def toBinary64 (negative : Bool) (numeral : Decimal) : Binary64 :=
  if numeral.digits = 0 then .zero negative
  else if 400 < numeral.pointPlace then .infinity negative
  else if numeral.pointPlace < -400 then .zero negative
  else if 0 ≤ numeral.exponent then
    .ofRatio negative (numeral.digits * Nat.pow 10 numeral.exponent.toNat) 1
  else
    .ofRatio negative numeral.digits (Nat.pow 10 (-numeral.exponent).toNat)

/-! ### Reading -/

/-- An optional sign in front of a text: whether it is a minus, and the rest. -/
def splitSign : List Char → Bool × List Char
  | '-' :: rest => (true, rest)
  | '+' :: rest => (false, rest)
  | text => (false, text)

/-- The value of the text after an exponent mark, or zero for no text at all. -/
def exponentOf? : List Char → Option Int
  | [] => some 0
  | mark :: rest =>
    let (negative, digits) := splitSign rest
    if mark.toLower = 'e' ∧ digits ≠ [] ∧ digits.all Char.isDigit then
      some (if negative then -(valueOf digits : Int) else valueOf digits)
    else none

/-- A numeral without a sign: digits with at most one point, then perhaps an exponent. -/
def ofChars? (text : List Char) : Option Decimal :=
  let whole := text.takeWhile Char.isDigit
  let rest := text.dropWhile Char.isDigit
  let (places, rest) :=
    match rest with
    | '.' :: rest => (rest.takeWhile Char.isDigit, rest.dropWhile Char.isDigit)
    | rest => ([], rest)
  if whole = [] ∧ places = [] then none
  else (exponentOf? rest).map fun exponent =>
    ⟨valueOf (whole ++ places), exponent - places.length⟩

end Decimal

/-- The binary64 number nearest to a written numeral, or the infinity or NaN that is named. -/
def Binary64.ofText? (text : String) : Option Binary64 :=
  let (negative, rest) := Decimal.splitSign text.toList
  match String.ofList (rest.map Char.toLower) with
  | "nan" => some (if negative then Binary64.nan.neg else .nan)
  | "inf" | "infinity" => some (.infinity negative)
  | _ => (Decimal.ofChars? rest).map (Decimal.toBinary64 negative)

end Rejoin
