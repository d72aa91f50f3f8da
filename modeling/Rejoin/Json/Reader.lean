import Rejoin.Json.Numeral

/-! Reading JSON texts. Each reader gives what it read and the text behind it, or no text where
reading stopped. -/

namespace Rejoin.Json

/-- What was read, and the rest of the text unless reading stopped. -/
abbrev Step := Json × Option (List Char)

namespace Reader

def isBlank (letter : Char) : Bool :=
  letter = ' ' || letter = '\n' || letter = '\t' || letter = '\r'

def skipBlanks (text : List Char) : List Char := text.dropWhile isBlank

/-! ### Words -/

/-- The letters of a word, each of which has to be there. -/
def readWord (word : List Char) (value : Json) (text : List Char) : Step :=
  match word, text with
  | [], rest => (value, some rest)
  | _ :: _, [] => (.broken .endOfText .endOfText, none)
  | expected :: word, letter :: rest =>
    if letter = expected then readWord word value rest else (.broken .malformed .malformed, none)

/-! ### Numbers -/

/-- A number that stops where a digit has to follow. -/
def digitMissing (text : List Char) : Step :=
  (.broken (if text = [] then .endOfText else .malformed) .malformed, none)

/-- The sign and digits of an exponent, behind its mark. -/
def readExponent (text : List Char) : Option (Bool × List Char) × List Char :=
  let (negative, rest) := Decimal.splitSign text
  match rest.takeWhile Char.isDigit with
  | [] => (none, rest)
  | digits => (some (negative, digits), rest.dropWhile Char.isDigit)

/-- What may follow the digits of a number before its exponent. -/
def readScaled (negative : Bool) (whole : List Char) (places : Option (List Char))
    (text : List Char) : Step :=
  match text with
  | 'e' :: rest | 'E' :: rest =>
    match readExponent rest with
    | (none, rest) => digitMissing rest
    | (exponent, rest) =>
      (.number (Numeral.value ⟨negative, whole, places, exponent⟩), some rest)
  | rest => (.number (Numeral.value ⟨negative, whole, places, none⟩), some rest)

/-- What may follow the whole part of a number. -/
def readPlaces (negative : Bool) (whole text : List Char) : Step :=
  match text with
  | '.' :: rest =>
    match rest.takeWhile Char.isDigit with
    | [] => digitMissing rest
    | places => readScaled negative whole (some places) (rest.dropWhile Char.isDigit)
  | rest => readScaled negative whole none rest

/-- A number without its sign. A zero in front stands alone. -/
def readNumber (negative : Bool) (text : List Char) : Step :=
  match text.takeWhile Char.isDigit with
  | [] => digitMissing text
  | '0' :: _ :: _ => (.broken .malformed .malformed, none)
  | whole => readPlaces negative whole (text.dropWhile Char.isDigit)

/-! ### Texts -/

def hexValue? (letter : Char) : Option Nat :=
  if letter.isDigit then some (letter.toNat - '0'.toNat)
  else if 'a' ≤ letter ∧ letter ≤ 'f' then some (letter.toNat - 'a'.toNat + 10)
  else if 'A' ≤ letter ∧ letter ≤ 'F' then some (letter.toNat - 'A'.toNat + 10)
  else none

/-- Four hexadecimal digits. With fewer than four bytes left the text ends too early. -/
def readHex (text : List Char) : Except Problem (Nat × List Char) :=
  if (text.take 4).foldl (fun size letter => size + letter.utf8Size) 0 < 4 then .error .endOfText
  else
    match (text.take 4).mapM hexValue? with
    | some digits => .ok (digits.foldl (fun value digit => 16 * value + digit) 0, text.drop 4)
    | none => .error .malformed

def isLeading (unit : Nat) : Bool := 0xd800 ≤ unit && unit ≤ 0xdbff

def isTrailing (unit : Nat) : Bool := 0xdc00 ≤ unit && unit ≤ 0xdfff

/-- What an escape stands for: a letter, or half of a surrogate pair that stands alone. -/
inductive Escape where
  | letter (letter : Char) (rest : List Char)
  | lone (rest : List Char)
  | stopped (problem : Problem)

/-- The second half of a surrogate pair, at the text behind the first. -/
def readTrailing (leading : Nat) (text : List Char) : Escape :=
  match text with
  | '\\' :: 'u' :: rest =>
    match readHex rest with
    | .error problem => .stopped problem
    | .ok (unit, rest) =>
      if isTrailing unit then
        .letter (Char.ofNat (0x10000 + (leading - 0xd800) * 0x400 + (unit - 0xdc00))) rest
      else .lone text
  | [] | ['\\'] => .stopped .endOfText
  | _ => .lone text

/-- An escape, behind its backslash. -/
def readEscape (text : List Char) : Escape :=
  match text with
  | [] => .stopped .endOfText
  | '"' :: rest => .letter '"' rest
  | '\\' :: rest => .letter '\\' rest
  | '/' :: rest => .letter '/' rest
  | 'b' :: rest => .letter '\x08' rest
  | 'f' :: rest => .letter '\x0c' rest
  | 'n' :: rest => .letter '\n' rest
  | 'r' :: rest => .letter '\r' rest
  | 't' :: rest => .letter '\t' rest
  | 'u' :: rest =>
    match readHex rest with
    | .error problem => .stopped problem
    | .ok (unit, rest) =>
      if isTrailing unit then .lone rest
      else if isLeading unit then readTrailing unit rest
      else .letter (Char.ofNat unit) rest
  | _ => .stopped .malformed

/-- A text that stops. A reader that has met half of a surrogate pair before has already given
up. -/
def stopText (lone : Bool) (problem : Problem) : Step :=
  (.brokenText (if lone then .malformed else problem) problem, none)

/-- A text behind its opening quote; `read` are the letters so far, last one first. -/
def readText (fuel : Nat) (lone : Bool) (read : List Char) (text : List Char) : Step :=
  match fuel, text with
  | 0, _ | _, [] => stopText lone .endOfText
  | _, '"' :: rest => (.text (if lone then none else some (String.ofList read.reverse)), some rest)
  | fuel + 1, '\\' :: rest =>
    match readEscape rest with
    | .letter letter rest => readText fuel lone (letter :: read) rest
    | .lone rest => readText fuel true read rest
    | .stopped problem => stopText lone problem
  | fuel + 1, letter :: rest =>
    if letter.toNat < 0x20 then stopText lone .malformed
    else readText fuel lone (letter :: read) rest

/-! ### Values -/

/-- An ending where nothing but the end of the text, or else something malformed, is left. -/
def cutAt (afterComma : Bool) (text : List Char) : Ending :=
  let problem := if text = [] then .endOfText else .malformed
  .cut afterComma problem problem

mutual

/-- A value, of which the blanks in front are skipped. -/
def readValue (fuel : Nat) (text : List Char) : Step :=
  match fuel, skipBlanks text with
  | 0, _ | _, [] => (.missing, none)
  | fuel + 1, letter :: rest =>
    match letter with
    | 'n' => readWord ['u', 'l', 'l'] .null rest
    | 't' => readWord ['r', 'u', 'e'] (.boolean true) rest
    | 'f' => readWord ['a', 'l', 's', 'e'] (.boolean false) rest
    | '-' => readNumber true rest
    | '"' => readText rest.length.succ false [] rest
    | '[' =>
      match skipBlanks rest with
      | ']' :: rest => (.array [] .closed, some rest)
      | [] => (.array [] (cutAt false []), none)
      | rest =>
        let (items, ending, rest) := readItems fuel rest
        (.array items ending, rest)
    | '\x7b' =>
      match skipBlanks rest with
      | '\x7d' :: rest => (.object [] .closed, some rest)
      | rest =>
        let (members, ending, rest) := readMembers fuel false rest
        (.object members ending, rest)
    | letter =>
      if letter.isDigit then readNumber false (letter :: rest)
      else (.broken .malformed .malformed, none)

/-- The items of an array, from one that has to be there. -/
def readItems (fuel : Nat) (text : List Char) : List Json × Ending × Option (List Char) :=
  match fuel with
  | 0 => ([], cutAt false text, none)
  | fuel + 1 =>
    match readValue fuel text with
    | (item, none) => ([item], cutAt false text, none)
    | (item, some rest) =>
      match skipBlanks rest with
      | ']' :: rest => ([item], .closed, some rest)
      | ',' :: rest =>
        match skipBlanks rest with
        | [] => ([item], cutAt true [], none)
        | ']' :: rest => ([item], cutAt true (']' :: rest), none)
        | rest =>
          let (items, ending, rest) := readItems fuel rest
          (item :: items, ending, rest)
      | rest => ([item], cutAt false rest, none)

/-- The members of an object, from one that has to be there. -/
def readMembers (fuel : Nat) (afterComma : Bool) (text : List Char) :
    List (Option String × Json) × Ending × Option (List Char) :=
  match fuel, text with
  | 0, _ | _, [] => ([], cutAt afterComma [], none)
  | fuel + 1, '"' :: rest =>
    match readText rest.length.succ false [] rest with
    | (.text key, some rest) =>
      match skipBlanks rest with
      | ':' :: rest =>
        match readValue fuel rest with
        | (value, none) => ([(key, value)], cutAt false [], none)
        | (value, some rest) =>
          match skipBlanks rest with
          | '\x7d' :: rest => ([(key, value)], .closed, some rest)
          | ',' :: rest =>
            let (members, ending, rest) := readMembers fuel true (skipBlanks rest)
            ((key, value) :: members, ending, rest)
          | rest => ([(key, value)], cutAt false rest, none)
      | [] => ([(key, .missing)], cutAt false [], none)
      | _ => ([(key, .broken .malformed .malformed)], cutAt false [], none)
    | (found, _) => ([], .cut afterComma found.mismatch (found.skip?.getD .malformed), none)
  | _ + 1, text => ([], cutAt afterComma text, none)

end

end Reader

/-- The value that a text holds, and whether nothing but blanks stands behind it. -/
def read (text : List Char) : Json × Bool :=
  match Reader.readValue (2 * text.length + 4) text with
  | (value, some rest) => (value, Reader.skipBlanks rest = [])
  | (value, none) => (value, true)

/-- Decodes a whole text. Something behind the value counts only once the value was decoded. -/
def decodeText {Value : Type} (decode : Json → Except Problem Value) (text : String) :
    Except Problem Value :=
  let (found, atEnd) := read text.toList
  match decode found with
  | .ok value => if atEnd then .ok value else .error .malformed
  | .error problem => .error problem

end Rejoin.Json
