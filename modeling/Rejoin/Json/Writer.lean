import Rejoin.Json
import Rejoin.Number.Shortest

/-! Writing JSON without blanks. -/

namespace Rejoin.Json

namespace Writer

/-- A letter inside a text. Quotes, backslashes and control characters are escaped and nothing else
is. -/
def letterText (letter : Char) : List Char :=
  match letter with
  | '"' => ['\\', '"']
  | '\\' => ['\\', '\\']
  | '\x08' => ['\\', 'b']
  | '\x0c' => ['\\', 'f']
  | '\n' => ['\\', 'n']
  | '\r' => ['\\', 'r']
  | '\t' => ['\\', 't']
  | letter =>
    if letter.toNat < 0x20 then
      ['\\', 'u', '0', '0', Nat.digitChar (letter.toNat / 16), Nat.digitChar (letter.toNat % 16)]
    else [letter]

def quote (text : String) : String := String.ofList ('"' :: text.toList.flatMap letterText ++ ['"'])

def numberText : Number → String
  | .natural value => toString value.toNat
  | .negative magnitude => "-" ++ toString magnitude.toNat
  | .float value => Layout.document.write value
  | .tooLarge => ""

end Writer

mutual

/-- The written form of a value; what could not be read has none. -/
def write : Json → String
  | .null => "null"
  | .boolean value => if value then "true" else "false"
  | .number value => Writer.numberText value
  | .text content => (content.map Writer.quote).getD ""
  | .array items _ => "[" ++ ",".intercalate (writeItems items) ++ "]"
  | .object members _ => "\x7b" ++ ",".intercalate (writeMembers members) ++ "\x7d"
  | .missing | .brokenText _ _ | .broken _ _ => ""

def writeItems : List Json → List String
  | [] => []
  | item :: items => item.write :: writeItems items

def writeMembers : List (Option String × Json) → List String
  | [] => []
  | (key, value) :: members =>
    ((key.map Writer.quote).getD "" ++ ":" ++ value.write) :: writeMembers members

end

end Rejoin.Json
