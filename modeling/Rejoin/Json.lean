import Rejoin.Number.Binary64

/-! JSON values as far as a text could be read. A text that goes wrong leaves a value that ends
where it went wrong, so that whoever decodes it meets what comes first: a value of the wrong shape,
or the fault in the text. Where a reader may pass over a value without understanding it, fewer texts
are faulty; `lenient` is the fault that is left then. -/

namespace Rejoin

namespace Json

inductive Problem where
  /-- The text is not JSON. -/
  | malformed
  /-- The text ends too early. -/
  | endOfText
  /-- The value is not of the shape asked for. -/
  | shape
  deriving DecidableEq

/-- A number as far as it can be kept: a word, a negated word, or a binary64 number. -/
inductive Number where
  | natural (value : UInt64)
  | negative (magnitude : UInt64)
  | float (value : Binary64)
  | tooLarge
  deriving DecidableEq

/-- How a list of items or members ends. -/
inductive Ending where
  | closed
  /-- Broken off, perhaps behind a comma. -/
  | cut (afterComma : Bool) (strict lenient : Problem)
  deriving DecidableEq

end Json

inductive Json where
  | null
  | boolean (value : Bool)
  | number (value : Json.Number)
  /-- A text, or `none` for one in which half of a surrogate pair stands alone. -/
  | text (content : Option String)
  | array (items : List Json) (ending : Json.Ending)
  | object (members : List (Option String × Json)) (ending : Json.Ending)
  /-- Nothing is left where a value should be. -/
  | missing
  | brokenText (strict lenient : Json.Problem)
  | broken (strict lenient : Json.Problem)

namespace Json

/-- The fault that a reader who wants some other shape reports. -/
def mismatch : Json → Problem
  | .number .tooLarge | .text none => .malformed
  | .null | .boolean _ | .number _ | .text (some _) | .array _ _ | .object _ _ => .shape
  | .missing => .endOfText
  | .brokenText strict _ | .broken strict _ => strict

def Ending.lenient? : Ending → Option Problem
  | .closed => none
  | .cut _ _ lenient => some lenient

mutual

/-- The fault that stops a reader who passes over a value. -/
def skip? : Json → Option Problem
  | .array items ending => (skipItems? items).or ending.lenient?
  | .object members ending => (skipMembers? members).or ending.lenient?
  | .missing => some .endOfText
  | .brokenText _ lenient | .broken _ lenient => some lenient
  | .null | .boolean _ | .number _ | .text _ => none

def skipItems? : List Json → Option Problem
  | [] => none
  | item :: items => item.skip?.or (skipItems? items)

def skipMembers? : List (Option String × Json) → Option Problem
  | [] => none
  | (_, value) :: members => value.skip?.or (skipMembers? members)

end

def ofBinary64 (value : Binary64) : Json :=
  if value.isFinite then .number (.float value) else .null

def ofText (content : String) : Json := .text (some content)

end Json

end Rejoin
