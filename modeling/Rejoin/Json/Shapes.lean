import Rejoin.Json

/-! Decoders for the shapes that values take in JSON: bounded numbers, lists, names out of a fixed
choice, and records of named fields. A record may also be written as the array of its fields in
order. -/

namespace Rejoin.Json

/-- The outcome of decoding. -/
abbrev Decoded (Value : Type) := Except Problem Value

def decodeNatural (bound : Nat) : Json → Decoded Nat
  | .number (.natural value) => if value.toNat ≤ bound then .ok value.toNat else .error .shape
  | found => .error found.mismatch

/-- A binary64 number; whole numbers are rounded to one. -/
def decodeBinary64 : Json → Decoded Binary64
  | .number (.natural value) => .ok (.ofNat value.toNat)
  | .number (.negative magnitude) => .ok (.ofRatio true magnitude.toNat 1)
  | .number (.float value) => .ok value
  | found => .error found.mismatch

def decodeOptionalText : Json → Decoded (Option String)
  | .null => .ok none
  | .text (some content) => .ok (some content)
  | found => .error found.mismatch

def decodeItems {Value : Type} (decode : Json → Decoded Value) :
    List Json → Ending → Decoded (List Value)
  | [], .closed => .ok []
  | [], .cut _ strict _ => .error strict
  | item :: items, ending => do
    let value ← decode item
    let values ← decodeItems decode items ending
    return value :: values

def decodeList {Value : Type} (decode : Json → Decoded Value) : Json → Decoded (List Value)
  | .array items ending => decodeItems decode items ending
  | found => .error found.mismatch

/-! ### Names -/

/-- The value that a name stands for. -/
def named {Value : Type} (text : Value → String) (values : List Value) (name : String) :
    Decoded Value :=
  match values.find? fun value => text value = name with
  | some value => .ok value
  | none => .error .shape

/-- What has to follow the key of a name in the form of an object: a null and the end. -/
def decodeNameEnd (value : Json) (others : List (Option String × Json)) (ending : Ending) :
    Decoded Unit :=
  match value, others, ending with
  | .null, [], .closed => .ok ()
  | .null, [], .cut false strict _ => .error strict
  | .null, _, _ => .error .malformed
  | found, _, _ => .error found.mismatch

/-- A name as a text, or as the only key of an object with a null behind it. -/
def decodeName {Value : Type} (text : Value → String) (values : List Value) :
    Json → Decoded Value
  | .text (some name) => named text values name
  | .object ((some name, value) :: others) ending => do
    let found ← named text values name
    decodeNameEnd value others ending
    return found
  | .object [] (.cut _ strict _) => .error strict
  | .missing => .error .endOfText
  | .brokenText strict _ => .error strict
  | _ => .error .malformed

/-! ### Records -/

/-- A field of a record that is being filled. -/
structure Slot (Record : Type) where
  name : String
  isFilled : Record → Bool
  fill : Json → Record → Decoded Record

/-- Fills in the members of an object. Unknown keys are passed over and repeated ones refused. -/
def fillMembers {Record : Type} (fields : List (Slot Record)) (record : Record) :
    List (Option String × Json) → Ending → Decoded Record
  | [], .closed => .ok record
  | [], .cut _ strict _ => .error strict
  | (none, _) :: _, _ => .error .malformed
  | (some key, value) :: members, ending =>
    match fields.find? fun field => field.name = key with
    | some field =>
      if field.isFilled record then .error .shape
      else do
        let record ← field.fill value record
        fillMembers fields record members ending
    | none =>
      match value.skip? with
      | some problem => .error problem
      | none => fillMembers fields record members ending

/-- Fills in the items of an array, one for each field in order. `short` is what becomes of a record
that ends early. -/
def fillItems {Record : Type} (short : Record → Decoded Record) (record : Record) :
    List (Slot Record) → List Json → Ending → Decoded Record
  | [], [], .closed => .ok record
  | [], [], .cut false strict _ => .error strict
  | [], [], .cut true _ _ | [], _ :: _, _ => .error .malformed
  | _ :: _, [], .closed => short record
  | _ :: _, [], .cut _ strict _ => .error strict
  | field :: fields, item :: items, ending => do
    let record ← field.fill item record
    fillItems short record fields items ending

/-- Fills a record from an object, or from an array. -/
def fillRecord {Record : Type} (fields : List (Slot Record)) (short : Record → Decoded Record)
    (record : Record) : Json → Decoded Record
  | .object members ending => fillMembers fields record members ending
  | .array items ending => fillItems short record fields items ending
  | found => .error found.mismatch

end Rejoin.Json
