import Rejoin.Connection.Disconnect
import Rejoin.Connection.Stage
import Rejoin.Json.Shapes
import Rejoin.Decision.Settings

/-! The JSON forms of settings, close statuses, stages and disconnect actions. -/

namespace Rejoin

open Json

/-! ### Close statuses -/

/-- A close status that is being read. -/
structure CloseStatus.Partial where
  code : Option UInt16 := none
  reason : Option (Option String) := none

namespace CloseStatus

def fields : List (Slot Partial) :=
  [{ name := "code"
     isFilled := fun record => record.code.isSome
     fill := fun found record => do
      let code ← decodeNatural 0xffff found
      return { record with code := some (UInt16.ofNat code) } },
   { name := "reason"
     isFilled := fun record => record.reason.isSome
     fill := fun found record => do
      let reason ← decodeOptionalText found
      return { record with reason := some reason } }]

/-- A status needs its code; a missing reason is none. -/
def Partial.complete (record : Partial) : Decoded CloseStatus :=
  match record.code with
  | some code => .ok ⟨code, record.reason.join⟩
  | none => .error .shape

def ofJson (found : Json) : Decoded CloseStatus := do
  let record ← fillRecord fields (fun _ => .error .shape) {} found
  record.complete

def toJson (status : CloseStatus) : Json :=
  .object [(some "code", .number (.natural (UInt64.ofNat status.code.toNat))),
    (some "reason", (status.reason.map Json.ofText).getD .null)] .closed

end CloseStatus

/-! ### Settings -/

/-- Settings that are being read. -/
structure Settings.Partial where
  firstBackoffMillis : Option UInt64 := none
  maxBackoffMillis : Option UInt64 := none
  maxRetries : Option UInt64 := none
  jitterFactor : Option Binary64 := none
  nonRetryableCodes : Option (List UInt16) := none

namespace Settings

def decodeWord (found : Json) : Decoded UInt64 := do
  let value ← decodeNatural 0xffffffffffffffff found
  return UInt64.ofNat value

def decodeCode (found : Json) : Decoded UInt16 := do
  let value ← decodeNatural 0xffff found
  return UInt16.ofNat value

def fields : List (Slot Partial) :=
  [{ name := "first_backoff_ms"
     isFilled := fun record => record.firstBackoffMillis.isSome
     fill := fun found record => do
      let value ← decodeWord found
      return { record with firstBackoffMillis := some value } },
   { name := "max_backoff_ms"
     isFilled := fun record => record.maxBackoffMillis.isSome
     fill := fun found record => do
      let value ← decodeWord found
      return { record with maxBackoffMillis := some value } },
   { name := "max_retries"
     isFilled := fun record => record.maxRetries.isSome
     fill := fun found record => do
      let value ← decodeWord found
      return { record with maxRetries := some value } },
   { name := "jitter_factor"
     isFilled := fun record => record.jitterFactor.isSome
     fill := fun found record => do
      let value ← decodeBinary64 found
      return { record with jitterFactor := some value } },
   { name := "non_retryable_codes"
     isFilled := fun record => record.nonRetryableCodes.isSome
     fill := fun found record => do
      let value ← decodeList decodeCode found
      return { record with nonRetryableCodes := some value } }]

/-- Every field that was not given has its default. -/
def Partial.complete (record : Partial) : Settings where
  firstBackoffMillis := record.firstBackoffMillis.getD default.firstBackoffMillis
  maxBackoffMillis := record.maxBackoffMillis.getD default.maxBackoffMillis
  maxRetries := record.maxRetries.getD default.maxRetries
  jitterFactor := record.jitterFactor.getD default.jitterFactor
  nonRetryableCodes := record.nonRetryableCodes.getD default.nonRetryableCodes

def ofJson (found : Json) : Decoded Settings := do
  let record ← fillRecord fields .ok {} found
  return record.complete

def codeJson (code : UInt16) : Json := .number (.natural (UInt64.ofNat code.toNat))

def toJson (settings : Settings) : Json :=
  .object [(some "first_backoff_ms", .number (.natural settings.firstBackoffMillis)),
    (some "max_backoff_ms", .number (.natural settings.maxBackoffMillis)),
    (some "max_retries", .number (.natural settings.maxRetries)),
    (some "jitter_factor", .ofBinary64 settings.jitterFactor),
    (some "non_retryable_codes",
      .array (settings.nonRetryableCodes.map codeJson) .closed)]
    .closed

end Settings

/-! ### Names -/

def Stage.ofJson : Json → Decoded Stage := decodeName Stage.text Stage.all

def Stage.toJson (stage : Stage) : Json := .ofText stage.text

def Disconnect.Action.ofJson : Json → Decoded Disconnect.Action :=
  decodeName Disconnect.Action.text Disconnect.Action.all

def Disconnect.Action.toJson (action : Disconnect.Action) : Json := .ofText action.text

end Rejoin
