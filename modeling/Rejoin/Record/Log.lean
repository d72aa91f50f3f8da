import Rejoin.Decision.Error

/-! Structured log entries, and the entry for the error that ends a session. -/

namespace Rejoin

inductive Severity where
  | debug
  | info
  | warn
  | error
  deriving DecidableEq

structure LogEntry where
  severity : Severity
  message : String
  fields : List (String × String) := []
  deriving DecidableEq

/-- The description of a value that may be missing. -/
def describeOption : Option String → String
  | some text => "Some(" ++ text ++ ")"
  | none => "None"

/-- The entry for an error that ends a session. -/
def LogEntry.ofRetryError : RetryError → LogEntry
  | .exhausted attempts limit failure =>
    ⟨.error, "Gateway retries exhausted",
      [("attempts", toString attempts.toNat), ("max_retries", toString limit.toNat),
        ("cause", failure.text)]⟩
  | .terminal failure =>
    let code := failure.closeStatus?.map fun status => toString status.code.toNat
    ⟨.error, "Gateway failure is not retryable",
      [("cause", failure.text), ("close_code", describeOption code)]⟩
  | .missingCause => ⟨.error, "Gateway retry requested without a failure cause", []⟩
  | .hook error => ⟨.warn, "Pre-retry hook aborted the retry", [("error", error.text)]⟩
  | .cancelled => ⟨.info, "Gateway retry cancelled", []⟩

end Rejoin
