import Rejoin.Decision.Codes
import Rejoin.Number.Shortest
import Rejoin.Task.Scheduler

/-! Retry policies. A draft is any choice of values; a policy is a draft that was accepted, with its
list of codes in ascending order and free of repetitions. -/

namespace Rejoin

structure Draft where
  firstBackoff : Duration
  maxBackoff : Duration
  maxRetries : UInt64
  jitterFactor : Binary64
  nonRetryableCodes : List UInt16
  scheduler : Scheduler

namespace Draft

def default : Draft where
  firstBackoff := .ofSeconds 2
  maxBackoff := .ofSeconds 120
  maxRetries := Counter.largest
  jitterFactor := .half
  nonRetryableCodes := CloseStatus.nonRetryableCodes
  scheduler := .timer

/-- One value chosen anew. -/
inductive Choice where
  | firstBackoff (span : Duration)
  | maxBackoff (span : Duration)
  | maxRetries (count : UInt64)
  | jitterFactor (factor : Binary64)
  | nonRetryableCodes (codes : List UInt16)
  | scheduler (scheduler : Scheduler)

def choose (draft : Draft) : Choice → Draft
  | .firstBackoff span => { draft with firstBackoff := span }
  | .maxBackoff span => { draft with maxBackoff := span }
  | .maxRetries count => { draft with maxRetries := count }
  | .jitterFactor factor => { draft with jitterFactor := factor }
  | .nonRetryableCodes codes => { draft with nonRetryableCodes := codes }
  | .scheduler scheduler => { draft with scheduler := scheduler }

def chooseAll (draft : Draft) (choices : List Choice) : Draft := choices.foldl choose draft

end Draft

structure Policy where
  firstBackoff : Duration
  maxBackoff : Duration
  maxRetries : UInt64
  jitterFactor : Binary64
  nonRetryableCodes : List UInt16
  scheduler : Scheduler
  first_le_max : firstBackoff ≤ maxBackoff
  factor_inUnitInterval : jitterFactor.inUnitInterval
  codes_ascending : nonRetryableCodes.Pairwise (· < ·)

namespace Draft

/-- The policy of a draft. A factor out of range is reported before a first backoff that is too
long. -/
def build (draft : Draft) : Except PolicyError Policy :=
  if hfactor : draft.jitterFactor.inUnitInterval then
    if hrange : draft.firstBackoff ≤ draft.maxBackoff then
      .ok {
        firstBackoff := draft.firstBackoff
        maxBackoff := draft.maxBackoff
        maxRetries := draft.maxRetries
        jitterFactor := draft.jitterFactor
        nonRetryableCodes := Codes.ofList draft.nonRetryableCodes
        scheduler := draft.scheduler
        first_le_max := hrange
        factor_inUnitInterval := hfactor
        codes_ascending := Codes.ofList_ascending _ }
    else .error (.backoffRange draft.firstBackoff draft.maxBackoff)
  else .error (.jitterFactor draft.jitterFactor)

end Draft

namespace Policy

/-- A policy as a draft for further changes. -/
def draft (policy : Policy) : Draft where
  firstBackoff := policy.firstBackoff
  maxBackoff := policy.maxBackoff
  maxRetries := policy.maxRetries
  jitterFactor := policy.jitterFactor
  nonRetryableCodes := policy.nonRetryableCodes
  scheduler := policy.scheduler

/-- The policy of the default draft. -/
def default : Policy where
  firstBackoff := .ofSeconds 2
  maxBackoff := .ofSeconds 120
  maxRetries := Counter.largest
  jitterFactor := .half
  nonRetryableCodes := CloseStatus.nonRetryableCodes
  scheduler := .timer
  first_le_max := by decide
  factor_inUnitInterval := by decide +kernel
  codes_ascending := by decide

/-- Choices made on the policy before, or on the default draft. -/
structure Revision where
  fresh : Bool
  choices : List Draft.Choice

/-- The draft that a revision starts from. -/
def Revision.base (revision : Revision) : Option Policy → Draft
  | some policy => if revision.fresh then Draft.default else policy.draft
  | none => Draft.default

def Revision.build (revision : Revision) (last : Option Policy) : Except PolicyError Policy :=
  ((revision.base last).chooseAll revision.choices).build

/-- Revisions one after the other. One that is refused leaves the last accepted policy in its
place. -/
def reviseAll (last : Option Policy) : List Revision → List (Except PolicyError Policy)
  | [] => []
  | revision :: revisions =>
    match revision.build last with
    | .ok policy => .ok policy :: reviseAll (some policy) revisions
    | .error error => .error error :: reviseAll last revisions

def isNonRetryable (policy : Policy) (code : UInt16) : Bool :=
  Codes.bisect policy.nonRetryableCodes.toArray code 0 policy.nonRetryableCodes.length

def description (policy : Policy) : String :=
  "RetryPolicy \x7b first_backoff: " ++ policy.firstBackoff.text
    ++ ", max_backoff_interval: " ++ policy.maxBackoff.text
    ++ ", max_retries: " ++ toString policy.maxRetries.toNat
    ++ ", jitter_factor: " ++ Layout.description.write policy.jitterFactor
    ++ ", non_retryable_codes: ["
    ++ ", ".intercalate (policy.nonRetryableCodes.map fun code => toString code.toNat)
    ++ "], scheduler: \"" ++ policy.scheduler.name ++ "\" \x7d"

end Policy

end Rejoin
