import Rejoin.Delay.Doubling
import Rejoin.Delay.Jitter
import Rejoin.Decision.Policy

/-! The decision on one failure: whether to try again, whether the next connection resumes the
session, and how long to wait first. -/

namespace Rejoin

structure Decision where
  counter : Counter
  outcome : Except RetryError Signal
  log : List LogEntry

namespace Policy

/-- The delay before jitter, at a given attempt. A failure that can be resumed waits nothing the
first time and is one doubling behind from then on. -/
def plainBackoff (policy : Policy) (failure : Failure) (attempt : UInt64) : Duration :=
  if failure.canResume then
    if attempt = Counter.initial.attempts then .zero
    else backoff (UInt64.ofNat (attempt.toNat - 2)) policy.firstBackoff policy.maxBackoff
  else backoff (UInt64.ofNat (attempt.toNat - 1)) policy.firstBackoff policy.maxBackoff

/-- A delay with the offset that a drawn number stands for. No wait at all stays as it is. -/
def jittered (policy : Policy) (delay : Duration) (drawn : Nat) : Duration :=
  if delay.isZero then delay
  else
    delay.shift (Jitter.draw delay policy.firstBackoff policy.maxBackoff policy.jitterFactor drawn)

/-- The stage of the next connection. -/
def nextStage (failure : Failure) : Stage := if failure.canResume then .resuming else .reconnecting

/-- The decision on a retryable failure, the counter being refilled already where the session is
lost. -/
def schedule (policy : Policy) (counter : Counter) (drawn : Nat) (failure : Failure) : Decision :=
  let attempt := counter.attempts
  if policy.maxRetries ≤ attempt then
    { counter
      outcome := .error (.exhausted attempt policy.maxRetries failure)
      log := [⟨.debug, "gateway retries exhausted", [("attempt", toString attempt.toNat),
        ("max_retries", toString policy.maxRetries.toNat), ("cause", failure.text)]⟩] }
  else
    let delay := policy.jittered (policy.plainBackoff failure attempt) drawn
    let stage := nextStage failure
    { counter := counter.advance
      outcome := .ok ⟨failure, attempt, delay, stage⟩
      log := [⟨.debug, "scheduling gateway retry", [("attempt", toString attempt.toNat),
        ("state", stage.text), ("backoff", delay.text), ("cause", failure.text)]⟩] }

/-- The decision on a failure. One that is final costs no attempt; one that loses the session
refills the budget before it takes the first attempt out of it. -/
def decide (policy : Policy) (counter : Counter) (drawn : Nat) : Option Failure → Decision
  | none => ⟨counter, .error .missingCause, []⟩
  | some failure =>
    if ¬ failure.isRetryable policy.nonRetryableCodes then
      ⟨counter, .error (.terminal failure),
        [⟨.debug, "gateway failure is not retryable", [("cause", failure.text)]⟩]⟩
    else if failure.invalidatesSession then
      let decision := policy.schedule counter.reset drawn failure
      { decision with
        log := ⟨.debug, "session invalidated, resetting retry budget", []⟩ :: decision.log }
    else policy.schedule counter drawn failure

end Policy

end Rejoin
