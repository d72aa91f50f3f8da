import Rejoin.Decision.Verdict

/-! What a decision can come to. A failure gets a signal exactly if it may be retried and the budget
it faces is not used up; the signal is then determined by the attempt and the draw. Every other
decision is one of three errors. -/

namespace Rejoin

/-- The counter that a failure is decided with: refilled where the failure loses the session. -/
def Counter.facing (counter : Counter) (failure : Failure) : Counter :=
  if failure.invalidatesSession then counter.reset else counter

theorem Counter.facing_of_ne {failure : Failure} (h : failure ≠ .invalidSession)
    (counter : Counter) : counter.facing failure = counter := by
  cases failure with
  | invalidSession => exact absurd rfl h
  | closed | partialDisconnect | fault => rfl

theorem Counter.attempts_facing (counter : Counter) (failure : Failure) :
    (counter.facing failure).attempts =
      if failure = .invalidSession then 1 else counter.attempts := by
  by_cases h : failure = .invalidSession
  · rw [if_pos h, h]
    rfl
  · rw [if_neg h, facing_of_ne h]

/-- Below the largest word the counter is advanced by one. -/
theorem Counter.toNat_attempts_advance {counter : Counter} {limit : UInt64}
    (h : counter.attempts < limit) :
    counter.advance.attempts.toNat = counter.attempts.toNat + 1 := by
  have hlimit := limit.toNat_lt
  rw [UInt64.lt_iff_toNat_lt] at h
  have hbelow : counter.attempts ≠ largest := by
    intro heq
    have hlargest : largest.toNat = 18446744073709551615 := rfl
    rw [heq] at h
    omega
  rw [advance, if_neg hbelow, UInt64.toNat_add]
  exact Nat.mod_eq_of_lt (Nat.lt_of_le_of_lt h hlimit)

namespace Policy

variable (policy : Policy) (counter : Counter) (drawn : Nat)

/-- The signal for a failure at an attempt. -/
def signalAt (attempt : UInt64) (failure : Failure) : Signal :=
  ⟨failure, attempt, policy.jittered (policy.plainBackoff failure attempt) drawn,
    nextStage failure⟩

theorem schedule_outcome (failure : Failure) :
    (policy.schedule counter drawn failure).outcome =
      if policy.maxRetries ≤ counter.attempts then
        .error (.exhausted counter.attempts policy.maxRetries failure)
      else .ok (policy.signalAt drawn counter.attempts failure) := by
  rw [schedule]
  split <;> rfl

theorem decide_outcome_of_retryable {failure : Failure}
    (hretry : failure.isRetryable policy.nonRetryableCodes) :
    (policy.decide counter drawn (some failure)).outcome =
      (policy.schedule (counter.facing failure) drawn failure).outcome := by
  rw [decide, if_neg (not_not_intro hretry), Counter.facing]
  split <;> rfl

/-- Only a failure within the budget costs an attempt. -/
theorem schedule_counter (failure : Failure) :
    (policy.schedule counter drawn failure).counter =
      if policy.maxRetries ≤ counter.attempts then counter else counter.advance := by
  rw [schedule]
  split <;> rfl

theorem decide_counter_of_retryable {failure : Failure}
    (hretry : failure.isRetryable policy.nonRetryableCodes) :
    (policy.decide counter drawn (some failure)).counter =
      (policy.schedule (counter.facing failure) drawn failure).counter := by
  rw [decide, if_neg (not_not_intro hretry), Counter.facing]
  split <;> rfl

theorem decide_counter_of_final {failure : Failure}
    (hretry : ¬ failure.isRetryable policy.nonRetryableCodes) :
    (policy.decide counter drawn (some failure)).counter = counter := by
  rw [decide, if_pos hretry]

/-- A failure that is final is handed back in the error. -/
theorem decide_outcome_of_final {failure : Failure}
    (hretry : ¬ failure.isRetryable policy.nonRetryableCodes) :
    (policy.decide counter drawn (some failure)).outcome = .error (.terminal failure) := by
  rw [decide, if_pos hretry]

theorem decide_outcome_eq_ok_iff {failure : Failure} {signal : Signal} :
    (policy.decide counter drawn (some failure)).outcome = .ok signal ↔
      failure.isRetryable policy.nonRetryableCodes ∧
        (counter.facing failure).attempts < policy.maxRetries ∧
        policy.signalAt drawn (counter.facing failure).attempts failure = signal := by
  by_cases hretry : failure.isRetryable policy.nonRetryableCodes
  · rw [decide_outcome_of_retryable policy counter drawn hretry, schedule_outcome]
    by_cases hmax : policy.maxRetries ≤ (counter.facing failure).attempts
    · rw [if_pos hmax]
      exact ⟨nofun, fun h => absurd h.2.1 (UInt64.not_lt.2 hmax)⟩
    · rw [if_neg hmax, Except.ok.injEq]
      exact ⟨fun h => ⟨hretry, UInt64.not_le.1 hmax, h⟩, fun h => h.2.2⟩
  · rw [decide_outcome_of_final policy counter drawn hretry]
    exact ⟨nofun, fun h => absurd h.1 hretry⟩

theorem decide_outcome_eq_terminal_iff {failure : Failure} :
    (policy.decide counter drawn (some failure)).outcome = .error (.terminal failure) ↔
      failure.isRetryable policy.nonRetryableCodes = false := by
  by_cases hretry : failure.isRetryable policy.nonRetryableCodes
  · rw [decide_outcome_of_retryable policy counter drawn hretry, schedule_outcome, hretry]
    split <;> exact ⟨nofun, nofun⟩
  · exact iff_of_true (decide_outcome_of_final policy counter drawn hretry)
      (Bool.eq_false_iff.2 hretry)

/-- A decision in favour of another attempt keeps the failure that it is about. -/
theorem failure_of_decide_ok {cause : Option Failure} {signal : Signal}
    (h : (policy.decide counter drawn cause).outcome = .ok signal) :
    cause = some signal.failure ∧ signal.stage = nextStage signal.failure := by
  cases cause with
  | none => cases h
  | some failure =>
      obtain ⟨_, _, rfl⟩ := (decide_outcome_eq_ok_iff policy counter drawn).1 h
      exact ⟨rfl, rfl⟩

/-- The error of a decision names the failure, unless there was none. -/
theorem decide_outcome_error {cause : Option Failure} {error : RetryError}
    (h : (policy.decide counter drawn cause).outcome = .error error) :
    (cause = none ∧ error = .missingCause) ∨
      ∃ failure, cause = some failure ∧
        (error = .terminal failure ∨
          ∃ attempts, error = .exhausted attempts policy.maxRetries failure) := by
  cases cause with
  | none =>
      cases h
      exact .inl ⟨rfl, rfl⟩
  | some failure =>
      refine .inr ⟨failure, rfl, ?_⟩
      by_cases hretry : failure.isRetryable policy.nonRetryableCodes
      · rw [decide_outcome_of_retryable policy counter drawn hretry, schedule_outcome] at h
        split at h <;> cases h
        exact .inr ⟨_, rfl⟩
      · rw [decide_outcome_of_final policy counter drawn hretry] at h
        cases h
        exact .inl rfl

/-- A policy without delays. -/
def prompt : Policy where
  firstBackoff := .zero
  maxBackoff := .zero
  maxRetries := 10
  jitterFactor := .ofNat 0
  nonRetryableCodes := []
  scheduler := .recording
  first_le_max := by decide
  factor_inUnitInterval := by decide +kernel
  codes_ascending := .nil

end Policy

end Rejoin
