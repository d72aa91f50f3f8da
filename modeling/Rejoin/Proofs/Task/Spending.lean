import Rejoin.Proofs.Task.Progress

/-! How a row of failures spends the budget. As long as nobody but the engine touches the counter, each
signal takes the next attempt out of the budget, and once the budget is used up no failure gets a
signal any more, unless it loses the session and so refills the budget. -/

namespace Rejoin

namespace Engine

/-- Decisions in a row, each with its cause and its outcome. Between two of them everything but the
counter may change. -/
inductive Decides (engine : Engine) (before : Commons) :
    List (Option Failure × Except RetryError Signal) → Commons → Prop where
  | nil : Decides engine before [] before
  | idle {decided : List (Option Failure × Except RetryError Signal)} {between after : Commons}
      (h : Decides engine before decided between) (hcounter : after.counter = between.counter) :
      Decides engine before decided after
  | decide {decided : List (Option Failure × Except RetryError Signal)} {between : Commons}
      (h : Decides engine before decided between) (cause : Option Failure) :
      Decides engine before (decided ++ [(cause, (engine.decide cause between).2)])
        (engine.decide cause between).1

/-- Decides on one failure after the other, with nothing in between. -/
def decideAll (engine : Engine) :
    List (Option Failure) → Commons → List (Option Failure × Except RetryError Signal) × Commons
  | [], commons => ([], commons)
  | cause :: causes, commons =>
    let later := engine.decideAll causes (engine.decide cause commons).1
    ((cause, (engine.decide cause commons).2) :: later.1, later.2)

variable {engine : Engine} {before between after commons : Commons} {cause : Option Failure}
  {decided later : List (Option Failure × Except RetryError Signal)}

theorem Decides.trans (h : engine.Decides before decided between)
    (h' : engine.Decides between later after) : engine.Decides before (decided ++ later) after := by
  induction h' with
  | nil =>
      rw [List.append_nil]
      exact h
  | idle _ hcounter ih => exact ih.idle hcounter
  | decide _ cause ih =>
      rw [← List.append_assoc]
      exact ih.decide cause

/-- Any failures can be decided on in a row. -/
theorem decides_decideAll (causes : List (Option Failure)) (commons : Commons) :
    engine.Decides commons (engine.decideAll causes commons).1 (engine.decideAll causes commons).2 := by
  induction causes generalizing commons with
  | nil => exact .nil
  | cons cause causes ih =>
      have hfirst : engine.Decides commons [(cause, (engine.decide cause commons).2)]
          (engine.decide cause commons).1 := Decides.nil.decide cause
      exact hfirst.trans (ih _)

/-- A row of decisions comes apart at each of them. -/
theorem Decides.split {earlier : List (Option Failure × Except RetryError Signal)}
    {outcome : Except RetryError Signal}
    (h : engine.Decides before (earlier ++ (cause, outcome) :: later) after) :
    ∃ point, engine.Decides before earlier point ∧ (engine.decide cause point).2 = outcome ∧
      engine.Decides (engine.decide cause point).1 later after := by
  generalize hdecided : earlier ++ (cause, outcome) :: later = decided at h
  induction h generalizing later with
  | nil => exact absurd hdecided (List.append_ne_nil_of_right_ne_nil _ nofun)
  | idle _ hcounter ih =>
      obtain ⟨point, hearlier, houtcome, hlater⟩ := ih hdecided
      exact ⟨point, hearlier, houtcome, hlater.idle hcounter⟩
  | @decide decided between hbetween last ih =>
      rcases List.eq_nil_or_concat later with rfl | ⟨later, final, rfl⟩
      · obtain ⟨rfl, hlast⟩ := List.append_inj' hdecided rfl
        cases hlast
        exact ⟨between, hbetween, rfl, .nil⟩
      · rw [List.concat_eq_append, ← List.cons_append, ← List.append_assoc] at hdecided
        obtain ⟨hbefore, hlast⟩ := List.append_inj' hdecided rfl
        obtain ⟨point, hearlier, houtcome, hlater⟩ := ih hbefore
        cases hlast
        rw [List.concat_eq_append]
        exact ⟨point, hearlier, houtcome, hlater.decide last⟩

/-! ### One decision -/

theorem counter_decide (engine : Engine) (cause : Option Failure) (commons : Commons) :
    (engine.decide cause commons).1.counter =
      (engine.policy.decide commons.counter (commons.draws commons.drawn) cause).counter := by
  rw [decide_fst_eq, Commons.logAll_eq]
  rfl

/-- A signal takes the attempt that the counter is at, or the first one where the session is lost, and
leaves the counter at the next. -/
theorem counter_of_decide_ok {signal : Signal} (h : (engine.decide cause commons).2 = .ok signal) :
    ∃ failure, cause = some failure ∧
      signal.attempt = (commons.counter.facing failure).attempts ∧
      signal.attempt < engine.policy.maxRetries ∧
      (engine.decide cause commons).1.counter.attempts.toNat = signal.attempt.toNat + 1 := by
  obtain ⟨rfl, -⟩ := failure_of_decide_ok h
  obtain ⟨hretry, hbudget, hsignal⟩ := (Policy.decide_outcome_eq_ok_iff _ _ _).1 h
  have hattempt : signal.attempt = (commons.counter.facing signal.failure).attempts :=
    (congrArg Signal.attempt hsignal).symm
  refine ⟨signal.failure, rfl, hattempt, hattempt ▸ hbudget, ?_⟩
  rw [counter_decide, Policy.decide_counter_of_retryable _ _ _ hretry, Policy.schedule_counter,
    if_neg (UInt64.not_le.2 hbudget), Counter.toNat_attempts_advance hbudget, hattempt]

/-- A decision comes to an error where there is nothing to decide on, where the failure is final, and
where the budget that the failure faces is used up. -/
theorem counter_of_refused {error : RetryError} (h : (engine.decide cause commons).2 = .error error) :
    ((error = .missingCause ∨ ∃ failure, error = .terminal failure) ∧
      (engine.decide cause commons).1.counter = commons.counter) ∨
    ∃ failure, cause = some failure ∧
      error = .exhausted (commons.counter.facing failure).attempts engine.policy.maxRetries failure ∧
      engine.policy.maxRetries ≤ (commons.counter.facing failure).attempts ∧
      (engine.decide cause commons).1.counter = commons.counter.facing failure := by
  rw [counter_decide]
  change (engine.policy.decide _ _ _).outcome = _ at h
  cases cause with
  | none =>
      cases h
      exact .inl ⟨.inl rfl, rfl⟩
  | some failure =>
      by_cases hretry : failure.isRetryable engine.policy.nonRetryableCodes
      · rw [Policy.decide_outcome_of_retryable _ _ _ hretry, Policy.schedule_outcome] at h
        rw [Policy.decide_counter_of_retryable _ _ _ hretry, Policy.schedule_counter]
        split at h
        case isTrue hspent =>
            cases h
            exact .inr ⟨failure, rfl, rfl, hspent, if_pos hspent⟩
        case isFalse => cases h
      · rw [Policy.decide_outcome_of_final _ _ _ hretry] at h
        cases h
        exact .inl ⟨.inr ⟨failure, rfl⟩, Policy.decide_counter_of_final _ _ _ hretry⟩

/-- An error costs no attempt. -/
theorem counter_of_decide_error {error : RetryError}
    (h : (engine.decide cause commons).2 = .error error) (hkept : cause ≠ some .invalidSession) :
    (engine.decide cause commons).1.counter = commons.counter := by
  obtain ⟨-, hsame⟩ | ⟨failure, rfl, -, -, hfacing⟩ := counter_of_refused h
  · exact hsame
  · exact hfacing.trans (Counter.facing_of_ne (fun hlost => hkept (congrArg some hlost)) _)

/-- With the budget used up no failure that keeps the session gets a signal. -/
theorem decide_of_spent {failure : Failure} (hkept : failure ≠ .invalidSession)
    (hretry : failure.isRetryable engine.policy.nonRetryableCodes)
    (hspent : engine.policy.maxRetries ≤ commons.counter.attempts) :
    (engine.decide (some failure) commons).2 =
      .error (.exhausted commons.counter.attempts engine.policy.maxRetries failure) := by
  change (engine.policy.decide _ _ _).outcome = _
  rw [Policy.decide_outcome_of_retryable _ _ _ hretry, Policy.schedule_outcome,
    Counter.facing_of_ne hkept]
  exact if_pos hspent

/-- An error that says that the budget is exhausted tells where the counter is, and was. -/
theorem counter_of_decide_exhausted {attempts limit : UInt64} {failure : Failure}
    (h : (engine.decide cause commons).2 = .error (.exhausted attempts limit failure)) :
    (engine.decide cause commons).1.counter.attempts = attempts ∧
      engine.policy.maxRetries ≤ attempts := by
  obtain ⟨heq | ⟨_, heq⟩, -⟩ | ⟨_, -, heq, hspent, hfacing⟩ := counter_of_refused h
  · cases heq
  · cases heq
  · cases heq
    exact ⟨congrArg Counter.attempts hfacing, hspent⟩

/-- Within the budget every failure that may be retried gets a signal. -/
theorem exists_decide_ok_iff {failure : Failure}
    (hretry : failure.isRetryable engine.policy.nonRetryableCodes) :
    (∃ signal, (engine.decide (some failure) commons).2 = .ok signal) ↔
      (commons.counter.facing failure).attempts < engine.policy.maxRetries := by
  constructor
  · rintro ⟨signal, hdecide⟩
    exact ((Policy.decide_outcome_eq_ok_iff _ _ _).1 hdecide).2.1
  · intro hbudget
    exact ⟨_, (Policy.decide_outcome_eq_ok_iff _ _ _).2 ⟨hretry, hbudget, rfl⟩⟩

/-! ### Decisions in a row -/

namespace Decides

/-- While the session is kept, the counter has moved by the number of signals. -/
theorem toNat_counter (h : engine.Decides before decided after)
    (hkept : ∀ decision ∈ decided, decision.1 ≠ some .invalidSession) :
    after.counter.attempts.toNat =
      before.counter.attempts.toNat + decided.countP fun decision => decision.2.toBool := by
  induction h with
  | nil => rfl
  | idle _ hcounter ih =>
      rw [hcounter]
      exact ih hkept
  | @decide decided between _ cause ih =>
      obtain ⟨hearlier, hlast⟩ := List.forall_mem_append.1 hkept
      have hcause : cause ≠ some .invalidSession := hlast _ List.mem_cons_self
      rw [List.countP_append, ← Nat.add_assoc, ← ih hearlier]
      cases houtcome : (engine.decide cause between).2 with
      | error error =>
          rw [counter_of_decide_error houtcome hcause]
          rfl
      | ok signal =>
          obtain ⟨failure, rfl, hattempt, -, hcounter⟩ := counter_of_decide_ok houtcome
          have hkeeps : failure ≠ .invalidSession := fun heq => hcause (congrArg some heq)
          rw [hcounter, hattempt, Counter.facing_of_ne hkeeps]
          rfl

/-- A budget that is used up stays so while the session is kept. -/
theorem of_spent (h : engine.Decides before decided after)
    (hkept : ∀ decision ∈ decided, decision.1 ≠ some .invalidSession)
    (hspent : engine.policy.maxRetries ≤ before.counter.attempts) :
    after.counter = before.counter ∧ ∀ decision ∈ decided,
      (∀ signal, decision.2 ≠ .ok signal) ∧
      ∀ failure, decision.1 = some failure →
        failure.isRetryable engine.policy.nonRetryableCodes →
          decision.2 =
            .error (.exhausted before.counter.attempts engine.policy.maxRetries failure) := by
  induction h with
  | nil => exact ⟨rfl, List.forall_mem_nil _⟩
  | idle _ hcounter ih =>
      obtain ⟨hsame, hdecided⟩ := ih hkept
      exact ⟨hcounter.trans hsame, hdecided⟩
  | @decide decided between _ cause ih =>
      obtain ⟨hearlier, hlast⟩ := List.forall_mem_append.1 hkept
      obtain ⟨hsame, hdecided⟩ := ih hearlier
      have hcause : cause ≠ some .invalidSession := hlast _ List.mem_cons_self
      have hnone : ∀ signal, (engine.decide cause between).2 ≠ .ok signal := by
        intro signal houtcome
        obtain ⟨failure, rfl, hattempt, hbudget, -⟩ := counter_of_decide_ok houtcome
        have hkeeps : failure ≠ .invalidSession := fun heq => hcause (congrArg some heq)
        rw [hattempt, Counter.facing_of_ne hkeeps, hsame] at hbudget
        exact absurd hspent (UInt64.not_le.2 hbudget)
      refine ⟨?_, List.forall_mem_append.2 ⟨hdecided, fun decision hmem => ?_⟩⟩
      · cases houtcome : (engine.decide cause between).2 with
        | error error => exact (counter_of_decide_error houtcome hcause).trans hsame
        | ok signal => exact absurd houtcome (hnone signal)
      · cases List.mem_singleton.1 hmem
        refine ⟨hnone, ?_⟩
        rintro failure rfl hretry
        have hkeeps : failure ≠ .invalidSession := fun heq => hcause (congrArg some heq)
        rw [← hsame] at hspent ⊢
        exact decide_of_spent hkeeps hretry hspent

/-- Failures that are retried and keep the session take the attempts from the first one up to the
bound, and no further. -/
theorem toNat_counter_of_retryable (h : engine.Decides before decided after)
    (hcounter : before.counter = .initial)
    (hretry : ∀ decision ∈ decided, ∃ failure, decision.1 = some failure ∧
      failure.isRetryable engine.policy.nonRetryableCodes ∧ failure ≠ .invalidSession) :
    after.counter.attempts.toNat =
      min (decided.length + 1) (max engine.policy.maxRetries.toNat 1) := by
  induction h with
  | nil =>
      rw [hcounter]
      change 1 = min (0 + 1) _
      omega
  | idle _ hidle ih =>
      rw [hidle]
      exact ih hretry
  | @decide decided between _ cause ih =>
      obtain ⟨hearlier, hlast⟩ := List.forall_mem_append.1 hretry
      obtain ⟨failure, rfl, hretryable, hkept⟩ := hlast _ List.mem_cons_self
      have hbetween := ih hearlier
      rw [List.length_append, List.length_singleton]
      by_cases hspent : engine.policy.maxRetries ≤ between.counter.attempts
      · have houtcome := decide_of_spent hkept hretryable hspent
        rw [counter_of_decide_error houtcome fun heq => hkept (Option.some.inj heq), hbetween]
        rw [UInt64.le_iff_toNat_le, hbetween] at hspent
        omega
      · rw [UInt64.not_le] at hspent
        have hfacing := Counter.facing_of_ne hkept between.counter
        obtain ⟨signal, houtcome⟩ := (exists_decide_ok_iff hretryable).2 (hfacing ▸ hspent)
        obtain ⟨_, hsame, hattempt, -, hadvanced⟩ := counter_of_decide_ok houtcome
        cases hsame
        rw [hadvanced, hattempt, hfacing, hbetween]
        rw [UInt64.lt_iff_toNat_lt, hbetween] at hspent
        omega

/-- The signals that no lost session comes between have consecutive attempts. -/
theorem attempt_eq {earlier between : List (Option Failure × Except RetryError Signal)}
    {first second : Option Failure} {signal next : Signal}
    (h : engine.Decides before
      (earlier ++ (first, .ok signal) :: between ++ (second, .ok next) :: later) after)
    (hbetween : ∀ decision ∈ between, decision.1 ≠ some .invalidSession)
    (hsecond : second ≠ some .invalidSession) :
    next.attempt.toNat =
      signal.attempt.toNat + 1 + between.countP fun decision => decision.2.toBool := by
  rw [List.append_assoc, List.cons_append] at h
  obtain ⟨point, -, hfirst, hrest⟩ := h.split
  obtain ⟨place, hmiddle, hnext, -⟩ := hrest.split
  obtain ⟨_, -, -, -, hadvanced⟩ := counter_of_decide_ok hfirst
  obtain ⟨failure, rfl, hattempt, -⟩ := counter_of_decide_ok hnext
  have hkeeps : failure ≠ .invalidSession := fun heq => hsecond (congrArg some heq)
  calc next.attempt.toNat = place.counter.attempts.toNat := by
        rw [hattempt, Counter.facing_of_ne hkeeps]
    _ = _ := hmiddle.toNat_counter hbetween
    _ = _ := by rw [hadvanced]

/-- From a full budget, the outcome for a failure is settled by its place in the row. -/
theorem outcome_of_retryable {earlier : List (Option Failure × Except RetryError Signal)}
    {failure : Failure} {outcome : Except RetryError Signal}
    (h : engine.Decides before (earlier ++ (some failure, outcome) :: later) after)
    (hcounter : before.counter = .initial)
    (hretry : ∀ decision ∈ earlier ++ (some failure, outcome) :: later, ∃ failure,
      decision.1 = some failure ∧ failure.isRetryable engine.policy.nonRetryableCodes ∧
        failure ≠ .invalidSession) :
    if earlier.length < max engine.policy.maxRetries.toNat 1 - 1 then
      ∃ signal, outcome = .ok signal ∧ signal.attempt.toNat = earlier.length + 1
    else
      ∃ attempts : UInt64, attempts.toNat = max engine.policy.maxRetries.toNat 1 ∧
        outcome = .error (.exhausted attempts engine.policy.maxRetries failure) := by
  obtain ⟨hearlier, hrest⟩ := List.forall_mem_append.1 hretry
  obtain ⟨_, hsame, hretryable, hkept⟩ := hrest _ List.mem_cons_self
  cases hsame
  obtain ⟨point, hdecides, rfl, -⟩ := h.split
  have hpoint := hdecides.toNat_counter_of_retryable hcounter hearlier
  by_cases hspent : engine.policy.maxRetries ≤ point.counter.attempts
  · have houtcome := decide_of_spent hkept hretryable hspent
    rw [UInt64.le_iff_toNat_le, hpoint] at hspent
    rw [if_neg (by omega)]
    exact ⟨_, by omega, houtcome⟩
  · rw [UInt64.not_le] at hspent
    have hfacing := Counter.facing_of_ne hkept point.counter
    obtain ⟨signal, houtcome⟩ := (exists_decide_ok_iff hretryable).2 (hfacing ▸ hspent)
    obtain ⟨_, hsame, hattempt, -⟩ := counter_of_decide_ok houtcome
    cases hsame
    rw [UInt64.lt_iff_toNat_lt, hpoint] at hspent
    rw [if_pos (by omega)]
    refine ⟨signal, houtcome, ?_⟩
    rw [hattempt, hfacing, hpoint]
    omega

/-- Once the budget is exhausted, it stays so while the session is kept. -/
theorem of_exhausted {earlier : List (Option Failure × Except RetryError Signal)}
    {attempts limit : UInt64} {failure : Failure}
    (h : engine.Decides before
      (earlier ++ (cause, .error (.exhausted attempts limit failure)) :: later) after)
    (hkept : ∀ decision ∈ later, decision.1 ≠ some .invalidSession) :
    ∀ decision ∈ later, (∀ signal, decision.2 ≠ .ok signal) ∧
      ∀ other, decision.1 = some other → other.isRetryable engine.policy.nonRetryableCodes →
        decision.2 = .error (.exhausted attempts engine.policy.maxRetries other) := by
  obtain ⟨point, -, houtcome, hlater⟩ := h.split
  obtain ⟨hattempts, hspent⟩ := counter_of_decide_exhausted houtcome
  rw [← hattempts] at hspent ⊢
  exact (hlater.of_spent hkept hspent).2

/-- **The budget of a row of failures.** Every signal has an attempt below the bound, namely the one
that the counter is at, or the first where the session is lost, and leaves the counter at the next.
Signals that no lost session comes between have consecutive attempts. From a full budget, failures
that are retried and keep the session get signals up to the bound, and all after them are told that it
is exhausted. From then on none gets a signal before the budget is refilled, and that makes a
difference only for a bound of two or more. -/
theorem spends_budget (h : engine.Decides before decided after) :
    (∀ earlier cause signal later, decided = earlier ++ (cause, .ok signal) :: later →
      ∃ failure point, cause = some failure ∧ engine.Decides before earlier point ∧
        signal.attempt < engine.policy.maxRetries ∧
        signal.attempt = (if failure = .invalidSession then 1 else point.counter.attempts) ∧
        (engine.decide cause point).1.counter.attempts.toNat = signal.attempt.toNat + 1 ∧
        signal.attempt.toNat + 1 ≤ engine.policy.maxRetries.toNat ∧
        engine.Decides (engine.decide cause point).1 later after) ∧
    (∀ earlier first signal between second next later,
      decided = earlier ++ (first, .ok signal) :: between ++ (second, .ok next) :: later →
      (∀ decision ∈ between, decision.1 ≠ some .invalidSession) → second ≠ some .invalidSession →
        next.attempt.toNat = signal.attempt.toNat + 1 +
          between.countP fun decision => decision.2.toBool) ∧
    (before.counter = .initial →
      (∀ decision ∈ decided, ∃ failure, decision.1 = some failure ∧
        failure.isRetryable engine.policy.nonRetryableCodes ∧ failure ≠ .invalidSession) →
      ∀ earlier failure outcome later, decided = earlier ++ (some failure, outcome) :: later →
        if earlier.length < max engine.policy.maxRetries.toNat 1 - 1 then
          ∃ signal, outcome = .ok signal ∧ signal.attempt.toNat = earlier.length + 1
        else
          ∃ attempts : UInt64, attempts.toNat = max engine.policy.maxRetries.toNat 1 ∧
            outcome = .error (.exhausted attempts engine.policy.maxRetries failure)) ∧
    (∀ earlier cause attempts limit failure later,
      decided = earlier ++ (cause, .error (.exhausted attempts limit failure)) :: later →
      (∀ decision ∈ later, decision.1 ≠ some .invalidSession) →
      ∀ decision ∈ later, (∀ signal, decision.2 ≠ .ok signal) ∧
        ∀ other, decision.1 = some other →
          other.isRetryable engine.policy.nonRetryableCodes →
            decision.2 = .error (.exhausted attempts engine.policy.maxRetries other)) ∧
    ∀ commons : Commons,
      ((∃ signal, (engine.decide (some .invalidSession) commons).2 = .ok signal) ↔
        2 ≤ engine.policy.maxRetries) ∧
      ∀ failure, failure.isRetryable engine.policy.nonRetryableCodes →
        ((∃ signal, (engine.decide (some failure)
            { commons with counter := commons.counter.reset }).2 = .ok signal) ↔
          2 ≤ engine.policy.maxRetries) := by
  have hsecond : 1 < engine.policy.maxRetries ↔ 2 ≤ engine.policy.maxRetries := by
    rw [UInt64.lt_iff_toNat_lt, UInt64.le_iff_toNat_le]
    rfl
  refine ⟨?_, ?_, ?_, ?_, fun commons => ⟨?_, fun failure hretry => ?_⟩⟩
  · rintro earlier cause signal later rfl
    obtain ⟨point, hearlier, houtcome, hlater⟩ := h.split
    obtain ⟨failure, rfl, hattempt, hbudget, hadvanced⟩ := counter_of_decide_ok houtcome
    refine ⟨failure, point, rfl, hearlier, hbudget, ?_, hadvanced, hbudget, hlater⟩
    split
    case isTrue hlost =>
        rw [hattempt, hlost]
        rfl
    case isFalse hkept => rw [hattempt, Counter.facing_of_ne hkept]
  · rintro earlier first signal between second next later rfl hbetween hsecond
    exact h.attempt_eq hbetween hsecond
  · rintro hcounter hretry earlier failure outcome later rfl
    exact h.outcome_of_retryable hcounter hretry
  · rintro earlier cause attempts limit failure later rfl hkept
    exact h.of_exhausted hkept
  · exact (exists_decide_ok_iff rfl).trans hsecond
  · refine (exists_decide_ok_iff hretry).trans ?_
    have hfull : (commons.counter.reset.facing failure).attempts = 1 := by
      rw [Counter.facing]
      split <;> rfl
    rw [hfull]
    exact hsecond

end Decides

/-- An engine for three attempts. -/
def thrice : Engine := { policy := { Policy.prompt with maxRetries := 3 } }

/-- A failure that is final, three that are not, none at all, and from then on one that loses the
session and two that keep it. -/
def mixed : List (Option Failure) :=
  [some .partialDisconnect, some (.ofMessage "lost"), some (.closed ⟨4000, none⟩),
    some (.ofMessage "lost"), none, some .invalidSession, some (.ofMessage "lost"),
    some (.ofMessage "lost")]

theorem spends_budget_when_three : ∃ decided after,
    Decides thrice .initial decided after ∧ decided.map Prod.fst = mixed ∧
      decided.map (fun decision => decision.2.toOption.map Signal.attempt) =
        [none, some 1, some 2, none, none, some 1, some 2, none] ∧
      ∀ earlier cause signal later, decided = earlier ++ (cause, .ok signal) :: later →
        signal.attempt < 3 := by
  have hrow : thrice.Decides .initial (thrice.decideAll mixed .initial).1
      (thrice.decideAll mixed .initial).2 := decides_decideAll mixed .initial
  refine ⟨_, _, hrow, by decide +kernel, by decide +kernel,
    fun earlier cause signal later hdecided => ?_⟩
  obtain ⟨_, _, -, -, hbudget, -⟩ := hrow.spends_budget.1 earlier cause signal later hdecided
  exact hbudget

end Engine

end Rejoin
