import Rejoin.Proofs.Task.Conduct

/-! How attempts are numbered. The number of an attempt is one more than the number of signals decided
since the budget was last refilled, which an established session does, and a failure that loses its
session just before it is decided on. The shared counter holds that number at every point of a
history, as long as hooks, delays and connectors leave the counter alone. -/

namespace Rejoin

/-! ### Counting along a history -/

/-- The signals that count against a failure, out of those decided since the budget was last
refilled. -/
def Failure.charged (failure : Failure) (count : Nat) : Nat :=
  if failure.invalidatesSession then 0 else count

/-- A failure that loses its session may always be retried. -/
theorem Failure.charged_of_final {failure : Failure} {codes : List UInt16}
    (h : ¬ failure.isRetryable codes) (count : Nat) : failure.charged count = count := by
  cases failure with
  | invalidSession => exact absurd rfl h
  | closed | partialDisconnect | fault => rfl

namespace Entry

/-- What an entry makes of the number of signals decided since the budget was last refilled. -/
def tally (count : Nat) : Entry → Nat
  | .published change => if change = .connected then 0 else count
  | .decided (some failure) (.ok _) => failure.charged count + 1
  | .decided (some failure) (.error _) => failure.charged count
  | _ => count

/-- The number of signals decided since the budget was last refilled, in a history. -/
def charge (history : List Entry) : Nat := history.foldl tally 0

/-- What an entry makes of whether the last cycle is confirmed. -/
def confirms (confirmed : Bool) : Entry → Bool
  | .published change => if change = .connected then true else confirmed
  | .cycleStarted _ _ => false
  | _ => confirmed

/-- Whether the last cycle of a history is confirmed. -/
def lastConfirmed (history : List Entry) : Bool := history.foldl confirms false

/-- What an entry makes of whether a cycle is still to be decided on. -/
def awaits (awaiting : Bool) : Entry → Bool
  | .cycleStarted _ _ => true
  | .decided _ _ => false
  | _ => awaiting

/-- Whether no decision follows the last cycle of a history. -/
def lastAwaits (history : List Entry) : Bool := history.foldl awaits false

/-- Every decision of a history, with what was before it, has a property. -/
def EachDecision (holds : List Entry → Option Failure → Except RetryError Signal → Prop)
    (history : List Entry) : Prop :=
  ∀ earlier cause outcome, earlier ++ [.decided cause outcome] <+: history →
    holds earlier cause outcome

/-- An entry that neither decides anything nor begins or confirms a cycle. -/
def IsPlain : Entry → Prop
  | .published change => change ≠ .connected
  | .decided _ _ | .cycleStarted _ _ => False
  | _ => True

namespace IsPlain

variable {entry : Entry} (h : entry.IsPlain)

include h

theorem tally_eq (count : Nat) : entry.tally count = count := by
  cases entry with
  | published => exact if_neg h
  | decided | cycleStarted => exact h.elim
  | logged | closing | hookStarted | hookEnded | delayAsked | noted => rfl

theorem ne_decided (cause : Option Failure) (outcome : Except RetryError Signal) :
    entry ≠ .decided cause outcome := by
  rintro rfl
  exact h

end IsPlain

/-- Retries under way are plain, and so are their announcements. -/
theorem Serves.isPlain {signal : Signal} {entry : Entry} (h : entry.Serves signal) :
    entry.IsPlain := by
  cases entry with
  | published | decided | cycleStarted => exact h.elim
  | logged | closing | hookStarted | hookEnded | delayAsked | noted => trivial

theorem isPlain_announcement (signal : Signal) : IsPlain (.published (.retrying signal)) :=
  fun heq => Option.some_ne_none _ (congrArg Change.backoff heq)

section Concat

variable {holds : List Entry → Option Failure → Except RetryError Signal → Prop}
  {history : List Entry} {entry : Entry}

theorem charge_concat : charge (history ++ [entry]) = entry.tally (charge history) := by
  rw [charge, List.foldl_append]
  rfl

theorem lastAwaits_concat : lastAwaits (history ++ [entry]) = entry.awaits (lastAwaits history) := by
  rw [lastAwaits, List.foldl_append]
  rfl

theorem eachDecision_nil : EachDecision holds [] := by
  intro earlier cause outcome hprefix
  exact absurd (List.prefix_nil.1 hprefix) (List.append_ne_nil_of_right_ne_nil _ nofun)

theorem EachDecision.concat (h : EachDecision holds history)
    (hentry : ∀ cause outcome, entry = .decided cause outcome → holds history cause outcome) :
    EachDecision holds (history ++ [entry]) := by
  intro earlier cause outcome hprefix
  rcases List.prefix_concat_iff.1 hprefix with heq | hold
  · obtain ⟨rfl, hlast⟩ := List.append_inj' heq rfl
    exact hentry cause outcome (List.cons.inj hlast).1.symm
  · exact h earlier cause outcome hold

theorem EachDecision.concat_of_ne (h : EachDecision holds history)
    (hentry : ∀ cause outcome, entry ≠ .decided cause outcome) :
    EachDecision holds (history ++ [entry]) :=
  h.concat fun cause outcome heq => absurd heq (hentry cause outcome)

end Concat

theorem EachDecision.of_mem
    {holds : List Entry → Option Failure → Except RetryError Signal → Prop} {history : List Entry}
    (h : EachDecision holds history) {cause : Option Failure} {outcome : Except RetryError Signal}
    (hmem : .decided cause outcome ∈ history) :
    ∃ earlier, earlier ++ [.decided cause outcome] <+: history ∧ holds earlier cause outcome := by
  obtain ⟨earlier, later, rfl⟩ := List.append_of_mem hmem
  have hprefix : earlier ++ [.decided cause outcome] <+: earlier ++ .decided cause outcome :: later :=
    ⟨later, List.append_assoc _ _ _⟩
  exact ⟨earlier, hprefix, h earlier cause outcome hprefix⟩

section Check

variable {holds : List Entry → Option Failure → Except RetryError Signal → Prop}

/-- Decisions are found by their places in the history. -/
theorem eachDecision_iff {history : List Entry} :
    EachDecision holds history ↔ ∀ place (hplace : place < history.length) cause outcome,
      history[place] = .decided cause outcome → holds (history.take place) cause outcome := by
  constructor
  · intro h place hplace cause outcome hentry
    refine h _ cause outcome ?_
    rw [← hentry, List.take_append_getElem]
    exact List.take_prefix _ _
  · rintro h earlier cause outcome ⟨later, rfl⟩
    have hplace : earlier.length < (earlier ++ [decided cause outcome] ++ later).length := by
      simp
    simpa using h earlier.length hplace cause outcome (by simp)

instance decidableDecided [∀ earlier cause outcome, Decidable (holds earlier cause outcome)]
    (earlier : List Entry) : (entry : Entry) → Decidable (∀ cause outcome,
      entry = .decided cause outcome → holds earlier cause outcome)
  | .decided cause outcome => decidable_of_iff (holds earlier cause outcome) ⟨by
      rintro h _ _ ⟨⟩
      exact h, fun h => h cause outcome rfl⟩
  | .logged _ | .published _ | .closing _ | .hookStarted _ _ _ | .hookEnded _ _ | .delayAsked _
  | .cycleStarted _ _ | .noted _ _ => isTrue fun _ _ heq => by cases heq

instance decidableEachDecision [∀ earlier cause outcome, Decidable (holds earlier cause outcome)]
    (history : List Entry) : Decidable (EachDecision holds history) :=
  decidable_of_iff _ eachDecision_iff.symm

end Check

/-- With the last cycle confirmed and not decided on, nothing counts. -/
theorem charge_eq_zero {history : List Entry} (hconfirmed : lastConfirmed history)
    (hawaits : lastAwaits history) : charge history = 0 := by
  have hfold : ∀ (history : List Entry) (count : Nat) (confirmed awaiting : Bool),
      (confirmed = true → awaiting = true → count = 0) →
        history.foldl confirms confirmed = true → history.foldl awaits awaiting = true →
          history.foldl tally count = 0 := by
    intro history
    induction history with
    | nil => exact fun _ _ _ h => h
    | cons entry history ih =>
        intro count confirmed awaiting hstart
        refine ih _ _ _ ?_
        cases entry with
        | published change =>
            by_cases hchange : change = .connected
            · exact fun _ _ => if_pos hchange
            · simp only [confirms, awaits, tally, if_neg hchange]
              exact hstart
        | cycleStarted => exact nofun
        | decided => exact fun _ => nofun
        | logged | closing | hookStarted | hookEnded | delayAsked | noted => exact hstart
  exact hfold history 0 false false nofun hconfirmed hawaits

end Entry

/-! ### Decisions -/

namespace Policy

variable (policy : Policy)

/-- The answer to a failure by its number, with so many signals decided since the budget was last
refilled. -/
inductive Answers (count : Nat) : Option Failure → Except RetryError Signal → Prop where
  | missing : Answers count none (.error .missingCause)
  | final {failure : Failure} (hretry : ¬ failure.isRetryable policy.nonRetryableCodes) :
      Answers count (some failure) (.error (.terminal failure))
  | exhausted {failure : Failure} {attempts : UInt64}
      (hretry : failure.isRetryable policy.nonRetryableCodes)
      (hnumber : attempts.toNat = 1 + failure.charged count)
      (hmax : policy.maxRetries.toNat ≤ 1 + failure.charged count) :
      Answers count (some failure) (.error (.exhausted attempts policy.maxRetries failure))
  | signal {failure : Failure} {signal : Signal}
      (hretry : failure.isRetryable policy.nonRetryableCodes)
      (hnumber : signal.attempt.toNat = 1 + failure.charged count)
      (hmax : 1 + failure.charged count < policy.maxRetries.toNat) :
      Answers count (some failure) (.ok signal)

variable {counter : Counter}

theorem toNat_attempts_facing {count : Nat} (hcounter : counter.attempts.toNat = 1 + count)
    (failure : Failure) :
    (counter.facing failure).attempts.toNat = 1 + failure.charged count := by
  rw [Counter.facing, Failure.charged]
  split
  · rfl
  · exact hcounter

/-- A decision answers a failure by its number, and leaves the counter at the number of the next
attempt. -/
theorem decide_answers {count : Nat} (hcounter : counter.attempts.toNat = 1 + count) (drawn : Nat)
    (cause : Option Failure) :
    policy.Answers count cause (policy.decide counter drawn cause).outcome ∧
      (policy.decide counter drawn cause).counter.attempts.toNat =
        1 + Entry.tally count (.decided cause (policy.decide counter drawn cause).outcome) := by
  cases cause with
  | none => exact ⟨.missing, hcounter⟩
  | some failure =>
      by_cases hretry : failure.isRetryable policy.nonRetryableCodes
      · have hfacing := toNat_attempts_facing hcounter failure
        rw [decide_outcome_of_retryable policy counter drawn hretry, schedule_outcome,
          decide_counter_of_retryable policy counter drawn hretry, schedule_counter]
        by_cases hmax : policy.maxRetries ≤ (counter.facing failure).attempts
        · rw [if_pos hmax, if_pos hmax]
          rw [UInt64.le_iff_toNat_le, hfacing] at hmax
          exact ⟨.exhausted hretry hfacing hmax, hfacing⟩
        · rw [if_neg hmax, if_neg hmax]
          rw [UInt64.not_le] at hmax
          have hadvance := Counter.toNat_attempts_advance hmax
          rw [UInt64.lt_iff_toNat_lt, hfacing] at hmax
          refine ⟨.signal hretry hfacing hmax, ?_⟩
          rw [hadvance, hfacing]
          rfl
      · rw [decide_outcome_of_final policy counter drawn hretry,
          decide_counter_of_final policy counter drawn hretry]
        refine ⟨.final hretry, hcounter.trans ?_⟩
        exact congrArg (1 + ·) (Failure.charged_of_final hretry count).symm

end Policy

/-! ### The counter -/

namespace Commons

theorem history_record (commons : Commons) (entry : Entry) :
    (commons.record entry).history = commons.history ++ [entry] := List.reverse_cons

/-- The counter is at the number of the next attempt, every decision so far has answered its failure
by its number, and each was about a cycle of its own. -/
structure Numbered (policy : Policy) (commons : Commons) : Prop where
  counter : commons.counter.attempts.toNat = 1 + Entry.charge commons.history
  answered : Entry.EachDecision (fun earlier => policy.Answers (Entry.charge earlier)) commons.history
  awaited : Entry.EachDecision (fun earlier _ _ => Entry.lastAwaits earlier) commons.history

variable {policy : Policy} {commons : Commons}

/-- Nothing else is needed of what is shared. -/
theorem Numbered.of_eq (h : commons.Numbered policy) {after : Commons}
    (hcounter : after.counter = commons.counter) (hjournal : after.journal = commons.journal) :
    after.Numbered policy := by
  have hhistory : after.history = commons.history := congrArg List.reverse hjournal
  refine ⟨?_, ?_, ?_⟩
  · rw [hcounter, hhistory]
    exact h.counter
  · rw [hhistory]
    exact h.answered
  · rw [hhistory]
    exact h.awaited

theorem Numbered.record (h : commons.Numbered policy) {entry : Entry}
    (hcounts : ∀ count, entry.tally count = count)
    (hundecided : ∀ cause outcome, entry ≠ .decided cause outcome) :
    (commons.record entry).Numbered policy := by
  refine ⟨?_, ?_, ?_⟩
  · rw [history_record, Entry.charge_concat, hcounts]
    exact h.counter
  · rw [history_record]
    exact h.answered.concat_of_ne hundecided
  · rw [history_record]
    exact h.awaited.concat_of_ne hundecided

theorem Numbered.plain (h : commons.Numbered policy) {entry : Entry} (hplain : entry.IsPlain) :
    (commons.record entry).Numbered policy :=
  h.record hplain.tally_eq hplain.ne_decided

/-- An established session refills the budget. -/
theorem Numbered.confirm (h : commons.Numbered policy) : commons.confirm.Numbered policy := by
  by_cases hdone : ∀ cycle, commons.cycle = some cycle → cycle.confirmed
  · rw [confirm_eq_self hdone]
    exact h
  · simp only [Classical.not_forall, Bool.not_eq_true] at hdone
    obtain ⟨cycle, hcycle, hconfirmed⟩ := hdone
    rw [confirm_of_unconfirmed hcycle hconfirmed]
    have hundecided : ∀ cause outcome, Entry.published .connected ≠ .decided cause outcome := by
      rintro _ _ ⟨⟩
    refine Numbered.plain ⟨?_, ?_, ?_⟩ trivial
    · rw [history_record, Entry.charge_concat]
      rfl
    · rw [history_record]
      exact h.answered.concat_of_ne hundecided
    · rw [history_record]
      exact h.awaited.concat_of_ne hundecided

end Commons

/-- Deeds that leave the counter to the session. -/
def Deed.SparesCounter : Deed → Prop
  | .advanceCounter | .resetCounter => False
  | .cancel | .close _ _ | .confirm | .countElsewhere _ | .note _ => True

/-- Hooks, delays and connectors may do anything but touch the counter. -/
def Conduct.sparing : Conduct := ⟨Deed.SparesCounter, True, fun _ => trivial⟩

namespace Commons

variable {policy : Policy} {commons : Commons}

theorem Numbered.perform (h : commons.Numbered policy) {deed : Deed} (hdeed : deed.SparesCounter) :
    (deed.perform commons).Numbered policy := by
  cases deed with
  | advanceCounter | resetCounter => exact hdeed.elim
  | close disconnect status =>
      have hrecorded : ∀ entry change,
          ((commons.log entry).record (.closing change)).Numbered policy := by
        intro entry change
        have hlogged : (commons.log entry).Numbered policy := h.plain trivial
        exact hlogged.plain trivial
      rw [Deed.perform, close]
      split
      · exact (hrecorded _ _).of_eq rfl rfl
      · exact (hrecorded _ _).of_eq rfl rfl
  | confirm => exact h.confirm
  | note made => exact h.plain trivial
  | cancel | countElsewhere => exact h.of_eq rfl rfl

theorem Numbered.logAll (h : commons.Numbered policy) (entries : List LogEntry) :
    (commons.logAll entries).Numbered policy := by
  rw [Commons.logAll]
  induction entries generalizing commons with
  | nil => exact h
  | cons entry entries ih => exact ih (h.plain trivial)

theorem lastAwaits_logAll (commons : Commons) (entries : List LogEntry) :
    Entry.lastAwaits (commons.logAll entries).history = Entry.lastAwaits commons.history := by
  rw [logAll]
  induction entries generalizing commons with
  | nil => rfl
  | cons entry entries ih =>
      rw [List.foldl_cons, ih, log, history_record, Entry.lastAwaits_concat]
      rfl

/-- A decision on a cycle of its own keeps the numbers in order. -/
theorem Numbered.decide {engine : Engine} (h : commons.Numbered engine.policy)
    (hawaits : Entry.lastAwaits commons.history) (cause : Option Failure) :
    (engine.decide cause commons).1.Numbered engine.policy := by
  have hlogged := h.logAll
    (engine.policy.decide commons.counter (commons.draws commons.drawn) cause).log
  have hlast := lastAwaits_logAll commons
    (engine.policy.decide commons.counter (commons.draws commons.drawn) cause).log
  have hcounter := hlogged.counter
  rw [logAll_eq] at hlogged hlast hcounter
  have hdecide := engine.policy.decide_answers hcounter (commons.draws commons.drawn) cause
  rw [Engine.decide_fst_eq, logAll_eq]
  refine ⟨?_, ?_, ?_⟩
  · rw [history_record, Entry.charge_concat]
    exact hdecide.2
  · rw [history_record]
    refine hlogged.answered.concat fun other outcome heq => ?_
    cases heq
    exact hdecide.1
  · rw [history_record]
    exact hlogged.awaited.concat fun _ _ _ => hlast.trans hawaits

theorem lastAwaits_record (commons : Commons) {entry : Entry}
    (h : ∀ awaiting, entry.awaits awaiting = awaiting) :
    Entry.lastAwaits (commons.record entry).history = Entry.lastAwaits commons.history := by
  rw [history_record, Entry.lastAwaits_concat, h]

/-- No deed begins a cycle or decides on one. -/
theorem lastAwaits_perform (deed : Deed) (commons : Commons) :
    Entry.lastAwaits (deed.perform commons).history = Entry.lastAwaits commons.history := by
  have htwo : ∀ (commons : Commons) {first second : Entry},
      (∀ awaiting, first.awaits awaiting = awaiting) →
      (∀ awaiting, second.awaits awaiting = awaiting) →
      Entry.lastAwaits ((commons.record first).record second).history =
        Entry.lastAwaits commons.history := by
    intro commons first second hfirst hsecond
    rw [lastAwaits_record _ hsecond, lastAwaits_record _ hfirst]
  cases deed with
  | close disconnect status =>
      rw [Deed.perform, close]
      split
      · exact htwo commons (fun _ => rfl) fun _ => rfl
      · exact htwo commons (fun _ => rfl) fun _ => rfl
  | confirm =>
      rw [Deed.perform, confirm]
      split
      · split
        · rfl
        · exact htwo { commons with counter := _, cycle := _ } (fun _ => rfl) fun _ => rfl
      · rfl
  | note => exact lastAwaits_record commons fun _ => rfl
  | advanceCounter | resetCounter | cancel | countElsewhere => rfl

end Commons

end Rejoin
