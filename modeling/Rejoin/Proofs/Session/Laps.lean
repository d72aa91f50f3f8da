import Rejoin.Proofs.Task.Progress

/-! What a session publishes, in the order of its cycles. A lap is a cycle with the retry that
follows it; what is published so far is a row of laps, then at most one cycle that is not followed
by a retry. Between cycles only the announcement of a retry is published, and within a cycle only
its confirmation, whatever hooks, connectors and others do. -/

namespace Rejoin

open Commons (Edit Edits)

/-- The change that an entry tells the session published itself. -/
def Entry.published? : Entry → Option Change
  | .published change => some change
  | _ => none

/-- The mode of the cycle that an entry tells the start of. -/
def Entry.mode? : Entry → Option Mode
  | .cycleStarted cycle _ => some cycle.mode
  | _ => none

namespace Commons

/-- A cycle has been begun and its connector is about to be run. -/
def opened (commons : Commons) (cycle : Cycle) : Commons :=
  (({ commons with cycle := some cycle, slot := {} }.record (.published .connecting)).log
    ⟨.debug, "starting gateway connection cycle",
      [("mode", cycle.mode.text), ("attempt", toString cycle.attempt.toNat)]⟩).record
        (.cycleStarted cycle commons.now)

/-- A retry has been announced, before any other hook runs. -/
def announced (commons : Commons) (signal : Signal) : Commons :=
  ((commons.record (.hookStarted .announcer signal commons.now)).record
    (.published (.retrying signal))).record (.hookEnded .announcer (.ok ()))

/-- Everything that the session published itself, oldest first. -/
def published (commons : Commons) : List Change := commons.read Entry.published?

/-- The modes of the cycles started so far, oldest first. -/
def modes (commons : Commons) : List Mode := commons.read Entry.mode?

end Commons

/-- The changes of one cycle, until it is followed by something else. -/
def Cycle.changes (confirmed : Bool) : List Change :=
  .connecting :: if confirmed then [.connected] else []

/-- A row of laps, by its changes and the modes of its cycles, and the mode of the cycle that is to
follow it. -/
inductive Laps : List Change → List Mode → Mode → Prop where
  | nil : Laps [] [] .identify
  | lap {changes : List Change} {modes : List Mode} {mode : Mode} (h : Laps changes modes mode)
      (confirmed : Bool) {signal : Signal} (hstage : signal.stage.isRetrying) :
      Laps (changes ++ Cycle.changes confirmed ++ [.retrying signal]) (modes ++ [mode])
        (.after signal.stage)

namespace Laps

/-- The changes of a row of laps and of the last cycle, if one is not followed by a retry. -/
def told (changes : List Change) (last : Option Bool) : List Change :=
  changes ++ last.elim [] Cycle.changes

/-- The modes of a row of laps and of the last cycle, if one is not followed by a retry. -/
def begun (started : List Mode) (mode : Mode) (last : Option Bool) : List Mode :=
  started ++ (last.map fun _ => mode).toList

end Laps

namespace Commons

/-- Between cycles, with so much published and started. -/
structure Rests (changes : List Change) (started : List Mode) (commons : Commons) : Prop where
  cycle : commons.cycle = none
  published : commons.published = changes
  modes : commons.modes = started

/-- In a cycle of a mode, with so much published and started before it. -/
structure Runs (changes : List Change) (started : List Mode) (mode : Mode) (commons : Commons) :
    Prop where
  cycle : ∃ cycle, commons.cycle = some cycle ∧ cycle.mode = mode ∧
    commons.published = changes ++ Cycle.changes cycle.confirmed
  modes : commons.modes = started ++ [mode]

variable {changes : List Change} {started : List Mode} {mode : Mode} {commons after : Commons}

/-! ### Deeds -/

/-- Of the deeds, only confirmations touch a cycle. -/
theorem cycle_perform_of_ne {deed : Deed} (h : deed ≠ .confirm) (commons : Commons) :
    (deed.perform commons).cycle = commons.cycle := by
  cases deed with
  | close disconnect status =>
      rw [Deed.perform, close]
      split <;> rfl
  | confirm => exact absurd rfl h
  | advanceCounter | resetCounter | cancel | countElsewhere | note => rfl

theorem published_perform_of_ne {deed : Deed} (h : deed ≠ .confirm) (commons : Commons) :
    (deed.perform commons).published = commons.published :=
  read_perform_of_ne (fun _ => rfl) (fun _ => rfl) (fun _ _ => rfl) h commons

theorem modes_perform (deed : Deed) (commons : Commons) :
    (deed.perform commons).modes = commons.modes :=
  read_perform ⟨fun _ => rfl, fun _ => rfl, rfl, fun _ _ => rfl⟩ deed commons

theorem Rests.perform (h : commons.Rests changes started) (deed : Deed) :
    (deed.perform commons).Rests changes started := by
  obtain ⟨hcycle, hpublished, hmodes⟩ := h
  by_cases hdeed : deed = .confirm
  · have hsame : commons.confirm = commons := by
      apply confirm_eq_self
      intro cycle hsome
      rw [hcycle] at hsome
      cases hsome
    rw [hdeed, Deed.perform, hsame]
    exact ⟨hcycle, hpublished, hmodes⟩
  · exact ⟨(cycle_perform_of_ne hdeed commons).trans hcycle,
      (published_perform_of_ne hdeed commons).trans hpublished,
      (modes_perform deed commons).trans hmodes⟩

/-- A cycle is confirmed at most once. -/
theorem Runs.confirm (h : commons.Runs changes started mode) :
    commons.confirm.Runs changes started mode := by
  obtain ⟨⟨cycle, hcycle, hmode, hpublished⟩, hmodes⟩ := h
  cases hconfirmed : cycle.confirmed with
  | true =>
      have hsame : commons.confirm = commons := by
        apply confirm_eq_self
        intro other hother
        cases hcycle.symm.trans hother
        exact hconfirmed
      rw [hsame]
      exact ⟨⟨cycle, hcycle, hmode, hpublished⟩, hmodes⟩
  | false =>
      refine ⟨⟨{ cycle with confirmed := true }, ?_, hmode, ?_⟩, ?_⟩
      · rw [confirm_of_unconfirmed hcycle hconfirmed]
        rfl
      · rw [hconfirmed] at hpublished
        rw [published, read_confirm_of_unconfirmed (fun _ => rfl) hcycle hconfirmed, ← published,
          hpublished, List.append_assoc]
        rfl
      · exact (modes_perform .confirm commons).trans hmodes

theorem Runs.perform (h : commons.Runs changes started mode) (deed : Deed) :
    (deed.perform commons).Runs changes started mode := by
  by_cases hdeed : deed = .confirm
  · rw [hdeed]
    exact h.confirm
  · obtain ⟨⟨cycle, hcycle, hmode, hpublished⟩, hmodes⟩ := h
    rw [← published_perform_of_ne hdeed commons] at hpublished
    rw [← modes_perform deed commons] at hmodes
    exact ⟨⟨cycle, (cycle_perform_of_ne hdeed commons).trans hcycle, hmode, hpublished⟩, hmodes⟩

/-! ### Edits -/

/-- Serving a signal publishes nothing and begins no cycle. -/
theorem Rests.edits {signal : Signal} (h : commons.Rests changes started)
    (hedits : Edits (Entry.Serves signal) commons after) : after.Rests changes started := by
  refine hedits.invariant (Rests changes started) ?_ h
  intro left right hedit hleft
  cases hedit with
  | deed deed => exact hleft.perform deed
  | @entry entry hserves =>
      have hpublished : entry.published? = none := by
        cases entry with
        | published => cases hserves
        | _ => rfl
      have hmode : entry.mode? = none := by
        cases entry with
        | cycleStarted => cases hserves
        | _ => rfl
      exact ⟨hleft.cycle, (read_record_of_none hpublished left).trans hleft.published,
        (read_record_of_none hmode left).trans hleft.modes⟩
  | count => exact ⟨hleft.cycle, hleft.published, hleft.modes⟩

theorem Rests.serve {signal : Signal} {entry : Entry} (h : commons.Rests changes started)
    (hserves : entry.Serves signal) : (commons.record entry).Rests changes started :=
  h.edits (.single (.entry commons hserves))

/-- A connector is confined to deeds. -/
theorem Runs.poll {Result : Type} (h : commons.Runs changes started mode)
    (routine : Routine Result) : (routine.poll commons).1.Runs changes started mode :=
  routine.poll_of_deed (Runs changes started mode) (fun deed hbefore => hbefore.perform deed) h

theorem Rests.log (h : commons.Rests changes started) (entry : LogEntry) :
    (commons.log entry).Rests changes started :=
  ⟨h.cycle, (read_log (fun _ => rfl) commons entry).trans h.published,
    (read_log (fun _ => rfl) commons entry).trans h.modes⟩

theorem Rests.publish (h : commons.Rests changes started) (change : Change) :
    (commons.record (.published change)).Rests (changes ++ [change]) started := by
  refine ⟨h.cycle, ?_, (read_record_of_none rfl commons).trans h.modes⟩
  rw [Commons.published, read_record, ← Commons.published, h.published]
  rfl

theorem Rests.announce (h : commons.Rests changes started) (signal : Signal) :
    (commons.announced signal).Rests (changes ++ [.retrying signal]) started := by
  have hstarted : Entry.Serves signal (.hookStarted .announcer signal commons.now) := rfl
  exact ((h.serve hstarted).publish (.retrying signal)).serve
    (show Entry.Serves signal (.hookEnded .announcer (.ok ())) from trivial)

/-- Between laps no cycle is left over. -/
theorem Rests.whole (h : commons.Rests changes started) (mode : Mode) :
    commons.Rests (Laps.told changes none) (Laps.begun started mode none) := by
  rw [Laps.told, Laps.begun, Option.map_none, Option.toList_none, List.append_nil]
  exact ⟨h.cycle, h.published.trans (List.append_nil changes).symm, h.modes⟩

/-- The beginning of a cycle. -/
theorem Rests.begins (h : commons.Rests changes started) (cycle : Cycle)
    (hconfirmed : cycle.confirmed = false) :
    (commons.opened cycle).Runs changes started cycle.mode := by
  refine ⟨⟨cycle, rfl, rfl, ?_⟩, ?_⟩
  · have hpublished : ({ commons with cycle := some cycle, slot := {} }.record
        (.published .connecting)).published = commons.published ++ [.connecting] := read_record _ _ _
    rw [opened, Commons.published, read_record_of_none rfl, read_log fun _ => rfl,
      ← Commons.published, hpublished, h.published, hconfirmed]
    rfl
  · rw [opened, Commons.modes, read_record, read_log fun _ => rfl, read_record_of_none rfl]
    exact congrArg (· ++ [cycle.mode]) h.modes

/-- The end of a cycle, however it comes. -/
theorem Runs.rests (h : commons.Runs changes started mode) :
    ∃ confirmed, Rests (Laps.told changes (some confirmed))
      (Laps.begun started mode (some confirmed)) { commons with cycle := none } := by
  obtain ⟨⟨cycle, _, _, hpublished⟩, hmodes⟩ := h
  exact ⟨cycle.confirmed, rfl, hpublished, hmodes⟩

theorem Rests.decide (h : commons.Rests changes started) (engine : Engine)
    (failure : Option Failure) : (engine.decide failure commons).1.Rests changes started := by
  have hpublished : (engine.decide failure commons).1.published = commons.published :=
    engine.read_decide_of_none failure commons (fun _ => rfl) fun _ _ => rfl
  have hmodes : (engine.decide failure commons).1.modes = commons.modes :=
    engine.read_decide_of_none failure commons (fun _ => rfl) fun _ _ => rfl
  exact ⟨(engine.cycle_decide failure commons).trans h.cycle, hpublished.trans h.published,
    hmodes.trans h.modes⟩

end Commons

/-! ### Retries -/

theorem Hook.runAll_announcer (signal : Signal) (later : List Hook) (commons : Commons) :
    runAll signal (.announcer :: later) commons = runAll signal later (commons.announced signal) :=
  rfl

namespace Engine

/-- An engine that announces each retry once, before any other hook runs. -/
def Announces (engine : Engine) : Prop :=
  ∃ later, engine.hooks = .announcer :: later ∧ .announcer ∉ later

variable {engine : Engine} {changes : List Change} {started : List Mode} {commons : Commons}
  {signal : Signal}

/-- A failure that is retried is announced before anything else is done about it. -/
theorem start_announced (hannounces : engine.Announces) (hopen : commons.cancelled = false)
    {failure : Option Failure} (hdecide : (engine.decide failure commons).2 = .ok signal) :
    Sound (Entry.Serves signal) signal ((engine.decide failure commons).1.announced signal)
      (engine.start failure commons) := by
  obtain ⟨later, hhooks, hlater⟩ := hannounces
  rw [start_of_scheduled hopen hdecide, hhooks, Hook.runAll_announcer]
  have hpermitted : ∀ hook ∈ later, hook.Permitted (Entry.Serves signal) signal := by
    intro hook hmem hannouncer
    exact absurd (hannouncer ▸ hmem) hlater
  exact engine.afterHooks_sound (fun _ => id) (Hook.runAll_sound (fun _ => id) hpermitted _)

theorem start_rests (hannounces : engine.Announces) (h : commons.Rests changes started)
    (hopen : commons.cancelled = false) {failure : Option Failure}
    (hdecide : (engine.decide failure commons).2 = .ok signal) :
    (engine.start failure commons).1.Rests (changes ++ [.retrying signal]) started ∧
      Carries (Entry.Serves signal) signal (engine.start failure commons).2 := by
  obtain ⟨hedits, hcarries⟩ := start_announced hannounces hopen hdecide
  exact ⟨((h.decide engine failure).announce signal).edits hedits, hcarries⟩

theorem resume_rests {handling : Handling} (hsignal : handling.signal = signal)
    (hpermitted : handling.Permitted (Entry.Serves signal)) (h : commons.Rests changes started) :
    (engine.resume handling commons).1.Rests changes started ∧
      Carries (Entry.Serves signal) signal (engine.resume handling commons).2 := by
  obtain ⟨hedits, hcarries⟩ := engine.resume_sound (fun _ => id) hsignal hpermitted commons
  exact ⟨h.edits hedits, hcarries⟩

end Engine

end Rejoin
