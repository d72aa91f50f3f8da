import Rejoin.Proofs.Record.Counts
import Rejoin.Proofs.Session.Strides
import Rejoin.Proofs.Task.Charts

/-! The ledger of a session. It is written in two places: each retry is counted as it is announced, and
the error that ends the pipeline is counted as the run takes it up. As long as nobody else writes it,
the ledger is therefore what the published changes tell, and at most one count for the end of the
run. -/

namespace Rejoin

namespace Ledger

/-- The retries that published changes tell of. -/
def ofChanges (changes : List Change) : Ledger where
  resumes := changes.countP fun change => change.stage = .resuming
  reconnects := changes.countP fun change => change.stage = .reconnecting

/-- The retries that published changes tell of, and the end of the run, if it is counted. -/
def telling (changes : List Change) (ended : Option Tally) : Ledger :=
  ended.elim (ofChanges changes) (ofChanges changes).count

theorem totalRetries_ofChanges (changes : List Change) :
    (ofChanges changes).totalRetries = changes.countP fun change => change.stage.isRetrying := by
  change (changes.countP fun change => change.stage = .resuming) +
    (changes.countP fun change => change.stage = .reconnecting) = _
  induction changes with
  | nil => rfl
  | cons change changes ih =>
      have hone : (if decide (change.stage = .resuming) then 1 else 0) +
          (if decide (change.stage = .reconnecting) then 1 else 0) =
            if change.stage.isRetrying then 1 else 0 := by
        cases change.stage <;> rfl
      rw [List.countP_cons, List.countP_cons, List.countP_cons, ← ih, ← hone]
      omega

theorem ofChanges_append_of_not {change : Change} (h : change.stage.isRetrying = false)
    (changes : List Change) : ofChanges (changes ++ [change]) = ofChanges changes := by
  unfold ofChanges
  cases hstage : change.stage <;> simp [hstage, Stage.isRetrying] at h ⊢

theorem ofChanges_append_retrying {signal : Signal} (h : signal.stage.isRetrying)
    (changes : List Change) :
    ofChanges (changes ++ [.retrying signal]) = (ofChanges changes).count (.ofSignal signal) := by
  have hstage : (Change.retrying signal).stage = signal.stage := rfl
  unfold ofChanges Tally.ofSignal
  cases hsignal : signal.stage <;> simp [hstage, hsignal, Stage.isRetrying, count] at h ⊢

/-- The count that a run which returns an error has made of it. -/
def Shows (ledger : Ledger) : RetryError → Prop
  | .exhausted _ _ _ => ledger.exhausted = 1
  | .terminal _ => ledger.terminal = 1
  | .hook _ => ledger.hookFailures = 1
  | .missingCause | .cancelled => False

/-- An error is counted once, as what it is. -/
theorem telling_error {error : RetryError} (hmissing : error ≠ .missingCause)
    (hcancelled : error ≠ .cancelled) (changes : List Change) :
    let ledger := telling changes (some (.ofError error))
    ledger.resumes = (ofChanges changes).resumes ∧
      ledger.reconnects = (ofChanges changes).reconnects ∧
      ledger.exhausted + ledger.terminal + ledger.hookFailures = 1 ∧ ledger.cancelled = 0 ∧
      ledger.Shows error := by
  cases error with
  | exhausted | terminal | hook => exact ⟨rfl, rfl, rfl, rfl, rfl⟩
  | missingCause => exact absurd rfl hmissing
  | cancelled => exact absurd rfl hcancelled

/-- With fewer retries than a word can count and one count of an end at most, every word of the ledger
holds its count. -/
theorem words_of_lt {ledger : Ledger} (hretries : ledger.totalRetries < UInt64.size)
    (hended : ledger.exhausted + ledger.terminal + ledger.hookFailures + ledger.cancelled ≤ 1) :
    (∀ tally, (ledger.word tally).toNat = ledger.get tally) ∧
      ledger.retriesWord.toNat = ledger.totalRetries := by
  refine ⟨fun tally => toNat_word ?_, toNat_retriesWord hretries⟩
  rw [totalRetries] at hretries
  rw [UInt64.size] at hretries ⊢
  cases tally <;> simp only [get] <;> omega

end Ledger

namespace Commons

/-- The ledger is what the published changes tell, and the end of the run, if it is counted. -/
def Tells (ended : Option Tally) (commons : Commons) : Prop :=
  commons.metrics.ledger = .telling commons.published ended

variable {ended : Option Tally} {commons after : Commons}

theorem Tells.of_eq (h : commons.Tells ended) (hmetrics : after.metrics.ledger = commons.metrics.ledger)
    (hjournal : after.journal = commons.journal) : after.Tells ended := by
  rw [Tells, hmetrics, published, read, history, hjournal]
  exact h

theorem Tells.record (h : commons.Tells ended) {entry : Entry} (hentry : entry.published? = none) :
    (commons.record entry).Tells ended :=
  h.trans (congrArg (Ledger.telling · ended) (read_record_of_none hentry commons).symm)

/-- Changes that are no retries leave the ledger as it is. -/
theorem Tells.publish (h : commons.Tells ended) {change : Change}
    (hchange : change.stage.isRetrying = false) :
    (commons.record (.published change)).Tells ended := by
  rw [Tells, published, read_record, ← published]
  refine Eq.trans h ?_
  rw [Ledger.telling, Ledger.telling, ← Ledger.ofChanges_append_of_not hchange]
  rfl

theorem Tells.log (h : commons.Tells ended) (entry : LogEntry) : (commons.log entry).Tells ended :=
  h.record rfl

theorem Tells.perform (h : commons.Tells ended) (deed : Deed) : (deed.perform commons).Tells ended := by
  cases deed with
  | close disconnect status =>
      have hclosed : ∀ entry change, ((commons.log entry).record (.closing change)).Tells ended :=
        fun entry change => (h.log entry).record rfl
      rw [Deed.perform, close]
      split
      · exact (hclosed _ _).of_eq rfl rfl
      · exact (hclosed _ _).of_eq rfl rfl
  | confirm =>
      by_cases hdone : ∀ cycle, commons.cycle = some cycle → cycle.confirmed
      · rw [Deed.perform, confirm_eq_self hdone]
        exact h
      · simp only [Classical.not_forall, Bool.not_eq_true] at hdone
        obtain ⟨cycle, hcycle, hconfirmed⟩ := hdone
        rw [Deed.perform, confirm_of_unconfirmed hcycle hconfirmed]
        have hreset : Tells ended { commons with
            counter := commons.counter.reset
            cycle := some { cycle with confirmed := true } } := h.of_eq rfl rfl
        exact (hreset.publish rfl).log _
  | note made => exact h.record rfl
  | advanceCounter | resetCounter | cancel | countElsewhere => exact h.of_eq rfl rfl

theorem Tells.poll {Result : Type} (h : commons.Tells ended) (routine : Routine Result) :
    (routine.poll commons).1.Tells ended :=
  routine.poll_of_deed (Tells ended) (fun deed h => h.perform deed) h

end Commons

/-- A hook that neither announces retries nor counts them in the ledger of the session. -/
def Hook.Apart (hook : Hook) : Prop := hook ≠ .announcer ∧ hook ≠ .meter true

/-- Hooks apart leave the ledger as it is. -/
theorem Hook.chart_tells (signal : Signal) :
    Hook.Chart Hook.Apart signal fun _ => Commons.Tells none where
  deed deed h := h.perform deed
  waited _ h := h
  start := by
    intro done commons hook hapart h
    have hstarted : Commons.Tells none
        (commons.record (.hookStarted hook.label signal commons.now)) := h.record rfl
    cases hook with
    | announcer => exact absurd rfl hapart.1
    | meter own =>
        cases own with
        | true => exact absurd rfl hapart.2
        | false => exact hstarted.of_eq rfl rfl
    | custom name run => exact hstarted.poll (run signal)
  ended _ h := h.record rfl
  asked h := h.record rfl

/-! ### Retries -/

namespace Commons

variable {commons : Commons}

/-- A retry has been announced and counted, before any other hook runs. -/
def metered (commons : Commons) (signal : Signal) : Commons :=
  let begun := (commons.announced signal).record (.hookStarted .meter signal commons.now)
  { begun with metrics := begun.metrics.count (.ofSignal signal) }.record (.hookEnded .meter (.ok ()))

/-- The announcement of a retry and its count come to the same. -/
theorem Tells.metered (h : commons.Tells none) {signal : Signal}
    (hstage : signal.stage.isRetrying) : (commons.metered signal).Tells none := by
  have hstarted : Tells none (commons.record (.hookStarted .announcer signal commons.now)) :=
    h.record rfl
  have hpublished : (commons.metered signal).published =
      (commons.record (.hookStarted .announcer signal commons.now)).published ++
        [.retrying signal] := by
    have hbegun : (commons.metered signal).published = (commons.announced signal).published :=
      (read_record_of_none rfl _).trans (read_record_of_none rfl _)
    have hannounced : (commons.announced signal).published =
        ((commons.record (.hookStarted .announcer signal commons.now)).record
          (.published (.retrying signal))).published := read_record_of_none rfl _
    exact hbegun.trans (hannounced.trans (read_record _ _ _))
  rw [Tells, hpublished]
  refine Eq.trans ?_ (Ledger.ofChanges_append_retrying hstage _).symm
  exact congrArg (Ledger.count · (.ofSignal signal)) hstarted

end Commons

theorem Hook.runAll_metered (signal : Signal) (later : List Hook) (commons : Commons) :
    runAll signal (.announcer :: .meter true :: later) commons =
      runAll signal later (commons.metered signal) := rfl

namespace Engine

/-- An engine that announces each retry, then counts it, and leaves the ledger alone from then on. -/
def Meters (engine : Engine) : Prop :=
  ∃ later, engine.hooks = .announcer :: .meter true :: later ∧ ∀ hook ∈ later, hook.Apart

variable {engine : Engine} {commons : Commons} {signal : Signal} {hooks : List Hook}

theorem tells_decide (h : commons.Tells none) (cause : Option Failure) :
    (engine.decide cause commons).1.Tells none := by
  have hpublished : (engine.decide cause commons).1.published = commons.published :=
    engine.read_decide_of_none cause commons (fun _ => rfl) fun _ _ => rfl
  rw [Commons.Tells, hpublished, decide_fst_eq, Commons.logAll_eq]
  exact h

theorem start_metered (hmeters : engine.Meters) (h : commons.Tells none)
    (hopen : commons.cancelled = false) {cause : Option Failure}
    (hdecide : (engine.decide cause commons).2 = .ok signal) :
    Charted Hook.Apart (fun _ => Commons.Tells none) engine.hooks signal
      (engine.start cause commons) := by
  obtain ⟨later, hhooks, hlater⟩ := hmeters
  have hmetered := (engine.tells_decide h cause).metered (isRetrying_of_decide hdecide)
  rw [start_of_scheduled hopen hdecide, hhooks, Hook.runAll_metered]
  have hdone : Hook.announcer :: .meter true :: later = [.announcer, .meter true] ++ later := rfl
  exact engine.afterHooks_charted (Hook.chart_tells signal)
    (Hook.runAll_charted (Hook.chart_tells signal) hdone hlater hmetered)

/-- However far a retry got, the ledger tells of no end. -/
theorem Charted.tells {result : Commons × HandlingProgress}
    (h : Charted Hook.Apart (fun _ => Commons.Tells none) hooks signal result) :
    result.1.Tells none := by
  cases h with
  | finished h | cancelled h | panicked h => exact h
  | @failed _ _ hook _ own _ _ h =>
      have hended : Entry.published? (.hookEnded hook.label (.error own)) = none := rfl
      exact (h.record hended).log _
  | waiting h =>
      cases h with
      | hooks _ _ _ h | delay h => exact h

end Engine

namespace Session

variable {session next : Session} {before commons after : Commons}

/-- What is counted of the end of a run. -/
def Phase.Ends : Phase → Option Tally → Prop
  | .ended (.ok ()), counted => counted = none ∨ counted = some .cancelled
  | .ended (.error error), counted =>
    ∃ inner, error = .retry inner ∧ counted = some (.ofError inner)
  | .starting _, counted | .cycling _, counted | .retrying _, counted | .panicked _, counted =>
    counted = none

/-- The ledger is what the published changes tell, and how the run ended. -/
structure Tallies (session : Session) (commons : Commons) : Prop where
  meters : session.pipeline.engine.Meters
  handling : ∀ handling, session.pipeline.task = .handling handling → ∃ hooks,
    handling.Charted Hook.Apart (fun _ => Commons.Tells none) hooks handling.signal commons
  ledger : ∃ ended, commons.Tells ended ∧ session.phase.Ends ended

/-! ### Steps of the run -/

theorem ends_afterCycle {result : Commons × RoutineProgress (Except Failure Unit)}
    (h : result.1.Tells none) :
    (session.afterCycle result).2.Tells none ∧ (session.afterCycle result).1.phase.Ends none := by
  obtain ⟨commons, (failure | ⟨⟨⟩⟩) | message | waiting⟩ := result
  · exact ⟨(h.of_eq rfl rfl).log _, rfl⟩
  · exact ⟨(h.of_eq rfl rfl).log _, .inl rfl⟩
  · exact ⟨h.of_eq rfl rfl, rfl⟩
  · exact ⟨h, rfl⟩

/-- Nothing is counted of an end before it comes. -/
theorem Phase.ends_none {phase : Phase} (hrunning : phase.isOver = false) : phase.Ends none := by
  cases phase with
  | starting | cycling | retrying => rfl
  | ended | panicked => cases hrunning

theorem Tallies.running (h : Tallies session commons) (hrunning : session.phase.isOver = false) :
    commons.Tells none := by
  obtain ⟨ended, htells, hends⟩ := h.ledger
  cases hphase : session.phase with
  | starting | cycling | retrying =>
      rw [hphase] at hends
      cases hends
      exact htells
  | ended | panicked =>
      rw [hphase] at hrunning
      cases hrunning

theorem ends_of_step (h : commons.Tells none) (hstep : session.step commons = some (next, after)) :
    ∃ ended, after.Tells ended ∧ next.phase.Ends ended := by
  cases stepped_of_step hstep with
  | refused => exact ⟨none, h, .inl rfl⟩
  | @began mode =>
      rw [beginCycle_eq]
      have hstarted : Commons.Tells none
          { commons with cycle := some (session.nextCycle mode commons), slot := {} } :=
        h.of_eq rfl rfl
      have hopened : (commons.opened (session.nextCycle mode commons)).Tells none :=
        ((hstarted.publish rfl).log _).record rfl
      exact ⟨none, ends_afterCycle (hopened.poll _)⟩
  | abandoned =>
      rw [abandon]
      split
      · have hleft : Commons.Tells none { commons.takeClose with cycle := none } := h.of_eq rfl rfl
        exact ⟨none, hleft.log _, rfl⟩
      · exact ⟨none, h.of_eq rfl rfl, .inl rfl⟩
  | polled => exact ⟨none, ends_afterCycle (h.poll _)⟩
  | @called call _ _ _ hcalled =>
      cases hcalled with
      | waited => exact ⟨none, h, rfl⟩
      | told _ hafter =>
          have hcounted : ∀ error : RetryError, Commons.Tells (some (.ofError error))
              { commons with metrics := commons.metrics.count (.ofError error) } :=
            fun error => congrArg (Ledger.count · (.ofError error)) h
          cases told_of_afterReply hafter with
          | @cancelled error hcancelled =>
              refine ⟨_, hcounted error, .inr ?_⟩
              cases error with
              | cancelled => rfl
              | terminal | exhausted | hook | missingCause => cases hcancelled
          | @failed error =>
              exact ⟨_, ((hcounted error).log _).publish rfl, error, rfl, rfl⟩
          | signalled | panicked | accepted | proceeded | joined => exact ⟨none, h, rfl⟩

theorem Tallies.run (h : Tallies session commons) (hstands : Stands session commons)
    (hstep : session.step commons = some (next, after)) : Tallies next after := by
  exact ⟨engine_of_step hstep ▸ h.meters,
    fun handling htask => absurd htask (hstands.task_ne_handling hstep handling),
    ends_of_step (h.running (isOver_of_step hstep)) hstep⟩

/-! ### Steps of the task -/

theorem tallies_of_charted {pipeline : Pipeline} {progress : HandlingProgress} {signal : Signal}
    {hooks : List Hook} (hmeters : pipeline.engine.Meters)
    (hrunning : session.phase.isOver = false) (htask : pipeline.task = .ofProgress progress)
    (h : Engine.Charted Hook.Apart (fun _ => Commons.Tells none) hooks signal (after, progress)) :
    Tallies { session with pipeline } after := by
  refine ⟨hmeters, fun handling hhandling => ?_, none, h.tells, ?_⟩
  · cases Pipeline.Task.eq_waiting_of_ofProgress (htask.symm.trans hhandling)
    cases h with
    | waiting hcharted =>
        rw [hcharted.signal_eq]
        exact ⟨hooks, hcharted⟩
  · exact Phase.ends_none hrunning

theorem Tallies.task (h : Tallies session commons) (hstands : Stands session commons)
    {pipeline : Pipeline} (hstep : session.pipeline.Stepped commons pipeline after) :
    Tallies { session with pipeline } after := by
  have hrunning := hstands.isOver_of_stepped hstep
  have htells := h.running hrunning
  have hquiet : pipeline.engine = session.pipeline.engine →
      (∀ handling, pipeline.task ≠ .handling handling) → after.Tells none →
      Tallies { session with pipeline } after :=
    fun hengine hhandling hafter => ⟨hengine ▸ h.meters,
      fun handling htask => absurd htask (hhandling handling), none, hafter,
      Phase.ends_none hrunning⟩
  cases hstep with
  | cancelled | closed | placed => exact hquiet rfl (by rintro handling ⟨⟩) htells
  | dropped => exact hquiet rfl (by rintro handling ⟨⟩) (htells.log _)
  | @took _ hopen cause =>
      cases hdecide : (session.pipeline.engine.decide cause commons).2 with
      | error error =>
          have hstart := Engine.start_of_refused hopen hdecide
          refine hquiet rfl (fun handling htask => ?_) ?_
          · rw [hstart] at htask
            cases htask
          · rw [hstart]
            exact Engine.tells_decide htells cause
      | ok signal =>
          exact tallies_of_charted h.meters hrunning rfl
            (Engine.start_metered h.meters htells hopen hdecide)
  | @resumed handling htask =>
      obtain ⟨hooks, hcharted⟩ := h.handling handling htask
      exact tallies_of_charted h.meters hrunning rfl
        (session.pipeline.engine.resume_charted (Hook.chart_tells handling.signal) hcharted)

/-! ### The whole course -/

theorem Tallies.of_commons (h : Tallies session commons)
    (htells : ∀ {ended}, commons.Tells ended → after.Tells ended) : Tallies session after := by
  obtain ⟨ended, hledger, hends⟩ := h.ledger
  refine ⟨h.meters, fun handling htask => ?_, ended, htells hledger, hends⟩
  obtain ⟨hooks, hcharted⟩ := h.handling handling htask
  exact ⟨hooks, hcharted.of_commons htells⟩

theorem Tallies.moved {course last : Session × Commons} {move : Move}
    (h : Tallies course.1 course.2) (hstands : Stands course.1 course.2)
    (hmove : Session.move course move = some last) : Tallies last.1 last.2 := by
  cases move with
  | run => exact h.run hstands hmove
  | task =>
      obtain ⟨⟨pipeline, after⟩, hstep, rfl⟩ := Option.map_eq_some_iff.1 hmove
      exact h.task hstands (Pipeline.stepped_of_step hstep)
  | others deed =>
      cases hmove
      exact h.of_commons fun htells => htells.perform deed
  | wait millis =>
      cases hmove
      exact h.of_commons fun htells => htells.of_eq rfl rfl

theorem Leads.tallies {course last : Session × Commons} (h : Leads course last)
    (hstands : Stands course.1 course.2) (htallies : Tallies course.1 course.2) :
    Tallies last.1 last.2 :=
  h.invariant hstands (fun point => Tallies point.1 point.2)
    (fun hpoint hmove hbefore => hbefore.moved hpoint hmove) htallies

theorem tallies_initial {policy : Policy} {hooks : List Hook}
    (hhooks : ∀ hook ∈ hooks, hook.Apart) (connector : Cycle → Routine (Except Failure Unit))
    (hledger : before.metrics.ledger = .empty) :
    Tallies (initial policy hooks connector) (fresh before) :=
  ⟨⟨hooks, rfl, hhooks⟩, nofun, none, hledger, rfl⟩

/-- Each lap begins with one cycle and ends with one retry. -/
theorem countP_connecting_of_laps {changes : List Change} {started : List Mode} {mode : Mode}
    (h : Laps changes started mode) :
    (changes.countP fun change => change.stage = .connecting) =
      changes.countP fun change => change.stage.isRetrying := by
  induction h with
  | nil => rfl
  | @lap changes modes mode _ confirmed signal hstage ih =>
      have hcycle : ((Cycle.changes confirmed).countP fun change => change.stage = .connecting) = 1 ∧
          ((Cycle.changes confirmed).countP fun change => change.stage.isRetrying) = 0 := by
        cases confirmed <;> exact ⟨rfl, rfl⟩
      have hretry : ([Change.retrying signal].countP fun change => change.stage = .connecting) = 0 ∧
          ([Change.retrying signal].countP fun change => change.stage.isRetrying) = 1 := by
        have hsame : (Change.retrying signal).stage = signal.stage := rfl
        refine ⟨?_, List.countP_eq_length.2 ?_⟩
        · rw [List.countP_singleton, hsame]
          cases hsignal : signal.stage <;> simp [hsignal, Stage.isRetrying] at hstage ⊢
        · intro change hmem
          cases List.mem_singleton.1 hmem
          exact hstage
      simp only [List.countP_append]
      rw [hcycle.1, hcycle.2, hretry.1, hretry.2, ih]

theorem Ending.final_cases {changes : List Change} {last : Option Bool} {error : Option SessionError}
    {final : Option Change} (h : Ending changes last error final) :
    final = none ∨ ∃ disconnect status, final = some (.disconnected disconnect status) := by
  cases h with
  | quiet => exact .inl rfl
  | refused | hook => exact .inr ⟨_, _, rfl⟩

/-- A run ends neither with a cancellation nor for want of a failure. -/
theorem Ending.error_ne {changes : List Change} {last : Option Bool} {error : Option SessionError}
    {final : Option Change} (h : Ending changes last error final) {inner : RetryError}
    (herror : error = some (.retry inner)) : inner ≠ .missingCause ∧ inner ≠ .cancelled := by
  cases h with
  | quiet => cases herror
  | refused hrefused =>
      cases herror
      constructor
      · rintro rfl
        rcases hrefused with hrefused | hrefused <;> cases hrefused
      · rintro rfl
        rcases hrefused with hrefused | hrefused <;> cases hrefused
  | hook =>
      cases herror
      exact ⟨nofun, nofun⟩

/-- A session has published as many retries as cycles, or one less. -/
theorem Chronicled.countP_retrying (h : Chronicled session commons) :
    (commons.published.countP fun change => change.stage.isRetrying) ≤
        (commons.published.countP fun change => change.stage = .connecting) ∧
      (commons.published.countP fun change => change.stage = .connecting) ≤
        (commons.published.countP fun change => change.stage.isRetrying) + 1 := by
  obtain ⟨changes, started, mode, last, final, hlaps, hpublished, -, hending⟩ := h
  have hlast : ((last.elim [] Cycle.changes).countP fun change => change.stage = .connecting) ≤ 1 ∧
      ((last.elim [] Cycle.changes).countP fun change => change.stage.isRetrying) = 0 := by
    rcases last with _ | ⟨_ | _⟩ <;> exact ⟨by decide, rfl⟩
  have hfinal : (final.toList.countP fun change => change.stage = .connecting) = 0 ∧
      (final.toList.countP fun change => change.stage.isRetrying) = 0 := by
    rcases hending.final_cases with rfl | ⟨disconnect, status, rfl⟩ <;> exact ⟨rfl, rfl⟩
  have hsame := countP_connecting_of_laps hlaps
  rw [hpublished, Laps.told]
  simp only [List.countP_append]
  omega

/-- **The ledger of a run.** As long as nobody else writes the ledger, its resumes and reconnects are
the changes of that kind which the run has published when it returns. At most one other count is made,
and the run returns an error exactly if that is the count of an error; then it is that of the error
returned. The retries are as many as the cycles, or one less. With fewer cycles than a word can count, all
this is so of the words that the counters are kept in. -/
theorem Leads.balances_ledger {policy : Policy} {hooks : List Hook}
    {connector : Cycle → Routine (Except Failure Unit)}
    (hhooks : ∀ hook ∈ hooks, hook ≠ .announcer ∧ hook ≠ .meter true)
    (hledger : before.metrics.ledger = .empty)
    (h : Leads (initial policy hooks connector, fresh before) (session, commons))
    {result : Except SessionError Unit} (hresult : session.result? = some result) :
    let ledger := commons.metrics.ledger
    let cycles := commons.published.countP fun change => change.stage = .connecting
    ledger.resumes = (commons.published.countP fun change => change.stage = .resuming) ∧
      ledger.reconnects = (commons.published.countP fun change => change.stage = .reconnecting) ∧
      ledger.exhausted + ledger.terminal + ledger.hookFailures + ledger.cancelled ≤ 1 ∧
      ((∃ error, result = .error error) ↔
        ledger.exhausted + ledger.terminal + ledger.hookFailures = 1) ∧
      (∀ error, result = .error error → ∃ inner, error = .retry inner ∧ ledger.Shows inner) ∧
      ledger.totalRetries ≤ cycles ∧ cycles ≤ ledger.totalRetries + 1 ∧
      (cycles < UInt64.size → (∀ tally, (ledger.word tally).toNat = ledger.get tally) ∧
        ledger.retriesWord.toNat = ledger.totalRetries) := by
  have hannouncers : .announcer ∉ hooks := fun hmem => (hhooks _ hmem).1 rfl
  have hinitial := stands_initial policy hannouncers connector before
  have hphase := result?_eq_some_iff.1 hresult
  have hchronicled := (h.stands hinitial).in_laps
  have hbounds := hchronicled.countP_retrying
  have htallies := h.tallies hinitial (tallies_initial hhooks connector hledger)
  obtain ⟨counted, htells, hends⟩ := htallies.ledger
  rw [← Ledger.totalRetries_ofChanges] at hbounds
  rw [hphase] at hends
  dsimp only
  rw [htells]
  rcases result with error | ⟨⟨⟩⟩
  · obtain ⟨inner, rfl, rfl⟩ := hends
    obtain ⟨_, _, _, _, _, -, -, -, hending⟩ := hchronicled
    rw [hphase] at hending
    obtain ⟨hmissing, hcancelled⟩ := hending.error_ne rfl
    obtain ⟨hresumes, hreconnects, hcounted, hnone, hkind⟩ :=
      Ledger.telling_error hmissing hcancelled commons.published
    have hended := Nat.le_of_eq (congrArg₂ (· + ·) hcounted hnone)
    have hretries : (Ledger.telling commons.published (some (.ofError inner))).totalRetries =
        (Ledger.ofChanges commons.published).totalRetries := congrArg₂ (· + ·) hresumes hreconnects
    rw [← hretries] at hbounds
    refine ⟨hresumes, hreconnects, hended, ⟨fun _ => hcounted, fun _ => ⟨_, rfl⟩⟩, ?_, hbounds.1,
      hbounds.2, fun hfew => Ledger.words_of_lt (Nat.lt_of_le_of_lt hbounds.1 hfew) hended⟩
    rintro error ⟨⟩
    exact ⟨inner, rfl, hkind⟩
  · rcases hends with rfl | rfl
    · exact ⟨rfl, rfl, Nat.zero_le _, ⟨nofun, nofun⟩, nofun, hbounds.1, hbounds.2, fun hfew =>
        Ledger.words_of_lt (Nat.lt_of_le_of_lt hbounds.1 hfew) (Nat.zero_le _)⟩
    · exact ⟨rfl, rfl, Nat.le_refl _, ⟨nofun, nofun⟩, nofun, hbounds.1, hbounds.2, fun hfew =>
        Ledger.words_of_lt (Nat.lt_of_le_of_lt hbounds.1 hfew) (Nat.le_refl _)⟩

/-- A hook that does not put up with a second attempt. -/
def picky : Hook :=
  .custom "picky" fun signal => .done (if signal.attempt = 2 then .error (.message "no") else .ok ())

/-- Every cycle is lost at once, and the hook fails when the second one is about to be retried: both
retries were announced and counted by then. -/
theorem balances_ledger_when_picky :
    ∃ session commons, Leads (initial .prompt [picky] fun _ => .done (.error (.ofMessage "lost")),
        fresh .initial) (session, commons) ∧
      session.result? = some (.error (.retry (.hook (.message "no")))) ∧
      commons.published.map Change.stage =
        [.connecting, .resuming, .connecting, .resuming, .disconnected] ∧
      commons.metrics.ledger.resumes = 2 ∧ commons.metrics.ledger.hookFailures = 1 := by
  have hmoves : (follow (initial .prompt [picky] fun _ => .done (.error (.ofMessage "lost")),
      fresh .initial)
      [.run, .run, .task, .task, .run, .run, .run, .task, .run, .run]).map (fun course =>
        (course.1.phase.error?, course.2.published.map Change.stage)) =
      some (some (.retry (.hook (.message "no"))),
        [.connecting, .resuming, .connecting, .resuming, .disconnected]) := by
    decide +kernel
  obtain ⟨⟨session, commons⟩, hfollow, hview⟩ := Option.map_eq_some_iff.1 hmoves
  obtain ⟨herror, hpublished⟩ := Prod.mk.inj hview
  have hleads := leads_of_follow hfollow
  have hresult := result?_eq_some_iff.2 (Phase.error?_eq_some_iff.1 herror)
  have hhooks : ∀ hook ∈ [picky], hook ≠ .announcer ∧ hook ≠ .meter true := by
    intro hook hmem
    cases List.mem_singleton.1 hmem
    exact ⟨nofun, nofun⟩
  obtain ⟨hresumes, -, -, -, hshows, -⟩ := hleads.balances_ledger hhooks rfl hresult
  obtain ⟨inner, hinner, hcounted⟩ := hshows _ rfl
  cases hinner
  refine ⟨session, commons, hleads, hresult, hpublished, ?_, hcounted⟩
  rw [hresumes]
  have hcount := congrArg (List.countP fun stage => decide (stage = .resuming)) hpublished
  rw [List.countP_map] at hcount
  exact hcount

end Session

end Rejoin
