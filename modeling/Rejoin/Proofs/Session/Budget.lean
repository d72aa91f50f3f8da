import Rejoin.Proofs.Session.Course
import Rejoin.Proofs.Session.Numbering

/-! The budget of a session. As long as nobody but the session and its cycles touches the counter,
every failure that is decided on is answered by its number, and every decision is about a cycle of its
own. A session whose cycles are all confirmed before they fail therefore never exhausts a budget of
two or more. -/

namespace Rejoin

namespace Commons

/-- An error that says that the budget is exhausted was decided on. -/
def Admits (commons : Commons) (error : RetryError) : Prop :=
  error.isExhausted → ∃ cause, .decided cause (.error error) ∈ commons.journal

/-- Numbered at a later point, with nothing lost from the journal. -/
structure Continues (policy : Policy) (before after : Commons) : Prop where
  numbered : after.Numbered policy
  grown : before.journal <:+ after.journal

variable {policy : Policy} {before after : Commons} {error : RetryError}

theorem Admits.grown (h : before.Admits error) (hgrown : before.journal <:+ after.journal) :
    after.Admits error := by
  intro hexhausted
  obtain ⟨cause, hmem⟩ := h hexhausted
  exact ⟨cause, hgrown.mem hmem⟩

theorem admits_of_not_exhausted (h : ¬ error.isExhausted) : before.Admits error :=
  fun hexhausted => absurd hexhausted h

theorem continues_self (h : before.Numbered policy) : Continues policy before before :=
  ⟨h, List.suffix_rfl⟩

namespace Continues

variable (h : Continues policy before after)

include h

theorem record {entry : Entry} (hcounts : ∀ count, entry.tally count = count)
    (hundecided : ∀ cause outcome, entry ≠ .decided cause outcome) :
    Continues policy before (after.record entry) :=
  ⟨h.numbered.record hcounts hundecided, h.grown.trans (after.journal_suffix_record entry)⟩

theorem plain {entry : Entry} (hplain : entry.IsPlain) :
    Continues policy before (after.record entry) :=
  h.record hplain.tally_eq hplain.ne_decided

theorem log (entry : LogEntry) : Continues policy before (after.log entry) := h.plain trivial

theorem publish {change : Change} (hchange : change ≠ .connected) :
    Continues policy before (after.record (.published change)) := h.plain hchange

theorem of_eq {later : Commons} (hcounter : later.counter = after.counter)
    (hjournal : later.journal = after.journal) : Continues policy before later :=
  ⟨h.numbered.of_eq hcounter hjournal, hjournal ▸ h.grown⟩

/-- A cycle that begins is still to be decided on. -/
theorem begins (cycle : Cycle) :
    Continues policy before (after.opened cycle) ∧
      Entry.lastAwaits (after.opened cycle).history := by
  have hopened : Continues policy before { after with cycle := some cycle, slot := {} } :=
    h.of_eq rfl rfl
  have hconnecting : Change.connecting ≠ .connected := by decide
  refine ⟨((hopened.publish hconnecting).log _).record (fun _ => rfl) nofun, ?_⟩
  rw [opened, history_record, Entry.lastAwaits_concat]
  rfl

end Continues

/-- Hooks and delays that spare the counter keep the numbers in order. -/
theorem preserved_continues (policy : Policy) (before : Commons) :
    Preserved .sparing (Continues policy before) where
  deed hdeed h := ⟨h.numbered.perform hdeed, h.grown.trans (journal_suffix_perform _ _)⟩
  serves _ _ _ hserves h := h.plain hserves.isPlain
  announced h := h.plain (Entry.isPlain_announcement _)
  counted h := h.of_eq rfl rfl

end Commons

/-! ### The pipeline of a session -/

namespace Pipeline

/-- A pipeline that keeps to the policy and to the conduct, with the counter at the number of the next
attempt. -/
structure Carried (policy : Policy) (pipeline : Pipeline) (commons : Commons) : Prop where
  policy_eq : pipeline.engine.policy = policy
  engine : pipeline.engine.KeepsTo .sparing
  task : pipeline.task.KeepsTo .sparing
  numbered : commons.Numbered policy
  error : ∀ error, pipeline.task = .ended (.error error) → commons.Admits error

/-- Nothing is on its way, and the task is not at any failure. -/
structure Quiet (pipeline : Pipeline) : Prop where
  inbox : pipeline.inbox = none
  outbox : pipeline.outbox = none
  task : pipeline.task = .idle ∨ pipeline.task.isOver

variable {policy : Policy} {pipeline next : Pipeline} {commons after : Commons}

theorem Carried.continues (h : pipeline.Carried policy commons)
    (hcontinues : Commons.Continues policy commons after) : pipeline.Carried policy after :=
  ⟨h.policy_eq, h.engine, h.task, hcontinues.numbered,
    fun error hended => (h.error error hended).grown hcontinues.grown⟩

theorem Carried.of_eq (h : pipeline.Carried policy commons) (hengine : next.engine = pipeline.engine)
    (htask : next.task = pipeline.task) : next.Carried policy commons :=
  ⟨hengine ▸ h.policy_eq, hengine ▸ h.engine, htask ▸ h.task, h.numbered,
    fun error hended => h.error error (htask ▸ hended)⟩

theorem Carried.abort (h : pipeline.Carried policy commons) :
    pipeline.abort.Carried policy commons := by
  cases hover : pipeline.task.isOver with
  | true =>
      refine h.of_eq rfl ?_
      rw [Pipeline.abort, if_pos hover]
  | false =>
      have htask : pipeline.abort.task = .aborted := by
        rw [Pipeline.abort, hover]
        rfl
      refine ⟨h.policy_eq, h.engine, ?_, h.numbered, fun error hended => ?_⟩
      · rw [htask]
        trivial
      · rw [htask] at hended
        cases hended

/-- What became of a signal is not that the budget is exhausted. -/
theorem admits_of_carries {allowed : Entry → Prop} {signal : Signal} {progress : HandlingProgress}
    (h : Engine.Carries allowed signal progress) {error : RetryError}
    (hended : Task.ofProgress progress = .ended (.error error)) : commons.Admits error := by
  rcases progress with (inner | finished) | message | current
  · cases hended
    rcases h with rfl | ⟨inner, rfl⟩
    · exact Commons.admits_of_not_exhausted nofun
    · exact Commons.admits_of_not_exhausted nofun
  · cases hended
  · cases hended
  · cases hended

theorem Stepped.admits (h : Stepped pipeline commons next after) {error : RetryError}
    (hended : next.task = .ended (.error error)) : after.Admits error := by
  cases h with
  | cancelled =>
      cases hended
      exact Commons.admits_of_not_exhausted nofun
  | closed | dropped | placed => cases hended
  | @took _ hopen failure =>
      cases hdecide : (pipeline.engine.decide failure commons).2 with
      | error refused =>
          rw [Engine.start_of_refused hopen hdecide] at hended ⊢
          cases hended
          refine fun _ => ⟨failure, ?_⟩
          rw [Engine.decide_fst_eq, hdecide]
          exact List.mem_cons_self
      | ok signal => exact admits_of_carries (Engine.start_carries hopen hdecide) hended
  | @resumed handling =>
      exact admits_of_carries (pipeline.engine.resume_carries handling commons) hended

/-- A step of the task decides only on a cycle that awaits it. -/
theorem Carried.stepped (h : pipeline.Carried policy commons)
    (hstep : Stepped pipeline commons next after)
    (hawaits : ∀ failure, pipeline.inbox = some failure → Entry.lastAwaits commons.history) :
    next.Carried policy after := by
  obtain ⟨rfl, hengine, htask, hnumbered, -⟩ := h
  have hdecide : ∀ failure, pipeline.inbox = some failure →
      Commons.Continues pipeline.engine.policy commons commons →
      Commons.Continues pipeline.engine.policy commons
        (pipeline.engine.decide failure commons).1 :=
    fun failure hinbox _ => ⟨hnumbered.decide (hawaits failure hinbox) failure,
      pipeline.engine.journal_suffix_decide failure commons⟩
  obtain ⟨hcontinues, hkeeps⟩ := hstep.upholds (Commons.preserved_continues _ commons) hdecide
    (fun entry hcontinues => hcontinues.log entry) hengine htask (Commons.continues_self hnumbered)
  exact ⟨hstep.engine_eq ▸ rfl, hstep.engine_eq ▸ hengine, hkeeps, hcontinues.numbered,
    fun error => hstep.admits⟩

theorem Quiet.stepped (h : pipeline.Quiet) (hstep : Stepped pipeline commons next after) :
    next.Quiet ∧ after = commons := by
  have hidle : pipeline.task = .idle :=
    h.task.resolve_right (Bool.eq_false_iff.1 hstep.isOver_eq_false)
  cases hstep with
  | cancelled | closed => exact ⟨⟨h.inbox, h.outbox, .inr rfl⟩, rfl⟩
  | took _ _ hinbox => cases h.inbox.symm.trans hinbox
  | resumed hbusy | dropped hbusy | placed hbusy => cases hidle.symm.trans hbusy

end Pipeline

/-! ### The points of a session -/

namespace Session

/-- The points of a session, as far as decisions go: a failure is handed in only while the last cycle
still awaits its decision, and nothing is on its way whenever a cycle begins. -/
inductive Point (session : Session) (commons : Commons) : Prop where
  | starting {mode : Mode} (hphase : session.phase = .starting mode)
      (hquiet : session.pipeline.Quiet)
  | cycling {current : Suspended (Except Failure Unit)} (hphase : session.phase = .cycling current)
      (hquiet : session.pipeline.Quiet) (hkeeps : current.KeepsTo .sparing)
      (hawaits : Entry.lastAwaits commons.history)
  | failed {failure : Option Failure} (hphase : session.phase = .retrying (.retry failure))
      (hquiet : session.pipeline.Quiet) (hawaits : Entry.lastAwaits commons.history)
  | submitted (hphase : session.phase = .retrying .awaitSignal)
      (houtbox : session.pipeline.outbox = none)
      (htask : session.pipeline.task = .idle ∨ session.pipeline.task.isOver)
      (hawaits : Entry.lastAwaits commons.history)
  | answered (hphase : session.phase = .retrying .awaitSignal)
      (hinbox : session.pipeline.inbox = none)
      (htask : session.pipeline.outbox = none ∨ session.pipeline.task = .idle ∨
        session.pipeline.task.isOver)
  | stopping (hphase : session.phase = .retrying (.awaitEnd true))
      (hinbox : session.pipeline.inbox = none ∨ session.pipeline.task.isOver)
  | finished (hphase : session.phase.isOver) (htask : session.pipeline.task.isOver)
      (herror : ∀ error, session.phase.error? = some (.retry error) → commons.Admits error)

structure Tracked (policy : Policy) (session : Session) (commons : Commons) : Prop where
  pipeline : session.pipeline.Carried policy commons
  connector : ∀ cycle, (session.connector cycle).KeepsTo .sparing
  point : session.Point commons

variable {policy : Policy} {session next : Session} {commons after : Commons}

/-! ### Steps of the task -/

theorem Point.awaits (h : session.Point commons) (hrunning : session.pipeline.task.isOver = false)
    (failure : Option Failure) (hinbox : session.pipeline.inbox = some failure) :
    Entry.lastAwaits commons.history := by
  have hnot := Bool.eq_false_iff.1 hrunning
  cases h with
  | cycling _ _ _ hawaits | failed _ _ hawaits | submitted _ _ _ hawaits => exact hawaits
  | starting _ hquiet => cases hquiet.inbox.symm.trans hinbox
  | answered _ hnone => cases hnone.symm.trans hinbox
  | stopping _ hnone => cases (hnone.resolve_right hnot).symm.trans hinbox
  | finished _ htask => exact absurd htask hnot

theorem Point.stepped (h : session.Point commons) {pipeline : Pipeline}
    (hstep : session.pipeline.Stepped commons pipeline after) :
    Point { session with pipeline } after := by
  have hnot := Bool.eq_false_iff.1 hstep.isOver_eq_false
  cases h with
  | starting hphase hquiet =>
      obtain ⟨hquiet, rfl⟩ := hquiet.stepped hstep
      exact .starting hphase hquiet
  | cycling hphase hquiet hkeeps hawaits =>
      obtain ⟨hquiet, rfl⟩ := hquiet.stepped hstep
      exact .cycling hphase hquiet hkeeps hawaits
  | failed hphase hquiet hawaits =>
      obtain ⟨hquiet, rfl⟩ := hquiet.stepped hstep
      exact .failed hphase hquiet hawaits
  | submitted hphase houtbox htask hawaits =>
      have hidle := htask.resolve_right hnot
      cases hstep with
      | cancelled | closed => exact .submitted hphase houtbox (.inr rfl) hawaits
      | took => exact .answered hphase rfl (.inl houtbox)
      | resumed hbusy | dropped hbusy | placed hbusy => cases hidle.symm.trans hbusy
  | answered hphase hinbox htask =>
      cases hstep with
      | cancelled | closed | dropped => exact .answered hphase hinbox (.inr (.inr rfl))
      | took _ _ htaken => cases hinbox.symm.trans htaken
      | resumed hbusy =>
          refine .answered hphase hinbox (.inl (htask.resolve_right ?_))
          rintro (hidle | hover)
          · cases hidle.symm.trans hbusy
          · exact hnot hover
      | placed => exact .answered hphase hinbox (.inr (.inl rfl))
  | stopping hphase hinbox =>
      have hnone := hinbox.resolve_right hnot
      cases hstep with
      | cancelled | closed | dropped => exact .stopping hphase (.inr rfl)
      | took _ _ htaken => cases hnone.symm.trans htaken
      | resumed | placed => exact .stopping hphase (.inl hnone)
  | finished _ htask => exact absurd htask hnot

theorem Tracked.task (h : session.Tracked policy commons) {pipeline : Pipeline}
    (hstep : session.pipeline.Stepped commons pipeline after) :
    Tracked policy { session with pipeline } after :=
  ⟨h.pipeline.stepped hstep (h.point.awaits hstep.isOver_eq_false), h.connector,
    h.point.stepped hstep⟩

/-! ### Steps of the run -/

section Run

variable (hpipeline : session.pipeline.Carried policy commons)
  (hconnector : ∀ cycle, (session.connector cycle).KeepsTo .sparing)

include hpipeline hconnector

theorem tracked_finish (hcontinues : Commons.Continues policy commons after) {phase : Phase}
    (hover : phase.isOver)
    (herror : ∀ error, phase.error? = some (.retry error) → after.Admits error) :
    Tracked policy (session.finish phase) after :=
  ⟨(hpipeline.continues hcontinues).abort, hconnector,
    .finished hover (isOver_finish session phase) herror⟩

theorem tracked_fail (hquiet : session.pipeline.Quiet)
    (hcontinues : Commons.Continues policy commons after)
    (hawaits : Entry.lastAwaits after.history) (failure : Failure) :
    Tracked policy (session.fail failure after).1 (session.fail failure after).2 := by
  have hended : Commons.Continues policy commons { after with cycle := none } :=
    hcontinues.of_eq rfl rfl
  refine ⟨hpipeline.continues (hended.log _), hconnector, .failed rfl hquiet ?_⟩
  exact (Commons.lastAwaits_record _ fun _ => rfl).trans hawaits

theorem tracked_afterCycle (hquiet : session.pipeline.Quiet)
    {result : Commons × RoutineProgress (Except Failure Unit)}
    (hresult : Progress.Upholds .sparing
      (fun after => Commons.Continues policy commons after ∧ Entry.lastAwaits after.history)
      (Suspended.KeepsTo .sparing) result) :
    Tracked policy (session.afterCycle result).1 (session.afterCycle result).2 := by
  obtain ⟨after, progress⟩ := result
  obtain ⟨⟨hcontinues, hawaits⟩, hkeeps⟩ := hresult
  have hended : Commons.Continues policy commons { after with cycle := none } :=
    hcontinues.of_eq rfl rfl
  rcases progress with (failure | ⟨⟨⟩⟩) | message | current
  · exact tracked_fail hpipeline hconnector hquiet hcontinues hawaits failure
  · exact tracked_finish hpipeline hconnector (hended.log _) rfl nofun
  · exact tracked_finish hpipeline hconnector hended rfl nofun
  · exact ⟨hpipeline.continues hcontinues, hconnector, .cycling rfl hquiet hkeeps hawaits⟩

omit hpipeline hconnector in
/-- A connector that spares the counter leaves its cycle to be decided on. -/
theorem poll_cycle {routine : Routine (Except Failure Unit)} (hroutine : routine.KeepsTo .sparing)
    (hcontinues : Commons.Continues policy commons after)
    (hawaits : Entry.lastAwaits after.history) :
    Progress.Upholds .sparing
      (fun after => Commons.Continues policy commons after ∧ Entry.lastAwaits after.history)
      (Suspended.KeepsTo .sparing) (routine.poll after) := by
  refine Routine.poll_upholds hroutine (fun hdeed h => ?_) ⟨hcontinues, hawaits⟩
  exact ⟨(Commons.preserved_continues policy commons).deed hdeed h.1,
    (Commons.lastAwaits_perform _ _).trans h.2⟩

theorem tracked_beginCycle (hquiet : session.pipeline.Quiet) (mode : Mode) :
    Tracked policy (session.beginCycle mode commons).1 (session.beginCycle mode commons).2 := by
  obtain ⟨hbegins, hawaits⟩ := (Commons.continues_self hpipeline.numbered).begins
    (session.nextCycle mode commons)
  rw [beginCycle_eq]
  refine tracked_afterCycle ?_ ?_ ?_ (poll_cycle (hconnector _) hbegins hawaits)
  · exact hpipeline
  · exact hconnector
  · exact hquiet

theorem tracked_abandon (hquiet : session.pipeline.Quiet)
    (hawaits : Entry.lastAwaits commons.history) :
    Tracked policy (session.abandon commons).1 (session.abandon commons).2 := by
  have hsame := Commons.continues_self hpipeline.numbered
  have hended : Commons.Continues policy commons { commons with cycle := none } :=
    hsame.of_eq rfl rfl
  have htaken : Commons.Continues policy commons commons.takeClose := hsame.of_eq rfl rfl
  rw [abandon]
  split
  · exact tracked_fail hpipeline hconnector hquiet htaken hawaits _
  · refine tracked_finish hpipeline hconnector hended rfl fun error herror => ?_
    cases herror

/-- The error of a run is that of its task. -/
theorem tracked_stopWith {error : RetryError} (herror : commons.Admits error) :
    Tracked policy (session.stopWith error commons).1 (session.stopWith error commons).2 := by
  have hcounted : Commons.Continues policy commons
      { commons with metrics := commons.metrics.count (.ofError error) } :=
    (Commons.continues_self hpipeline.numbered).of_eq rfl rfl
  rw [stopWith]
  dsimp only
  split
  · refine tracked_finish hpipeline hconnector hcounted rfl fun other hother => ?_
    cases hother
  · have hdisconnected : ∀ disconnect status,
        Change.disconnected disconnect status ≠ .connected := fun _ _ heq =>
      Option.some_ne_none _ (congrArg Change.closing heq)
    have hpublished := (hcounted.log (.ofRetryError error)).publish
      (hdisconnected (.stopAbruptly error.text) (finalStatus error))
    refine tracked_finish hpipeline hconnector hpublished rfl fun other hother => ?_
    cases hother
    exact herror.grown hpublished.grown

/-- A run that is told of the end of its task ends too. -/
theorem tracked_afterEnd {result : Except RetryError Unit}
    (herror : ∀ error, result = .error error → commons.Admits error) :
    Tracked policy (session.afterReply commons (.ofEnd true result)).1
      (session.afterReply commons (.ofEnd true result)).2 := by
  cases result with
  | ok value =>
      exact tracked_stopWith hpipeline hconnector (Commons.admits_of_not_exhausted nofun)
  | error error => exact tracked_stopWith hpipeline hconnector (herror error rfl)

/-- A failure is handed in while its cycle awaits the decision, or refused for good. -/
theorem run_of_retry {failure : Option Failure} (hphase : session.phase = .retrying (.retry failure))
    (hquiet : session.pipeline.Quiet) (hawaits : Entry.lastAwaits commons.history)
    (hstep : session.step commons = some (next, after)) : Tracked policy next after := by
  cases called_of_step hphase hstep with
  | told hcall => cases hcall
  | waited hcall =>
      cases hcall with
      | retryRefused =>
          exact ⟨hpipeline.of_eq rfl rfl, hconnector, .stopping rfl (.inl hquiet.inbox)⟩
      | retryAccepted =>
          exact ⟨hpipeline.of_eq rfl rfl, hconnector,
            .submitted rfl hquiet.outbox hquiet.task hawaits⟩

/-- The next cycle begins only once its signal is taken out, with nothing left behind it. -/
theorem run_of_awaitSignal (hphase : session.phase = .retrying .awaitSignal)
    (hfull : ∀ signal, session.pipeline.outbox = some signal → session.pipeline.inbox = none ∧
      (session.pipeline.task = .idle ∨ session.pipeline.task.isOver))
    (hstep : session.step commons = some (next, after)) : Tracked policy next after := by
  cases called_of_step hphase hstep with
  | waited hcall =>
      cases hcall with
      | missed _ hover =>
          exact ⟨hpipeline.of_eq rfl rfl, hconnector, .stopping rfl (.inr hover)⟩
  | told hcall hafter =>
      cases hcall with
      | retried houtbox =>
          obtain ⟨hinbox, htask⟩ := hfull _ houtbox
          cases hafter
          exact ⟨hpipeline.of_eq rfl rfl, hconnector, .starting rfl ⟨hinbox, rfl, htask⟩⟩

/-- The run ends with what it is told. -/
theorem run_of_awaitEnd (hphase : session.phase = .retrying (.awaitEnd true))
    (hstep : session.step commons = some (next, after)) : Tracked policy next after := by
  cases called_of_step hphase hstep with
  | waited hcall => cases hcall
  | told hcall hafter =>
      cases hcall with
      | toldBefore | toldAborted =>
          refine holds_of_eq hafter (tracked_afterEnd ?_ ?_ fun error herror => ?_)
          · exact hpipeline.of_eq rfl rfl
          · exact hconnector
          · cases herror <;> exact Commons.admits_of_not_exhausted nofun
      | toldEnd _ htask =>
          refine holds_of_eq hafter (tracked_afterEnd ?_ ?_ fun error herror => ?_)
          · exact hpipeline.of_eq rfl rfl
          · exact hconnector
          · exact hpipeline.error error (htask.trans (congrArg Pipeline.Task.ended herror))
      | toldPanic =>
          cases hafter
          refine tracked_finish ?_ ?_ (Commons.continues_self hpipeline.numbered) rfl nofun
          · exact hpipeline.of_eq rfl rfl
          · exact hconnector

end Run

theorem Tracked.run (h : session.Tracked policy commons)
    (hstep : session.step commons = some (next, after)) : Tracked policy next after := by
  obtain ⟨hpipeline, hconnector, hpoint⟩ := h
  cases hpoint with
  | starting hphase hquiet =>
      rw [step, hphase] at hstep
      dsimp only at hstep
      split at hstep
      · cases hstep
        refine tracked_finish hpipeline hconnector (Commons.continues_self hpipeline.numbered) rfl
          fun error herror => ?_
        cases herror
      · exact holds_of_eq (Option.some.inj hstep)
          (tracked_beginCycle hpipeline hconnector hquiet _)
  | cycling hphase hquiet hkeeps hawaits =>
      rw [step, hphase] at hstep
      dsimp only at hstep
      split at hstep
      · exact holds_of_eq (Option.some.inj hstep)
          (tracked_abandon hpipeline hconnector hquiet hawaits)
      · split at hstep
        · refine holds_of_eq (Option.some.inj hstep)
            (tracked_afterCycle hpipeline hconnector hquiet ?_)
          exact poll_cycle hkeeps (Commons.continues_self hpipeline.numbered) hawaits
        · cases hstep
  | failed hphase hquiet hawaits =>
      exact run_of_retry hpipeline hconnector hphase hquiet hawaits hstep
  | submitted hphase houtbox =>
      refine run_of_awaitSignal hpipeline hconnector hphase (fun signal hfull => ?_) hstep
      cases houtbox.symm.trans hfull
  | answered hphase hinbox htask =>
      refine run_of_awaitSignal hpipeline hconnector hphase (fun signal hfull => ?_) hstep
      refine ⟨hinbox, htask.resolve_left fun houtbox => ?_⟩
      cases houtbox.symm.trans hfull
  | stopping hphase => exact run_of_awaitEnd hpipeline hconnector hphase hstep
  | finished hphase => cases (step_of_isOver hphase).symm.trans hstep

/-! ### What others do -/

theorem Point.of_commons (h : session.Point commons)
    (hawaits : Entry.lastAwaits after.history = Entry.lastAwaits commons.history)
    (hgrown : commons.journal <:+ after.journal) : session.Point after := by
  cases h with
  | starting hphase hquiet => exact .starting hphase hquiet
  | cycling hphase hquiet hkeeps hlast =>
      exact .cycling hphase hquiet hkeeps (hawaits.trans hlast)
  | failed hphase hquiet hlast => exact .failed hphase hquiet (hawaits.trans hlast)
  | submitted hphase houtbox htask hlast =>
      exact .submitted hphase houtbox htask (hawaits.trans hlast)
  | answered hphase hinbox htask => exact .answered hphase hinbox htask
  | stopping hphase hinbox => exact .stopping hphase hinbox
  | finished hphase htask herror =>
      exact .finished hphase htask fun error hended => (herror error hended).grown hgrown

theorem Tracked.continues (h : session.Tracked policy commons)
    (hcontinues : Commons.Continues policy commons after)
    (hawaits : Entry.lastAwaits after.history = Entry.lastAwaits commons.history) :
    session.Tracked policy after :=
  ⟨h.pipeline.continues hcontinues, h.connector, h.point.of_commons hawaits hcontinues.grown⟩

/-! ### The whole course -/

def Move.KeepsTo (conduct : Conduct) : Move → Prop
  | .others deed => conduct.deed deed
  | .run | .task | .wait _ => True

/-- One point of a course can be followed by another while others keep to a conduct. -/
def LeadsWithin (conduct : Conduct) : Session × Commons → Session × Commons → Prop :=
  Relation.ReflTransGen fun before after =>
    ∃ next : Move, next.KeepsTo conduct ∧ move before next = some after

theorem leadsWithin_of_follow {conduct : Conduct} {course last : Session × Commons}
    {moves : List Move} (hmoves : ∀ next ∈ moves, next.KeepsTo conduct)
    (h : follow course moves = some last) : LeadsWithin conduct course last := by
  induction moves generalizing course with
  | nil =>
      cases h
      exact .refl
  | cons next moves ih =>
      obtain ⟨hnext, hlater⟩ := List.forall_mem_cons.1 hmoves
      rw [follow, List.foldlM_cons] at h
      obtain ⟨between, hmove, hrest⟩ := Option.bind_eq_some_iff.1 h
      exact .head ⟨next, hnext, hmove⟩ (ih hlater hrest)

theorem Tracked.moved {course last : Session × Commons} {next : Move}
    (hnext : next.KeepsTo .sparing) (hmove : move course next = some last)
    (h : Tracked policy course.1 course.2) : Tracked policy last.1 last.2 := by
  have hsame := Commons.continues_self h.pipeline.numbered
  cases next with
  | run => exact h.run hmove
  | task =>
      obtain ⟨⟨pipeline, commons⟩, hstep, rfl⟩ := Option.map_eq_some_iff.1 hmove
      exact h.task (Pipeline.stepped_of_step hstep)
  | others deed =>
      cases hmove
      exact h.continues ((Commons.preserved_continues _ _).deed hnext hsame)
        (Commons.lastAwaits_perform deed _)
  | wait millis =>
      cases hmove
      exact h.continues (hsame.of_eq rfl rfl) rfl

theorem LeadsWithin.tracked {course last : Session × Commons}
    (h : LeadsWithin .sparing course last) (hfirst : Tracked policy course.1 course.2) :
    Tracked policy last.1 last.2 := by
  induction h with
  | refl => exact hfirst
  | tail _ hlast ih =>
      obtain ⟨next, hnext, hmove⟩ := hlast
      exact ih.moved hnext hmove

variable {hooks : List Hook} {connector : Cycle → Routine (Except Failure Unit)}

theorem tracked_initial (hhooks : ∀ hook ∈ hooks, hook.KeepsTo .sparing)
    (hscheduler : ∀ delay, (policy.scheduler.sleep delay).KeepsTo .sparing)
    (hconnector : ∀ cycle, (connector cycle).KeepsTo .sparing)
    (hcounter : commons.counter = .initial) :
    Tracked policy (initial policy hooks connector) (fresh commons) := by
  refine ⟨⟨rfl, ⟨?_, hscheduler⟩, trivial, ⟨?_, ?_, ?_⟩, nofun⟩, hconnector,
    .starting rfl ⟨rfl, rfl, .inl rfl⟩⟩
  · exact List.forall_mem_cons.2 ⟨trivial, List.forall_mem_cons.2 ⟨trivial, hhooks⟩⟩
  · change commons.counter.attempts.toNat = 1
    rw [hcounter]
    rfl
  · exact Entry.eachDecision_nil
  · exact Entry.eachDecision_nil

/-- A failure that may be retried is decided on only if its cycle was confirmed. -/
def ConfirmsFirst (policy : Policy) (history : List Entry) : Prop :=
  Entry.EachDecision (fun earlier cause _ => ∀ failure, cause = some failure →
    failure.isRetryable policy.nonRetryableCodes → Entry.lastConfirmed earlier) history

instance decidableConfirmsFirst (policy : Policy) (history : List Entry) :
    Decidable (ConfirmsFirst policy history) :=
  inferInstanceAs (Decidable (Entry.EachDecision (fun earlier cause _ => ∀ failure ∈ cause,
    failure.isRetryable policy.nonRetryableCodes → Entry.lastConfirmed earlier) history))

theorem Tracked.exhausts_not (h : session.Tracked policy commons) (hbudget : 2 ≤ policy.maxRetries)
    (hconfirms : ConfirmsFirst policy commons.history) {cause : Option Failure} {error : RetryError}
    (hmem : .decided cause (.error error) ∈ commons.journal) : ¬ error.isExhausted := by
  obtain ⟨earlier, hprefix, hanswers⟩ :=
    h.pipeline.numbered.answered.of_mem (List.mem_reverse.2 hmem)
  have hawaits := h.pipeline.numbered.awaited earlier _ _ hprefix
  cases hanswers with
  | missing | final => exact nofun
  | @exhausted failure attempts hretry hnumber hmax =>
      have hconfirmed := hconfirms earlier _ _ hprefix failure rfl hretry
      rw [Entry.charge_eq_zero hconfirmed hawaits] at hmax
      have hcharged : failure.charged 0 = 0 := ite_self 0
      rw [hcharged] at hmax
      exact absurd (UInt64.le_iff_toNat_le.1 hbudget) (Nat.not_le.2 (Nat.lt_succ_of_le hmax))

/-- **Numbered attempts.** As long as nobody but the session and its cycles touches the counter, the
attempt of every signal is one more than the number of signals decided since the budget was last
refilled, and a failure that may be retried exhausts the budget exactly if that number is beyond it. A
session that has every cycle confirmed before it fails never exhausts a budget of two or more. -/
theorem LeadsWithin.numbers_attempts (hhooks : ∀ hook ∈ hooks, hook.KeepsTo .sparing)
    (hscheduler : ∀ delay, (policy.scheduler.sleep delay).KeepsTo .sparing)
    (hconnector : ∀ cycle, (connector cycle).KeepsTo .sparing)
    (hcounter : commons.counter = .initial)
    (h : LeadsWithin .sparing (initial policy hooks connector, fresh commons) (session, after)) :
    (∀ earlier failure outcome, earlier ++ [.decided (some failure) outcome] <+: after.history →
      let number := 1 + failure.charged (Entry.charge earlier)
      (∀ signal, outcome = .ok signal → signal.attempt.toNat = number) ∧
      (failure.isRetryable policy.nonRetryableCodes →
        (policy.maxRetries.toNat ≤ number ↔ ∃ attempts : UInt64, attempts.toNat = number ∧
          outcome = .error (.exhausted attempts policy.maxRetries failure)) ∧
        (number < policy.maxRetries.toNat ↔ ∃ signal, outcome = .ok signal))) ∧
    (2 ≤ policy.maxRetries → ConfirmsFirst policy after.history →
      (∀ cause error, .decided cause (.error error) ∈ after.history → ¬ error.isExhausted) ∧
      ∀ error, session.phase.error? = some (.retry error) → ¬ error.isExhausted) := by
  have htracked := h.tracked (tracked_initial hhooks hscheduler hconnector hcounter)
  refine ⟨fun earlier failure outcome hprefix => ?_, fun hbudget hconfirms => ⟨?_, ?_⟩⟩
  · have hanswers := htracked.pipeline.numbered.answered earlier _ _ hprefix
    cases hanswers with
    | final hfinal => exact ⟨nofun, fun hretry => absurd hretry hfinal⟩
    | @exhausted _ attempts hretry hnumber hmax =>
        refine ⟨nofun, fun _ => ⟨⟨fun _ => ⟨attempts, hnumber, rfl⟩, fun _ => hmax⟩, ?_⟩⟩
        exact ⟨fun hwithin => absurd hwithin (Nat.not_lt.2 hmax), nofun⟩
    | @signal _ signal hretry hnumber hmax =>
        refine ⟨fun other hother => ?_, fun _ => ⟨⟨fun hbeyond => ?_, ?_⟩, ?_⟩⟩
        · cases hother
          exact hnumber
        · exact absurd hmax (Nat.not_lt.2 hbeyond)
        · exact nofun
        · exact ⟨fun _ => ⟨signal, rfl⟩, fun _ => hmax⟩
  · intro cause error hmem
    exact htracked.exhausts_not hbudget hconfirms (List.mem_reverse.1 hmem)
  · intro error herror hexhausted
    have hadmits : after.Admits error := by
      cases htracked.point with
      | finished _ _ hended => exact hended error herror
      | starting hphase | cycling hphase | failed hphase | submitted hphase | answered hphase
      | stopping hphase =>
          change session.phase = _ at hphase
          rw [hphase] at herror
          cases herror
    obtain ⟨cause, hmem⟩ := hadmits hexhausted
    exact htracked.exhausts_not hbudget hconfirms hmem hexhausted

end Session

/-- The attempt of the signal that an entry tells was decided. -/
def Entry.attempt? : Entry → Option UInt64
  | .decided _ (.ok signal) => some signal.attempt
  | _ => none

namespace Session

theorem keepsTo_faltering (cycle : Cycle) : (faltering cycle).KeepsTo .sparing := by
  rw [faltering]
  split
  · exact ⟨trivial, trivial⟩
  · trivial
  · trivial

/-- The confirmation of the first cycle leaves its failure at the first attempt, and without one the
failure of the second cycle is at the second attempt. Up to the second failure, the session confirms
first. -/
theorem numbers_attempts_when_faltering :
    (∃ session after,
      LeadsWithin .sparing (initial .prompt [] faltering, fresh .initial) (session, after) ∧
      after.read Entry.attempt? = [1, 2] ∧
      ∀ earlier failure signal,
        earlier ++ [.decided (some failure) (.ok signal)] <+: after.history →
          signal.attempt.toNat = 1 + failure.charged (Entry.charge earlier)) ∧
    ∃ session after,
      LeadsWithin .sparing (initial .prompt [] faltering, fresh .initial) (session, after) ∧
      after.read Entry.attempt? = [1] ∧ ConfirmsFirst .prompt after.history ∧
      ∀ cause error, .decided cause (.error error) ∈ after.history → ¬ error.isExhausted := by
  have hhooks : ∀ hook ∈ ([] : List Hook), hook.KeepsTo .sparing := nofun
  have hscheduler : ∀ delay, (Policy.prompt.scheduler.sleep delay).KeepsTo .sparing :=
    fun _ => trivial
  constructor
  · have hmoves : (follow (initial .prompt [] faltering, fresh .initial)
        [.run, .run, .task, .task, .run, .run, .run, .task, .task, .run, .run, .run, .task, .run,
          .run]).map (fun course => course.2.read Entry.attempt?) = some [1, 2] := by
      decide +kernel
    obtain ⟨⟨session, after⟩, hfollow, hattempts⟩ := Option.map_eq_some_iff.1 hmoves
    have hleads : LeadsWithin .sparing (initial .prompt [] faltering, fresh .initial)
        (session, after) := leadsWithin_of_follow (by simp [Move.KeepsTo]) hfollow
    have hnumbers := hleads.numbers_attempts hhooks hscheduler keepsTo_faltering rfl
    exact ⟨session, after, hleads, hattempts, fun earlier failure signal hprefix =>
      (hnumbers.1 earlier failure _ hprefix).1 signal rfl⟩
  · have hmoves : (follow (initial .prompt [] faltering, fresh .initial)
        [.run, .run, .task, .task, .run]).map (fun course => (course.2.read Entry.attempt?,
          decide (ConfirmsFirst .prompt course.2.history))) = some ([1], true) := by
      decide +kernel
    obtain ⟨⟨session, after⟩, hfollow, hread⟩ := Option.map_eq_some_iff.1 hmoves
    obtain ⟨hattempts, hconfirms⟩ := Prod.mk.inj hread
    have hleads : LeadsWithin .sparing (initial .prompt [] faltering, fresh .initial)
        (session, after) := leadsWithin_of_follow (by simp [Move.KeepsTo]) hfollow
    have hnumbers := hleads.numbers_attempts hhooks hscheduler keepsTo_faltering rfl
    have hfirst := of_decide_eq_true hconfirms
    exact ⟨session, after, hleads, hattempts, hfirst, (hnumbers.2 (by decide) hfirst).1⟩

end Session

end Rejoin
