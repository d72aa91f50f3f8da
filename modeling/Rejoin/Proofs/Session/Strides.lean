import Rejoin.Proofs.Session.Closing
import Rejoin.Proofs.Task.Cancellation

/-! What the points of a course tell of the pipeline, and what a step of the run makes of it. The run
takes signals out and hands failures in, but puts nothing on its way to itself, and ends no task with
an error. -/

namespace Rejoin

namespace Pipeline

/-- The signals on their way to the owner. -/
def coming (pipeline : Pipeline) : List Signal := pipeline.outbox.toList ++ pipeline.task.signals

theorem AtRest.ne_handling {pipeline : Pipeline} {outbox : Option Signal}
    (h : pipeline.AtRest outbox) (handling : Handling) : pipeline.task ≠ .handling handling := by
  intro htask
  rcases h.task with hidle | hended
  · cases htask.symm.trans hidle
  · cases htask.symm.trans hended

theorem coming_abort (pipeline : Pipeline) : pipeline.abort.coming ⊆ pipeline.coming := by
  rw [coming, coming, abort]
  dsimp only
  split
  · exact List.Subset.refl _
  · exact List.append_subset.2 ⟨List.subset_append_left _ _, List.nil_subset _⟩

/-- A retry comes to its own signal or to none. -/
theorem Task.signals_subset {allowed : Entry → Prop} {signal : Signal}
    {progress : HandlingProgress} (h : Engine.Carries allowed signal progress) :
    (ofProgress progress).signals ⊆ [signal] := by
  cases hover : (ofProgress progress).isOver with
  | false =>
      rw [signals_ofProgress h hover]
      exact List.Subset.refl _
  | true =>
      rcases progress with (error | finished) | message | handling
      · exact List.nil_subset _
      · cases hover
      · exact List.nil_subset _
      · cases hover

end Pipeline

/-- A call brings nothing on its way. -/
theorem Call.Stepped.coming_subset {pipeline next : Pipeline} {call : Call} {result : Call ⊕ Reply}
    (h : Call.Stepped pipeline call next result) : next.coming ⊆ pipeline.coming := by
  cases h with
  | refused | accepted | retryAccepted | proceededNone | toldBefore | toldEnd | toldPanic
  | toldAborted => exact List.Subset.refl _
  | retryRefused | proceeded | retried | missed | joined =>
      exact List.subset_append_right _ _

namespace Session

variable {session next : Session} {commons after : Commons}

/-! ### Points of a course -/

/-- A failure that the task can take is one that the run has handed in. -/
theorem Stands.announces (h : Stands session commons) (hidle : session.pipeline.task = .idle) :
    session.pipeline.engine.Announces := by
  cases h with
  | starting _ _ hpipeline | cycling _ _ hpipeline | failed _ _ hpipeline
  | placed _ _ hpipeline => exact hpipeline.announces
  | submitted _ _ hattends => exact hattends.announces
  | carried _ _ _ hattends => exact hattends.announces
  | stopping _ _ _ _ hstops =>
      rw [hidle] at hstops
      cases hstops
  | finished _ _ htask =>
      rw [hidle] at htask
      cases htask

/-- A retry under way was announced already. -/
theorem Stands.permitted (h : Stands session commons) {handling : Handling}
    (htask : session.pipeline.task = .handling handling) :
    handling.Permitted (Entry.Serves handling.signal) := by
  cases h with
  | starting _ _ hpipeline | cycling _ _ hpipeline | failed _ _ hpipeline
  | placed _ _ hpipeline => exact absurd htask (hpipeline.ne_handling handling)
  | submitted _ _ _ _ _ hidle => cases htask.symm.trans hidle
  | carried _ _ _ _ _ _ hcarried hcarries =>
      cases Pipeline.Task.eq_waiting_of_ofProgress (hcarried.symm.trans htask)
      obtain ⟨rfl, hpermitted⟩ := hcarries
      exact hpermitted
  | stopping _ _ _ _ hstops =>
      rw [htask] at hstops
      cases hstops
  | finished _ _ hover =>
      rw [htask] at hover
      cases hover

/-- When a failure is taken up nothing else is on its way. -/
theorem Stands.outbox_eq_none (h : Stands session commons) {failure : Option Failure}
    (hidle : session.pipeline.task = .idle) (hinbox : session.pipeline.inbox = some failure) :
    session.pipeline.outbox = none ∧ session.phase = .retrying .awaitSignal := by
  cases h with
  | starting _ _ hpipeline | cycling _ _ hpipeline | failed _ _ hpipeline
  | placed _ _ hpipeline => cases hpipeline.inbox.symm.trans hinbox
  | submitted _ hphase _ _ houtbox => exact ⟨houtbox, hphase⟩
  | carried _ _ _ _ hempty => cases hempty.symm.trans hinbox
  | stopping _ _ _ _ hstops =>
      rw [hidle] at hstops
      cases hstops
  | finished _ _ htask =>
      rw [hidle] at htask
      cases htask

/-- Between cycles none is running. -/
theorem Stands.cycle_eq_none (h : Stands session commons)
    (hphase : ∀ current, session.phase ≠ .cycling current) : commons.cycle = none := by
  cases h with
  | starting _ _ _ hcommons | failed _ _ _ hcommons | submitted _ _ _ _ _ _ hcommons
  | carried _ _ _ _ _ _ _ _ hcommons | placed _ _ _ hcommons | stopping _ _ _ _ _ hcommons
  | finished _ _ _ _ hcommons => exact hcommons.cycle
  | cycling _ hcycling => exact absurd hcycling (hphase _)

/-- In a cycle the pipeline is at rest. -/
theorem Stands.atRest_in_cycle (h : Stands session commons)
    {current : Suspended (Except Failure Unit)}
    (hphase : session.phase = .cycling current) :
    session.pipeline.AtRest none ∧ ∃ cycle, commons.cycle = some cycle := by
  cases h with
  | cycling _ _ hpipeline hcommons =>
      obtain ⟨cycle, hcycle, -⟩ := hcommons.cycle
      exact ⟨hpipeline, cycle, hcycle⟩
  | starting _ hother | failed _ hother | submitted _ hother | carried _ _ hother
  | placed _ hother => cases hother.symm.trans hphase
  | stopping _ hother =>
      rcases hother with hother | hother <;> cases hother.symm.trans hphase
  | finished _ hover =>
      rw [hphase] at hover
      cases hover

/-- While a failure is about to be handed in the pipeline is at rest. -/
theorem Stands.atRest_of_retry (h : Stands session commons) {failure : Option Failure}
    (hphase : session.phase = .retrying (.retry failure)) : session.pipeline.AtRest none := by
  cases h with
  | failed _ _ hpipeline => exact hpipeline
  | starting _ hother | cycling _ hother | submitted _ hother | carried _ _ hother
  | placed _ hother => cases hother.symm.trans hphase
  | stopping _ hother =>
      rcases hother with hother | hother <;> cases hother.symm.trans hphase
  | finished _ hover =>
      rw [hphase] at hover
      cases hover

/-- A retry under way is waited for with nothing else handed in. -/
theorem Stands.of_handling (h : Stands session commons) {handling : Handling}
    (htask : session.pipeline.task = .handling handling) :
    session.phase = .retrying .awaitSignal ∧ session.pipeline.inbox = none := by
  cases h with
  | starting _ _ hpipeline | cycling _ _ hpipeline | failed _ _ hpipeline
  | placed _ _ hpipeline => exact absurd htask (hpipeline.ne_handling handling)
  | submitted _ _ _ _ _ hidle => cases htask.symm.trans hidle
  | carried _ _ hphase _ hinbox => exact ⟨hphase, hinbox⟩
  | stopping _ _ _ _ hstops =>
      rw [htask] at hstops
      cases hstops
  | finished _ _ hover =>
      rw [htask] at hover
      cases hover

/-- The pipeline ends before its session does. -/
theorem Stands.task_isOver (h : Stands session commons) (hover : session.phase.isOver) :
    session.pipeline.task.isOver := by
  cases h with
  | finished _ _ htask => exact htask
  | starting _ hphase | cycling _ hphase | failed _ hphase | submitted _ hphase
  | carried _ _ hphase | placed _ hphase =>
      rw [hphase] at hover
      cases hover
  | stopping _ hphase =>
      rcases hphase with hphase | hphase <;> rw [hphase] at hover <;> cases hover

theorem Phase.error?_eq_some_iff {phase : Phase} {error : SessionError} :
    phase.error? = some error ↔ phase = .ended (.error error) := by
  cases phase with
  | ended result => cases result <;> simp [error?]
  | starting | cycling | retrying | panicked => simp [error?]

theorem result?_eq_some_iff {result : Except SessionError Unit} :
    session.result? = some result ↔ session.phase = .ended result := by
  rw [result?]
  cases session.phase <;> simp

/-! ### Steps of the run -/

/-- Of two sessions in a row, the second has no other signals on their way than the first, begins a
cycle next only if the first does or has a signal to begin it from, and has a task that has ended with
an error only if the first has. -/
structure Hands (session next : Session) : Prop where
  coming : next.pipeline.coming ⊆ session.pipeline.coming
  starting : ∀ mode, next.phase = .starting mode →
    session.phase = .starting mode ∨ ∃ signal ∈ session.pipeline.coming, mode = .after signal.stage
  ended : ∀ error, next.pipeline.task = .ended (.error error) →
    session.pipeline.task = .ended (.error error)

theorem isOver_of_step (hstep : session.step commons = some (next, after)) :
    session.phase.isOver = false := by
  refine Bool.eq_false_iff.2 fun hover => ?_
  cases (step_of_isOver hover).symm.trans hstep

/-- The task goes on only while the run does. -/
theorem Stands.isOver_of_stepped (h : Stands session commons) {pipeline : Pipeline}
    (hstep : session.pipeline.Stepped commons pipeline after) : session.phase.isOver = false :=
  Bool.eq_false_iff.2 fun hover =>
    Bool.eq_false_iff.1 hstep.isOver_eq_false (h.task_isOver hover)

/-- A step that leaves the pipeline alone, and does not begin a cycle next. -/
theorem hands_of_pipeline (hpipeline : next.pipeline = session.pipeline)
    (hphase : ∀ mode, next.phase ≠ .starting mode) : Hands session next := by
  refine ⟨?_, fun mode hmode => absurd hmode (hphase mode), fun error hended => ?_⟩
  · rw [hpipeline]
    exact List.Subset.refl _
  · rw [← hpipeline]
    exact hended

theorem Hands.trans {last : Session} (h : Hands session next) (hlast : Hands next last) :
    Hands session last := by
  refine ⟨List.Subset.trans hlast.coming h.coming, fun mode hmode => ?_, fun error hended =>
    h.ended error (hlast.ended error hended)⟩
  rcases hlast.starting mode hmode with hsame | ⟨signal, hsignal, hmode⟩
  · exact h.starting mode hsame
  · exact .inr ⟨signal, h.coming hsignal, hmode⟩

theorem hands_finish (session : Session) {phase : Phase} (hover : phase.isOver) :
    Hands session (session.finish phase) := by
  refine ⟨session.pipeline.coming_abort, ?_, fun error hended => ?_⟩
  · rintro mode rfl
    cases hover
  · rw [finish, Pipeline.abort] at hended
    dsimp only at hended
    split at hended
    · exact hended
    · cases hended

theorem hands_afterCycle (session : Session)
    (result : Commons × RoutineProgress (Except Failure Unit)) :
    Hands session (session.afterCycle result).1 := by
  obtain ⟨commons, (failure | ⟨⟨⟩⟩) | message | current⟩ := result
  · exact hands_of_pipeline rfl nofun
  · exact hands_finish session rfl
  · exact hands_finish session rfl
  · exact hands_of_pipeline rfl nofun

/-- Only a signal that was taken out begins a cycle. -/
theorem hands_called {call : Call} (hcalled : Called session commons call next after) :
    Hands session next := by
  cases hcalled with
  | waited hcall => exact ⟨hcall.coming_subset, nofun, fun _ => hcall.task_eq ▸ id⟩
  | @told reply pipeline _ _ hcall hafter =>
      have hnext : Hands session { session with pipeline, phase := .retrying call } :=
        ⟨hcall.coming_subset, nofun, fun _ => hcall.task_eq ▸ id⟩
      cases told_of_afterReply hafter with
      | signalled signal =>
          refine ⟨hcall.coming_subset, fun mode hmode => .inr ⟨signal, ?_, ?_⟩, hnext.ended⟩
          · exact List.mem_append_left _ (hcall.outbox_prefix.subset List.mem_cons_self)
          · cases hmode
            rfl
      | cancelled | failed | panicked => exact hnext.trans (hands_finish _ rfl)
      | accepted | proceeded | joined => exact hnext

theorem hands_of_step (hstep : session.step commons = some (next, after)) : Hands session next := by
  cases stepped_of_step hstep with
  | refused => exact hands_finish session rfl
  | @began mode =>
      rw [beginCycle_eq]
      have hhands := hands_afterCycle { session with cycles := session.cycles + 1 }
        ((session.connector (session.nextCycle mode commons)).poll
          (commons.opened (session.nextCycle mode commons)))
      exact ⟨hhands.coming, hhands.starting, hhands.ended⟩
  | abandoned =>
      rw [abandon]
      split
      · refine hands_of_pipeline rfl ?_
        intro mode hstarting
        cases hstarting
      · exact hands_finish session rfl
  | polled => exact hands_afterCycle session _
  | called _ hcalled => exact hands_called hcalled

theorem engine_of_step (hstep : session.step commons = some (next, after)) :
    next.pipeline.engine = session.pipeline.engine := by
  have hafter : ∀ (current : Session) (result : Commons × RoutineProgress (Except Failure Unit)),
      (current.afterCycle result).1.pipeline.engine = current.pipeline.engine := by
    intro current result
    obtain ⟨commons, (failure | ⟨⟨⟩⟩) | message | waiting⟩ := result <;> rfl
  cases stepped_of_step hstep with
  | refused => rfl
  | began => exact hafter _ _
  | abandoned =>
      rw [abandon]
      split <;> rfl
  | polled => exact hafter _ _
  | called _ hcalled =>
      cases hcalled with
      | waited hcall => exact hcall.engine_eq
      | told hcall hafter =>
          refine Eq.trans ?_ hcall.engine_eq
          cases told_of_afterReply hafter <;> rfl

/-- The run waits for a signal only after it has handed a failure in. -/
theorem handed_of_step (hstep : session.step commons = some (next, after))
    (hphase : next.phase = .retrying .awaitSignal) :
    ∃ cause, session.phase = .retrying (.retry cause) ∧ next.pipeline.inbox = some cause ∧
      after = commons := by
  have hafter : ∀ {current : Session} {result : Commons × RoutineProgress (Except Failure Unit)},
      (current.afterCycle result).1.phase ≠ .retrying .awaitSignal := by
    intro current result
    obtain ⟨commons, (failure | ⟨⟨⟩⟩) | message | waiting⟩ := result <;> nofun
  cases stepped_of_step hstep with
  | refused => cases hphase
  | began =>
      rw [beginCycle_eq] at hphase
      exact absurd hphase hafter
  | abandoned =>
      rw [abandon] at hphase
      split at hphase <;> cases hphase
  | polled => exact absurd hphase hafter
  | called hretrying hcalled =>
      cases hcalled with
      | waited hcall =>
          cases hphase
          cases hcall with
          | retryAccepted => exact ⟨_, hretrying, rfl, rfl⟩
      | told hcall hafter =>
          cases told_of_afterReply hafter with
          | signalled | cancelled | failed | panicked => cases hphase
          | accepted | proceeded | joined =>
              cases hphase
              cases hcall

/-- A run that takes a step has no retry under way. -/
theorem Stands.task_ne_handling (h : Stands session commons)
    (hstep : session.step commons = some (next, after)) (handling : Handling) :
    next.pipeline.task ≠ .handling handling := by
  intro htask
  have hmove : Session.move (session, commons) .run = some (next, after) := hstep
  obtain ⟨hphase, hempty⟩ := (h.moved hmove).of_handling htask
  obtain ⟨_, -, hhanded, -⟩ := handed_of_step hstep hphase
  cases hempty.symm.trans hhanded

/-! ### Cancellation -/

/-- The task of the pipeline has ended with the cancellation only if the token is cancelled. -/
def Settled (session : Session) (commons : Commons) : Prop :=
  session.pipeline.task = .ended (.error .cancelled) → commons.cancelled

theorem Settled.moved {course last : Session × Commons} {move : Move}
    (h : course.1.Settled course.2) (hmove : Session.move course move = some last) :
    last.1.Settled last.2 := by
  intro hended
  cases move with
  | run => exact cancelled_of_step (h ((hands_of_step hmove).ended _ hended)) hmove
  | task =>
      obtain ⟨⟨pipeline, after⟩, hstep, rfl⟩ := Option.map_eq_some_iff.1 hmove
      exact (Pipeline.stepped_of_step hstep).cancelled_of_ended hended
  | others deed =>
      cases hmove
      exact Commons.cancelled_perform deed _ (h hended)
  | wait millis =>
      cases hmove
      exact h hended

theorem Leads.settled {course last : Session × Commons} (h : Leads course last)
    (hsettled : course.1.Settled course.2) : last.1.Settled last.2 := by
  refine h.keeps (fun point => point.1.Settled point.2) ?_ hsettled
  intro before after next hmove hbefore
  exact hbefore.moved hmove

end Session

end Rejoin
