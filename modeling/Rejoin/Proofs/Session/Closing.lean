import Rejoin.Proofs.Session.Course

/-! The end of a closed session. From the moment its token is cancelled a session can only come to
its end. It ends well if the task of its pipeline has not failed by then, whatever others do. A task
that has failed by then is not forgiven: its error is what the run ends with and says farewell with,
and its panic is that of the run. -/

namespace Rejoin

/-- The final disconnect that an entry tells the session published itself. -/
def Entry.farewell? : Entry → Option Change
  | .published change => if change.stage = .disconnected then some change else none
  | _ => none

namespace Commons

/-- The final disconnects that the session published itself. -/
def farewells (commons : Commons) : List Change := commons.read Entry.farewell?

theorem farewells_perform (deed : Deed) (commons : Commons) :
    (deed.perform commons).farewells = commons.farewells :=
  read_perform ⟨fun _ => rfl, fun _ => rfl, rfl, fun _ _ => rfl⟩ deed commons

theorem farewells_log (commons : Commons) (entry : LogEntry) :
    (commons.log entry).farewells = commons.farewells := read_log (fun _ => rfl) commons entry

/-- Whatever cycle there is, it is to be abandoned. -/
theorem abandoned_of_cancelled {commons : Commons} (h : commons.cancelled) : commons.abandoned :=
  Bool.or_eq_true_iff.2 (.inl h)

end Commons

namespace Pipeline

/-- Over by an error other than the cancellation, or by a panic. -/
def Task.Failed : Task → Prop
  | .ended (.error error) => ¬ error.isCancelled
  | .panicked _ => True
  | .idle | .handling _ | .offering _ | .ended (.ok ()) | .aborted => False

instance : DecidablePred Task.Failed
  | .ended (.error error) => inferInstanceAs (Decidable ¬ error.isCancelled)
  | .panicked _ => .isTrue trivial
  | .idle | .handling _ | .offering _ | .ended (.ok ()) | .aborted => .isFalse id

/-- What a run ends with once it learns how its task failed. -/
inductive Task.Fate : Task → Session.Phase → Prop where
  | error {error : RetryError} (hother : ¬ error.isCancelled) :
      Fate (.ended (.error error)) (.ended (.error (.retry error)))
  | panic (message : String) : Fate (.panicked message) (.panicked message)

theorem Task.Fate.isOver {task : Task} {fate : Session.Phase} (h : task.Fate fate) :
    fate.isOver := by
  cases h <;> rfl

theorem Task.Fate.task_isOver {task : Task} {fate : Session.Phase} (h : task.Fate fate) :
    task.isOver := by
  cases h <;> rfl

theorem not_failed_abort {pipeline : Pipeline} (h : ¬ pipeline.task.Failed) :
    ¬ pipeline.abort.task.Failed := by
  rw [abort]
  dsimp only
  split
  · exact h
  · exact id

end Pipeline

/-- A reply that a closed session takes for its end, or for the start of its last cycle. -/
def Reply.Sound : Reply → Prop
  | .retried (.error error) => error.isCancelled
  | .panicked _ => False
  | .accepted _ | .proceeded _ | .retried (.ok _) | .joined _ => True

theorem Call.Stepped.sound {pipeline next : Pipeline} {call : Call} {reply : Reply}
    (h : Call.Stepped pipeline call next (.inr reply)) (htask : ¬ pipeline.task.Failed) :
    reply.Sound := by
  cases h with
  | refused | accepted | proceeded | proceededNone | retried => trivial
  | @toldBefore retrying => cases retrying <;> trivial
  | @toldEnd retrying result _ hended =>
      rw [hended] at htask
      rcases retrying with _ | _
      · trivial
      · rcases result with error | ⟨⟨⟩⟩
        · have hcancelled : error.isCancelled := Decidable.not_not.1 htask
          exact hcancelled
        · exact rfl
  | toldPanic _ hpanicked =>
      rw [hpanicked] at htask
      exact absurd trivial htask
  | @toldAborted retrying => cases retrying <;> trivial

/-- A task that is over is told of. -/
theorem Call.exists_told {pipeline : Pipeline} (hover : pipeline.task.isOver) :
    ∃ next reply, (Call.awaitEnd true).step pipeline = some (next, .inr reply) ∧
      ((∃ result, reply = .ofEnd true result) ∨ ∃ message, reply = .panicked message) := by
  rw [step, report]
  split
  · exact ⟨_, _, rfl, .inl ⟨_, rfl⟩⟩
  · cases htask : pipeline.task with
    | ended | aborted => exact ⟨_, _, rfl, .inl ⟨_, rfl⟩⟩
    | panicked => exact ⟨_, _, rfl, .inr ⟨_, rfl⟩⟩
    | idle | handling | offering =>
        rw [htask] at hover
        cases hover

namespace Session

variable {session next last : Session} {before commons after : Commons}

/-- The steps of a run whose token is cancelled: no cycle begins, and none is carried on. -/
inductive Closes (session : Session) (commons : Commons) : Session → Commons → Prop where
  | ended {mode : Mode} (hphase : session.phase = .starting mode) :
      Closes session commons (session.finish (.ended (.ok ()))) commons
  | abandoned {current : Suspended (Except Failure Unit)} (hphase : session.phase = .cycling current) :
      Closes session commons (session.abandon commons).1 (session.abandon commons).2
  | called {call : Call} (hphase : session.phase = .retrying call) {next : Session}
      {after : Commons} (hcalled : Called session commons call next after) :
      Closes session commons next after

theorem closes_of_step (hcancelled : commons.cancelled)
    (hstep : session.step commons = some (next, after)) : Closes session commons next after := by
  cases stepped_of_step hstep with
  | refused hphase => exact .ended hphase
  | began _ hopen => exact absurd hcancelled (Bool.eq_false_iff.1 hopen)
  | abandoned hphase => exact .abandoned hphase
  | polled _ hkept =>
      exact absurd (Commons.abandoned_of_cancelled hcancelled) (Bool.eq_false_iff.1 hkept)
  | called hphase hcalled => exact .called hphase hcalled

/-- On the way to a good end. -/
structure Closing (session : Session) (commons : Commons) : Prop where
  cancelled : commons.cancelled
  task : ¬ session.pipeline.task.Failed
  ending : session.phase.isOver → session.phase = .ended (.ok ())

namespace Closing

theorem of_running (hcancelled : commons.cancelled) (htask : ¬ session.pipeline.task.Failed)
    (hrunning : session.phase.isOver = false) : Closing session commons :=
  ⟨hcancelled, htask, fun hover => by cases hover.symm.trans hrunning⟩

variable (h : Closing session commons)

include h

theorem finish (hcancelled : after.cancelled) : Closing (session.finish (.ended (.ok ()))) after :=
  ⟨hcancelled, Pipeline.not_failed_abort h.task, fun _ => rfl⟩

/-- The cycle gives way to its end, or to a failure that will be refused. -/
theorem abandon : Closing (session.abandon commons).1 (session.abandon commons).2 := by
  rw [Session.abandon]
  split
  · exact .of_running h.cancelled h.task rfl
  · exact h.finish h.cancelled

theorem afterReply {reply : Reply} (hsound : reply.Sound) :
    Closing (session.afterReply commons reply).1 (session.afterReply commons reply).2 := by
  cases reply with
  | retried result =>
      cases result with
      | ok signal => exact .of_running h.cancelled h.task rfl
      | error error =>
          have hcancelled : error.isCancelled := hsound
          rw [Session.afterReply, stopWith]
          dsimp only
          rw [if_pos hcancelled]
          exact h.finish h.cancelled
  | panicked => exact hsound.elim
  | accepted | proceeded | joined => exact h

theorem run (hstep : session.step commons = some (next, after)) : Closing next after := by
  cases closes_of_step h.cancelled hstep with
  | ended => exact h.finish h.cancelled
  | abandoned => exact h.abandon
  | @called call _ _ _ hcalled =>
      cases hcalled with
      | waited hcall => exact .of_running h.cancelled (hcall.task_eq ▸ h.task) rfl
      | @told reply pipeline _ _ hcall hafter =>
          have hnext : Closing { session with pipeline, phase := .retrying call } commons :=
            .of_running h.cancelled (hcall.task_eq ▸ h.task) rfl
          exact holds_of_eq hafter (hnext.afterReply (hcall.sound h.task))

theorem moved {move : Move} {course : Session × Commons}
    (hmove : Session.move (session, commons) move = some course) : Closing course.1 course.2 := by
  cases move with
  | run => exact h.run hmove
  | task =>
      obtain ⟨⟨pipeline, after⟩, hstep, rfl⟩ := Option.map_eq_some_iff.1 hmove
      obtain ⟨rfl, rfl⟩ := (Pipeline.stepped_of_step hstep).of_cancelled h.cancelled
      exact ⟨h.cancelled, not_not_intro rfl, h.ending⟩
  | others deed =>
      cases hmove
      exact ⟨Commons.cancelled_perform deed _ h.cancelled, h.task, h.ending⟩
  | wait millis =>
      cases hmove
      exact ⟨h.cancelled, h.task, h.ending⟩

end Closing

theorem Leads.closing {course last : Session × Commons} (h : Leads course last)
    (hclosing : Closing course.1 course.2) : Closing last.1 last.2 := by
  refine h.keeps (fun point => Closing point.1 point.2) ?_ hclosing
  intro before after next hmove hbefore
  exact hbefore.moved hmove

/-! ### A task that has failed -/

/-- The run is about to learn how its task failed, or has come to the end that this means for it. -/
inductive Learns (task : Pipeline.Task) (fate : Phase) (session : Session) : Prop
  | waiting (hphase : session.phase = .retrying .awaitSignal ∨
        session.phase = .retrying (.awaitEnd true))
      (hreported : session.pipeline.reported = false) (houtbox : session.pipeline.outbox = none)
      (htask : session.pipeline.task = task)
  | ended (hphase : session.phase = fate)

/-- The task has ended with an error that the run is about to learn of, or has learnt of. -/
abbrev Doomed (error : RetryError) : Session → Prop :=
  Learns (.ended (.error error)) (.ended (.error (.retry error)))

section Learns

variable {task : Pipeline.Task} {fate : Phase}

/-- A run learns of every failure, and only while it waits for its pipeline. -/
theorem Stands.learns (h : Stands session commons) (hrunning : session.phase.isOver = false)
    (hfate : task.Fate fate) (htask : session.pipeline.task = task) : Learns task fate session := by
  have hrest : ∀ {outbox}, ¬ session.pipeline.AtRest outbox := by
    intro outbox hpipeline
    rcases hpipeline.task with hidle | hended
    · cases htask.symm.trans hidle
      cases hfate
    · cases htask.symm.trans hended
      cases hfate with
      | error hother => exact hother rfl
  cases h with
  | starting _ _ hpipeline | cycling _ _ hpipeline | failed _ _ hpipeline
  | placed _ _ hpipeline => exact absurd hpipeline hrest
  | submitted _ _ _ _ _ hidle =>
      cases htask.symm.trans hidle
      cases hfate
  | carried _ _ hphase hattends _ houtbox =>
      exact .waiting (.inl hphase) hattends.reported houtbox htask
  | stopping _ hphase hreported houtbox => exact .waiting hphase hreported houtbox htask
  | finished _ hover => cases hover.symm.trans hrunning

theorem Stands.doomed (h : Stands session commons) {error : RetryError}
    (hrunning : session.phase.isOver = false)
    (htask : session.pipeline.task = .ended (.error error)) (herror : ¬ error.isCancelled) :
    Doomed error session :=
  h.learns hrunning (.error herror) htask

namespace Learns

variable (h : Learns task fate session) (hfate : task.Fate fate)

include h hfate

theorem run (hstep : session.step commons = some (next, after)) : Learns task fate next := by
  cases h with
  | ended hphase =>
      have hover : session.phase.isOver := hphase ▸ hfate.isOver
      cases (step_of_isOver hover).symm.trans hstep
  | waiting hphase hreported houtbox htask =>
      rcases hphase with hphase | hphase
      · cases called_of_step hphase hstep with
        | told hcall =>
            cases hcall with
            | retried htaken => cases houtbox.symm.trans htaken
        | waited hcall =>
            cases hcall with
            | missed => exact .waiting (.inr rfl) hreported rfl htask
      · cases called_of_step hphase hstep with
        | waited hcall => cases hcall
        | told hcall hafter =>
            have htold := told_of_afterReply hafter
            subst htask
            cases hcall with
            | toldBefore hbefore => cases hreported.symm.trans hbefore
            | toldAborted _ haborted =>
                rw [haborted] at hfate
                cases hfate
            | toldPanic _ hpanicked =>
                rw [hpanicked] at hfate
                cases hfate
                cases htold with
                | panicked => exact .ended rfl
            | toldEnd _ hended =>
                rw [hended] at hfate
                cases hfate with
                | error hother =>
                    cases htold with
                    | cancelled hcancelled => exact absurd hcancelled hother
                    | failed => exact .ended rfl

theorem moved {move : Move} {course : Session × Commons}
    (hmove : Session.move (session, commons) move = some course) : Learns task fate course.1 := by
  cases move with
  | run => exact h.run hfate hmove
  | task =>
      obtain ⟨⟨pipeline, after⟩, hstep, rfl⟩ := Option.map_eq_some_iff.1 hmove
      cases h with
      | ended hphase => exact .ended hphase
      | waiting _ _ _ htask =>
          have hover : session.pipeline.task.isOver := htask ▸ hfate.task_isOver
          cases (Pipeline.step_of_isOver hover).symm.trans hstep
  | others | wait =>
      cases hmove
      exact h

omit hfate in
theorem phase_eq (hover : session.phase.isOver) : session.phase = fate := by
  cases h with
  | waiting hphase =>
      rcases hphase with hphase | hphase <;> rw [hphase] at hover <;> cases hover
  | ended hphase => exact hphase

end Learns

theorem Leads.learns {course last : Session × Commons} (h : Leads course last)
    (hfate : task.Fate fate) (hlearns : Learns task fate course.1) : Learns task fate last.1 := by
  refine h.keeps (fun point => Learns task fate point.1) ?_ hlearns
  intro before after next hmove hbefore
  exact hbefore.moved hfate hmove

end Learns

/-! ### The final disconnect -/

/-- Since a point of the shared state, the session has published one final disconnect of its own if its
run has ended with an error, and none otherwise. -/
structure Parts (before : Commons) (session : Session) (commons : Commons) : Prop where
  silent : session.phase.error? = none → commons.farewells = before.farewells
  told : ∀ error, session.phase.error? = some (.retry error) → ∃ status,
    commons.farewells = before.farewells ++ [.disconnected (.stopAbruptly error.text) status]

theorem Parts.of_silent (hfarewells : commons.farewells = before.farewells)
    (herror : session.phase.error? = none) : Parts before session commons :=
  ⟨fun _ => hfarewells, fun _ htold => by cases herror.symm.trans htold⟩

theorem Phase.error?_eq_none {phase : Phase} (h : phase.isOver = false) : phase.error? = none := by
  cases phase with
  | starting | cycling | retrying => rfl
  | ended | panicked => cases h

theorem Parts.run (h : Parts before session commons) (hcancelled : commons.cancelled)
    (hstep : session.step commons = some (next, after)) : Parts before next after := by
  have hrunning : session.phase.isOver = false := Bool.eq_false_iff.2 fun hover => by
    cases (step_of_isOver hover).symm.trans hstep
  have hsame := h.silent (Phase.error?_eq_none hrunning)
  cases closes_of_step hcancelled hstep with
  | ended => exact .of_silent hsame rfl
  | abandoned =>
      rw [abandon]
      split
      · exact .of_silent ((Commons.farewells_log _ _).trans hsame) rfl
      · exact .of_silent hsame rfl
  | called _ hcalled =>
      cases hcalled with
      | waited => exact .of_silent hsame rfl
      | told _ hafter =>
          cases told_of_afterReply hafter with
          | @failed error =>
              refine ⟨fun hnone => (by cases hnone), fun other hother => ⟨finalStatus error, ?_⟩⟩
              cases hother
              exact (Commons.read_record _ _ _).trans
                (congrArg (· ++ _) ((Commons.farewells_log _ _).trans hsame))
          | signalled | cancelled | panicked | accepted | proceeded | joined =>
              exact .of_silent hsame rfl

/-! ### Closed for good -/

theorem cancelled_of_step (hcancelled : commons.cancelled)
    (hstep : session.step commons = some (next, after)) : after.cancelled := by
  cases closes_of_step hcancelled hstep with
  | ended => exact hcancelled
  | abandoned =>
      rw [abandon]
      split <;> exact hcancelled
  | called _ hcalled =>
      cases hcalled.informs with
      | unchanged | counted | announced => exact hcancelled

theorem cancelled_of_move {course last : Session × Commons} {next : Move}
    (hcancelled : course.2.cancelled) (hmove : Session.move course next = some last) :
    last.2.cancelled := by
  cases next with
  | run => exact cancelled_of_step hcancelled hmove
  | task =>
      obtain ⟨⟨pipeline, after⟩, hstep, rfl⟩ := Option.map_eq_some_iff.1 hmove
      obtain ⟨-, rfl⟩ := (Pipeline.stepped_of_step hstep).of_cancelled hcancelled
      exact hcancelled
  | others deed =>
      cases hmove
      exact Commons.cancelled_perform deed _ hcancelled
  | wait =>
      cases hmove
      exact hcancelled

theorem Leads.cancelled {course last : Session × Commons} (h : Leads course last)
    (hcancelled : course.2.cancelled) : last.2.cancelled := by
  refine h.keeps (fun point => point.2.cancelled) ?_ hcancelled
  intro before after next hmove hbefore
  exact cancelled_of_move hbefore hmove

theorem Parts.moved {course last : Session × Commons} {next : Move}
    (h : Parts before course.1 course.2) (hcancelled : course.2.cancelled)
    (hmove : Session.move course next = some last) : Parts before last.1 last.2 := by
  cases next with
  | run => exact h.run hcancelled hmove
  | task =>
      obtain ⟨⟨pipeline, after⟩, hstep, rfl⟩ := Option.map_eq_some_iff.1 hmove
      obtain ⟨-, rfl⟩ := (Pipeline.stepped_of_step hstep).of_cancelled hcancelled
      exact ⟨h.silent, h.told⟩
  | others deed =>
      cases hmove
      have hsame := Commons.farewells_perform deed course.2
      exact ⟨fun hnone => hsame.trans (h.silent hnone),
        fun error herror => (h.told error herror).imp fun _ => hsame.trans⟩
  | wait =>
      cases hmove
      exact ⟨h.silent, h.told⟩

theorem Leads.parts {course last : Session × Commons} (h : Leads course last)
    (hcancelled : course.2.cancelled) (hparts : Parts before course.1 course.2) :
    Parts before last.1 last.2 := by
  have hboth : last.2.cancelled ∧ Parts before last.1 last.2 := by
    refine h.keeps (fun point => point.2.cancelled ∧ Parts before point.1 point.2) ?_
      ⟨hcancelled, hparts⟩
    rintro between after next hmove ⟨hbetween, hsofar⟩
    exact ⟨cancelled_of_move hbetween hmove, hsofar.moved hbetween hmove⟩
  exact hboth.2

/-! ### The way to the end -/

/-- The steps that a closed run is from its end, at most, once its task is over. -/
def Phase.remaining : Phase → Nat
  | .ended _ | .panicked _ => 0
  | .starting _ | .retrying (.awaitEnd _) => 1
  | .retrying .awaitSignal => 2
  | .retrying _ => 3
  | .cycling _ => 4

theorem Phase.remaining_eq_zero_iff (phase : Phase) : phase.remaining = 0 ↔ phase.isOver := by
  cases phase with
  | ended | panicked => exact ⟨fun _ => rfl, fun _ => rfl⟩
  | starting | cycling => exact ⟨nofun, nofun⟩
  | retrying call => cases call <;> exact ⟨nofun, nofun⟩

theorem step_of_called {call later : Call} {pipeline : Pipeline}
    (hphase : session.phase = .retrying call)
    (hcall : call.step session.pipeline = some (pipeline, .inl later)) :
    session.step commons = some ({ session with pipeline, phase := .retrying later }, commons) := by
  obtain ⟨connector, own, phase, cycles⟩ := session
  cases hphase
  exact congrArg (Option.map _) hcall

theorem step_of_replied {call : Call} {reply : Reply} {pipeline : Pipeline}
    (hphase : session.phase = .retrying call)
    (hcall : call.step session.pipeline = some (pipeline, .inr reply)) :
    session.step commons = some ({ session with pipeline }.afterReply commons reply) := by
  obtain ⟨connector, own, phase, cycles⟩ := session
  cases hphase
  exact congrArg (Option.map _) hcall

/-- Closed, with the task over: only the run has steps left, and it waits for nothing but a retry. -/
structure Alone (session : Session) (commons : Commons) : Prop where
  cancelled : commons.cancelled
  task : session.pipeline.task.isOver
  call : ∀ call, session.phase = .retrying call →
    call = .awaitSignal ∨ call = .awaitEnd true ∨ ∃ failure, call = .retry failure

/-- Still alone, and nearer to the end than a phase. -/
def Nears (phase : Phase) (next : Session) (after : Commons) : Prop :=
  next.Alone after ∧ next.phase.remaining < phase.remaining

section Nears

variable {phase : Phase} (hrunning : phase.isOver = false)

include hrunning

theorem nears_of_isOver (hcancelled : after.cancelled) (htask : next.pipeline.task.isOver)
    (hover : next.phase.isOver) : Nears phase next after := by
  refine ⟨⟨hcancelled, htask, fun call hcall => ?_⟩, ?_⟩
  · rw [hcall] at hover
    cases hover
  · rw [next.phase.remaining_eq_zero_iff.2 hover]
    exact Nat.pos_of_ne_zero fun hzero =>
      Bool.eq_false_iff.1 hrunning (phase.remaining_eq_zero_iff.1 hzero)

/-- A run that learns how its task ended is over. -/
theorem nears_stopWith (session : Session) (error : RetryError) (hcancelled : commons.cancelled) :
    Nears phase (session.stopWith error commons).1 (session.stopWith error commons).2 := by
  rw [stopWith]
  dsimp only
  split
  · exact nears_of_isOver hrunning hcancelled (isOver_finish _ _) rfl
  · exact nears_of_isOver hrunning hcancelled (isOver_finish _ _) rfl

theorem nears_afterEnd (session : Session) (result : Except RetryError Unit)
    (hcancelled : commons.cancelled) :
    Nears phase (session.afterReply commons (.ofEnd true result)).1
      (session.afterReply commons (.ofEnd true result)).2 := by
  rcases result with error | ⟨⟨⟩⟩
  · exact nears_stopWith hrunning session error hcancelled
  · exact nears_stopWith hrunning session .cancelled hcancelled

end Nears

namespace Alone

variable (h : session.Alone commons)

include h

theorem nears_abandon {current : Suspended (Except Failure Unit)} :
    Nears (.cycling current) (session.abandon commons).1 (session.abandon commons).2 := by
  rw [abandon]
  split
  · refine ⟨⟨h.cancelled, h.task, fun call hcall => ?_⟩, Nat.lt_succ_self 3⟩
    cases hcall
    exact .inr (.inr ⟨_, rfl⟩)
  · exact nears_of_isOver rfl h.cancelled (isOver_finish _ _) rfl

/-- The pipeline refuses the failure, has one last signal, or tells how the task ended. -/
theorem nears_called {call : Call} (hphase : session.phase = .retrying call) :
    ∃ next after, session.step commons = some (next, after) ∧ Nears session.phase next after := by
  have hended : ∀ pipeline : Pipeline, pipeline.task.isOver → 1 < session.phase.remaining →
      Nears session.phase { session with pipeline, phase := .retrying (.awaitEnd true) }
        commons := by
    intro pipeline hover hfar
    refine ⟨⟨h.cancelled, hover, fun later hlater => ?_⟩, hfar⟩
    cases hlater
    exact .inr (.inl rfl)
  have hrunning : session.phase.isOver = false := by rw [hphase]; rfl
  rcases h.call call hphase with rfl | rfl | ⟨failure, rfl⟩
  · have hfar : 1 < session.phase.remaining := by rw [hphase]; exact Nat.le_refl 2
    cases houtbox : session.pipeline.outbox with
    | some signal =>
        have hcall : Call.awaitSignal.step session.pipeline =
            some ({ session.pipeline with outbox := none }, .inr (.retried (.ok signal))) := by
          rw [Call.step, Call.takeOut, houtbox]
          rfl
        refine ⟨_, _, step_of_replied hphase hcall, ⟨h.cancelled, h.task, ?_⟩, hfar⟩
        intro later hlater
        cases hlater
    | none =>
        have hcall := Call.step_awaitSignal_of_isOver h.task houtbox
        exact ⟨_, _, step_of_called hphase hcall, hended _ h.task hfar⟩
  · obtain ⟨pipeline, reply, hcall, hreply⟩ := Call.exists_told h.task
    refine ⟨_, _, step_of_replied hphase hcall, ?_⟩
    rcases hreply with ⟨result, rfl⟩ | ⟨message, rfl⟩
    · exact nears_afterEnd hrunning _ result h.cancelled
    · exact nears_of_isOver hrunning h.cancelled (isOver_finish _ _) rfl
  · have hfar : 1 < session.phase.remaining := by rw [hphase]; exact Nat.le_succ 2
    have hcall := Call.step_retry_of_isOver h.task failure
    exact ⟨_, _, step_of_called hphase hcall, hended _ h.task hfar⟩

theorem step (hrunning : session.phase.isOver = false) : ∃ next after,
    session.step commons = some (next, after) ∧ Nears session.phase next after := by
  cases hphase : session.phase with
  | starting mode =>
      rw [Session.step, hphase]
      dsimp only
      rw [if_pos h.cancelled]
      exact ⟨_, _, rfl, nears_of_isOver rfl h.cancelled (isOver_finish _ _) rfl⟩
  | cycling current =>
      rw [Session.step, hphase]
      dsimp only
      rw [if_pos (Commons.abandoned_of_cancelled h.cancelled)]
      exact ⟨_, _, rfl, h.nears_abandon⟩
  | retrying call => exact hphase ▸ h.nears_called hphase
  | ended | panicked =>
      rw [hphase] at hrunning
      cases hrunning

theorem exists_over : ∃ final, Leads (session, commons) final ∧ final.1.phase.isOver := by
  induction hremaining : session.phase.remaining using Nat.strongRecOn
    generalizing session commons with
  | ind count ih =>
      cases hrunning : session.phase.isOver with
      | true => exact ⟨_, .refl, hrunning⟩
      | false =>
          obtain ⟨next, after, hstep, halone, hnear⟩ := h.step hrunning
          obtain ⟨final, hleads, hover⟩ := ih _ (hremaining ▸ hnear) halone rfl
          exact ⟨final, hleads.head ⟨.run, hstep⟩, hover⟩

end Alone

theorem Stands.alone (h : Stands session commons) (hcancelled : commons.cancelled)
    (htask : session.pipeline.task.isOver) : session.Alone commons := by
  refine ⟨hcancelled, htask, fun call hcall => ?_⟩
  cases h with
  | starting _ hphase | cycling _ hphase => cases hphase.symm.trans hcall
  | failed _ hphase =>
      cases hphase.symm.trans hcall
      exact .inr (.inr ⟨_, rfl⟩)
  | submitted _ hphase | carried _ _ hphase | placed _ hphase =>
      cases hphase.symm.trans hcall
      exact .inl rfl
  | stopping _ hphase =>
      rcases hphase with hphase | hphase
      · cases hphase.symm.trans hcall
        exact .inl rfl
      · cases hphase.symm.trans hcall
        exact .inr (.inl rfl)
  | finished _ hover =>
      rw [hcall] at hover
      cases hover

/-- One step of the task and a few of the run are all that is left. -/
theorem Stands.exists_over (h : Stands session commons) (hcancelled : commons.cancelled) :
    ∃ final, Leads (session, commons) final ∧ final.1.phase.isOver := by
  cases htask : session.pipeline.task.isOver with
  | true => exact (h.alone hcancelled htask).exists_over
  | false =>
      have hstep := Pipeline.step_of_cancelled htask hcancelled
      have hstands := h.task (Pipeline.stepped_of_step hstep)
      obtain ⟨final, hleads, hover⟩ := (hstands.alone hcancelled rfl).exists_over
      exact ⟨final, hleads.head ⟨.task, Option.map_eq_some_iff.2 ⟨_, hstep, rfl⟩⟩, hover⟩

/-- **The end of a closed session.** Wherever a running session goes once its token is cancelled, it
can be brought to its end by steps of its own. If the task of its pipeline has not failed by the
time, the run ends well and publishes no final disconnect. If the task has ended with an error, the
run ends with that error and publishes one, and if it has panicked, so does the run. -/
theorem Leads.closed {policy : Policy} {hooks : List Hook}
    {connector : Cycle → Routine (Except Failure Unit)} (hhooks : .announcer ∉ hooks)
    (h : Leads (initial policy hooks connector, fresh before) (session, commons))
    (hcancelled : commons.cancelled) (hrunning : session.phase.isOver = false)
    (hlater : Leads (session, commons) (last, after)) :
    (¬ session.pipeline.task.Failed → (last.phase.isOver → last.phase = .ended (.ok ())) ∧
      last.phase.error? = none ∧ after.farewells = commons.farewells) ∧
    (∀ error, session.pipeline.task = .ended (.error error) → ¬ error.isCancelled →
      last.phase.isOver → last.phase = .ended (.error (.retry error)) ∧ ∃ status,
        after.farewells = commons.farewells ++ [.disconnected (.stopAbruptly error.text) status]) ∧
    (∀ message, session.pipeline.task = .panicked message → last.phase.isOver →
      last.phase = .panicked message ∧ after.farewells = commons.farewells) ∧
    ∃ final, Leads (last, after) final ∧ final.1.phase.isOver := by
  have hstands := h.stands (stands_initial policy hhooks connector before)
  have hparts := hlater.parts hcancelled (.of_silent rfl (Phase.error?_eq_none hrunning))
  have hlearns : ∀ {task fate}, session.pipeline.task = task → task.Fate fate →
      last.phase.isOver → last.phase = fate := by
    intro task fate htask hfate
    exact (hlater.learns hfate (hstands.learns hrunning hfate htask)).phase_eq
  refine ⟨fun htask => ?_, fun error htask herror hover => ?_, fun message htask hover => ?_, ?_⟩
  · have hclosing := hlater.closing (.of_running hcancelled htask hrunning)
    have herror : last.phase.error? = none := by
      cases hover : last.phase.isOver with
      | false => exact Phase.error?_eq_none hover
      | true => rw [hclosing.ending hover]; rfl
    exact ⟨hclosing.ending, herror, hparts.silent herror⟩
  · have hphase := hlearns htask (.error herror) hover
    exact ⟨hphase, hparts.told error (by rw [hphase]; rfl)⟩
  · have hphase := hlearns htask (.panic message) hover
    exact ⟨hphase, hparts.silent (by rw [hphase]; rfl)⟩
  · exact (hlater.stands hstands).exists_over (Leads.cancelled hlater hcancelled)

/-- A session whose only cycle must not be followed by another. Closed for good just before the run
learns of it, the run still ends with the error; closed one step of the task earlier, it ends well. -/
theorem closed_when_refused :
    (∃ closed last : Session × Commons,
      Leads (initial .prompt [] fun _ => .done (.error .partialDisconnect), fresh .initial) closed ∧
      closed.2.cancelled ∧ closed.1.phase.isOver = false ∧ Leads closed last ∧
      last.1.phase = .ended (.error (.retry (.terminal .partialDisconnect))) ∧ ∃ status,
        last.2.farewells = closed.2.farewells ++
          [.disconnected (.stopAbruptly (RetryError.text (.terminal .partialDisconnect))) status]) ∧
    ∃ closed last : Session × Commons,
      Leads (initial .prompt [] fun _ => .done (.error .partialDisconnect), fresh .initial) closed ∧
      closed.2.cancelled ∧ closed.1.phase.isOver = false ∧ Leads closed last ∧
      last.1.phase = .ended (.ok ()) ∧ last.2.farewells = closed.2.farewells := by
  refine ⟨?_, ?_⟩
  · have hmoves : ((follow (initial .prompt [] fun _ => .done (.error .partialDisconnect),
        fresh .initial) [.run, .run, .task, .others (.close .stop .normal)]).bind fun closed =>
          (follow closed [.run, .run]).map fun last => decide (
            closed.2.cancelled ∧ closed.1.phase.isOver = false ∧ last.1.phase.isOver ∧
            closed.1.pipeline.task.error? = some (.terminal .partialDisconnect))) = some true := by
      decide +kernel
    obtain ⟨closed, last, hclosed, hlast, hview⟩ := leads_of_follow_follow hmoves
    obtain ⟨hcancelled, hrunning, hover, herror⟩ := of_decide_eq_true hview
    have htask := Pipeline.Task.error?_eq_some_iff.1 herror
    obtain ⟨hphase, hfarewells⟩ := (hclosed.closed List.not_mem_nil hcancelled hrunning hlast).2.1
      _ htask (by decide) hover
    exact ⟨closed, last, hclosed, hcancelled, hrunning, hlast, hphase, hfarewells⟩
  · have hmoves : ((follow (initial .prompt [] fun _ => .done (.error .partialDisconnect),
        fresh .initial) [.run, .run, .others (.close .stop .normal)]).bind fun closed =>
          (follow closed [.task, .run, .run]).map fun last => decide (
            closed.2.cancelled ∧ closed.1.phase.isOver = false ∧ last.1.phase.isOver ∧
            ¬ closed.1.pipeline.task.Failed)) = some true := by
      decide +kernel
    obtain ⟨closed, last, hclosed, hlast, hview⟩ := leads_of_follow_follow hmoves
    obtain ⟨hcancelled, hrunning, hover, htask⟩ := of_decide_eq_true hview
    obtain ⟨hphase, -, hfarewells⟩ :=
      (hclosed.closed List.not_mem_nil hcancelled hrunning hlast).1 htask
    exact ⟨closed, last, hclosed, hcancelled, hrunning, hlast, hphase hover, hfarewells⟩

/-- A hook that closes the session for good and fails in the same breath. -/
def closesAndFails : Hook :=
  .custom "closes" fun _ => .act (.close .stop .normal) (.done (.error (.message "no")))

/-- The run is still waiting for its pipeline when a hook closes the session. It ends with the error of
that hook, and publishes a final disconnect. -/
theorem exists_error_after_closing :
    ∃ closed last : Session × Commons,
      Leads (initial .prompt [closesAndFails] fun _ => .done (.error (.closed ⟨4000, none⟩)),
        fresh .initial) closed ∧
      closed.2.cancelled ∧ closed.1.phase.isOver = false ∧ closed.2.farewells = [] ∧
      Leads closed last ∧ last.1.phase.error? = some (.retry (.hook (.message "no"))) ∧
      last.2.farewells = [.disconnected (.stopAbruptly "pre-retry hook failed: no") .abnormal] := by
  have hmoves : ((follow (initial .prompt [closesAndFails] fun _ =>
      .done (.error (.closed ⟨4000, none⟩)), fresh .initial) [.run, .run, .task]).bind fun closed =>
        (follow closed [.run, .run]).map fun last => decide (
          closed.2.cancelled ∧ closed.1.phase.isOver = false ∧ closed.2.farewells = [] ∧
          last.1.phase.error? = some (.retry (.hook (.message "no"))) ∧
          last.2.farewells =
            [.disconnected (.stopAbruptly "pre-retry hook failed: no") .abnormal])) = some true := by
    decide +kernel
  obtain ⟨closed, last, hclosed, hlast, hview⟩ := leads_of_follow_follow hmoves
  obtain ⟨hcancelled, hrunning, hnone, herror, hfarewells⟩ := of_decide_eq_true hview
  exact ⟨closed, last, hclosed, hcancelled, hrunning, hnone, hlast, herror, hfarewells⟩

end Session

end Rejoin
