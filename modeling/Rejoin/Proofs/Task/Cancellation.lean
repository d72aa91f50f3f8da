import Rejoin.Proofs.Task.Conduct
import Rejoin.Proofs.Task.Delivery
import Rejoin.Proofs.Task.Parking

/-! Cancellation is final. From the moment the token is cancelled nothing is decided and no hook is
started any more, no signal is placed in the outbox, and the task has no other step left than to end
with the cancellation. Within the step in which a hook cancels the token the hooks behind it still
run, and an error that one of them returns in that step is what the task ends with. -/

namespace Rejoin

open Commons (Edit Edits)

/-! ### Errors of hooks -/

/-- The error that an entry tells a hook ended with. -/
def Entry.hookError? : Entry → Option HookError
  | .hookEnded _ (.error error) => some error
  | _ => none

theorem skipsDeeds_hookError : Commons.SkipsDeeds Entry.hookError? :=
  ⟨fun _ => rfl, fun _ => rfl, rfl, fun _ _ => rfl⟩

/-- The errors that hooks have returned, oldest first. -/
def Commons.hookErrors (commons : Commons) : List HookError := commons.read Entry.hookError?

/-- The error of a hook that a chain has come to. -/
def ChainProgress.hookError? : ChainProgress → Option HookError
  | .finished (.error error) => some error
  | _ => none

/-- The error of a hook that a failure has come to. -/
def HandlingProgress.hookError? : HandlingProgress → Option HookError
  | .finished (.error (.hook error)) => some error
  | _ => none

/-- The error of a hook that the task has ended with. -/
def Pipeline.Task.hookError? : Task → Option HookError
  | .ended (.error (.hook error)) => some error
  | _ => none

/-- Between the two points one hook has returned an error, which is this one, or none has. -/
def Commons.Returned (before after : Commons) (error? : Option HookError) : Prop :=
  after.hookErrors = before.hookErrors ++ error?.toList

theorem Commons.returned_none {before after : Commons}
    (h : after.hookErrors = before.hookErrors) : before.Returned after none :=
  h.trans (List.append_nil _).symm

theorem Commons.Returned.since {before between after : Commons} {error? : Option HookError}
    (h : between.Returned after error?) (hsame : between.hookErrors = before.hookErrors) :
    before.Returned after error? := by
  rw [Returned, ← hsame]
  exact h

namespace Hook

theorem hookErrors_start (hook : Hook) (signal : Signal) (commons : Commons) :
    (hook.start signal commons).1.hookErrors = commons.hookErrors := by
  cases hook with
  | announcer => exact Commons.read_record_of_none rfl commons
  | meter own => cases own <;> rfl
  | custom name run =>
      exact (run signal).poll_of_deed (fun after => after.hookErrors = commons.hookErrors)
        (fun deed h => (Commons.read_perform skipsDeeds_hookError deed _).trans h) rfl

theorem proceed_returned {before : Commons} {label : Label} {remaining : List Hook}
    {further : Commons → Commons × ChainProgress}
    (hfurther : ∀ commons : Commons,
      commons.Returned (further commons).1 (further commons).2.hookError?)
    {result : Commons × RoutineProgress (Except HookError Unit)}
    (h : result.1.hookErrors = before.hookErrors) :
    before.Returned (proceed label remaining further result).1
      (proceed label remaining further result).2.hookError? := by
  obtain ⟨commons, progress⟩ := result
  have hended := fun outcome => commons.read_record Entry.hookError? (.hookEnded label outcome)
  rcases progress with (error | ⟨⟨⟩⟩) | message | current
  · exact (hended _).trans (congrArg (· ++ [error]) h)
  · exact (hfurther _).since (((hended _).trans (List.append_nil _)).trans h)
  · exact Commons.returned_none h
  · exact Commons.returned_none h

theorem runAll_returned (signal : Signal) (hooks : List Hook) (commons : Commons) :
    commons.Returned (runAll signal hooks commons).1 (runAll signal hooks commons).2.hookError? := by
  induction hooks generalizing commons with
  | nil => exact Commons.returned_none rfl
  | cons hook remaining ih =>
      exact proceed_returned ih
        ((hook.hookErrors_start signal _).trans (Commons.read_record_of_none rfl commons))

end Hook

theorem Suspended.hookErrors_resume {Result : Type} (suspended : Suspended Result)
    (commons : Commons) : (suspended.resume commons).1.hookErrors = commons.hookErrors :=
  suspended.resume_of_deed (fun after => after.hookErrors = commons.hookErrors)
    (fun deed h => (Commons.read_perform skipsDeeds_hookError deed _).trans h) rfl

theorem ChainWait.resume_returned (wait : ChainWait) (signal : Signal) (commons : Commons) :
    commons.Returned (wait.resume signal commons).1 (wait.resume signal commons).2.hookError? :=
  Hook.proceed_returned (Hook.runAll_returned signal wait.remaining)
    (wait.current.hookErrors_resume commons)

namespace Engine

variable {engine : Engine} {before commons : Commons}

theorem afterDelay_returned (signal : Signal) {result : Commons × RoutineProgress Unit}
    (h : result.1.hookErrors = before.hookErrors) :
    before.Returned (afterDelay signal result).1 (afterDelay signal result).2.hookError? := by
  obtain ⟨commons, ⟨⟨⟩⟩ | message | current⟩ := result <;> exact Commons.returned_none h

theorem startDelay_returned (engine : Engine) (signal : Signal)
    (h : commons.hookErrors = before.hookErrors) :
    before.Returned (engine.startDelay signal commons).1
      (engine.startDelay signal commons).2.hookError? := by
  rw [startDelay]
  split
  · exact Commons.returned_none h
  · refine afterDelay_returned signal (Eq.trans ?_ h)
    exact (engine.policy.scheduler.sleep signal.backoff).poll_of_deed
      (fun after => after.hookErrors = commons.hookErrors)
      (fun deed h => (Commons.read_perform skipsDeeds_hookError deed _).trans h)
      (Commons.read_record_of_none rfl commons)

theorem afterHooks_returned (engine : Engine) (signal : Signal) {result : Commons × ChainProgress}
    (h : before.Returned result.1 result.2.hookError?) :
    before.Returned (engine.afterHooks signal result).1
      (engine.afterHooks signal result).2.hookError? := by
  obtain ⟨commons, progress⟩ := result
  rcases progress with (error | ⟨⟨⟩⟩) | message | wait
  · exact (Commons.read_log skipsDeeds_hookError.logged commons _).trans h
  · exact engine.startDelay_returned signal (h.trans (List.append_nil _))
  · exact h
  · exact h

/-- A failure comes to the error of a hook exactly if a hook returns one. -/
theorem start_returned (engine : Engine) (failure : Option Failure) (commons : Commons) :
    commons.Returned (engine.start failure commons).1
      (engine.start failure commons).2.hookError? := by
  have hdecided : (engine.decide failure commons).1.hookErrors = commons.hookErrors :=
    engine.read_decide_of_none failure commons (fun _ => rfl) fun _ _ => rfl
  cases hopen : commons.cancelled with
  | true =>
      rw [start_of_cancelled hopen]
      exact Commons.returned_none rfl
  | false =>
      cases hdecide : (engine.decide failure commons).2 with
      | ok signal =>
          rw [start_of_scheduled hopen hdecide]
          exact (engine.afterHooks_returned signal (Hook.runAll_returned signal _ _)).since hdecided
      | error error =>
          rw [start_of_refused hopen hdecide]
          rcases engine.policy.decide_outcome_error commons.counter
              (commons.draws commons.drawn) hdecide with
            ⟨-, rfl⟩ | ⟨_, -, rfl | ⟨_, rfl⟩⟩ <;> exact Commons.returned_none hdecided

theorem resume_returned (engine : Engine) (handling : Handling) (commons : Commons) :
    commons.Returned (engine.resume handling commons).1
      (engine.resume handling commons).2.hookError? := by
  rw [resume.eq_def]
  split
  · exact Commons.returned_none rfl
  · cases handling with
    | hooks signal wait => exact engine.afterHooks_returned signal (wait.resume_returned signal _)
    | delay signal current => exact afterDelay_returned signal (current.hookErrors_resume commons)

theorem afterDelay_ne_error (signal : Signal) (result : Commons × RoutineProgress Unit)
    (error : RetryError) : (afterDelay signal result).2 ≠ .finished (.error error) := by
  obtain ⟨commons, ⟨⟨⟩⟩ | message | current⟩ := result <;> nofun

/-! A failure comes to a cancellation only if the token is cancelled. -/

theorem startDelay_cancelled {signal : Signal}
    (h : (engine.startDelay signal commons).2 = .finished (.error .cancelled)) :
    (engine.startDelay signal commons).1.cancelled := by
  rw [startDelay] at h ⊢
  split at h
  case isTrue hcancelled =>
      rw [if_pos hcancelled]
      exact hcancelled
  case isFalse => exact absurd h (afterDelay_ne_error signal _ _)

theorem afterHooks_cancelled {signal : Signal} {result : Commons × ChainProgress}
    (h : (engine.afterHooks signal result).2 = .finished (.error .cancelled)) :
    (engine.afterHooks signal result).1.cancelled := by
  obtain ⟨commons, progress⟩ := result
  rcases progress with (own | ⟨⟨⟩⟩) | message | wait
  · cases h
  · exact startDelay_cancelled h
  · cases h
  · cases h

theorem decide_ne_cancelled (engine : Engine) (failure : Option Failure) (commons : Commons) :
    (engine.decide failure commons).2 ≠ .error .cancelled := by
  intro hdecide
  rcases engine.policy.decide_outcome_error commons.counter (commons.draws commons.drawn)
      hdecide with ⟨-, hmissing⟩ | ⟨_, -, hterminal | ⟨_, hexhausted⟩⟩
  · cases hmissing
  · cases hterminal
  · cases hexhausted

theorem start_cancelled {failure : Option Failure}
    (h : (engine.start failure commons).2 = .finished (.error .cancelled)) :
    (engine.start failure commons).1.cancelled := by
  cases hopen : commons.cancelled with
  | true =>
      rw [start_of_cancelled hopen]
      exact hopen
  | false =>
      cases hdecide : (engine.decide failure commons).2 with
      | error refused =>
          rw [start_of_refused hopen hdecide] at h
          cases h
          exact absurd hdecide (engine.decide_ne_cancelled failure commons)
      | ok signal =>
          rw [start_of_scheduled hopen hdecide] at h ⊢
          exact afterHooks_cancelled h

theorem resume_cancelled {handling : Handling}
    (h : (engine.resume handling commons).2 = .finished (.error .cancelled)) :
    (engine.resume handling commons).1.cancelled := by
  rw [resume.eq_def] at h ⊢
  by_cases hcancelled : commons.cancelled
  · rw [if_pos hcancelled]
    exact hcancelled
  · rw [if_neg hcancelled] at h ⊢
    cases handling with
    | hooks signal wait => exact afterHooks_cancelled h
    | delay signal current => exact absurd h (afterDelay_ne_error signal _ _)

end Engine

/-! ### Steps of the task -/

namespace Pipeline

variable {pipeline next : Pipeline} {commons after : Commons}

/-- The task ends with the cancellation only if the token is cancelled. -/
theorem Stepped.cancelled_of_ended (h : Stepped pipeline commons next after)
    (hended : next.task = .ended (.error .cancelled)) : after.cancelled := by
  have hprogress : ∀ {progress}, Task.ofProgress progress = .ended (.error .cancelled) →
      progress = .finished (.error .cancelled) := by
    rintro ((error | signal) | message | current) heq <;> cases heq
    rfl
  cases h with
  | cancelled _ hcancelled => exact hcancelled
  | closed | dropped | placed => cases hended
  | took => exact Engine.start_cancelled (hprogress hended)
  | resumed => exact Engine.resume_cancelled (hprogress hended)

theorem Task.hookError?_ofProgress (progress : HandlingProgress) :
    (ofProgress progress).hookError? = progress.hookError? := by
  rcases progress with (error | signal) | message | current
  · cases error <;> rfl
  · rfl
  · rfl
  · rfl

theorem Task.hookError?_of_running {task : Task} (h : task.isOver = false) :
    task.hookError? = none := by
  cases task with
  | idle | handling | offering => rfl
  | ended | panicked | aborted => cases h

/-- A step of the task ends it with the error of a hook exactly if a hook returns one in that step. -/
theorem Stepped.returned (h : Stepped pipeline commons next after) :
    commons.Returned after next.task.hookError? := by
  cases h with
  | cancelled | closed | placed => exact Commons.returned_none rfl
  | dropped => exact Commons.returned_none (Commons.read_log skipsDeeds_hookError.logged _ _)
  | took =>
      rw [Task.hookError?_ofProgress]
      exact pipeline.engine.start_returned _ commons
  | resumed =>
      rw [Task.hookError?_ofProgress]
      exact pipeline.engine.resume_returned _ commons

/-- What a failure comes to in a step in which the token is cancelled: it is still on its way, or
the task ends with the cancellation, a panic, or the error of a hook. -/
inductive Task.Survives : Task → Prop where
  | running {task : Task} (h : task.isOver = false) : Survives task
  | cancelled : Survives (.ended (.error .cancelled))
  | panicked (message : String) : Survives (.panicked message)
  | hook (error : HookError) : Survives (.ended (.error (.hook error)))

theorem Task.survives_of_carries {allowed : Entry → Prop} {signal : Signal}
    {progress : HandlingProgress} (h : Engine.Carries allowed signal progress) :
    Survives (ofProgress progress) := by
  rcases progress with (error | finished) | message | current
  · rcases h with rfl | ⟨inner, rfl⟩
    · exact .cancelled
    · exact .hook inner
  · exact .running rfl
  · exact .panicked message
  · exact .running rfl

theorem Stepped.survives (h : Stepped pipeline commons next after)
    (hopen : commons.cancelled = false) (hcancelled : after.cancelled) : next.task.Survives := by
  have hnot : ¬ commons.cancelled := Bool.eq_false_iff.1 hopen
  cases h with
  | cancelled _ hbefore => exact absurd hbefore hnot
  | closed | placed | dropped => exact absurd hcancelled hnot
  | @took _ _ failure =>
      cases hdecide : (pipeline.engine.decide failure commons).2 with
      | error error =>
          rw [Engine.start_of_refused hopen hdecide, Engine.cancelled_decide] at hcancelled
          exact absurd hcancelled hnot
      | ok signal => exact Task.survives_of_carries (Engine.start_carries hopen hdecide)
  | @resumed handling =>
      exact Task.survives_of_carries (pipeline.engine.resume_carries handling commons)

end Pipeline

/-! ### The exchange -/

/-- The hooks and delays of an engine may do anything but panic. -/
def Conduct.calm : Conduct := ⟨fun _ => True, False, fun _ => trivial⟩

namespace Exchange

variable {exchange next last : Exchange}

/-- What is left for an exchange whose token is cancelled, seen from any later point: no decision and
no hook is new, the owner has received no more than the signal that was in the outbox already and can
still receive it as long as it keeps the pipeline, and a task that was not over has gone nowhere but
to its end. -/
structure Concludes (exchange last : Exchange) : Prop where
  cancelled : last.commons.cancelled
  decisions : last.commons.decisions = exchange.commons.decisions
  begun : last.commons.begun = exchange.commons.begun
  signals : last.received ++ last.pipeline.outbox.toList <+:
    exchange.received ++ exchange.pipeline.outbox.toList
  kept : last.pipeline.accepting → last.received ++ last.pipeline.outbox.toList =
    exchange.received ++ exchange.pipeline.outbox.toList
  task : last.pipeline.task = exchange.pipeline.task ∨
    exchange.pipeline.task.isOver = false ∧ last.pipeline.task = .ended (.error .cancelled)

theorem concludes_self (h : exchange.commons.cancelled) : exchange.Concludes exchange :=
  ⟨h, rfl, rfl, List.prefix_rfl, fun _ => rfl, .inl rfl⟩

namespace Concludes

theorem answered (h : exchange.Concludes next) {call : Call} {pipeline : Pipeline}
    {result : Call ⊕ Reply} (hstep : Call.Stepped next.pipeline call pipeline result) :
    exchange.Concludes (next.settle call pipeline result) := by
  refine ⟨h.cancelled, h.decisions, h.begun, ?_, ?_, ?_⟩
  · refine List.IsPrefix.trans ?_ h.signals
    rw [settle, List.append_assoc]
    exact (List.prefix_append_right_inj _).2 hstep.outbox_prefix
  · intro hopen
    obtain ⟨haccepting, houtbox⟩ := hstep.outbox_eq hopen
    rw [← h.kept haccepting, houtbox, settle, List.append_assoc]
  · change pipeline.task = _ ∨ _ ∧ pipeline.task = _
    rw [hstep.task_eq]
    exact h.task

theorem withdraw (h : exchange.Concludes next) (call : Call) :
    exchange.Concludes (next.withdraw call) := by
  obtain ⟨hcancelled, hdecisions, hbegun, hsignals, hkept, htask⟩ := h
  cases call with
  | awaitEnd retrying =>
      cases retrying with
      | true => exact ⟨hcancelled, hdecisions, hbegun, hsignals, hkept, htask⟩
      | false => exact ⟨hcancelled, hdecisions, hbegun, hsignals, nofun, htask⟩
  | submit | proceed | retry | awaitSignal | join =>
      exact ⟨hcancelled, hdecisions, hbegun, hsignals, hkept, htask⟩

/-- The only step left to the task is to its end. -/
theorem stepped (h : exchange.Concludes next) {pipeline : Pipeline} {commons : Commons}
    (hstep : next.pipeline.Stepped next.commons pipeline commons) :
    exchange.Concludes { next with pipeline, commons } := by
  have hrunning := hstep.isOver_eq_false
  obtain ⟨rfl, rfl⟩ := hstep.of_cancelled h.cancelled
  refine ⟨h.cancelled, h.decisions, h.begun, h.signals, h.kept, .inr ⟨?_, rfl⟩⟩
  rcases h.task with hsame | ⟨hbefore, _⟩
  · rw [← hsame]
    exact hrunning
  · exact hbefore

theorem moved (hmoved : next.Moved last) (h : exchange.Concludes next) :
    exchange.Concludes last := by
  cases hmoved with
  | task hstep => exact h.stepped hstep
  | called => exact ⟨h.cancelled, h.decisions, h.begun, h.signals, h.kept, h.task⟩
  | answered _ hstep => exact h.answered hstep
  | gaveUp => exact h.withdraw _
  | others deed =>
      refine ⟨Commons.cancelled_perform deed _ h.cancelled, ?_, ?_, h.signals, h.kept, h.task⟩
      · exact (Commons.read_perform skipsDeeds_decision deed _).trans h.decisions
      · exact (Commons.read_perform skipsDeeds_begun deed _).trans h.begun
  | waited => exact ⟨h.cancelled, h.decisions, h.begun, h.signals, h.kept, h.task⟩

end Concludes

/-- The moves that are left: the task ends with the cancellation if it is not over, and nothing but
what others do touches the counter. -/
structure Halts (exchange : Exchange) : Prop where
  ends : exchange.pipeline.task.isOver = false → exchange.move .task = some { exchange with
    pipeline := { exchange.pipeline with task := .ended (.error .cancelled) } }
  halted : exchange.pipeline.task.isOver → exchange.move .task = none
  counter : ∀ move next, exchange.move move = some next → (∀ deed, move ≠ .others deed) →
    next.commons.counter = exchange.commons.counter

/-- The owner's calls and the passing of time leave the counter and the token alone. -/
theorem move_cases {move : Move} (h : exchange.move move = some next) :
    move = .task ∨ (∃ deed, move = .others deed) ∨
      (next.commons.counter = exchange.commons.counter ∧
        next.commons.cancelled = exchange.commons.cancelled) := by
  cases move with
  | task => exact .inl rfl
  | others deed => exact .inr (.inl ⟨deed, rfl⟩)
  | call call =>
      obtain ⟨-, hcalled⟩ := Option.ite_none_right_eq_some.1 h
      cases hcalled
      exact .inr (.inr ⟨rfl, rfl⟩)
  | answer =>
      obtain ⟨call, -, hanswer⟩ := Option.bind_eq_some_iff.1 h
      obtain ⟨_, -, rfl⟩ := Option.map_eq_some_iff.1 hanswer
      exact .inr (.inr ⟨rfl, rfl⟩)
  | giveUp =>
      obtain ⟨call, -, hgive⟩ := Option.bind_eq_some_iff.1 h
      obtain ⟨-, hgiven⟩ := Option.ite_none_right_eq_some.1 hgive
      cases hgiven
      exact .inr (.inr ⟨rfl, rfl⟩)
  | wait millis =>
      cases h
      exact .inr (.inr ⟨rfl, rfl⟩)

theorem halts_of_cancelled (h : exchange.commons.cancelled) : exchange.Halts where
  ends hrunning := move_task (Pipeline.step_of_cancelled hrunning h)
  halted hover := by rw [move, Pipeline.step_of_isOver hover, Option.map_none]
  counter move next hmove hothers := by
    rcases move_cases hmove with rfl | ⟨deed, rfl⟩ | ⟨hcounter, -⟩
    · obtain ⟨⟨pipeline, commons⟩, hstep, rfl⟩ := Option.map_eq_some_iff.1 hmove
      obtain ⟨-, rfl⟩ := (Pipeline.stepped_of_step hstep).of_cancelled h
      rfl
    · exact absurd rfl (hothers deed)
    · exact hcounter

/-- The move in which the token is cancelled. -/
structure Cancels (before next : Exchange) : Prop where
  open_before : before.commons.cancelled = false
  cancelled : next.commons.cancelled
  moved : ∃ move, before.move move = some next

/-- What the task has come to, at the last point, if its token was cancelled in the move from
`before` to `next`: it was over before, or a hook returned an error in that very move and the task
ended with it, or no hook did and there is no end but the cancellation. -/
inductive Settles (before next last : Exchange) : Prop where
  | finished (hover : before.pipeline.task.isOver) (hsame : last.pipeline.task = before.pipeline.task)
  | failed {error : HookError} (hrunning : before.pipeline.task.isOver = false)
      (hreturned : next.commons.hookErrors = before.commons.hookErrors ++ [error])
      (hended : last.pipeline.task = .ended (.error (.hook error)))
  | cancelled (hrunning : before.pipeline.task.isOver = false)
      (hreturned : next.commons.hookErrors = before.commons.hookErrors)
      (hended : last.pipeline.task.isOver → last.pipeline.task = .ended (.error .cancelled))

theorem Settles.concluded {before : Exchange} (h : before.Settles next exchange)
    (hconcludes : exchange.Concludes last) : before.Settles next last := by
  rcases hconcludes.task with hsame | ⟨hrunning, hended⟩
  · cases h with
    | finished hover hbefore => exact .finished hover (hsame.trans hbefore)
    | failed hrunning hreturned hended => exact .failed hrunning hreturned (hsame.trans hended)
    | cancelled hrunning hreturned hended => exact .cancelled hrunning hreturned (hsame ▸ hended)
  · cases h with
    | finished hover hbefore =>
        rw [hbefore] at hrunning
        exact absurd hover (Bool.eq_false_iff.1 hrunning)
    | failed _ _ hfailed =>
        rw [hfailed] at hrunning
        cases hrunning
    | cancelled hbefore hreturned => exact .cancelled hbefore hreturned fun _ => hended

/-- How the task of an exchange ends whose token is cancelled, from the start or since some move on
the way from the first point to the last. -/
structure Ends (first last : Exchange) : Prop where
  since : first.commons.cancelled ∨
    ∃ before next, first.Reaches before ∧ before.Cancels next ∧ next.Reaches last
  start : first.commons.cancelled → last.pipeline.task.isOver →
    last.pipeline.task = .ended (.error .cancelled)
  settles : ∀ before next, first.Reaches before → before.Cancels next → next.Reaches last →
    before.Settles next last

/-- Hooks and delays that do not panic leave no panic behind. -/
theorem Reaches.task_keepsTo {engine : Engine} {commons : Commons} {conduct : Conduct}
    (hengine : engine.KeepsTo conduct) (h : (initial engine commons).Reaches exchange) :
    exchange.pipeline.engine.KeepsTo conduct ∧ exchange.pipeline.task.KeepsTo conduct := by
  refine h.invariant (fun exchange => exchange.pipeline.engine.KeepsTo conduct ∧
    exchange.pipeline.task.KeepsTo conduct) ?_ ⟨hengine, trivial⟩
  rintro before after hmoved ⟨hbefore, htask⟩
  cases hmoved with
  | task hstep =>
      have hpreserved : Commons.Preserved conduct fun _ => True :=
        ⟨fun _ _ => trivial, fun _ _ _ _ _ => trivial, fun _ => trivial, fun _ => trivial⟩
      refine ⟨hstep.engine_eq ▸ hbefore, ?_⟩
      exact (hstep.upholds hpreserved (fun _ _ _ => trivial) (fun _ _ => trivial) hbefore htask
        trivial).2
  | answered _ hstep => exact ⟨hstep.engine_eq ▸ hbefore, hstep.task_eq ▸ htask⟩
  | @gaveUp call =>
      cases call with
      | awaitEnd retrying => cases retrying <;> exact ⟨hbefore, htask⟩
      | submit | proceed | retry | awaitSignal | join => exact ⟨hbefore, htask⟩
  | called | others | waited => exact ⟨hbefore, htask⟩

/-- The moment of a cancellation: others cancel the token, which leaves the task where it is, or a
hook or a delay does in a step of the task. -/
theorem Cancels.settles (h : exchange.Cancels next)
    (hcalm : next.pipeline.task.KeepsTo .calm) : exchange.Settles next next := by
  obtain ⟨hopen, hcancelled, move, hmove⟩ := h
  rcases move_cases hmove with rfl | ⟨deed, rfl⟩ | ⟨-, hsame⟩
  · obtain ⟨⟨pipeline, commons⟩, hstep, rfl⟩ := Option.map_eq_some_iff.1 hmove
    have hstepped := Pipeline.stepped_of_step hstep
    have hrunning := hstepped.isOver_eq_false
    have hreturned := hstepped.returned
    have hsurvives := hstepped.survives hopen hcancelled
    generalize hended : pipeline.task = task at hreturned hsurvives
    cases hsurvives with
    | running hgoing =>
        rw [Pipeline.Task.hookError?_of_running hgoing] at hreturned
        refine .cancelled hrunning (hreturned.trans (List.append_nil _)) fun hover => ?_
        rw [hended, hgoing] at hover
        cases hover
    | cancelled =>
        exact .cancelled hrunning (hreturned.trans (List.append_nil _)) fun _ => hended
    | panicked message =>
        rw [hended] at hcalm
        exact hcalm.elim
    | hook error => exact .failed hrunning hreturned hended
  · cases hmove
    cases hover : exchange.pipeline.task.isOver with
    | true => exact .finished hover rfl
    | false =>
        refine .cancelled hover (Commons.read_perform skipsDeeds_hookError deed _) fun hended => ?_
        exact absurd hended (Bool.eq_false_iff.1 hover)
  · rw [hsame, hopen] at hcancelled
    cases hcancelled

theorem Concludes.reaches (hcancelled : exchange.commons.cancelled) (h : exchange.Reaches last) :
    exchange.Concludes last :=
  h.invariant exchange.Concludes (fun hmoved hbefore => hbefore.moved hmoved)
    (concludes_self hcancelled)

/-- A token that is cancelled has been so from the start, or was cancelled in some move. -/
theorem Reaches.exists_cancels (h : exchange.Reaches last) (hcancelled : last.commons.cancelled) :
    exchange.commons.cancelled ∨
      ∃ before next, exchange.Reaches before ∧ before.Cancels next ∧ next.Reaches last := by
  induction h with
  | refl => exact .inl hcancelled
  | @tail before after hbefore hlast ih =>
      cases hopen : before.commons.cancelled with
      | false => exact .inr ⟨before, after, hbefore, ⟨hopen, hcancelled, hlast⟩, .refl⟩
      | true =>
          rcases ih hopen with hstart | ⟨earlier, next, hearlier, hcancels, hnext⟩
          · exact .inl hstart
          · exact .inr ⟨earlier, next, hearlier, hcancels, hnext.tail hlast⟩

theorem Reaches.ends {engine : Engine} {commons : Commons} (hcalm : engine.KeepsTo .calm)
    (h : (initial engine commons).Reaches last) (hcancelled : last.commons.cancelled) :
    (initial engine commons).Ends last where
  since := h.exists_cancels hcancelled
  start hstart hover := by
    rcases (Concludes.reaches hstart h).task with hidle | ⟨-, hended⟩
    · rw [hidle] at hover
      cases hover
    · exact hended
  settles before next hbefore hcancels hlast := by
    have hnext : (initial engine commons).Reaches next := hbefore.tail hcancels.moved
    exact (hcancels.settles (hnext.task_keepsTo hcalm).2).concluded
      (Concludes.reaches hcancels.cancelled hlast)

/-- An owner that is not in the middle of a call can receive the signal in the outbox, whether or not
the token is cancelled. -/
theorem exists_receives {signal : Signal} (houtbox : exchange.pipeline.outbox = some signal)
    (hpending : exchange.pending = none) (hstays : exchange.joining = false) :
    ∃ called next, exchange.move (.call .proceed) = some called ∧
      called.move .answer = some next ∧ next.received = exchange.received ++ [signal] := by
  have hcall : exchange.move (.call .proceed) =
      some { exchange with pending := some .proceed, joining := false } := by
    rw [move, hpending, hstays]
    rfl
  have hanswer : move { exchange with pending := some .proceed, joining := false } .answer =
      some (settle { exchange with pending := some .proceed, joining := false } .proceed
        { exchange.pipeline with outbox := none } (.inr (.proceeded (some signal)))) := by
    rw [move, Option.bind_some, Call.step, Call.takeOut, houtbox]
    rfl
  exact ⟨_, _, hcall, hanswer, rfl⟩

/-- **Cancellation is final.** Once the token is cancelled nothing is decided any more, no hook is
started, the pipeline leaves the counter alone, and the owner receives at most the signal that is in
the outbox already, which stays there to be received as long as the pipeline is kept. The task ends
with the cancellation, unless it was over before or a hook returned an error in the step in which the
token was cancelled. -/
theorem Reaches.cancellation_is_final {engine : Engine} {commons : Commons}
    (hcalm : engine.KeepsTo .calm) (h : (initial engine commons).Reaches exchange)
    (hcancelled : exchange.commons.cancelled) :
    (∀ last, exchange.Reaches last →
      exchange.Concludes last ∧ last.Halts ∧ (initial engine commons).Ends last) ∧
    ∀ signal, exchange.pipeline.outbox = some signal → exchange.pending = none →
      exchange.joining = false → ∃ called next, exchange.move (.call .proceed) = some called ∧
        called.move .answer = some next ∧ next.received = exchange.received ++ [signal] := by
  refine ⟨fun last hlast => ?_, fun signal => exists_receives⟩
  have hconcludes := Concludes.reaches hcancelled hlast
  exact ⟨hconcludes, halts_of_cancelled hconcludes.cancelled,
    (h.trans hlast).ends hcalm hconcludes.cancelled⟩

/-- The token is cancelled while a signal waits in the outbox and the next one waits for room. -/
theorem cancellation_is_final_when_crowded :
    ∃ exchange, (initial { policy := .prompt } .initial).Reaches exchange ∧
      exchange.commons.cancelled ∧ exchange.Parked ∧
      ∀ last, exchange.Reaches last → exchange.Concludes last ∧ last.Halts ∧
        (initial { policy := .prompt } .initial).Ends last := by
  have hcalm : Engine.KeepsTo .calm { policy := .prompt } := ⟨nofun, fun _ => trivial⟩
  have hrun : ((initial { policy := .prompt } .initial).run
      [.call (.submit (some (.closed ⟨4000, none⟩))), .answer, .task, .task,
        .call (.submit (some (.closed ⟨4001, none⟩))), .answer, .task, .others .cancel]).map
      (fun exchange => decide (exchange.commons.cancelled ∧ exchange.Parked)) = some true := by
    decide +kernel
  obtain ⟨exchange, hmoves, hview⟩ := Option.map_eq_some_iff.1 hrun
  obtain ⟨hcancelled, hparked⟩ := of_decide_eq_true hview
  have hreaches := reaches_of_run hmoves
  exact ⟨exchange, hreaches, hcancelled, hparked,
    (hreaches.cancellation_is_final hcalm hcancelled).1⟩

end Exchange

/-- The error that an entry tells a hook ended with, if it ended with one. -/
def Entry.returned? : Entry → Option (Option HookError)
  | .hookEnded _ (.ok ()) => some none
  | .hookEnded _ (.error error) => some (some error)
  | _ => none

/-- The first hook cancels the token and is fine with it, and the second one fails. -/
def Hook.quarrel : List Hook :=
  [.custom "cancels" fun _ => .act .cancel (.done (.ok ())),
    .custom "fails" fun _ => .done (.error (.message "no"))]

/-- The hook that cancels the token returns no error, and yet the task does not end with the
cancellation: the hook behind it still runs in the same step. -/
theorem Exchange.exists_failed_after_cancelling : ∃ exchange next,
    (initial { policy := .prompt, hooks := Hook.quarrel } .initial).Reaches exchange ∧
      exchange.commons.cancelled = false ∧ exchange.pipeline.task.isOver = false ∧
      exchange.move .task = some next ∧ next.commons.cancelled ∧
      next.commons.read Entry.returned? = [none, some (.message "no")] ∧
      next.pipeline.task.error? = some (.hook (.message "no")) := by
  have hrun : ((initial { policy := .prompt, hooks := Hook.quarrel } .initial).run
      [.call (.submit (some (.closed ⟨4000, none⟩))), .answer]).bind (fun exchange =>
        (exchange.move .task).map fun next => decide (exchange.commons.cancelled = false ∧
          exchange.pipeline.task.isOver = false ∧ next.commons.cancelled ∧
          next.commons.read Entry.returned? = [none, some (.message "no")] ∧
          next.pipeline.task.error? = some (.hook (.message "no")))) = some true := by
    decide +kernel
  obtain ⟨exchange, hmoves, hrest⟩ := Option.bind_eq_some_iff.1 hrun
  obtain ⟨next, hmove, hview⟩ := Option.map_eq_some_iff.1 hrest
  obtain ⟨hopen, hrunning, hcancelled, hreturned, herror⟩ := of_decide_eq_true hview
  exact ⟨exchange, next, reaches_of_run hmoves, hopen, hrunning, hmove, hcancelled, hreturned,
    herror⟩

end Rejoin
