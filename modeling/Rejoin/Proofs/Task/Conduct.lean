import Rejoin.Proofs.Task.Steps

/-! What hooks, delays and connectors are trusted with. A conduct says which deeds they may do and
whether they may panic. Whoever keeps to a conduct up to some wait keeps to it from then on, and what
the deeds of a conduct preserve is preserved by every step of a task whose hooks and delays keep to
it. -/

namespace Rejoin

structure Conduct where
  deed : Deed → Prop
  panics : Prop
  /-- Counting a retry elsewhere is what the second kind of meter does. -/
  counts : ∀ signal, deed (.countElsewhere signal)

variable (conduct : Conduct)

/-- A routine keeps to a conduct, whatever it observes. -/
def Routine.KeepsTo {Result : Type} : Routine Result → Prop
  | .done _ => True
  | .panic _ => conduct.panics
  | .act deed next => conduct.deed deed ∧ next.KeepsTo
  | .observe next => ∀ commons, (next commons).KeepsTo
  | .sleep _ next | .untilAbandoned next => next.KeepsTo

/-- Whatever is waited for keeps to the conduct, and there is no panic that it rules out. -/
def Progress.KeepsTo {Waiting Result : Type} (waits : Waiting → Prop) :
    Progress Waiting Result → Prop
  | .finished _ => True
  | .panicked _ => conduct.panics
  | .waiting wait => waits wait

def Hook.KeepsTo : Hook → Prop
  | .announcer | .meter _ => True
  | .custom _ run => ∀ signal, (run signal).KeepsTo conduct

namespace Suspended

def KeepsTo {Result : Type} (suspended : Suspended Result) : Prop := suspended.next.KeepsTo conduct

end Suspended

/-- What is left of a chain keeps to the conduct. -/
structure ChainWait.KeepsTo (wait : ChainWait) : Prop where
  current : wait.current.KeepsTo conduct
  remaining : ∀ hook ∈ wait.remaining, hook.KeepsTo conduct

def Handling.KeepsTo : Handling → Prop
  | .hooks _ wait => wait.KeepsTo conduct
  | .delay _ current => current.KeepsTo conduct

structure Engine.KeepsTo (engine : Engine) : Prop where
  hooks : ∀ hook ∈ engine.hooks, hook.KeepsTo conduct
  scheduler : ∀ delay, (engine.policy.scheduler.sleep delay).KeepsTo conduct

def Pipeline.Task.KeepsTo : Pipeline.Task → Prop
  | .handling current => current.KeepsTo conduct
  | .panicked _ => conduct.panics
  | .idle | .offering _ | .ended _ | .aborted => True

/-- What the deeds of a conduct, the entries about retries, and counts preserve. -/
structure Commons.Preserved (holds : Commons → Prop) : Prop where
  deed : ∀ {deed commons}, conduct.deed deed → holds commons → holds (deed.perform commons)
  serves : ∀ signal {entry commons}, entry.Serves signal → holds commons →
    holds (commons.record entry)
  announced : ∀ {signal commons}, holds commons →
    holds (commons.record (.published (.retrying signal)))
  counted : ∀ {tally commons}, holds commons →
    holds { commons with metrics := commons.metrics.count tally }

/-- So far what is preserved holds, and whatever is waited for keeps to the conduct. -/
structure Progress.Upholds {Waiting Result : Type} (holds : Commons → Prop)
    (waits : Waiting → Prop) (result : Commons × Progress Waiting Result) : Prop where
  holds : holds result.1
  keeps : result.2.KeepsTo conduct waits

variable {conduct} {holds : Commons → Prop}

theorem Routine.poll_upholds {Result : Type} {routine : Routine Result}
    (hroutine : routine.KeepsTo conduct)
    (hdeed : ∀ {deed commons}, conduct.deed deed → holds commons → holds (deed.perform commons))
    {commons : Commons} (h : holds commons) :
    Progress.Upholds conduct holds (Suspended.KeepsTo conduct) (routine.poll commons) := by
  induction routine generalizing commons with
  | done => exact ⟨h, trivial⟩
  | panic => exact ⟨h, hroutine⟩
  | act deed next ih => exact ih hroutine.2 (hdeed hroutine.1 h)
  | observe next ih => exact ih commons (hroutine commons) h
  | sleep millis next ih | untilAbandoned next ih =>
      rw [poll]
      split
      · exact ih hroutine h
      · exact ⟨h, hroutine⟩

theorem Suspended.resume_upholds {Result : Type} {suspended : Suspended Result}
    (hsuspended : suspended.KeepsTo conduct)
    (hdeed : ∀ {deed commons}, conduct.deed deed → holds commons → holds (deed.perform commons))
    {commons : Commons} (h : holds commons) :
    Progress.Upholds conduct holds (KeepsTo conduct) (suspended.resume commons) := by
  rw [resume]
  split
  · exact Routine.poll_upholds hsuspended hdeed h
  · exact ⟨h, hsuspended⟩

/-! ### Hooks -/

section Chain

variable (hpreserved : Commons.Preserved conduct holds) (signal : Signal)

include hpreserved signal

namespace Hook

theorem start_upholds {hook : Hook} (hhook : hook.KeepsTo conduct) {commons : Commons}
    (h : holds commons) :
    Progress.Upholds conduct holds (Suspended.KeepsTo conduct) (hook.start signal commons) := by
  cases hook with
  | announcer => exact ⟨hpreserved.announced h, trivial⟩
  | meter own =>
      cases own with
      | true => exact ⟨hpreserved.counted h, trivial⟩
      | false => exact ⟨hpreserved.deed (conduct.counts signal) h, trivial⟩
  | custom name run => exact Routine.poll_upholds (hhook signal) hpreserved.deed h

theorem proceed_upholds {label : Label} {remaining : List Hook}
    (hremaining : ∀ hook ∈ remaining, hook.KeepsTo conduct)
    {further : Commons → Commons × ChainProgress}
    (hfurther : ∀ {commons}, holds commons →
      Progress.Upholds conduct holds (ChainWait.KeepsTo conduct) (further commons))
    {result : Commons × RoutineProgress (Except HookError Unit)}
    (h : Progress.Upholds conduct holds (Suspended.KeepsTo conduct) result) :
    Progress.Upholds conduct holds (ChainWait.KeepsTo conduct)
      (proceed label remaining further result) := by
  obtain ⟨commons, progress⟩ := result
  obtain ⟨hholds, hkeeps⟩ := h
  have hended : ∀ outcome, holds (commons.record (.hookEnded label outcome)) := fun _ =>
    hpreserved.serves signal trivial hholds
  rcases progress with (error | ⟨⟨⟩⟩) | message | current
  · exact ⟨hended _, trivial⟩
  · exact hfurther (hended _)
  · exact ⟨hholds, hkeeps⟩
  · exact ⟨hholds, hkeeps, hremaining⟩

theorem runAll_upholds {hooks : List Hook} (hhooks : ∀ hook ∈ hooks, hook.KeepsTo conduct)
    {commons : Commons} (h : holds commons) :
    Progress.Upholds conduct holds (ChainWait.KeepsTo conduct) (runAll signal hooks commons) := by
  induction hooks generalizing commons with
  | nil => exact ⟨h, trivial⟩
  | cons hook remaining ih =>
      obtain ⟨hhook, hremaining⟩ := List.forall_mem_cons.1 hhooks
      exact proceed_upholds hpreserved signal hremaining (ih hremaining)
        (start_upholds hpreserved signal hhook (hpreserved.serves signal rfl h))

end Hook

theorem ChainWait.resume_upholds {wait : ChainWait} (hwait : wait.KeepsTo conduct)
    {commons : Commons} (h : holds commons) :
    Progress.Upholds conduct holds (KeepsTo conduct) (wait.resume signal commons) :=
  Hook.proceed_upholds hpreserved signal hwait.remaining
    (Hook.runAll_upholds hpreserved signal hwait.remaining)
    (Suspended.resume_upholds hwait.current hpreserved.deed h)

/-! ### The engine -/

namespace Engine

omit hpreserved in
theorem afterDelay_upholds {result : Commons × RoutineProgress Unit}
    (h : Progress.Upholds conduct holds (Suspended.KeepsTo conduct) result) :
    Progress.Upholds conduct holds (Handling.KeepsTo conduct) (afterDelay signal result) := by
  obtain ⟨commons, progress⟩ := result
  obtain ⟨hholds, hkeeps⟩ := h
  rcases progress with ⟨⟨⟩⟩ | message | current
  · exact ⟨hholds, trivial⟩
  · exact ⟨hholds, hkeeps⟩
  · exact ⟨hholds, hkeeps⟩

variable {engine : Engine} (hengine : engine.KeepsTo conduct)

include hengine

theorem startDelay_upholds {commons : Commons} (h : holds commons) :
    Progress.Upholds conduct holds (Handling.KeepsTo conduct)
      (engine.startDelay signal commons) := by
  rw [startDelay]
  split
  · exact ⟨h, trivial⟩
  · exact afterDelay_upholds signal
      (Routine.poll_upholds (hengine.scheduler _) hpreserved.deed (hpreserved.serves signal rfl h))

theorem afterHooks_upholds {result : Commons × ChainProgress}
    (h : Progress.Upholds conduct holds (ChainWait.KeepsTo conduct) result) :
    Progress.Upholds conduct holds (Handling.KeepsTo conduct)
      (engine.afterHooks signal result) := by
  obtain ⟨commons, progress⟩ := result
  obtain ⟨hholds, hkeeps⟩ := h
  rcases progress with (error | ⟨⟨⟩⟩) | message | wait
  · exact ⟨hpreserved.serves signal trivial hholds, trivial⟩
  · exact startDelay_upholds hpreserved signal hengine hholds
  · exact ⟨hholds, hkeeps⟩
  · exact ⟨hholds, hkeeps⟩

end Engine

end Chain

namespace Engine

variable {engine : Engine} {commons : Commons}

theorem resume_upholds (hpreserved : Commons.Preserved conduct holds)
    (hengine : engine.KeepsTo conduct) {handling : Handling} (hhandling : handling.KeepsTo conduct)
    (h : holds commons) :
    Progress.Upholds conduct holds (Handling.KeepsTo conduct) (engine.resume handling commons) := by
  rw [resume.eq_def]
  split
  · exact ⟨h, trivial⟩
  · cases handling with
    | hooks signal wait =>
        exact afterHooks_upholds hpreserved signal hengine
          (wait.resume_upholds hpreserved signal hhandling h)
    | delay signal current =>
        exact afterDelay_upholds signal
          (Suspended.resume_upholds hhandling hpreserved.deed h)

/-- Whatever a decision preserves is preserved by what follows it. -/
theorem start_upholds (hpreserved : Commons.Preserved conduct holds)
    (hengine : engine.KeepsTo conduct) {failure : Option Failure}
    (hdecide : holds commons → holds (engine.decide failure commons).1) (h : holds commons) :
    Progress.Upholds conduct holds (Handling.KeepsTo conduct) (engine.start failure commons) := by
  cases hopen : commons.cancelled with
  | true =>
      rw [start_of_cancelled hopen]
      exact ⟨h, trivial⟩
  | false =>
      cases houtcome : (engine.decide failure commons).2 with
      | error error =>
          rw [start_of_refused hopen houtcome]
          exact ⟨hdecide h, trivial⟩
      | ok signal =>
          rw [start_of_scheduled hopen houtcome]
          exact afterHooks_upholds hpreserved signal hengine
            (Hook.runAll_upholds hpreserved signal hengine.hooks (hdecide h))

end Engine

/-! ### The task -/

namespace Pipeline

theorem Task.keepsTo_ofProgress {progress : HandlingProgress}
    (h : progress.KeepsTo conduct (Handling.KeepsTo conduct)) :
    (ofProgress progress).KeepsTo conduct := by
  rcases progress with (error | signal) | message | current
  · trivial
  · trivial
  · exact h
  · exact h

theorem Stepped.upholds {pipeline next : Pipeline} {commons after : Commons}
    (hstep : Stepped pipeline commons next after) (hpreserved : Commons.Preserved conduct holds)
    (hdecide : ∀ failure, pipeline.inbox = some failure → holds commons →
      holds (pipeline.engine.decide failure commons).1)
    (hlog : ∀ entry, holds commons → holds (commons.log entry))
    (hengine : pipeline.engine.KeepsTo conduct) (htask : pipeline.task.KeepsTo conduct)
    (h : holds commons) : holds after ∧ next.task.KeepsTo conduct := by
  cases hstep with
  | cancelled | closed | placed => exact ⟨h, trivial⟩
  | dropped => exact ⟨hlog _ h, trivial⟩
  | took _ _ hinbox =>
      obtain ⟨hholds, hkeeps⟩ := Engine.start_upholds hpreserved hengine (hdecide _ hinbox) h
      exact ⟨hholds, Task.keepsTo_ofProgress hkeeps⟩
  | resumed hhandling =>
      rw [hhandling] at htask
      obtain ⟨hholds, hkeeps⟩ := Engine.resume_upholds hpreserved hengine htask h
      exact ⟨hholds, Task.keepsTo_ofProgress hkeeps⟩

end Pipeline

end Rejoin
