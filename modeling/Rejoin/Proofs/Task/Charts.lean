import Rejoin.Proofs.Task.Steps

/-! How far a chain of hooks got. What holds of the shared state may depend on the hooks that are done;
if it survives what hooks and delays do, it holds wherever the engine has to wait, and an error of a
hook is the first one, after the hooks before it have all come to their ends without any. -/

namespace Rejoin

/-- What is said of the shared state once some hooks are done, as a hook, a delay, or somebody else
goes on from there. -/
structure Hook.Chart (permitted : Hook → Prop) (signal : Signal)
    (holds : List Hook → Commons → Prop) : Prop where
  deed : ∀ {done commons} (deed : Deed), holds done commons → holds done (deed.perform commons)
  waited : ∀ {done commons} (millis : Nat), holds done commons →
    holds done { commons with now := commons.now + millis }
  start : ∀ {done commons} {hook : Hook}, permitted hook → holds done commons →
    holds done (hook.start signal
      (commons.record (.hookStarted hook.label signal commons.now))).1
  ended : ∀ {done commons} (hook : Hook), holds done commons →
    holds (done ++ [hook]) (commons.record (.hookEnded hook.label (.ok ())))
  asked : ∀ {done commons}, holds done commons →
    holds done (commons.record (.delayAsked signal.backoff))

/-- How far a chain got. -/
inductive Hook.Charted (permitted : Hook → Prop) (holds : List Hook → Commons → Prop)
    (hooks : List Hook) : Commons × ChainProgress → Prop where
  | done {commons : Commons} (h : holds hooks commons) :
      Charted permitted holds hooks (commons, .finished (.ok ()))
  | failed {done rest : List Hook} {hook : Hook} {point : Commons} {error : HookError}
      (hhooks : hooks = done ++ hook :: rest) (h : holds done point) :
      Charted permitted holds hooks
        (point.record (.hookEnded hook.label (.error error)), .finished (.error error))
  | panicked {done : List Hook} {commons : Commons} {message : String} (h : holds done commons) :
      Charted permitted holds hooks (commons, .panicked message)
  | waiting {done : List Hook} {hook : Hook} {wait : ChainWait} {commons : Commons}
      (hhooks : hooks = done ++ hook :: wait.remaining) (hlabel : wait.hook = hook.label)
      (hremaining : ∀ later ∈ wait.remaining, permitted later) (h : holds done commons) :
      Charted permitted holds hooks (commons, .waiting wait)

/-- Where a failure on its way has to wait. -/
inductive Handling.Charted (permitted : Hook → Prop) (holds : List Hook → Commons → Prop)
    (hooks : List Hook) (signal : Signal) (commons : Commons) : Handling → Prop where
  | hooks {done : List Hook} {hook : Hook} {wait : ChainWait}
      (hhooks : hooks = done ++ hook :: wait.remaining) (hlabel : wait.hook = hook.label)
      (hremaining : ∀ later ∈ wait.remaining, permitted later) (h : holds done commons) :
      Charted permitted holds hooks signal commons (.hooks signal wait)
  | delay {current : Suspended Unit} (h : holds hooks commons) :
      Charted permitted holds hooks signal commons (.delay signal current)

/-- How far a failure got that was decided as a signal. -/
inductive Engine.Charted (permitted : Hook → Prop) (holds : List Hook → Commons → Prop)
    (hooks : List Hook) (signal : Signal) : Commons × HandlingProgress → Prop where
  | finished {commons : Commons} (h : holds hooks commons) :
      Charted permitted holds hooks signal (commons, .finished (.ok signal))
  | cancelled {done : List Hook} {commons : Commons} (h : holds done commons) :
      Charted permitted holds hooks signal (commons, .finished (.error .cancelled))
  | failed {done rest : List Hook} {hook : Hook} {point : Commons} {error : HookError}
      {entry : LogEntry} (hhooks : hooks = done ++ hook :: rest) (h : holds done point) :
      Charted permitted holds hooks signal
        ((point.record (.hookEnded hook.label (.error error))).log entry,
          .finished (.error (.hook error)))
  | panicked {done : List Hook} {commons : Commons} {message : String} (h : holds done commons) :
      Charted permitted holds hooks signal (commons, .panicked message)
  | waiting {handling : Handling} {commons : Commons}
      (h : handling.Charted permitted holds hooks signal commons) :
      Charted permitted holds hooks signal (commons, .waiting handling)

section Chart

variable {permitted : Hook → Prop} {signal : Signal} {holds : List Hook → Commons → Prop}
  {hooks done : List Hook} {commons : Commons}

/-! ### Hooks -/

namespace Hook

theorem proceed_charted {hook : Hook} {remaining : List Hook}
    (hchart : Chart permitted signal holds) (hhooks : hooks = done ++ hook :: remaining)
    (hremaining : ∀ later ∈ remaining, permitted later)
    {further : Commons → Commons × ChainProgress}
    (hfurther : ∀ {commons}, holds (done ++ [hook]) commons →
      Charted permitted holds hooks (further commons))
    {result : Commons × RoutineProgress (Except HookError Unit)} (h : holds done result.1) :
    Charted permitted holds hooks (proceed hook.label remaining further result) := by
  obtain ⟨commons, (error | ⟨⟨⟩⟩) | message | current⟩ := result
  · exact .failed hhooks h
  · exact hfurther (hchart.ended hook h)
  · exact .panicked h
  · exact .waiting hhooks rfl hremaining h

theorem runAll_charted {remaining : List Hook} (hchart : Chart permitted signal holds)
    (hhooks : hooks = done ++ remaining) (hremaining : ∀ hook ∈ remaining, permitted hook)
    (h : holds done commons) : Charted permitted holds hooks (runAll signal remaining commons) := by
  induction remaining generalizing done commons with
  | nil =>
      rw [List.append_nil] at hhooks
      exact .done (hhooks ▸ h)
  | cons hook remaining ih =>
      obtain ⟨hhook, hlater⟩ := List.forall_mem_cons.1 hremaining
      have hdone : hooks = (done ++ [hook]) ++ remaining := by
        rw [hhooks, List.append_assoc, List.singleton_append]
      exact proceed_charted hchart hhooks hlater (ih hdone hlater) (hchart.start hhook h)

end Hook

/-! ### The engine -/

namespace Engine

theorem afterDelay_charted {result : Commons × RoutineProgress Unit} (h : holds hooks result.1) :
    Charted permitted holds hooks signal (afterDelay signal result) := by
  obtain ⟨commons, ⟨⟨⟩⟩ | message | current⟩ := result
  · exact .finished h
  · exact .panicked h
  · exact .waiting (.delay h)

theorem afterHooks_charted (engine : Engine) (hchart : Hook.Chart permitted signal holds)
    {result : Commons × ChainProgress} (h : Hook.Charted permitted holds hooks result) :
    Charted permitted holds hooks signal (engine.afterHooks signal result) := by
  cases h with
  | done h =>
      rw [afterHooks, startDelay]
      split
      · exact .cancelled h
      · exact afterDelay_charted (Routine.poll_of_deed _ (holds hooks) hchart.deed (hchart.asked h))
  | failed hhooks h => exact .failed hhooks h
  | panicked h => exact .panicked h
  | waiting hhooks hlabel hremaining h => exact .waiting (.hooks hhooks hlabel hremaining h)

theorem resume_charted (engine : Engine) (hchart : Hook.Chart permitted signal holds)
    {handling : Handling} (h : handling.Charted permitted holds hooks signal commons) :
    Charted permitted holds hooks signal (engine.resume handling commons) := by
  rw [resume.eq_def]
  split
  case isTrue =>
      cases h with
      | hooks _ _ _ h => exact .cancelled h
      | delay h => exact .cancelled h
  case isFalse =>
      cases h with
      | @hooks done hook wait hhooks hlabel hremaining h =>
          have hdone : hooks = (done ++ [hook]) ++ wait.remaining := by
            rw [hhooks, List.append_assoc, List.singleton_append]
          refine engine.afterHooks_charted hchart ?_
          rw [ChainWait.resume, hlabel]
          exact Hook.proceed_charted hchart hhooks hremaining
            (Hook.runAll_charted hchart hdone hremaining)
            (wait.current.resume_of_deed (holds done) hchart.deed h)
      | @delay current h =>
          exact afterDelay_charted (current.resume_of_deed (holds hooks) hchart.deed h)

/-- A failure that was decided as a signal begins with its first hook. -/
theorem start_charted {engine : Engine} (hchart : Hook.Chart permitted signal holds)
    (hhooks : ∀ hook ∈ engine.hooks, permitted hook) {cause : Option Failure}
    (hopen : commons.cancelled = false) (hdecide : (engine.decide cause commons).2 = .ok signal)
    (h : holds [] (engine.decide cause commons).1) :
    Charted permitted holds engine.hooks signal (engine.start cause commons) := by
  rw [start_of_scheduled hopen hdecide]
  exact engine.afterHooks_charted hchart
    (Hook.runAll_charted hchart (List.nil_append _).symm hhooks h)

end Engine

theorem Handling.Charted.signal_eq {handling : Handling}
    (h : handling.Charted permitted holds hooks signal commons) : handling.signal = signal := by
  cases h <;> rfl

/-- What others do keeps a failure on its way where it is. -/
theorem Handling.Charted.of_commons {after : Commons} {handling : Handling}
    (h : handling.Charted permitted holds hooks signal commons)
    (hholds : ∀ {done}, holds done commons → holds done after) :
    handling.Charted permitted holds hooks signal after := by
  cases h with
  | hooks hhooks hlabel hremaining h => exact .hooks hhooks hlabel hremaining (hholds h)
  | delay h => exact .delay (hholds h)

end Chart

end Rejoin
