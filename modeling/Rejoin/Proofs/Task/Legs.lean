import Mathlib.Data.List.Induction
import Rejoin.Proofs.Task.Progress

/-! One failure on its way through the engine, in whatever happens around it. The way has three legs:
the decision, the hooks, and the delay. Each is left behind only once it is done, and the token is
looked at before each and whenever the engine is woken. The failure comes to its signal exactly if
all three are done without an error and the token is never found cancelled; in every other case the
legs that were not reached leave no trace. -/

namespace Rejoin

namespace Engine

/-- What happens while a failure is on its way. -/
inductive Move where
  | others (deed : Deed)
  | wait (millis : Nat)
  /-- The engine is woken, whether or not what it waits for is over. -/
  | wake

/-- A failure on its way, one move later. At its end it makes no more moves. -/
def move (engine : Engine) :
    Commons × HandlingProgress → Move → Option (Commons × HandlingProgress)
  | (commons, .waiting handling), .others deed => some (deed.perform commons, .waiting handling)
  | (commons, .waiting handling), .wait millis =>
    some ({ commons with now := commons.now + millis }, .waiting handling)
  | (commons, .waiting handling), .wake => some (engine.resume handling commons)
  | (_, .finished _), _ | (_, .panicked _), _ => none

/-- A failure that is handed to the engine, some moves later. -/
def handle (engine : Engine) (cause : Option Failure) (commons : Commons) (moves : List Move) :
    Option (Commons × HandlingProgress) :=
  moves.foldlM engine.move (engine.start cause commons)

end Engine

open Engine (Move)

/-- A routine that is carried on by some moves, and never woken with the token cancelled. -/
inductive Routine.Carried {Result : Type} (start : Commons × RoutineProgress Result) :
    List Move → Commons × RoutineProgress Result → Prop where
  | refl : Carried start [] start
  | others {moves : List Move} {commons : Commons} {wait : Suspended Result}
      (h : Carried start moves (commons, .waiting wait)) (deed : Deed) :
      Carried start (moves ++ [.others deed]) (deed.perform commons, .waiting wait)
  | waited {moves : List Move} {commons : Commons} {wait : Suspended Result}
      (h : Carried start moves (commons, .waiting wait)) (millis : Nat) :
      Carried start (moves ++ [.wait millis])
        ({ commons with now := commons.now + millis }, .waiting wait)
  | woken {moves : List Move} {commons : Commons} {wait : Suspended Result}
      (h : Carried start moves (commons, .waiting wait)) (hopen : commons.cancelled = false) :
      Carried start (moves ++ [.wake]) (wait.resume commons)

/-- The first poll of a hook, which the journal tells of. -/
def Hook.begin (signal : Signal) (hook : Hook) (commons : Commons) :
    Commons × RoutineProgress (Except HookError Unit) :=
  hook.start signal (commons.record (.hookStarted hook.label signal commons.now))

/-- Hooks that were run, each from its beginning to its end before the next began, none of them with
an error. -/
inductive Hook.Ran (signal : Signal) (before : Commons) :
    List Hook → List Move → Commons → Prop where
  | nil : Ran signal before [] [] before
  | concat {hooks : List Hook} {hook : Hook} {moves more : List Move} {point after : Commons}
      (h : Ran signal before hooks moves point)
      (hhook : Routine.Carried (hook.begin signal point) more (after, .finished (.ok ()))) :
      Ran signal before (hooks ++ [hook]) (moves ++ more)
        (after.record (.hookEnded hook.label (.ok ())))

namespace Engine

/-- The first poll of a delay, which the journal tells of. -/
def beginDelay (engine : Engine) (signal : Signal) (commons : Commons) :
    Commons × RoutineProgress Unit :=
  (engine.policy.scheduler.sleep signal.backoff).poll (commons.record (.delayAsked signal.backoff))

variable (engine : Engine) (cause : Option Failure) (before : Commons)

/-- A failure was handed in before the token was cancelled, was decided as a signal, and some hooks
were run with that signal. -/
structure Serves (signal : Signal) (hooks : List Hook) (moves : List Move) (point : Commons) :
    Prop where
  opened : before.cancelled = false
  decided : (engine.decide cause before).2 = .ok signal
  ran : Hook.Ran signal (engine.decide cause before).1 hooks moves point

/-- All legs are done: the failure was decided as the signal, all hooks were run with it, the
scheduler was asked for its delay with the token not cancelled, and the delay came to its end. -/
inductive Succeeds : List Move → Signal → Commons → Prop where
  | intro {moves more : List Move} {signal : Signal} {point last : Commons}
      (hhooks : engine.Serves cause before signal engine.hooks moves point)
      (hopen : point.cancelled = false)
      (hdelay : Routine.Carried (engine.beginDelay signal point) more (last, .finished ())) :
      Succeeds (moves ++ more) signal last

/-- What a hook or a delay keeps the failure at: it is waited for, it panics, or it is given up when
the engine is woken with the token cancelled. -/
inductive Held {Result : Type} (start : Commons × RoutineProgress Result)
    (handling : Suspended Result → Handling) : List Move → Commons × HandlingProgress → Prop where
  | waiting {moves : List Move} {commons : Commons} {wait : Suspended Result}
      (h : Routine.Carried start moves (commons, .waiting wait)) :
      Held start handling moves (commons, .waiting (handling wait))
  | panicked {moves : List Move} {commons : Commons} {message : String}
      (h : Routine.Carried start moves (commons, .panicked message)) :
      Held start handling moves (commons, .panicked message)
  | abandoned {moves : List Move} {commons : Commons} {wait : Suspended Result}
      (h : Routine.Carried start moves (commons, .waiting wait)) (hcancelled : commons.cancelled) :
      Held start handling (moves ++ [.wake]) (commons, .finished (.error .cancelled))

/-- How far a failure gets. -/
inductive Gets : List Move → Commons × HandlingProgress → Prop where
  | late (hcancelled : before.cancelled) : Gets [] (before, .finished (.error .cancelled))
  | refused {error : RetryError} (hopen : before.cancelled = false)
      (hdecide : (engine.decide cause before).2 = .error error) :
      Gets [] ((engine.decide cause before).1, .finished (.error error))
  | hook {signal : Signal} {done rest : List Hook} {hook : Hook} {moves more : List Move}
      {point : Commons} {result : Commons × HandlingProgress}
      (h : engine.Serves cause before signal done moves point)
      (hhooks : engine.hooks = done ++ hook :: rest)
      (hheld : Held (hook.begin signal point)
        (fun wait => .hooks signal ⟨hook.label, wait, rest⟩) more result) :
      Gets (moves ++ more) result
  | failed {signal : Signal} {done rest : List Hook} {hook : Hook} {moves more : List Move}
      {point after : Commons} {error : HookError}
      (h : engine.Serves cause before signal done moves point)
      (hhooks : engine.hooks = done ++ hook :: rest)
      (hcarried : Routine.Carried (hook.begin signal point) more (after, .finished (.error error))) :
      Gets (moves ++ more)
        ((after.record (.hookEnded hook.label (.error error))).log
          ⟨.warn, "pre-retry hook failed",
            [("attempt", toString signal.attempt.toNat), ("error", error.text)]⟩,
          .finished (.error (.hook error)))
  | stopped {signal : Signal} {moves : List Move} {point : Commons}
      (h : engine.Serves cause before signal engine.hooks moves point)
      (hcancelled : point.cancelled) : Gets moves (point, .finished (.error .cancelled))
  | delay {signal : Signal} {moves more : List Move} {point : Commons}
      {result : Commons × HandlingProgress}
      (h : engine.Serves cause before signal engine.hooks moves point)
      (hopen : point.cancelled = false)
      (hheld : Held (engine.beginDelay signal point) (.delay signal) more result) :
      Gets (moves ++ more) result
  | succeeded {signal : Signal} {moves : List Move} {last : Commons}
      (h : engine.Succeeds cause before moves signal last) :
      Gets moves (last, .finished (.ok signal))

variable {engine cause before} {signal : Signal} {hooks done rest : List Hook} {hook : Hook}
  {moves more : List Move} {point : Commons}

theorem Serves.concat (h : engine.Serves cause before signal done moves point) {after : Commons}
    (hhook : Routine.Carried (hook.begin signal point) more (after, .finished (.ok ()))) :
    engine.Serves cause before signal (done ++ [hook]) (moves ++ more)
      (after.record (.hookEnded hook.label (.ok ()))) :=
  ⟨h.opened, h.decided, h.ran.concat hhook⟩

/-! ### From what the engine does to how far the failure gets -/

theorem gets_afterDelay (h : engine.Serves cause before signal engine.hooks moves point)
    (hopen : point.cancelled = false) {result : Commons × RoutineProgress Unit}
    (hcarried : Routine.Carried (engine.beginDelay signal point) more result) :
    engine.Gets cause before (moves ++ more) (afterDelay signal result) := by
  obtain ⟨commons, ⟨⟨⟩⟩ | message | wait⟩ := result
  · exact .succeeded ⟨h, hopen, hcarried⟩
  · exact .delay h hopen (.panicked hcarried)
  · exact .delay h hopen (.waiting hcarried)

theorem gets_startDelay (h : engine.Serves cause before signal engine.hooks moves point) :
    engine.Gets cause before moves (engine.startDelay signal point) := by
  rw [startDelay]
  split
  case isTrue hcancelled => exact .stopped h hcancelled
  case isFalse hopen =>
      have hbegun := gets_afterDelay h (Bool.eq_false_iff.2 hopen) .refl
      rwa [List.append_nil] at hbegun

/-- From some hook on, given how far the failure gets from the hook behind it on. -/
theorem gets_proceed (h : engine.Serves cause before signal done moves point)
    (hhooks : engine.hooks = done ++ hook :: rest)
    (hfurther : ∀ {moves point}, engine.Serves cause before signal (done ++ [hook]) moves point →
      engine.Gets cause before moves (engine.afterHooks signal (Hook.runAll signal rest point)))
    {result : Commons × RoutineProgress (Except HookError Unit)}
    (hcarried : Routine.Carried (hook.begin signal point) more result) :
    engine.Gets cause before (moves ++ more)
      (engine.afterHooks signal
        (Hook.proceed hook.label rest (Hook.runAll signal rest) result)) := by
  obtain ⟨commons, (error | ⟨⟨⟩⟩) | message | wait⟩ := result
  · exact .failed h hhooks hcarried
  · exact hfurther (h.concat hcarried)
  · exact .hook h hhooks (.panicked hcarried)
  · exact .hook h hhooks (.waiting hcarried)

theorem gets_runAll (h : engine.Serves cause before signal done moves point)
    (hhooks : engine.hooks = done ++ rest) :
    engine.Gets cause before moves (engine.afterHooks signal (Hook.runAll signal rest point)) := by
  induction rest generalizing done moves point with
  | nil =>
      rw [List.append_nil] at hhooks
      exact gets_startDelay (hhooks ▸ h)
  | cons hook rest ih =>
      have hdone : engine.hooks = (done ++ [hook]) ++ rest := by
        rw [hhooks, List.append_assoc, List.singleton_append]
      have hbegun := gets_proceed h hhooks (fun hnext => ih hnext hdone) .refl
      rwa [List.append_nil] at hbegun

variable (engine cause before) in
theorem gets_start : engine.Gets cause before [] (engine.start cause before) := by
  cases hopen : before.cancelled with
  | true =>
      rw [start_of_cancelled hopen]
      exact .late hopen
  | false =>
      cases hdecide : (engine.decide cause before).2 with
      | error error =>
          rw [start_of_refused hopen hdecide]
          exact .refused hopen hdecide
      | ok signal =>
          rw [start_of_scheduled hopen hdecide]
          exact gets_runAll ⟨hopen, hdecide, .nil⟩ (List.nil_append _).symm

theorem resume_of_open (handling : Handling) {commons : Commons}
    (hopen : commons.cancelled = false) :
    engine.resume handling commons =
      match handling with
      | .hooks signal wait => engine.afterHooks signal (wait.resume signal commons)
      | .delay signal current => afterDelay signal (current.resume commons) := by
  cases handling <;> exact if_neg (Bool.eq_false_iff.1 hopen)

/-- One move later a failure is still held at the same place, unless the engine is woken there with
the token not cancelled. -/
theorem Held.move {Result : Type} {start : Commons × RoutineProgress Result}
    {handling : Suspended Result → Handling} {result next : Commons × HandlingProgress}
    {move : Move} (h : Held start handling moves result)
    (hmove : engine.move result move = some next) :
    Held start handling (moves ++ [move]) next ∨
      ∃ commons wait, commons.cancelled = false ∧
        Routine.Carried start (moves ++ [move]) (wait.resume commons) ∧
        next = engine.resume (handling wait) commons := by
  cases h with
  | panicked | abandoned => cases hmove
  | @waiting _ commons wait hcarried =>
      cases move with
      | others deed =>
          cases hmove
          exact .inl (.waiting (hcarried.others deed))
      | wait millis =>
          cases hmove
          exact .inl (.waiting (hcarried.waited millis))
      | wake =>
          cases hmove
          cases hopen : commons.cancelled with
          | true =>
              rw [resume.eq_def, if_pos hopen]
              exact .inl (.abandoned hcarried hopen)
          | false => exact .inr ⟨commons, wait, hopen, hcarried.woken hopen, rfl⟩

/-- Only a failure that waits for a hook or for its delay makes a move. -/
theorem Gets.move {result next : Commons × HandlingProgress} {move : Move}
    (h : engine.Gets cause before moves result) (hmove : engine.move result move = some next) :
    engine.Gets cause before (moves ++ [move]) next := by
  cases h with
  | late | refused | failed | stopped | succeeded => cases hmove
  | hook hserves hhooks hheld =>
      rw [List.append_assoc]
      obtain hheld | ⟨commons, wait, hopen, hcarried, rfl⟩ := hheld.move hmove
      · exact .hook hserves hhooks hheld
      · rw [resume_of_open _ hopen]
        have hdone := List.append_cons _ _ _ ▸ hhooks
        exact gets_proceed hserves hhooks (fun hnext => gets_runAll hnext hdone) hcarried
  | delay hserves hcalm hheld =>
      rw [List.append_assoc]
      obtain hheld | ⟨commons, wait, hopen, hcarried, rfl⟩ := hheld.move hmove
      · exact .delay hserves hcalm hheld
      · rw [resume_of_open _ hopen]
        exact gets_afterDelay hserves hcalm hcarried

theorem handle_concat (move : Move) :
    engine.handle cause before (moves ++ [move]) =
      (engine.handle cause before moves).bind fun result => engine.move result move := by
  rw [handle, List.foldlM_append]
  exact congrArg _ (funext fun result => List.foldlM_cons.trans (bind_pure _))

theorem gets_of_handle {result : Commons × HandlingProgress}
    (h : engine.handle cause before moves = some result) :
    engine.Gets cause before moves result := by
  induction moves using List.reverseRecOn generalizing result with
  | nil =>
      cases h
      exact engine.gets_start cause before
  | append_singleton moves move ih =>
      rw [handle_concat] at h
      obtain ⟨point, hpoint, hmove⟩ := Option.bind_eq_some_iff.1 h
      exact (ih hpoint).move hmove

/-! ### From the legs to what the engine does -/

theorem Succeeds.scheduled {last : Commons} (h : engine.Succeeds cause before moves signal last) :
    before.cancelled = false ∧ (engine.decide cause before).2 = .ok signal := by
  obtain ⟨hserves, -, -⟩ := h
  exact ⟨hserves.opened, hserves.decided⟩

/-- What a hook or a delay is carried to, the failure is, where that is how it waits and goes on. -/
theorem handle_of_carried {Result : Type} {start result : Commons × RoutineProgress Result}
    (further : Commons × RoutineProgress Result → Commons × HandlingProgress)
    (handling : Suspended Result → Handling)
    (hwaits : ∀ commons wait, further (commons, .waiting wait) = (commons, .waiting (handling wait)))
    (hresume : ∀ commons wait, commons.cancelled = false →
      engine.resume (handling wait) commons = further (wait.resume commons))
    (hstart : engine.handle cause before moves = some (further start))
    (hcarried : Routine.Carried start more result) :
    engine.handle cause before (moves ++ more) = some (further result) := by
  induction hcarried with
  | refl => rwa [List.append_nil]
  | others _ deed ih =>
      rw [← List.append_assoc, handle_concat, ih, Option.bind_some, hwaits, hwaits]
      rfl
  | waited _ millis ih =>
      rw [← List.append_assoc, handle_concat, ih, Option.bind_some, hwaits, hwaits]
      rfl
  | woken _ hopen ih =>
      rw [← List.append_assoc, handle_concat, ih, Option.bind_some, hwaits, ← hresume _ _ hopen]
      rfl

theorem handle_of_ran (hopen : before.cancelled = false)
    (hdecide : (engine.decide cause before).2 = .ok signal)
    (h : Hook.Ran signal (engine.decide cause before).1 done moves point)
    (hhooks : engine.hooks = done ++ rest) :
    engine.handle cause before moves =
      some (engine.afterHooks signal (Hook.runAll signal rest point)) := by
  induction h generalizing rest with
  | nil =>
      rw [List.nil_append] at hhooks
      rw [← hhooks, ← start_of_scheduled hopen hdecide]
      rfl
  | @concat done hook moves more point after _ hhook ih =>
      rw [List.append_assoc, List.singleton_append] at hhooks
      exact handle_of_carried
        (fun result =>
          engine.afterHooks signal (Hook.proceed hook.label rest (Hook.runAll signal rest) result))
        (fun wait => .hooks signal ⟨hook.label, wait, rest⟩)
        (fun _ _ => rfl) (fun _ _ hopen => resume_of_open _ hopen) (ih hhooks) hhook

theorem handle_of_succeeds {last : Commons} (h : engine.Succeeds cause before moves signal last) :
    engine.handle cause before moves = some (last, .finished (.ok signal)) := by
  obtain ⟨⟨hopen, hdecide, hran⟩, hcalm, hdelay⟩ := h
  have hhooks := handle_of_ran hopen hdecide hran (List.append_nil _).symm
  refine handle_of_carried (afterDelay signal) (.delay signal) (fun _ _ => rfl)
    (fun _ _ hopen => resume_of_open _ hopen) ?_ hdelay
  rw [hhooks, Hook.runAll, afterHooks, startDelay, if_neg (Bool.eq_false_iff.1 hcalm)]
  rfl

end Engine

/-! ### What the journal tells of the legs -/

/-- The hook that an entry tells has woken up, and when. -/
def Entry.woken? : Entry → Option (String × Nat)
  | .noted (.woke hook) time => some (hook, time)
  | _ => none

/-- What the journal tells of a failure on its way. -/
inductive Leg where
  | decided (cause : Option Failure) (outcome : Except RetryError Signal)
  | begun (hook : Hook.Label) (signal : Signal)
  | ended (hook : Hook.Label) (result : Except HookError Unit)
  | asked (delay : Duration)

def Entry.leg? : Entry → Option Leg
  | .decided cause outcome => some (.decided cause outcome)
  | .hookStarted hook signal _ => some (.begun hook signal)
  | .hookEnded hook result => some (.ended hook result)
  | .delayAsked delay => some (.asked delay)
  | _ => none

/-- The legs so far, oldest first. -/
def Commons.legs (commons : Commons) : List Leg := commons.read Entry.leg?

/-- What hooks leave behind that are run with a signal and all end without an error. -/
def Hook.legs (signal : Signal) (hooks : List Hook) : List Leg :=
  hooks.flatMap fun hook => [.begun hook.label signal, .ended hook.label (.ok ())]

theorem Commons.legs_perform (deed : Deed) (commons : Commons) :
    (deed.perform commons).legs = commons.legs :=
  read_perform ⟨fun _ => rfl, fun _ => rfl, rfl, fun _ _ => rfl⟩ deed commons

theorem Commons.legs_log (commons : Commons) (entry : LogEntry) :
    (commons.log entry).legs = commons.legs :=
  read_log (fun _ => rfl) commons entry

theorem Commons.legs_record {entry : Entry} {leg : Leg} (h : entry.leg? = some leg)
    (commons : Commons) : (commons.record entry).legs = commons.legs ++ [leg] := by
  rw [legs, read_record, h]
  rfl

theorem Routine.legs_poll {Result : Type} (routine : Routine Result) (commons : Commons) :
    (routine.poll commons).1.legs = commons.legs :=
  routine.poll_of_deed (fun after => after.legs = commons.legs)
    (fun deed h => (Commons.legs_perform deed _).trans h) rfl

theorem Routine.Carried.legs_eq {Result : Type} {start result : Commons × RoutineProgress Result}
    {moves : List Move} (h : Routine.Carried start moves result) :
    result.1.legs = start.1.legs := by
  induction h with
  | refl => rfl
  | others _ deed ih => exact (Commons.legs_perform deed _).trans ih
  | waited _ _ ih => exact ih
  | @woken _ commons wait _ _ ih =>
      exact wait.resume_of_deed (fun after => after.legs = start.1.legs)
        (fun deed h => (Commons.legs_perform deed _).trans h) ih

namespace Hook

variable {signal : Signal} {before point : Commons} {hooks : List Hook} {moves : List Move}

theorem legs_begin (signal : Signal) (hook : Hook) (commons : Commons) :
    (hook.begin signal commons).1.legs = commons.legs ++ [.begun hook.label signal] := by
  have hbegun : ∀ {entry : Entry}, entry.leg? = some (.begun hook.label signal) →
      (commons.record entry).legs = commons.legs ++ [.begun hook.label signal] :=
    fun hentry => Commons.legs_record hentry commons
  cases hook with
  | announcer => exact (Commons.read_record_of_none rfl _).trans (hbegun rfl)
  | meter own => cases own <;> exact hbegun rfl
  | custom name run => exact ((run signal).legs_poll _).trans (hbegun rfl)

theorem Ran.legs_eq (h : Ran signal before hooks moves point) :
    point.legs = before.legs ++ legs signal hooks := by
  induction h with
  | nil => exact (List.append_nil _).symm
  | @concat hooks hook _ _ _ _ _ hhook ih =>
      rw [Commons.legs_record rfl, hhook.legs_eq, legs_begin, ih, legs, legs, List.flatMap_append,
        List.append_assoc, List.append_assoc]
      rfl

end Hook

namespace Engine

variable {engine : Engine} {cause : Option Failure} {before : Commons} {signal : Signal}
  {hooks : List Hook} {moves : List Move} {point : Commons}

theorem legs_decide (engine : Engine) (cause : Option Failure) (commons : Commons) :
    (engine.decide cause commons).1.legs =
      commons.legs ++ [.decided cause (engine.decide cause commons).2] :=
  engine.read_decide cause commons fun _ => rfl

theorem legs_beginDelay (engine : Engine) (signal : Signal) (commons : Commons) :
    (engine.beginDelay signal commons).1.legs = commons.legs ++ [.asked signal.backoff] :=
  (Routine.legs_poll _ _).trans (Commons.legs_record rfl commons)

/-- What a hook or the delay leaves behind comes after the decision and the hooks that are done. -/
theorem Serves.legs_append (h : engine.Serves cause before signal hooks moves point)
    (legs : List Leg) :
    point.legs ++ legs =
      before.legs ++ .decided cause (.ok signal) :: (Hook.legs signal hooks ++ legs) := by
  rw [h.ran.legs_eq, legs_decide, h.decided, List.append_assoc, List.append_assoc,
    List.singleton_append]

theorem Held.legs_eq {Result : Type} {start : Commons × RoutineProgress Result}
    {handling : Suspended Result → Handling} {result : Commons × HandlingProgress}
    (h : Held start handling moves result) : result.1.legs = start.1.legs := by
  cases h with
  | waiting h | panicked h | abandoned h => exact h.legs_eq

variable (engine cause before) in
/-- What a failure that was decided as a signal leaves behind from then on, and what it has come to.
A hook begins once those before it have ended without an error, and the delay once all of them have
and the token is not cancelled; the signal comes only after the delay. -/
inductive Leaves (signal : Signal) : List Move → List Leg → HandlingProgress → Prop where
  /-- It waits for a hook, was given up there, or the hook panicked. -/
  | hook {done rest : List Hook} {hook : Hook} {moves more : List Move} {point : Commons}
      {progress : HandlingProgress} (h : engine.Serves cause before signal done moves point)
      (hhooks : engine.hooks = done ++ hook :: rest)
      (hprogress : (∃ wait, progress = .waiting (.hooks signal wait)) ∨
        progress = .finished (.error .cancelled) ∨ ∃ message, progress = .panicked message) :
      Leaves signal (moves ++ more) (Hook.legs signal done ++ [.begun hook.label signal]) progress
  | failed {done rest : List Hook} {hook : Hook} {moves more : List Move} {point : Commons}
      {error : HookError} (h : engine.Serves cause before signal done moves point)
      (hhooks : engine.hooks = done ++ hook :: rest) :
      Leaves signal (moves ++ more)
        (Hook.legs signal done ++ [.begun hook.label signal, .ended hook.label (.error error)])
        (.finished (.error (.hook error)))
  /-- The token was found cancelled once the hooks were done. -/
  | stopped {moves : List Move} {point : Commons}
      (h : engine.Serves cause before signal engine.hooks moves point)
      (hcancelled : point.cancelled) :
      Leaves signal moves (Hook.legs signal engine.hooks) (.finished (.error .cancelled))
  /-- It waits for its delay, was given up there, or the scheduler panicked; or the delay is over. -/
  | delay {moves more : List Move} {point : Commons} {progress : HandlingProgress}
      (h : engine.Serves cause before signal engine.hooks moves point)
      (hopen : point.cancelled = false)
      (hprogress : (∃ wait, progress = .waiting (.delay signal wait)) ∨
        progress = .finished (.error .cancelled) ∨ (∃ message, progress = .panicked message) ∨
        progress = .finished (.ok signal)) :
      Leaves signal (moves ++ more) (Hook.legs signal engine.hooks ++ [.asked signal.backoff])
        progress

theorem Held.progress_cases {Result : Type} {start : Commons × RoutineProgress Result}
    {handling : Suspended Result → Handling} {result : Commons × HandlingProgress}
    (h : Held start handling moves result) :
    (∃ wait, result.2 = .waiting (handling wait)) ∨ result.2 = .finished (.error .cancelled) ∨
      ∃ message, result.2 = .panicked message := by
  cases h with
  | waiting => exact .inl ⟨_, rfl⟩
  | abandoned => exact .inr (.inl rfl)
  | panicked => exact .inr (.inr ⟨_, rfl⟩)

/-- The signal is the one that was decided. -/
theorem Serves.signal_eq {decided : Signal}
    (h : engine.Serves cause before signal hooks moves point)
    (hdecide : (engine.decide cause before).2 = .ok decided) : signal = decided :=
  Except.ok.inj (h.decided.symm.trans hdecide)

theorem Gets.of_late {result : Commons × HandlingProgress}
    (h : engine.Gets cause before moves result) (hcancelled : before.cancelled) :
    result = (before, .finished (.error .cancelled)) := by
  have hnot : before.cancelled ≠ false := Bool.ne_false_iff.2 hcancelled
  cases h with
  | late => rfl
  | refused hopen => exact absurd hopen hnot
  | hook h | failed h | stopped h | delay h => exact absurd h.opened hnot
  | succeeded h => exact absurd h.scheduled.1 hnot

theorem Gets.of_refused {result : Commons × HandlingProgress} {error : RetryError}
    (h : engine.Gets cause before moves result) (hopen : before.cancelled = false)
    (hdecide : (engine.decide cause before).2 = .error error) :
    result = ((engine.decide cause before).1, .finished (.error error)) := by
  have hnot : ∀ signal, (engine.decide cause before).2 ≠ .ok signal := by
    rw [hdecide]
    exact nofun
  cases h with
  | late hcancelled => cases hopen.symm.trans hcancelled
  | refused _ hrefused =>
      obtain rfl := Except.error.inj (hrefused.symm.trans hdecide)
      rfl
  | hook h | failed h | stopped h | delay h => exact absurd h.decided (hnot _)
  | succeeded h => exact absurd h.scheduled.2 (hnot _)

theorem Gets.leaves {result : Commons × HandlingProgress}
    (h : engine.Gets cause before moves result) (hopen : before.cancelled = false)
    (hdecide : (engine.decide cause before).2 = .ok signal) :
    ∃ left, result.1.legs = before.legs ++ .decided cause (.ok signal) :: left ∧
      engine.Leaves cause before signal moves left result.2 := by
  cases h with
  | late hcancelled => cases hopen.symm.trans hcancelled
  | refused _ hrefused => cases hrefused.symm.trans hdecide
  | hook hserves hhooks hheld =>
      obtain rfl := hserves.signal_eq hdecide
      refine ⟨_, ?_, .hook hserves hhooks ?_⟩
      · rw [hheld.legs_eq, Hook.legs_begin, hserves.legs_append]
      · exact hheld.progress_cases.imp_left fun ⟨_, hwaiting⟩ => ⟨_, hwaiting⟩
  | failed hserves hhooks hcarried =>
      obtain rfl := hserves.signal_eq hdecide
      refine ⟨_, ?_, .failed hserves hhooks⟩
      rw [Commons.legs_log, Commons.legs_record rfl, hcarried.legs_eq, Hook.legs_begin,
        List.append_assoc, hserves.legs_append]
      rfl
  | stopped hserves hcancelled =>
      obtain rfl := hserves.signal_eq hdecide
      refine ⟨_, ?_, .stopped hserves hcancelled⟩
      have hlegs := hserves.legs_append []
      rwa [List.append_nil, List.append_nil] at hlegs
  | delay hserves hcalm hheld =>
      obtain rfl := hserves.signal_eq hdecide
      refine ⟨_, ?_, .delay hserves hcalm ?_⟩
      · rw [hheld.legs_eq, legs_beginDelay, hserves.legs_append]
      · exact hheld.progress_cases.imp_right (Or.imp_right .inl)
  | succeeded hsucceeds =>
      obtain ⟨hserves, hcalm, hdelay⟩ := hsucceeds
      obtain rfl := hserves.signal_eq hdecide
      refine ⟨_, ?_, .delay hserves hcalm (.inr (.inr (.inr rfl)))⟩
      rw [hdelay.legs_eq, legs_beginDelay, hserves.legs_append]

/-- What the journal tells of a failure, and what it has come to. -/
theorem Gets.legs_eq {result : Commons × HandlingProgress}
    (h : engine.Gets cause before moves result) :
    ∃ legs, result.1.legs = before.legs ++ legs ∧
      (before.cancelled → legs = [] ∧ result.2 = .finished (.error .cancelled)) ∧
      (before.cancelled = false →
        (∀ error, (engine.decide cause before).2 = .error error →
          legs = [.decided cause (.error error)] ∧ result.2 = .finished (.error error)) ∧
        ∀ signal, (engine.decide cause before).2 = .ok signal →
          ∃ left, legs = .decided cause (.ok signal) :: left ∧
            engine.Leaves cause before signal moves left result.2) := by
  cases hopen : before.cancelled with
  | true =>
      obtain rfl := h.of_late hopen
      exact ⟨[], (List.append_nil _).symm, fun _ => ⟨rfl, rfl⟩, nofun⟩
  | false =>
      cases hdecide : (engine.decide cause before).2 with
      | error error =>
          obtain rfl := h.of_refused hopen hdecide
          refine ⟨_, engine.legs_decide cause before, nofun, fun _ => ⟨?_, ?_⟩⟩
          · rintro _ ⟨⟩
            exact ⟨by rw [hdecide], rfl⟩
          · exact nofun
      | ok signal =>
          obtain ⟨left, hlegs, hleaves⟩ := h.leaves hopen hdecide
          refine ⟨_, hlegs, nofun, fun _ => ⟨nofun, ?_⟩⟩
          rintro _ ⟨⟩
          exact ⟨left, rfl, hleaves⟩

/-- A failure that waits with the token cancelled waits on until it is woken, and is given up then,
also where what it waits for is over. -/
theorem move_of_cancelled {handling : Handling} {move : Move} {last : Commons}
    {progress : HandlingProgress} (hcancelled : point.cancelled)
    (h : engine.move (point, .waiting handling) move = some (last, progress)) :
    last.cancelled ∧ last.legs = point.legs ∧
      (progress = .waiting handling ∨ progress = .finished (.error .cancelled)) := by
  cases move with
  | others deed =>
      cases h
      exact ⟨Commons.cancelled_perform deed _ hcancelled, Commons.legs_perform deed _, .inl rfl⟩
  | wait millis =>
      cases h
      exact ⟨hcancelled, rfl, .inl rfl⟩
  | wake =>
      rw [Engine.move, resume.eq_def, if_pos hcancelled] at h
      cases h
      exact ⟨hcancelled, rfl, .inr rfl⟩

theorem handle_of_cancelled {earlier later : List Move} {handling : Handling} {last : Commons}
    {progress : HandlingProgress}
    (hwaits : engine.handle cause before earlier = some (point, .waiting handling))
    (hcancelled : point.cancelled)
    (h : engine.handle cause before (earlier ++ later) = some (last, progress)) :
    last.cancelled ∧ last.legs = point.legs ∧
      (progress = .waiting handling ∨ progress = .finished (.error .cancelled)) := by
  -- Before the end it can only have waited on, since what is given up makes no more moves.
  induction later using List.reverseRecOn generalizing last progress with
  | nil =>
      rw [List.append_nil, hwaits] at h
      cases h
      exact ⟨hcancelled, rfl, .inl rfl⟩
  | append_singleton later move ih =>
      rw [← List.append_assoc, handle_concat] at h
      obtain ⟨⟨middle, reached⟩, hmiddle, hmove⟩ := Option.bind_eq_some_iff.1 h
      obtain ⟨hstill, hlegs, rfl | rfl⟩ := ih hmiddle
      · obtain ⟨hlast, hmore, hprogress⟩ := move_of_cancelled hstill hmove
        exact ⟨hlast, hmore.trans hlegs, hprogress⟩
      · cases hmove

/-- **All or nothing.** Whatever happens around it, a failure comes to a signal exactly if it is
decided as that signal before the token is cancelled, all hooks are run with it in order, each once
and to an end without an error, the scheduler is then asked for its delay, and that comes to its end,
the token never being found cancelled. The journal tells of no more than that: of nothing if the token
is cancelled beforehand, of the decision alone if there is no signal, and otherwise of hooks up to the
one that is not done, or of all of them and the delay. Once the token is cancelled while the failure
waits, there is nothing more to tell, and it is given up as soon as it is woken. -/
theorem handle_all_or_nothing (engine : Engine) (cause : Option Failure) (before : Commons)
    (moves : List Move) :
    (∀ signal last, engine.handle cause before moves = some (last, .finished (.ok signal)) ↔
      engine.Succeeds cause before moves signal last) ∧
    (∀ last progress, engine.handle cause before moves = some (last, progress) →
      ∃ legs, last.legs = before.legs ++ legs ∧
        (before.cancelled → legs = [] ∧ progress = .finished (.error .cancelled)) ∧
        (before.cancelled = false →
          (∀ error, (engine.decide cause before).2 = .error error →
            legs = [.decided cause (.error error)] ∧ progress = .finished (.error error)) ∧
          ∀ signal, (engine.decide cause before).2 = .ok signal →
            ∃ left, legs = .decided cause (.ok signal) :: left ∧
              engine.Leaves cause before signal moves left progress)) ∧
    ∀ earlier later point handling last progress, moves = earlier ++ later →
      engine.handle cause before earlier = some (point, .waiting handling) → point.cancelled →
      engine.handle cause before moves = some (last, progress) →
        last.legs = point.legs ∧
          (progress = .waiting handling ∨ progress = .finished (.error .cancelled)) := by
  refine ⟨fun signal last => ⟨fun h => ?_, handle_of_succeeds⟩,
    fun last progress h => (gets_of_handle h).legs_eq, ?_⟩
  · generalize hresult : (last, Progress.finished (Except.ok signal)) = result at h
    cases gets_of_handle h with
    | succeeded hsucceeds =>
        cases hresult
        exact hsucceeds
    | late | refused | failed | stopped => cases hresult
    | hook _ _ hheld | delay _ _ hheld => cases hheld <;> cases hresult
  · rintro earlier later point handling last progress rfl hwaits hcancelled h
    exact (handle_of_cancelled hwaits hcancelled h).2

/-- An engine that takes its time with the second hook, which notes when it wakes, and with the delay. -/
def drowsy : Engine where
  policy := { Policy.prompt with scheduler := ⟨"drowsy", fun _ => .sleep 7 (.done ())⟩ }
  hooks := [.announcer,
    .custom "drowsy" fun _ => .sleep 5 (.act (.note (.woke "drowsy")) (.done (.ok ())))]

/-- A failure whose delay is over, with the token as it was and with the token cancelled at the last
moment before the engine is woken. The second hook has woken up after its five milliseconds, and the
delay of seven more began only then. -/
theorem handle_all_or_nothing_when_drowsy :
    (∃ signal last left,
      drowsy.Succeeds (some (.closed ⟨4000, none⟩)) .initial [.wait 5, .wake, .wait 7, .wake] signal
        last ∧
      last.read Entry.woken? = [("drowsy", 5)] ∧ last.now = 12 ∧
      last.legs = .decided (some (.closed ⟨4000, none⟩)) (.ok signal) :: left ∧
      drowsy.Leaves (some (.closed ⟨4000, none⟩)) .initial signal [.wait 5, .wake, .wait 7, .wake] left
        (.finished (.ok signal))) ∧
    ∃ point handling last progress,
      drowsy.handle (some (.closed ⟨4000, none⟩)) .initial [.wait 5, .wake, .wait 7, .others .cancel] =
        some (point, .waiting handling) ∧ point.cancelled ∧ handling.wake.isDue point ∧
      drowsy.handle (some (.closed ⟨4000, none⟩)) .initial
          [.wait 5, .wake, .wait 7, .others .cancel, .wake] =
        some (last, progress) ∧ last.legs = point.legs ∧
      (progress = .waiting handling ∨ progress = .finished (.error .cancelled)) := by
  have hcalm : ((drowsy.handle (some (.closed ⟨4000, none⟩)) .initial
      [.wait 5, .wake, .wait 7, .wake]).any fun result =>
        match result.2 with
        | .finished (.ok _) =>
          Decidable.decide (result.1.read Entry.woken? = [("drowsy", 5)] ∧ result.1.now = 12)
        | _ => false) = true := by
    decide +kernel
  have hwaits : ((drowsy.handle (some (.closed ⟨4000, none⟩)) .initial
      [.wait 5, .wake, .wait 7, .others .cancel]).any fun result =>
        match result.2 with
        | .waiting handling => result.1.cancelled && handling.wake.isDue result.1
        | _ => false) = true := by
    decide +kernel
  obtain ⟨⟨last, (error | signal) | message | handling⟩, hrun, hdrowsy⟩ :=
    (Option.any_eq_true ..).1 hcalm
  case finished.error | panicked | waiting => cases hdrowsy
  obtain ⟨hnoted, htime⟩ := of_decide_eq_true hdrowsy
  obtain ⟨⟨point, result | message | handling⟩, hpoint, hview⟩ := (Option.any_eq_true ..).1 hwaits
  case finished | panicked => cases hview
  obtain ⟨hcancelled, hdue⟩ := Bool.and_eq_true_iff.1 hview
  have hwoken : drowsy.handle (some (.closed ⟨4000, none⟩)) .initial
      ([.wait 5, .wake, .wait 7, .others .cancel] ++ [.wake]) =
        some (drowsy.resume handling point) := by
    rw [handle_concat, hpoint]
    rfl
  obtain ⟨hsucceeds, hlegs, -⟩ := handle_all_or_nothing drowsy (some (.closed ⟨4000, none⟩)) .initial
    [.wait 5, .wake, .wait 7, .wake]
  have hdone := (hsucceeds signal last).1 hrun
  obtain ⟨hopen, hdecide⟩ := hdone.scheduled
  obtain ⟨_, hlast, -, hnext⟩ := hlegs last _ hrun
  obtain ⟨left, rfl, hleaves⟩ := (hnext hopen).2 signal hdecide
  exact ⟨⟨signal, last, left, hdone, hnoted, htime, hlast, hleaves⟩, point, handling, _, _, hpoint,
    hcancelled, hdue, hwoken, (handle_all_or_nothing ..).2.2 _ [.wake] _ _ _ _ rfl hpoint hcancelled hwoken⟩

end Engine

end Rejoin
