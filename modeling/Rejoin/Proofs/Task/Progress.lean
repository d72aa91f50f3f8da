import Rejoin.Proofs.Decision.Verdict
import Rejoin.Proofs.Task.Edits

/-! How a failure is carried from its decision to the next attempt. Once decided, everything that
happens to it serves one signal: the hooks are started with it, its delay is asked for, and what it
comes to is that signal, an error of a hook, or a cancellation. -/

namespace Rejoin

open Commons (Edit Edits)

/-- The entries that serve a signal, announcements apart. -/
def Entry.Serves (signal : Signal) : Entry → Prop
  | .hookStarted _ started _ => started = signal
  | .delayAsked delay => delay = signal.backoff
  | .hookEnded _ _ | .logged _ => True
  | _ => False

/-- A hook that would announce the signal may do so. -/
def Hook.Permitted (allowed : Entry → Prop) (signal : Signal) (hook : Hook) : Prop :=
  hook = .announcer → allowed (.published (.retrying signal))

/-- What is waited for, if anything is, has a property. -/
def Progress.WaitsWith {Waiting Result : Type} (holds : Waiting → Prop) :
    Progress Waiting Result → Prop
  | .waiting wait => holds wait
  | .finished _ | .panicked _ => True

/-- The signal that a failure on its way was decided as. -/
def Handling.signal : Handling → Signal
  | .hooks signal _ | .delay signal _ => signal

/-- The hooks that are still to come are permitted. -/
def Handling.Permitted (allowed : Entry → Prop) : Handling → Prop
  | .hooks signal wait => ∀ hook ∈ wait.remaining, hook.Permitted allowed signal
  | .delay _ _ => True

/-- Polling keeps what deeds keep. -/
theorem Routine.poll_of_deed {Result : Type} (routine : Routine Result) (holds : Commons → Prop)
    (hdeed : ∀ {commons} (deed : Deed), holds commons → holds (deed.perform commons))
    {commons : Commons} (h : holds commons) : holds (routine.poll commons).1 := by
  induction routine generalizing commons with
  | done | panic => exact h
  | act deed next ih => exact ih (hdeed deed h)
  | observe next ih => exact ih commons h
  | sleep millis next ih | untilAbandoned next ih =>
      rw [poll]
      split
      · exact ih h
      · exact h

theorem Suspended.resume_of_deed {Result : Type} (suspended : Suspended Result)
    (holds : Commons → Prop)
    (hdeed : ∀ {commons} (deed : Deed), holds commons → holds (deed.perform commons))
    {commons : Commons} (h : holds commons) : holds (suspended.resume commons).1 := by
  rw [resume]
  split
  · exact suspended.next.poll_of_deed holds hdeed h
  · exact h

theorem Routine.poll_edits {Result : Type} (allowed : Entry → Prop) (routine : Routine Result)
    (commons : Commons) : Edits allowed commons (routine.poll commons).1 :=
  routine.poll_of_deed (Edits allowed commons) (fun deed h => h.tail (.deed _ deed)) (.refl commons)

theorem Suspended.resume_edits {Result : Type} (allowed : Entry → Prop)
    (suspended : Suspended Result) (commons : Commons) :
    Edits allowed commons (suspended.resume commons).1 :=
  suspended.resume_of_deed (Edits allowed commons) (fun deed h => h.tail (.deed _ deed))
    (.refl commons)

section Serving

variable {allowed : Entry → Prop} {signal : Signal}
  (hserves : ∀ entry, Entry.Serves signal entry → allowed entry)

/-! ### Hooks -/

namespace Hook

theorem start_edits {hook : Hook} (hpermitted : hook.Permitted allowed signal)
    (commons : Commons) : Edits allowed commons (hook.start signal commons).1 := by
  cases hook with
  | announcer => exact (Edits.refl commons).record (hpermitted rfl)
  | meter own =>
      cases own with
      | true => exact .single (.count commons _)
      | false => exact .single (.deed commons (.countElsewhere signal))
  | custom name run => exact (run signal).poll_edits allowed commons

/-- A chain that was carried on is still within the edits, and only permitted hooks are left. -/
def Sound (allowed : Entry → Prop) (signal : Signal) (before : Commons)
    (result : Commons × ChainProgress) : Prop :=
  Edits allowed before result.1 ∧
    result.2.WaitsWith fun wait => ∀ hook ∈ wait.remaining, hook.Permitted allowed signal

include hserves

theorem proceed_sound {before : Commons} (label : Label) {remaining : List Hook}
    {further : Commons → Commons × ChainProgress}
    {result : Commons × RoutineProgress (Except HookError Unit)}
    (hremaining : ∀ hook ∈ remaining, hook.Permitted allowed signal)
    (hfurther : ∀ commons, Sound allowed signal commons (further commons))
    (hresult : Edits allowed before result.1) :
    Sound allowed signal before (proceed label remaining further result) := by
  have hended : ∀ outcome, allowed (.hookEnded label outcome) := fun _ => hserves _ trivial
  obtain ⟨commons, progress⟩ := result
  rcases progress with (error | ⟨⟨⟩⟩) | message | current
  · exact ⟨hresult.record (hended _), trivial⟩
  · obtain ⟨hedits, hwaits⟩ := hfurther (commons.record (.hookEnded label (.ok ())))
    exact ⟨(hresult.record (hended _)).trans hedits, hwaits⟩
  · exact ⟨hresult, trivial⟩
  · exact ⟨hresult, hremaining⟩

theorem runAll_sound {hooks : List Hook}
    (hpermitted : ∀ hook ∈ hooks, hook.Permitted allowed signal) (commons : Commons) :
    Sound allowed signal commons (runAll signal hooks commons) := by
  induction hooks generalizing commons with
  | nil => exact ⟨.refl commons, trivial⟩
  | cons hook remaining ih =>
      have hremaining := fun later hmem => hpermitted later (List.mem_cons_of_mem _ hmem)
      have hstarted : allowed (.hookStarted hook.label signal commons.now) := hserves _ rfl
      exact proceed_sound hserves hook.label hremaining (ih hremaining)
        (((Edits.refl commons).record hstarted).trans
          (start_edits (hpermitted hook List.mem_cons_self) _))

end Hook

include hserves in
theorem ChainWait.resume_sound {wait : ChainWait}
    (hremaining : ∀ hook ∈ wait.remaining, hook.Permitted allowed signal) (commons : Commons) :
    Hook.Sound allowed signal commons (wait.resume signal commons) :=
  Hook.proceed_sound hserves wait.hook hremaining (Hook.runAll_sound hserves hremaining)
    (wait.current.resume_edits allowed commons)

/-! ### The engine -/

namespace Engine

/-- What a failure that was decided as a signal has come to. -/
def Carries (allowed : Entry → Prop) (signal : Signal) : HandlingProgress → Prop
  | .finished (.ok finished) => finished = signal
  | .finished (.error error) => error = .cancelled ∨ ∃ inner, error = .hook inner
  | .panicked _ => True
  | .waiting handling => handling.signal = signal ∧ handling.Permitted allowed

/-- A failure that was carried on is still within the edits, and still the same signal. -/
def Sound (allowed : Entry → Prop) (signal : Signal) (before : Commons)
    (result : Commons × HandlingProgress) : Prop :=
  Edits allowed before result.1 ∧ Carries allowed signal result.2

theorem afterDelay_sound {before : Commons} {result : Commons × RoutineProgress Unit}
    (hresult : Edits allowed before result.1) :
    Sound allowed signal before (afterDelay signal result) := by
  obtain ⟨commons, progress⟩ := result
  rcases progress with ⟨⟨⟩⟩ | message | current
  · exact ⟨hresult, rfl⟩
  · exact ⟨hresult, trivial⟩
  · exact ⟨hresult, rfl, trivial⟩

variable (engine : Engine)

include hserves

theorem startDelay_sound {before commons : Commons} (h : Edits allowed before commons) :
    Sound allowed signal before (engine.startDelay signal commons) := by
  rw [startDelay]
  split
  · exact ⟨h, .inl rfl⟩
  · exact afterDelay_sound ((h.record (hserves (.delayAsked signal.backoff) rfl)).trans
      (Routine.poll_edits allowed _ _))

theorem afterHooks_sound {before : Commons} {result : Commons × ChainProgress}
    (hresult : Hook.Sound allowed signal before result) :
    Sound allowed signal before (engine.afterHooks signal result) := by
  obtain ⟨commons, progress⟩ := result
  obtain ⟨hedits, hwaits⟩ := hresult
  rcases progress with (error | ⟨⟨⟩⟩) | message | wait
  · exact ⟨hedits.record (hserves (.logged _) trivial), .inr ⟨error, rfl⟩⟩
  · exact engine.startDelay_sound hserves hedits
  · exact ⟨hedits, trivial⟩
  · exact ⟨hedits, rfl, hwaits⟩

theorem resume_sound {handling : Handling} (hsignal : handling.signal = signal)
    (hpermitted : handling.Permitted allowed) (commons : Commons) :
    Sound allowed signal commons (engine.resume handling commons) := by
  rw [resume.eq_def]
  split
  · exact ⟨.refl commons, .inl rfl⟩
  · cases handling with
    | hooks decided wait =>
        cases hsignal
        exact engine.afterHooks_sound hserves (wait.resume_sound hserves hpermitted commons)
    | delay decided current =>
        cases hsignal
        exact afterDelay_sound (current.resume_edits allowed commons)

end Engine

end Serving

/-! ### Taking a failure up -/

/-- The decision that an entry tells of. -/
def Entry.decision? : Entry → Option (Option Failure × Except RetryError Signal)
  | .decided failure outcome => some (failure, outcome)
  | _ => none

/-- The decisions made so far, oldest first. -/
def Commons.decisions (commons : Commons) : List (Option Failure × Except RetryError Signal) :=
  commons.read Entry.decision?

theorem Commons.logAll_eq (commons : Commons) (entries : List LogEntry) :
    commons.logAll entries =
      { commons with journal := entries.reverse.map .logged ++ commons.journal } := by
  rw [logAll]
  induction entries generalizing commons with
  | nil => rfl
  | cons entry entries ih =>
      rw [List.foldl_cons, ih, log, record, List.reverse_cons, List.map_append, List.append_assoc]
      rfl

theorem Commons.read_logAll {Item : Type} {reader : Entry → Option Item}
    (hlogged : ∀ entry, reader (.logged entry) = none) (commons : Commons)
    (entries : List LogEntry) : (commons.logAll entries).read reader = commons.read reader := by
  rw [logAll]
  induction entries generalizing commons with
  | nil => rfl
  | cons entry entries ih => rw [List.foldl_cons, ih, read_log hlogged]

namespace Engine

variable (engine : Engine) (failure : Option Failure) (commons : Commons)

/-- A decision shows in the counter, in the number of draws and in the journal. -/
theorem decide_fst_eq :
    (engine.decide failure commons).1 =
      (Commons.logAll { commons with
        counter := (engine.policy.decide commons.counter (commons.draws commons.drawn)
          failure).counter
        drawn := commons.drawn + 1 }
        (engine.policy.decide commons.counter (commons.draws commons.drawn) failure).log).record
          (.decided failure (engine.decide failure commons).2) := rfl

theorem read_decide {Item : Type} {reader : Entry → Option Item}
    (hlogged : ∀ entry, reader (.logged entry) = none) :
    (engine.decide failure commons).1.read reader =
      commons.read reader ++
        (reader (.decided failure (engine.decide failure commons).2)).toList := by
  rw [decide_fst_eq, Commons.read_record, Commons.read_logAll hlogged]
  rfl

theorem read_decide_of_none {Item : Type} {reader : Entry → Option Item}
    (hlogged : ∀ entry, reader (.logged entry) = none)
    (hdecided : ∀ failure outcome, reader (.decided failure outcome) = none) :
    (engine.decide failure commons).1.read reader = commons.read reader := by
  rw [engine.read_decide failure commons hlogged, hdecided]
  exact List.append_nil _

theorem decisions_decide :
    (engine.decide failure commons).1.decisions =
      commons.decisions ++ [(failure, (engine.decide failure commons).2)] :=
  engine.read_decide failure commons fun _ => rfl

theorem journal_suffix_decide :
    commons.journal <:+ (engine.decide failure commons).1.journal := by
  rw [decide_fst_eq, Commons.logAll_eq]
  exact (List.suffix_append _ _).trans (List.suffix_cons _ _)

theorem cycle_decide : (engine.decide failure commons).1.cycle = commons.cycle := by
  rw [decide_fst_eq, Commons.logAll_eq]
  rfl

theorem cancelled_decide : (engine.decide failure commons).1.cancelled = commons.cancelled := by
  rw [decide_fst_eq, Commons.logAll_eq]
  rfl

variable {engine failure commons}

theorem start_of_cancelled (h : commons.cancelled) :
    engine.start failure commons = (commons, .finished (.error .cancelled)) := if_pos h

theorem start_of_refused (hopen : commons.cancelled = false) {error : RetryError}
    (h : (engine.decide failure commons).2 = .error error) :
    engine.start failure commons =
      ((engine.decide failure commons).1, .finished (.error error)) := by
  rw [start, if_neg (Bool.eq_false_iff.1 hopen)]
  split
  case h_1 hdecide =>
      rw [hdecide] at h ⊢
      cases h
      rfl
  case h_2 hdecide =>
      rw [hdecide] at h
      cases h

theorem start_of_scheduled (hopen : commons.cancelled = false) {signal : Signal}
    (h : (engine.decide failure commons).2 = .ok signal) :
    engine.start failure commons =
      engine.afterHooks signal
        (Hook.runAll signal engine.hooks (engine.decide failure commons).1) := by
  rw [start, if_neg (Bool.eq_false_iff.1 hopen)]
  split
  case h_1 hdecide =>
      rw [hdecide] at h
      cases h
  case h_2 hdecide =>
      rw [hdecide] at h ⊢
      cases h
      rfl

/-- A failure that was decided as a signal is carried on from there. -/
theorem start_sound (engine : Engine) (allowed : Entry → Prop) {signal : Signal}
    (hserves : ∀ entry, Entry.Serves signal entry → allowed entry)
    (hpermitted : ∀ hook ∈ engine.hooks, hook.Permitted allowed signal)
    (hopen : commons.cancelled = false) (h : (engine.decide failure commons).2 = .ok signal) :
    Sound allowed signal (engine.decide failure commons).1 (engine.start failure commons) := by
  rw [start_of_scheduled hopen h]
  exact engine.afterHooks_sound hserves (Hook.runAll_sound hserves hpermitted _)

/-- Whatever is put into the journal, a failure that was decided as a signal comes to that signal, to
the error of a hook, or to a cancellation. -/
theorem start_carries (hopen : commons.cancelled = false) {signal : Signal}
    (h : (engine.decide failure commons).2 = .ok signal) :
    Carries (fun _ => True) signal (engine.start failure commons).2 :=
  (engine.start_sound _ (fun _ _ => trivial) (fun _ _ _ => trivial) hopen h).2

theorem resume_carries (engine : Engine) (handling : Handling) (commons : Commons) :
    Carries (fun _ => True) handling.signal (engine.resume handling commons).2 := by
  have hpermitted : handling.Permitted fun _ => True := by
    cases handling with
    | hooks signal wait => exact fun _ _ _ => trivial
    | delay signal current => trivial
  exact (engine.resume_sound (fun _ _ => trivial) rfl hpermitted commons).2

/-- A failure that is not retried is final, or the budget is used up. -/
theorem isTerminal_or_isExhausted_of_decide {failure : Failure} {error : RetryError}
    (h : (engine.decide (some failure) commons).2 = .error error) :
    error.isTerminal ∨ error.isExhausted := by
  rcases engine.policy.decide_outcome_error commons.counter (commons.draws commons.drawn) h with
    ⟨hnone, -⟩ | ⟨_, -, rfl | ⟨_, rfl⟩⟩
  · cases hnone
  · exact .inl rfl
  · exact .inr rfl

/-- The signal of a decision is about the failure that was handed in. -/
theorem failure_of_decide_ok {signal : Signal} (h : (engine.decide failure commons).2 = .ok signal) :
    failure = some signal.failure ∧ signal.stage = Policy.nextStage signal.failure :=
  engine.policy.failure_of_decide_ok commons.counter (commons.draws commons.drawn) h

theorem isRetrying_of_decide {signal : Signal} (h : (engine.decide failure commons).2 = .ok signal) :
    signal.stage.isRetrying := by
  rw [(failure_of_decide_ok h).2, Policy.nextStage]
  split <;> rfl

end Engine

end Rejoin
