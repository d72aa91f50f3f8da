import Rejoin.Proofs.Task.Progress
import Rejoin.Task.Pipeline

/-! Everything that one step can do, of the task of a pipeline and of a call of its owner. Each kind
of step is one constructor, with the conditions it is taken under. -/

namespace Rejoin

/-- Moves in a row lead where the moves lead one by one. -/
theorem reflTransGen_of_foldlM {State Move : Type} {move : State → Move → Option State}
    {moves : List Move} {first last : State} (h : moves.foldlM move first = some last) :
    Relation.ReflTransGen (fun before after => ∃ next, move before next = some after) first last := by
  induction moves generalizing first with
  | nil =>
      cases h
      exact .refl
  | cons next moves ih =>
      rw [List.foldlM_cons] at h
      obtain ⟨between, hmove, hrest⟩ := Option.bind_eq_some_iff.1 h
      exact .head ⟨next, hmove⟩ (ih hrest)

namespace Pipeline.Task

theorem eq_waiting_of_ofProgress {progress : HandlingProgress} {handling : Handling}
    (h : ofProgress progress = .handling handling) : progress = .waiting handling := by
  rcases progress with (_ | _) | _ | _ <;> cases h
  rfl

theorem eq_finished_of_ofProgress {progress : HandlingProgress} {signal : Signal}
    (h : ofProgress progress = .offering signal) : progress = .finished (.ok signal) := by
  rcases progress with (_ | _) | _ | _ <;> cases h
  rfl

theorem ofProgress_ne_idle (progress : HandlingProgress) : ofProgress progress ≠ .idle := by
  rcases progress with (_ | _) | _ | _ <;> nofun

end Pipeline.Task

namespace Pipeline

/-- The steps of the task. -/
inductive Stepped (pipeline : Pipeline) (commons : Commons) : Pipeline → Commons → Prop where
  /-- Between two failures, or with a signal in hand, the task notices the cancellation. -/
  | cancelled (htask : pipeline.task = .idle ∨ ∃ signal, pipeline.task = .offering signal)
      (hcancelled : commons.cancelled) :
      Stepped pipeline commons { pipeline with task := .ended (.error .cancelled) } commons
  | took (htask : pipeline.task = .idle) (hopen : commons.cancelled = false)
      {failure : Option Failure} (hinbox : pipeline.inbox = some failure) :
      Stepped pipeline commons
        { pipeline with
          inbox := none
          task := .ofProgress (pipeline.engine.start failure commons).2 }
        (pipeline.engine.start failure commons).1
  | closed (htask : pipeline.task = .idle) (hopen : commons.cancelled = false)
      (hinbox : pipeline.inbox = none) (hclosed : pipeline.accepting = false) :
      Stepped pipeline commons { pipeline with task := .ended (.ok ()) } commons
  | resumed {handling : Handling} (htask : pipeline.task = .handling handling)
      (hdue : handling.isDue commons) :
      Stepped pipeline commons
        { pipeline with task := .ofProgress (pipeline.engine.resume handling commons).2 }
        (pipeline.engine.resume handling commons).1
  | dropped {signal : Signal} (htask : pipeline.task = .offering signal)
      (hopen : commons.cancelled = false) (hleft : pipeline.receiving = false) :
      Stepped pipeline commons { pipeline with task := .ended (.ok ()) }
        (commons.log ⟨.debug, "retry pipeline receiver dropped, stopping", []⟩)
  | placed {signal : Signal} (htask : pipeline.task = .offering signal)
      (hopen : commons.cancelled = false) (hthere : pipeline.receiving)
      (houtbox : pipeline.outbox = none) :
      Stepped pipeline commons { pipeline with outbox := some signal, task := .idle } commons

theorem stepped_of_step {pipeline next : Pipeline} {commons after : Commons}
    (h : pipeline.step commons = some (next, after)) : Stepped pipeline commons next after := by
  rw [step] at h
  split at h
  case h_1 htask =>
      split at h
      case isTrue hcancelled =>
          cases h
          exact .cancelled (.inl htask) hcancelled
      case isFalse hopen =>
          have hopen := Bool.eq_false_iff.2 hopen
          split at h
          case h_1 failure hinbox =>
              cases h
              exact .took htask hopen hinbox
          case h_2 hinbox =>
              split at h
              case isTrue => cases h
              case isFalse hclosed =>
                  cases h
                  exact .closed htask hopen hinbox (Bool.eq_false_iff.2 hclosed)
  case h_2 handling htask =>
      split at h
      case isTrue hdue =>
          cases h
          exact .resumed htask hdue
      case isFalse => cases h
  case h_3 signal htask =>
      split at h
      case isTrue hcancelled =>
          cases h
          exact .cancelled (.inr ⟨signal, htask⟩) hcancelled
      case isFalse hopen =>
          have hopen := Bool.eq_false_iff.2 hopen
          split at h
          case isTrue hleft =>
              cases h
              exact .dropped htask hopen (Bool.eq_false_iff.2 hleft)
          case isFalse hthere =>
              split at h
              case isTrue houtbox =>
                  cases h
                  exact .placed htask hopen (Decidable.not_not.1 hthere)
                    (Option.isNone_iff_eq_none.1 houtbox)
              case isFalse => cases h
  all_goals cases h

namespace Stepped

variable {pipeline next : Pipeline} {commons after : Commons}

theorem isOver_eq_false (h : Stepped pipeline commons next after) :
    pipeline.task.isOver = false := by
  cases h with
  | cancelled htask =>
      rcases htask with htask | ⟨signal, htask⟩ <;> rw [htask] <;> rfl
  | took htask | closed htask | resumed htask | dropped htask | placed htask => rw [htask]; rfl

theorem engine_eq (h : Stepped pipeline commons next after) : next.engine = pipeline.engine := by
  cases h <;> rfl

theorem accepting_eq (h : Stepped pipeline commons next after) :
    next.accepting = pipeline.accepting := by
  cases h <;> rfl

theorem receiving_eq (h : Stepped pipeline commons next after) :
    next.receiving = pipeline.receiving := by
  cases h <;> rfl

theorem reported_eq (h : Stepped pipeline commons next after) :
    next.reported = pipeline.reported := by
  cases h <;> rfl

end Stepped

/-! The steps that the cases of `Stepped` stand for are taken. -/

theorem step_of_took {pipeline : Pipeline} {commons : Commons} (htask : pipeline.task = .idle)
    (hopen : commons.cancelled = false) {failure : Option Failure}
    (hinbox : pipeline.inbox = some failure) :
    pipeline.step commons = some (
      { pipeline with
        inbox := none
        task := .ofProgress (pipeline.engine.start failure commons).2 },
      (pipeline.engine.start failure commons).1) := by
  rw [step, htask]
  dsimp only
  rw [if_neg (Bool.eq_false_iff.1 hopen), hinbox]

theorem step_of_resumed {pipeline : Pipeline} {commons : Commons} {handling : Handling}
    (htask : pipeline.task = .handling handling) (hdue : handling.isDue commons) :
    pipeline.step commons = some (
      { pipeline with task := .ofProgress (pipeline.engine.resume handling commons).2 },
      (pipeline.engine.resume handling commons).1) := by
  rw [step, htask]
  exact if_pos hdue

theorem step_of_placed {pipeline : Pipeline} {commons : Commons} {signal : Signal}
    (htask : pipeline.task = .offering signal) (hopen : commons.cancelled = false)
    (hthere : pipeline.receiving) (houtbox : pipeline.outbox = none) :
    pipeline.step commons =
      some ({ pipeline with outbox := some signal, task := .idle }, commons) := by
  rw [step, htask]
  dsimp only
  rw [if_neg (Bool.eq_false_iff.1 hopen), if_neg (not_not_intro hthere), houtbox]
  rfl

/-- Short of a cancellation, the task has to wait for a failure, for a hook or a delay, or for room
in the outbox. -/
theorem step_eq_none_iff {pipeline : Pipeline} {commons : Commons}
    (hopen : commons.cancelled = false) :
    pipeline.step commons = none ↔
      (pipeline.task = .idle ∧ pipeline.inbox = none ∧ pipeline.accepting) ∨
      (∃ handling, pipeline.task = .handling handling ∧ handling.isDue commons = false) ∨
      (∃ signal, pipeline.task = .offering signal ∧ pipeline.receiving ∧
        pipeline.outbox ≠ none) ∨
      pipeline.task.isOver := by
  have hopen := Bool.eq_false_iff.1 hopen
  rw [step.eq_def]
  cases htask : pipeline.task with
  | idle =>
      cases hinbox : pipeline.inbox <;> simp [hopen, Task.isOver]
  | handling current => simp [Task.isOver]
  | offering signal =>
      cases hreceiving : pipeline.receiving <;> cases houtbox : pipeline.outbox <;>
        simp [hopen, Task.isOver]
  | ended | panicked | aborted => simp [Task.isOver]

/-- The error that a task has ended with. -/
def Task.error? : Task → Option RetryError
  | .ended (.error error) => some error
  | _ => none

theorem Task.error?_eq_some_iff {task : Task} {error : RetryError} :
    task.error? = some error ↔ task = .ended (.error error) := by
  rcases task with _ | _ | _ | (_ | ⟨⟨⟩⟩) | _ | _ <;> simp [error?]

/-- With the token cancelled the only step of the task is to its end. -/
theorem Stepped.of_cancelled {pipeline next : Pipeline} {commons after : Commons}
    (h : Stepped pipeline commons next after) (hcancelled : commons.cancelled) :
    next = { pipeline with task := .ended (.error .cancelled) } ∧ after = commons := by
  have hnot : commons.cancelled ≠ false := Bool.ne_false_iff.2 hcancelled
  cases h with
  | cancelled => exact ⟨rfl, rfl⟩
  | took _ hopen | closed _ hopen | dropped _ hopen | placed _ hopen => exact absurd hopen hnot
  | resumed =>
      rw [Engine.resume.eq_def, if_pos hcancelled]
      exact ⟨rfl, rfl⟩

/-- Wherever the task is, a cancellation ends its wait. -/
theorem step_of_cancelled {pipeline : Pipeline} {commons : Commons}
    (hrunning : pipeline.task.isOver = false) (hcancelled : commons.cancelled) :
    pipeline.step commons =
      some ({ pipeline with task := .ended (.error .cancelled) }, commons) := by
  rw [step]
  cases htask : pipeline.task with
  | idle | offering => exact if_pos hcancelled
  | handling current =>
      have hdue : current.isDue commons := Bool.or_eq_true_iff.2 (.inl hcancelled)
      dsimp only
      rw [if_pos hdue, Engine.resume.eq_def, if_pos hcancelled]
      rfl
  | ended | panicked | aborted =>
      rw [htask] at hrunning
      cases hrunning

theorem step_of_isOver {pipeline : Pipeline} {commons : Commons} (hover : pipeline.task.isOver) :
    pipeline.step commons = none := by
  rw [step]
  cases htask : pipeline.task with
  | ended | panicked | aborted => rfl
  | idle | handling | offering =>
      rw [htask] at hover
      cases hover

/-- Steps of the task, one after the other, with nothing in between. -/
def Goes : Pipeline × Commons → Pipeline × Commons → Prop :=
  Relation.ReflTransGen fun before after => before.1.step before.2 = some after

theorem goes_of_advance (steps : Nat) (pipeline : Pipeline) (commons : Commons) :
    Goes (pipeline, commons) (pipeline.advance commons steps) := by
  induction steps generalizing pipeline commons with
  | zero => exact .refl
  | succ steps ih =>
      rw [advance]
      split
      case h_1 next after hstep => exact .head hstep (ih next after)
      case h_2 => exact .refl

/-- A turn of the task is made of its steps. -/
theorem goes_of_turn {pipeline : Pipeline} {commons : Commons} {last : Pipeline × Commons}
    (h : pipeline.turn commons = some last) : Goes (pipeline, commons) last := by
  obtain ⟨⟨next, after⟩, hstep, rfl⟩ := Option.map_eq_some_iff.1 h
  exact .head hstep (goes_of_advance turnSteps next after)

end Pipeline

namespace Call

/-- The steps of a call. -/
inductive Stepped (pipeline : Pipeline) : Call → Pipeline → Call ⊕ Reply → Prop where
  | refused {failure : Option Failure}
      (hclosed : pipeline.accepting = false ∨ pipeline.task.isOver) :
      Stepped pipeline (.submit failure) pipeline (.inr (.accepted false))
  | accepted {failure : Option Failure} (hopen : pipeline.accepting)
      (hrunning : pipeline.task.isOver = false) (hinbox : pipeline.inbox = none) :
      Stepped pipeline (.submit failure) { pipeline with inbox := some failure }
        (.inr (.accepted true))
  | retryRefused {failure : Option Failure}
      (hclosed : pipeline.accepting = false ∨ pipeline.task.isOver) :
      Stepped pipeline (.retry failure) pipeline.shut (.inl (.awaitEnd true))
  | retryAccepted {failure : Option Failure} (hopen : pipeline.accepting)
      (hrunning : pipeline.task.isOver = false) (hinbox : pipeline.inbox = none) :
      Stepped pipeline (.retry failure) { pipeline with inbox := some failure }
        (.inl .awaitSignal)
  | proceeded {signal : Signal} (houtbox : pipeline.outbox = some signal) :
      Stepped pipeline .proceed { pipeline with outbox := none } (.inr (.proceeded (some signal)))
  | proceededNone (houtbox : pipeline.outbox = none) (hover : pipeline.task.isOver) :
      Stepped pipeline .proceed pipeline (.inr (.proceeded none))
  | retried {signal : Signal} (houtbox : pipeline.outbox = some signal) :
      Stepped pipeline .awaitSignal { pipeline with outbox := none }
        (.inr (.retried (.ok signal)))
  | missed (houtbox : pipeline.outbox = none) (hover : pipeline.task.isOver) :
      Stepped pipeline .awaitSignal pipeline.shut (.inl (.awaitEnd true))
  | joined : Stepped pipeline .join pipeline.shut (.inl (.awaitEnd false))
  | toldBefore {retrying : Bool} (hreported : pipeline.reported) :
      Stepped pipeline (.awaitEnd retrying) pipeline (.inr (.ofEnd retrying (.ok ())))
  | toldEnd {retrying : Bool} {result : Except RetryError Unit}
      (hreported : pipeline.reported = false) (htask : pipeline.task = .ended result) :
      Stepped pipeline (.awaitEnd retrying) { pipeline with reported := true }
        (.inr (.ofEnd retrying result))
  | toldPanic {retrying : Bool} {message : String} (hreported : pipeline.reported = false)
      (htask : pipeline.task = .panicked message) :
      Stepped pipeline (.awaitEnd retrying) { pipeline with reported := true }
        (.inr (.panicked message))
  | toldAborted {retrying : Bool} (hreported : pipeline.reported = false)
      (htask : pipeline.task = .aborted) :
      Stepped pipeline (.awaitEnd retrying) { pipeline with reported := true }
        (.inr (.ofEnd retrying (.error .cancelled)))

namespace Stepped

variable {pipeline next : Pipeline} {call : Call} {result : Call ⊕ Reply}

theorem task_eq (h : Stepped pipeline call next result) : next.task = pipeline.task := by
  cases h <;> rfl

theorem engine_eq (h : Stepped pipeline call next result) : next.engine = pipeline.engine := by
  cases h <;> rfl

theorem receiving_eq (h : Stepped pipeline call next result) :
    next.receiving = pipeline.receiving := by
  cases h <;> rfl

/-- Only the end of the task is reported. -/
theorem reported_cases (h : Stepped pipeline call next result) (hreported : next.reported) :
    pipeline.reported ∨ pipeline.task.isOver := by
  cases h with
  | toldEnd _ htask | toldPanic _ htask | toldAborted _ htask => exact .inr (htask ▸ rfl)
  | refused | accepted | retryRefused | retryAccepted | proceeded | proceededNone | retried | missed
  | joined | toldBefore => exact .inl hreported

end Stepped

theorem handIn_cases {failure : Option Failure} {pipeline next : Pipeline} {accepted : Bool}
    (h : handIn failure pipeline = some (next, accepted)) :
    (accepted = false ∧ next = pipeline ∧
        (pipeline.accepting = false ∨ pipeline.task.isOver)) ∨
      (accepted = true ∧ next = { pipeline with inbox := some failure } ∧ pipeline.accepting ∧
        pipeline.task.isOver = false ∧ pipeline.inbox = none) := by
  rw [handIn] at h
  split at h
  case isTrue hclosed =>
      cases h
      exact .inl ⟨rfl, rfl, hclosed.imp_left Bool.eq_false_iff.2⟩
  case isFalse hopen =>
      rw [not_or, Decidable.not_not] at hopen
      split at h
      case isTrue hinbox =>
          cases h
          exact .inr ⟨rfl, rfl, hopen.1, Bool.eq_false_iff.2 hopen.2,
            Option.isNone_iff_eq_none.1 hinbox⟩
      case isFalse => cases h

theorem takeOut_cases {pipeline next : Pipeline} {taken : Option Signal}
    (h : takeOut pipeline = some (next, taken)) :
    (∃ signal, taken = some signal ∧ pipeline.outbox = some signal ∧
        next = { pipeline with outbox := none }) ∨
      (taken = none ∧ pipeline.outbox = none ∧ next = pipeline ∧ pipeline.task.isOver) := by
  rw [takeOut] at h
  split at h
  case h_1 signal houtbox =>
      cases h
      exact .inl ⟨signal, rfl, houtbox, rfl⟩
  case h_2 houtbox =>
      split at h
      case isTrue hover =>
          cases h
          exact .inr ⟨rfl, houtbox, rfl, hover⟩
      case isFalse => cases h

theorem stepped_of_step {pipeline next : Pipeline} {call : Call} {result : Call ⊕ Reply}
    (h : call.step pipeline = some (next, result)) : Stepped pipeline call next result := by
  cases call with
  | submit failure =>
      obtain ⟨⟨handed, accepted⟩, hhand, heq⟩ := Option.map_eq_some_iff.1 h
      cases heq
      rcases handIn_cases hhand with ⟨rfl, rfl, hclosed⟩ | ⟨rfl, rfl, hopen, hrunning, hinbox⟩
      · exact .refused hclosed
      · exact .accepted hopen hrunning hinbox
  | proceed =>
      obtain ⟨⟨taken, signal⟩, htake, heq⟩ := Option.map_eq_some_iff.1 h
      cases heq
      rcases takeOut_cases htake with ⟨signal, rfl, houtbox, rfl⟩ | ⟨rfl, houtbox, rfl, hover⟩
      · exact .proceeded houtbox
      · exact .proceededNone houtbox hover
  | retry failure =>
      obtain ⟨⟨handed, accepted⟩, hhand, heq⟩ := Option.map_eq_some_iff.1 h
      rcases handIn_cases hhand with ⟨rfl, rfl, hclosed⟩ | ⟨rfl, rfl, hopen, hrunning, hinbox⟩
      · cases heq
        exact .retryRefused hclosed
      · cases heq
        exact .retryAccepted hopen hrunning hinbox
  | awaitSignal =>
      obtain ⟨⟨taken, signal⟩, htake, heq⟩ := Option.map_eq_some_iff.1 h
      rcases takeOut_cases htake with ⟨signal, rfl, houtbox, rfl⟩ | ⟨rfl, houtbox, rfl, hover⟩
      · cases heq
        exact .retried houtbox
      · cases heq
        exact .missed houtbox hover
  | join =>
      cases h
      exact .joined
  | awaitEnd retrying =>
      rw [step, report] at h
      split at h
      case isTrue hreported =>
          cases h
          exact .toldBefore hreported
      case isFalse hreported =>
          have hreported := Bool.eq_false_iff.2 hreported
          split at h <;> cases h
          case h_1 result htask => exact .toldEnd hreported htask
          case h_2 message htask => exact .toldPanic hreported htask
          case h_3 htask => exact .toldAborted hreported htask

/-! A task that is over takes nothing in, and puts nothing out any more. -/

theorem handIn_of_isOver {pipeline : Pipeline} (hover : pipeline.task.isOver)
    (failure : Option Failure) : handIn failure pipeline = some (pipeline, false) := by
  rw [handIn, if_pos (.inr hover)]

theorem takeOut_of_isOver {pipeline : Pipeline} (hover : pipeline.task.isOver) :
    takeOut pipeline = some ({ pipeline with outbox := none }, pipeline.outbox) := by
  rw [takeOut]
  split
  case h_1 signal houtbox => rw [houtbox]
  case h_2 houtbox =>
      rw [if_pos hover]
      obtain ⟨⟩ := pipeline
      cases houtbox
      rfl

theorem step_retry_of_isOver {pipeline : Pipeline} (hover : pipeline.task.isOver)
    (failure : Option Failure) :
    (Call.retry failure).step pipeline = some (pipeline.shut, .inl (.awaitEnd true)) := by
  rw [step, handIn_of_isOver hover]
  rfl

theorem step_awaitSignal_of_isOver {pipeline : Pipeline} (hover : pipeline.task.isOver)
    (houtbox : pipeline.outbox = none) :
    Call.awaitSignal.step pipeline = some (pipeline.shut, .inl (.awaitEnd true)) := by
  rw [step, takeOut_of_isOver hover, houtbox]
  rfl

theorem step_awaitEnd_eq_none_iff {pipeline : Pipeline} {retrying : Bool} :
    (Call.awaitEnd retrying).step pipeline = none ↔
      pipeline.reported = false ∧ pipeline.task.isOver = false := by
  rw [step, report]
  cases pipeline.reported <;> cases pipeline.task <;> simp [Pipeline.Task.isOver]

end Call

end Rejoin
