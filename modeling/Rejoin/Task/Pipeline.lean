import Rejoin.Task.Handling

/-! An engine fed one failure at a time. Failures wait in an inbox for one and signals in an outbox
for one; between the two, a task takes a failure only after the signal of the failure before it is
in the outbox.

The task and the owner take turns in small steps: `Pipeline.step` is the task's next one and
`Call.step` that of an owner's pending call; each is `none` while it has to wait for somebody
else. -/

namespace Rejoin

/-- What the task is at. -/
inductive Pipeline.Task where
  | idle
  | handling (handling : Handling)
  /-- Waits for room in the outbox. -/
  | offering (signal : Signal)
  | ended (result : Except RetryError Unit)
  | panicked (message : String)
  | aborted

structure Pipeline where
  engine : Engine
  inbox : Option (Option Failure) := none
  outbox : Option Signal := none
  /-- Whether the owner may still submit. -/
  accepting : Bool := true
  /-- Whether the owner may still receive. -/
  receiving : Bool := true
  task : Pipeline.Task := .idle
  /-- Whether the owner has been told how the task ended. -/
  reported : Bool := false

namespace Pipeline

def Task.isOver : Task → Bool
  | .ended _ | .panicked _ | .aborted => true
  | .idle | .handling _ | .offering _ => false

/-- The task once a failure got so far. -/
def Task.ofProgress : HandlingProgress → Task
  | .finished (.ok signal) => .offering signal
  | .finished (.error error) => .ended (.error error)
  | .panicked message => .panicked message
  | .waiting current => .handling current

/-- The next step of the task. -/
def step (pipeline : Pipeline) (commons : Commons) : Option (Pipeline × Commons) :=
  match pipeline.task with
  | .idle =>
    if commons.cancelled then some ({ pipeline with task := .ended (.error .cancelled) }, commons)
    else
      match pipeline.inbox with
      | some failure =>
        let (commons, progress) := pipeline.engine.start failure commons
        some ({ pipeline with inbox := none, task := .ofProgress progress }, commons)
      | none =>
        if pipeline.accepting then none
        else some ({ pipeline with task := .ended (.ok ()) }, commons)
  | .handling handling =>
    if handling.isDue commons then
      let (commons, progress) := pipeline.engine.resume handling commons
      some ({ pipeline with task := .ofProgress progress }, commons)
    else none
  | .offering signal =>
    if commons.cancelled then some ({ pipeline with task := .ended (.error .cancelled) }, commons)
    else if ¬ pipeline.receiving then
      some ({ pipeline with task := .ended (.ok ()) },
        commons.log ⟨.debug, "retry pipeline receiver dropped, stopping", []⟩)
    else if pipeline.outbox.isNone then
      some ({ pipeline with outbox := some signal, task := .idle }, commons)
    else none
  | .ended _ | .panicked _ | .aborted => none

/-- Steps of the task, as many as are asked for or until it has to wait. -/
def advance (pipeline : Pipeline) (commons : Commons) : Nat → Pipeline × Commons
  | 0 => (pipeline, commons)
  | steps + 1 =>
    match pipeline.step commons with
    | some (pipeline, commons) => pipeline.advance commons steps
    | none => (pipeline, commons)

/-- The steps that the task can take at one time: it ends a wait, hands out its signal, takes the
next failure, hands out that one's signal too, and ends, with some to spare. -/
def turnSteps : Nat := 16

/-- A turn of the task: its steps until it has to wait. -/
def turn (pipeline : Pipeline) (commons : Commons) : Option (Pipeline × Commons) :=
  (pipeline.step commons).map fun (pipeline, commons) => pipeline.advance commons turnSteps

/-- The time at which the task goes on by itself. -/
def wakeTime? (pipeline : Pipeline) : Option Nat :=
  match pipeline.task with
  | .handling handling => handling.wake.time?
  | _ => none

/-- Stops the task where it is. -/
def abort (pipeline : Pipeline) : Pipeline :=
  { pipeline with
    accepting := false
    receiving := false
    task := if pipeline.task.isOver then pipeline.task else .aborted }

/-- Leaves the task to itself, with nobody to receive from it. -/
def detach (pipeline : Pipeline) : Pipeline :=
  { pipeline with accepting := false, receiving := false }

/-- Stops accepting failures and discards an unread signal. -/
def shut (pipeline : Pipeline) : Pipeline := { pipeline with accepting := false, outbox := none }

/-- Whether the task is known to be over. -/
def isFinished (pipeline : Pipeline) : Bool := pipeline.reported || pipeline.task.isOver

end Pipeline

/-- A pending call of the owner. -/
inductive Call where
  | submit (failure : Option Failure)
  | proceed
  | retry (failure : Option Failure)
  /-- A retry whose failure was accepted. -/
  | awaitSignal
  | join
  /-- A join, or a retry without a signal, that waits for the task to end. -/
  | awaitEnd (retrying : Bool)
  deriving DecidableEq

inductive Reply where
  | accepted (accepted : Bool)
  | proceeded (signal : Option Signal)
  | retried (result : Except RetryError Signal)
  | joined (result : Except RetryError Unit)
  | panicked (message : String)

namespace Reply

/-- The reply to a join or to a retry without a signal. Such a retry always fails. -/
def ofEnd (retrying : Bool) (result : Except RetryError Unit) : Reply :=
  if retrying then
    match result with
    | .ok () => .retried (.error .cancelled)
    | .error error => .retried (.error error)
  else .joined result

end Reply

namespace Call

/-- Tells the owner how the task ended. Once told, there is nothing more to say. -/
def report (retrying : Bool) (pipeline : Pipeline) : Option (Pipeline × (Call ⊕ Reply)) :=
  if pipeline.reported then some (pipeline, .inr (.ofEnd retrying (.ok ())))
  else
    match pipeline.task with
    | .ended result => some ({ pipeline with reported := true }, .inr (.ofEnd retrying result))
    | .panicked message => some ({ pipeline with reported := true }, .inr (.panicked message))
    | .aborted =>
      some ({ pipeline with reported := true }, .inr (.ofEnd retrying (.error .cancelled)))
    | .idle | .handling _ | .offering _ => none

/-- Hands a failure in: `some true` if it was accepted, `some false` if it never will be. -/
def handIn (failure : Option Failure) (pipeline : Pipeline) : Option (Pipeline × Bool) :=
  if ¬ pipeline.accepting ∨ pipeline.task.isOver then some (pipeline, false)
  else if pipeline.inbox.isNone then some ({ pipeline with inbox := some failure }, true)
  else none

/-- Takes a signal out: `some none` if there never will be one. -/
def takeOut (pipeline : Pipeline) : Option (Pipeline × Option Signal) :=
  match pipeline.outbox with
  | some signal => some ({ pipeline with outbox := none }, some signal)
  | none => if pipeline.task.isOver then some (pipeline, none) else none

/-- The next step of a call. -/
def step (pipeline : Pipeline) : Call → Option (Pipeline × (Call ⊕ Reply))
  | .submit failure => (handIn failure pipeline).map fun (pipeline, accepted) =>
    (pipeline, .inr (.accepted accepted))
  | .proceed => (takeOut pipeline).map fun (pipeline, signal) =>
    (pipeline, .inr (.proceeded signal))
  | .retry failure => (handIn failure pipeline).map fun (pipeline, accepted) =>
    if accepted then (pipeline, .inl .awaitSignal) else (pipeline.shut, .inl (.awaitEnd true))
  | .awaitSignal => (takeOut pipeline).map fun
    | (pipeline, some signal) => (pipeline, .inr (.retried (.ok signal)))
    | (pipeline, none) => (pipeline.shut, .inl (.awaitEnd true))
  | .join => some (pipeline.shut, .inl (.awaitEnd false))
  | .awaitEnd retrying => report retrying pipeline

end Call

end Rejoin
