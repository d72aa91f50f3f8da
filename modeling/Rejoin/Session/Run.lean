import Rejoin.Session.Error
import Rejoin.Task.Pipeline

/-! A session: one connection after another, each a cycle of a connector, with a retry pipeline
between them.

`Session.step` is the next step of the run, or `none` while it has to wait. Nobody interrupts it
between the steps of one turn: `Session.turn` is the turn of the run, and `Session.turnTask` that of
its pipeline's task. Deliberate closes come from anywhere between turns, through `Commons.close`, or
from the connector itself. -/

namespace Rejoin

/-- What the run is at. -/
inductive Session.Phase where
  | starting (mode : Mode)
  | cycling (current : Suspended (Except Failure Unit))
  | retrying (call : Call)
  | ended (result : Except SessionError Unit)
  | panicked (message : String)

structure Session where
  connector : Cycle → Routine (Except Failure Unit)
  pipeline : Pipeline
  phase : Session.Phase := .starting .identify
  /-- The number of cycles started. -/
  cycles : Nat := 0

namespace Session

/-- The room for changes that subscribers have not read yet, unless another is asked for. -/
def defaultCapacity : Nat := 64

/-- The engine of a session: retries are published and counted before any other hook runs. -/
def engine (policy : Policy) (hooks : List Hook) : Engine :=
  ⟨policy, .announcer :: .meter true :: hooks⟩

def initial (policy : Policy) (hooks : List Hook)
    (connector : Cycle → Routine (Except Failure Unit)) : Session :=
  { connector, pipeline := { engine := engine policy hooks } }

def result? (session : Session) : Option (Except SessionError Unit) :=
  match session.phase with
  | .ended result => some result
  | _ => none

/-- Ends the run; its pipeline goes with it. -/
def finish (session : Session) (phase : Phase) : Session :=
  { session with phase, pipeline := session.pipeline.abort }

/-- Ends the running cycle with a failure, which goes to the pipeline. -/
def fail (session : Session) (failure : Failure) (commons : Commons) : Session × Commons :=
  ({ session with phase := .retrying (.retry (some failure)) },
    { commons with cycle := none }.log
      ⟨.warn, "gateway connection failed", [("cause", failure.text)]⟩)

/-- What follows once the connector got so far. -/
def afterCycle (session : Session) :
    Commons × RoutineProgress (Except Failure Unit) → Session × Commons
  | (commons, .finished (.ok ())) =>
    (session.finish (.ended (.ok ())),
      { commons with cycle := none }.log ⟨.info, "gateway session ended", []⟩)
  | (commons, .finished (.error failure)) => session.fail failure commons
  | (commons, .panicked message) =>
    (session.finish (.panicked message), { commons with cycle := none })
  | (commons, .waiting current) => ({ session with phase := .cycling current }, commons)

/-- The running cycle is abandoned: a close that is taken out of the slot stands for its failure, and
without one the run is over. -/
def abandon (session : Session) (commons : Commons) : Session × Commons :=
  match commons.slot.close with
  | some status => session.fail (.closed status) commons.takeClose
  | none => (session.finish (.ended (.ok ())), { commons with cycle := none })

/-- Begins the next cycle, with an empty slot, and runs its connector up to the first wait. -/
def beginCycle (session : Session) (mode : Mode) (commons : Commons) : Session × Commons :=
  let cycle : Cycle := { number := session.cycles, mode, attempt := commons.counter.attempts }
  let commons := { commons with cycle := some cycle, slot := {} }.record (.published .connecting)
  let commons := commons.log ⟨.debug, "starting gateway connection cycle",
    [("mode", mode.text), ("attempt", toString cycle.attempt.toNat)]⟩
  let commons := commons.record (.cycleStarted cycle commons.now)
  { session with cycles := session.cycles + 1 }.afterCycle ((session.connector cycle).poll commons)

/-- The status that a final disconnect is published with. -/
def finalStatus (error : RetryError) : CloseStatus :=
  (error.failure?.bind Failure.closeStatus?).getD .abnormal

/-- The run ends with the error of its pipeline. A cancelled pipeline means that the session was
closed, which is no error. -/
def stopWith (session : Session) (error : RetryError) (commons : Commons) : Session × Commons :=
  let commons := { commons with metrics := commons.metrics.count (.ofError error) }
  if error.isCancelled then (session.finish (.ended (.ok ())), commons)
  else
    let commons := commons.log (.ofRetryError error)
    let change := Change.disconnected (.stopAbruptly error.text) (finalStatus error)
    (session.finish (.ended (.error (.retry error))), commons.record (.published change))

/-- What follows a reply of the pipeline. -/
def afterReply (session : Session) (commons : Commons) : Reply → Session × Commons
  | .retried (.ok signal) => ({ session with phase := .starting (.after signal.stage) }, commons)
  | .retried (.error error) => session.stopWith error commons
  | .panicked message => (session.finish (.panicked message), commons)
  | .accepted _ | .proceeded _ | .joined _ => (session, commons)

/-- The next step of the run. -/
def step (session : Session) (commons : Commons) : Option (Session × Commons) :=
  match session.phase with
  | .starting mode =>
    if commons.cancelled then some (session.finish (.ended (.ok ())), commons)
    else some (session.beginCycle mode commons)
  | .cycling current =>
    if commons.abandoned then some (session.abandon commons)
    else if current.wake.isDue commons then some (session.afterCycle (current.next.poll commons))
    else none
  | .retrying call =>
    (call.step session.pipeline).map fun
      | (pipeline, .inl call) => ({ session with pipeline, phase := .retrying call }, commons)
      | (pipeline, .inr reply) => { session with pipeline }.afterReply commons reply
  | .ended _ | .panicked _ => none

/-- Whether the run has a next step. -/
def canGoOn (session : Session) (commons : Commons) : Bool := (session.step commons).isSome

/-- Whether the run gives way after a step. A cycle that waits is looked at again only in the next
turn, also when it is abandoned by then already. -/
def givesWay (session : Session) : Bool :=
  match session.phase with
  | .cycling _ => true
  | _ => false

/-- Steps of the run, as many as are asked for or until it gives way or has to wait. -/
def advance (session : Session) (commons : Commons) : Nat → Session × Commons
  | 0 => (session, commons)
  | steps + 1 =>
    match session.step commons with
    | some (session, commons) =>
      if session.givesWay then (session, commons) else session.advance commons steps
    | none => (session, commons)

/-- The steps that the run can take at one time: it takes a reply, begins a cycle, hands in its
failure, and ends, with some to spare. -/
def turnSteps : Nat := 8

/-- A turn of the run. -/
def turn (session : Session) (commons : Commons) : Session × Commons :=
  session.advance commons turnSteps

/-- A turn of the pipeline's task. -/
def turnTask (session : Session) (commons : Commons) : Option (Session × Commons) :=
  (session.pipeline.turn commons).map fun (pipeline, commons) =>
    ({ session with pipeline }, commons)

/-- The time at which the session goes on by itself. -/
def wakeTime? (session : Session) : Option Nat :=
  match session.phase with
  | .cycling current => current.wake.time?
  | .retrying _ => session.pipeline.wakeTime?
  | _ => none

def description (session : Session) (commons : Commons) : String :=
  let attempts := toString commons.counter.attempts.toNat
  "GatewayRuntime \x7b engine: " ++ session.pipeline.engine.description commons.counter
    ++ ", attempts: " ++ attempts ++ ", closed: " ++ toString commons.cancelled ++ " \x7d"

end Session

end Rejoin
