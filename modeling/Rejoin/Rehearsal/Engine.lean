import Rejoin.Rehearsal.Chain
import Rejoin.Task.Handling

/-! A single engine with scripted hooks, run in virtual time. -/

namespace Rejoin

namespace Rehearsal

inductive EngineStep where
  | decide (failure : Option Failure)
  /-- A failure carried through, the current token being cancelled so many milliseconds from
  now. -/
  | handle (failure : Option Failure) (cancelAfter : Option Nat)
  | advance (count : Nat)
  | reset
  | cancel
  | newToken
  | addHook (hook : PlannedHook)
  | withHooks (steps : List ChainStep)
  | look

inductive EngineReply where
  | none
  | settled (outcome : Except RetryError Signal)
  | panicked (message : String)
  | engine (engine : Engine) (description : String)
  | stuck

/-- An engine, and the times at which its current token is going to be cancelled. -/
structure EngineRun where
  engine : Engine
  commons : Commons := {}
  cancelAt : List Nat := []

/-- The token is cancelled once one of some times is reached. -/
def cancelIfDue (times : List Nat) (commons : Commons) : Commons :=
  { commons with cancelled := commons.cancelled || times.any fun time => time ≤ commons.now }

/-- Carries a failure on to its end. Each turn ends one wait or moves the clock to the next thing
that happens. -/
def finishHandling (engine : Engine) (cancelAt : List Nat) :
    Nat → Commons × HandlingProgress → Commons × EngineReply
  | _, (commons, .finished outcome) => (commons, .settled outcome)
  | _, (commons, .panicked message) => (commons, .panicked message)
  | 0, (commons, .waiting _) => (commons, .stuck)
  | turns + 1, (commons, .waiting handling) =>
    if handling.isDue commons then
      finishHandling engine cancelAt turns (engine.resume handling commons)
    else
      match (handling.wake.time?.toList ++ cancelAt).min? with
      | some time =>
        finishHandling engine cancelAt turns 
          (cancelIfDue cancelAt (commons.wakeAt time), .waiting handling)
      | none => (commons, .stuck)

def EngineRun.step (run : EngineRun) : EngineStep → EngineRun × EngineReply
  | .decide failure =>
    let (commons, outcome) := run.engine.decide failure run.commons
    ({ run with commons }, .settled outcome)
  | .handle failure cancelAfter =>
    let cancelAt := run.cancelAt ++ (cancelAfter.map run.commons.after).toList
    let turns := 2 * (run.engine.hooks.length + cancelAt.length + 2)
    let (commons, reply) :=
      finishHandling run.engine cancelAt turns (run.engine.start failure run.commons)
    ({ run with commons, cancelAt }, reply)
  | .advance count =>
    ({ run with commons.counter := run.commons.counter.advanceBy count }, .none)
  | .reset => ({ run with commons.counter := run.commons.counter.reset }, .none)
  | .cancel => ({ run with commons.cancelled := true }, .none)
  | .newToken => ({ run with commons.cancelled := false, cancelAt := [] }, .none)
  | .addHook hook => ({ run with engine := run.engine.addHook (hook.hook .engine) }, .none)
  | .withHooks steps => ({ run with engine.hooks := chain .engine steps }, .none)
  | .look => (run, .engine run.engine (run.engine.description run.commons.counter))

/-- The outcome of a step, with what the counter and the clock show after it. -/
structure EngineReport where
  reply : EngineReply
  attempts : UInt64
  time : Nat

def EngineRun.steps (run : EngineRun) : List EngineStep → EngineRun × List EngineReport
  | [] => (run, [])
  | step :: steps =>
    let (run, reply) := run.step step
    let (last, reports) := run.steps steps
    (last, ⟨reply, run.commons.counter.attempts, run.commons.now⟩ :: reports)

end Rehearsal

end Rejoin
