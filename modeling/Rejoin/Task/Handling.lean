import Rejoin.Decision.Verdict
import Rejoin.Task.Chain

/-! The engine carries one failure through to the moment of the next attempt: it decides, runs the
hooks, and waits out the delay. Cancellation is looked at before anything else whenever the engine
is woken. `Engine.start` goes as far as the first wait and `Engine.resume` carries on from there. -/

namespace Rejoin

structure Engine where
  policy : Policy
  hooks : List Hook := []

/-- A failure on its way: in the middle of the hooks, or of the delay. -/
inductive Handling where
  | hooks (signal : Signal) (wait : ChainWait)
  | delay (signal : Signal) (current : Suspended Unit)

/-- How far a failure got. -/
abbrev HandlingProgress := Progress Handling (Except RetryError Signal)

namespace Handling

def wake : Handling → Wake
  | .hooks _ wait => wait.current.wake
  | .delay _ current => current.wake

/-- Whether waking the engine makes a difference. -/
def isDue (handling : Handling) (commons : Commons) : Bool :=
  commons.cancelled || handling.wake.isDue commons

end Handling

namespace Engine

/-- The engine with one hook more, which is run after all others. -/
def addHook (engine : Engine) (hook : Hook) : Engine :=
  { engine with hooks := engine.hooks ++ [hook] }

/-- Decides on a failure, with the shared counter and the next draw. -/
def decide (engine : Engine) (failure : Option Failure) (commons : Commons) :
    Commons × Except RetryError Signal :=
  let decision := engine.policy.decide commons.counter (commons.draws commons.drawn) failure
  let commons := { commons with counter := decision.counter, drawn := commons.drawn + 1 }
  ((commons.logAll decision.log).record (.decided failure decision.outcome), decision.outcome)

/-- What follows once the delay got so far. -/
def afterDelay (signal : Signal) :
    Commons × RoutineProgress Unit → Commons × HandlingProgress
  | (commons, .finished ()) => (commons, .finished (.ok signal))
  | (commons, .panicked message) => (commons, .panicked message)
  | (commons, .waiting current) => (commons, .waiting (.delay signal current))

/-- Asks the scheduler for the delay, also for one of zero, unless a hook has cancelled the
token. -/
def startDelay (engine : Engine) (signal : Signal) (commons : Commons) :
    Commons × HandlingProgress :=
  if commons.cancelled then (commons, .finished (.error .cancelled))
  else
    let commons := commons.record (.delayAsked signal.backoff)
    afterDelay signal ((engine.policy.scheduler.sleep signal.backoff).poll commons)

/-- What follows once the hooks got so far. -/
def afterHooks (engine : Engine) (signal : Signal) :
    Commons × ChainProgress → Commons × HandlingProgress
  | (commons, .finished (.ok ())) => engine.startDelay signal commons
  | (commons, .finished (.error error)) =>
    (commons.log ⟨.warn, "pre-retry hook failed",
      [("attempt", toString signal.attempt.toNat), ("error", error.text)]⟩,
      .finished (.error (.hook error)))
  | (commons, .panicked message) => (commons, .panicked message)
  | (commons, .waiting wait) => (commons, .waiting (.hooks signal wait))

/-- Takes a failure up. With the token cancelled already nothing is decided. -/
def start (engine : Engine) (failure : Option Failure) (commons : Commons) :
    Commons × HandlingProgress :=
  if commons.cancelled then (commons, .finished (.error .cancelled))
  else
    match engine.decide failure commons with
    | (commons, .error error) => (commons, .finished (.error error))
    | (commons, .ok signal) => engine.afterHooks signal (Hook.runAll signal engine.hooks commons)

/-- Carries on with a failure once woken. -/
def resume (engine : Engine) (handling : Handling) (commons : Commons) :
    Commons × HandlingProgress :=
  if commons.cancelled then (commons, .finished (.error .cancelled))
  else
    match handling with
    | .hooks signal wait => engine.afterHooks signal (wait.resume signal commons)
    | .delay signal current => afterDelay signal (current.resume commons)

def description (engine : Engine) (counter : Counter) : String :=
  "RetryEngine \x7b policy: " ++ engine.policy.description
    ++ ", context: ReconnectContext \x7b attempts: " ++ toString counter.attempts.toNat
    ++ " \x7d, hooks: " ++ Hook.describeAll engine.hooks ++ " \x7d"

end Engine

end Rejoin
