import Rejoin.Task.Routine

/-! Hooks that run before a retry. A chain runs its hooks in order, each to its end before the next
begins and all on one signal; the first error ends it. `Hook.runAll` runs a chain up to its first
wait and `ChainWait.resume` carries on from there. -/

namespace Rejoin

inductive Hook where
  /-- Publishes the retry. -/
  | announcer
  /-- Counts the retry, in the ledger of the session or in some other one. -/
  | meter (own : Bool)
  | custom (name : String) (run : Signal → Routine (Except HookError Unit))

/-- A chain in the middle of one of its hooks. -/
structure ChainWait where
  hook : Hook.Label
  current : Suspended (Except HookError Unit)
  remaining : List Hook

/-- How far a chain got. -/
abbrev ChainProgress := Progress ChainWait (Except HookError Unit)

namespace Hook

def label : Hook → Label
  | .announcer => .announcer
  | .meter _ => .meter
  | .custom name _ => .named name

/-- Runs a hook up to its first wait. -/
def start (signal : Signal) : Hook → Commons → Commons × RoutineProgress (Except HookError Unit)
  | .announcer, commons => (commons.record (.published (.retrying signal)), .finished (.ok ()))
  | .meter true, commons =>
    ({ commons with metrics := commons.metrics.count (.ofSignal signal) }, .finished (.ok ()))
  | .meter false, commons =>
    ({ commons with metrics := commons.metrics.countElsewhere (.ofSignal signal) },
      .finished (.ok ()))
  | .custom _ run, commons => (run signal).poll commons

/-- What follows once a hook got so far: the hooks behind it, its error, or a wait. -/
def proceed (hook : Label) (remaining : List Hook) (further : Commons → Commons × ChainProgress) :
    Commons × RoutineProgress (Except HookError Unit) → Commons × ChainProgress
  | (commons, .finished (.ok ())) => further (commons.record (.hookEnded hook (.ok ())))
  | (commons, .finished (.error error)) =>
    (commons.record (.hookEnded hook (.error error)), .finished (.error error))
  | (commons, .panicked message) => (commons, .panicked message)
  | (commons, .waiting current) => (commons, .waiting ⟨hook, current, remaining⟩)

/-- Runs hooks in order up to the first wait or the first error. -/
def runAll (signal : Signal) : List Hook → Commons → Commons × ChainProgress
  | [], commons => (commons, .finished (.ok ()))
  | hook :: remaining, commons =>
    proceed hook.label remaining (runAll signal remaining)
      (hook.start signal (commons.record (.hookStarted hook.label signal commons.now)))

end Hook

def ChainWait.resume (signal : Signal) (wait : ChainWait) (commons : Commons) :
    Commons × ChainProgress :=
  Hook.proceed wait.hook wait.remaining (Hook.runAll signal wait.remaining)
    (wait.current.resume commons)

/-- The description of a chain. -/
def Hook.describeAll (hooks : List Hook) : String :=
  "HookChain \x7b hooks: " ++ toString hooks.length ++ " \x7d"

end Rejoin
