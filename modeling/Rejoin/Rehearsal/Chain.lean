import Rejoin.Rehearsal.Script

/-! Chains of scripted hooks, run in virtual time: the clock moves only when everybody waits, and
then to the next time at which somebody goes on. -/

namespace Rejoin

/-- The commons at a later time. -/
def Commons.wakeAt (commons : Commons) (time : Nat) : Commons :=
  { commons with now := max commons.now time }

namespace Rehearsal

inductive ChainReply where
  | ended (result : Except HookError Unit)
  | panicked (message : String)
  /-- The chain waits for something that never happens. -/
  | stuck

/-- Carries a chain on to its end. Each turn ends the wait of one hook. -/
def finishChain (signal : Signal) : Nat → Commons × ChainProgress → Commons × ChainReply
  | _, (commons, .finished result) => (commons, .ended result)
  | _, (commons, .panicked message) => (commons, .panicked message)
  | 0, (commons, .waiting _) => (commons, .stuck)
  | turns + 1, (commons, .waiting wait) =>
    match wait.current.wake.time? with
    | some time => finishChain signal turns (wait.resume signal (commons.wakeAt time))
    | none => (commons, .stuck)

/-- Runs a chain on each of some signals; every outcome comes with the time it is reached at. -/
def runChain (hooks : List Hook) : List Signal → Commons → Commons × List (ChainReply × Nat)
  | [], commons => (commons, [])
  | signal :: signals, commons =>
    let (commons, reply) := finishChain signal (hooks.length + 1) (Hook.runAll signal hooks commons)
    let (last, replies) := runChain hooks signals commons
    (last, (reply, commons.now) :: replies)

end Rehearsal

end Rejoin
