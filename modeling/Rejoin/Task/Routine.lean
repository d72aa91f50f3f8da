import Rejoin.Task.Commons

/-! Cooperative routines: what hooks, connectors and waits do, as data. A routine runs until it has
to wait and then says what for; nothing else happens while it runs. `Routine.poll` runs one up to
its next wait, and `Suspended.resume` carries on once the wait is over. -/

namespace Rejoin

/-- What a hook or a connector may do to what it shares with the others. -/
inductive Deed where
  | advanceCounter
  | resetCounter
  | cancel
  | close (disconnect : Disconnect) (status : CloseStatus)
  | confirm
  /-- A retry counted in a ledger of the doer's own. -/
  | countElsewhere (signal : Signal)
  | note (note : Note)

def Deed.perform : Deed → Commons → Commons
  | .advanceCounter, commons => { commons with counter := commons.counter.advance }
  | .resetCounter, commons => { commons with counter := commons.counter.reset }
  | .cancel, commons => { commons with cancelled := true }
  | .close disconnect status, commons => commons.close disconnect status
  | .confirm, commons => commons.confirm
  | .countElsewhere signal, commons =>
    { commons with metrics := commons.metrics.countElsewhere (.ofSignal signal) }
  | .note made, commons => commons.record (.noted made commons.now)

inductive Routine (Result : Type) where
  | done (result : Result)
  | panic (message : String)
  | act (deed : Deed) (next : Routine Result)
  | observe (next : Commons → Routine Result)
  | sleep (millis : Nat) (next : Routine Result)
  /-- Waits until the running cycle is abandoned. -/
  | untilAbandoned (next : Routine Result)

/-- What ends a wait. -/
inductive Wake where
  | time (time : Nat)
  | abandonment
  deriving DecidableEq

def Wake.isDue (commons : Commons) : Wake → Bool
  | .time due => due ≤ commons.now
  | .abandonment => commons.abandoned

/-- The time at which a wait ends by itself. -/
def Wake.time? : Wake → Option Nat
  | .time due => some due
  | .abandonment => none

/-- How far something got: to its end, to a panic, or to a wait. -/
inductive Progress (Waiting Result : Type) where
  | finished (result : Result)
  | panicked (message : String)
  | waiting (waiting : Waiting)

/-- A routine in the middle of a wait. -/
structure Suspended (Result : Type) where
  wake : Wake
  next : Routine Result

/-- How far a routine got. -/
abbrev RoutineProgress (Result : Type) := Progress (Suspended Result) Result

namespace Routine

variable {Result : Type}

/-- Runs a routine up to its next wait. A wait that is over already is no wait. -/
def poll : Routine Result → Commons → Commons × RoutineProgress Result
  | .done result, commons => (commons, .finished result)
  | .panic message, commons => (commons, .panicked message)
  | .act deed next, commons => next.poll (deed.perform commons)
  | .observe next, commons => (next commons).poll commons
  | .sleep millis next, commons =>
    if millis = 0 then next.poll commons
    else (commons, .waiting ⟨.time (commons.after millis), next⟩)
  | .untilAbandoned next, commons =>
    if commons.abandoned then next.poll commons
    else (commons, .waiting ⟨.abandonment, next⟩)

/-- The deeds in order, and then the rest. -/
def actAll (deeds : List Deed) (next : Routine Result) : Routine Result := deeds.foldr act next

end Routine

def Suspended.resume {Result : Type} (suspended : Suspended Result) (commons : Commons) :
    Commons × RoutineProgress Result :=
  if suspended.wake.isDue commons then suspended.next.poll commons
  else (commons, .waiting suspended)

end Rejoin
