import Rejoin.Connection.Change
import Rejoin.Record.Log
import Rejoin.Number.Noise
import Rejoin.Decision.Counter
import Rejoin.Record.Metrics

/-! What the parties of one session share: the clock, the attempt counter, the token that ends the
session, the cycle that is running, the counts, and a journal of everything that happened, newest
first. The published changes, the log and the order of hooks and delays are read off the journal. -/

namespace Rejoin

/-- How a cycle sets up its session. -/
inductive Mode where
  | identify
  | resume
  deriving DecidableEq

namespace Mode

def text : Mode → String
  | .identify => "Identify"
  | .resume => "Resume"

/-- The mode of the cycle that follows a retry. -/
def after (stage : Stage) : Mode := if stage = .resuming then .resume else .identify

end Mode

/-- One running connection: how and at which attempt it began, and whether its session is
established. -/
structure Cycle where
  number : Nat
  mode : Mode
  attempt : UInt64
  confirmed : Bool := false
  deriving DecidableEq

/-- Where deliberate closes that keep the session are left: whether the token in it, which is that of
the last cycle, is cancelled, and the status of the last close that nobody has taken out. A cycle that
ends leaves the slot as it is; only the next one to begin empties it. -/
structure Cycle.Slot where
  cancelled : Bool := false
  close : Option CloseStatus := none
  deriving DecidableEq

/-- What a hook is known by in the journal. -/
inductive Hook.Label where
  | announcer
  | meter
  | named (name : String)
  deriving DecidableEq

/-- What hooks and connectors put into the journal themselves. -/
inductive Note where
  | woke (hook : String)
  | stepped (step : String) (confirmed abandoned closed : Bool)
  deriving DecidableEq

inductive Entry where
  | logged (entry : LogEntry)
  /-- A change published by the session itself. -/
  | published (change : Change)
  /-- A change published by a deliberate close. -/
  | closing (change : Change)
  | decided (failure : Option Failure) (outcome : Except RetryError Signal)
  | hookStarted (hook : Hook.Label) (signal : Signal) (time : Nat)
  | hookEnded (hook : Hook.Label) (result : Except HookError Unit)
  | delayAsked (delay : Duration)
  | cycleStarted (cycle : Cycle) (time : Nat)
  | noted (note : Note) (time : Nat)

/-- The change that an entry publishes, whoever made it. -/
def Entry.change? : Entry → Option Change
  | .published change | .closing change => some change
  | _ => none

structure Commons where
  /-- Milliseconds since the start. -/
  now : Nat := 0
  counter : Counter := .initial
  /-- Whether the token that ends the session is cancelled. -/
  cancelled : Bool := false
  /-- The cycle that is running, if any. -/
  cycle : Option Cycle := none
  slot : Cycle.Slot := {}
  metrics : Metrics := {}
  draws : Nat → Nat := Noise.draw
  /-- The number of draws made. -/
  drawn : Nat := 0
  journal : List Entry := []

namespace Commons

def initial : Commons where

def record (commons : Commons) (entry : Entry) : Commons :=
  { commons with journal := entry :: commons.journal }

def log (commons : Commons) (entry : LogEntry) : Commons := commons.record (.logged entry)

def logAll (commons : Commons) (entries : List LogEntry) : Commons := entries.foldl log commons

/-- The milliseconds of the longest wait: thirty years of 365 days. -/
def longestWait : Nat := 946080000000

/-- The time so many milliseconds from now, or at the end of the longest wait. -/
def after (commons : Commons) (millis : Nat) : Nat := commons.now + min millis longestWait

/-- The journal, oldest first. -/
def history (commons : Commons) : List Entry := commons.journal.reverse

/-- Everything published so far, oldest first. -/
def changes (commons : Commons) : List Change := commons.history.filterMap Entry.change?

def logged (commons : Commons) : List LogEntry :=
  commons.history.filterMap fun
    | .logged entry => some entry
    | _ => none

/-- Whether the running cycle is to be abandoned. -/
def abandoned (commons : Commons) : Bool :=
  commons.cancelled || commons.cycle.isSome && commons.slot.cancelled

def confirmed (commons : Commons) : Bool := commons.cycle.any fun cycle => cycle.confirmed

/-- A deliberate close. One that keeps the session is left in the slot, and so abandons the cycle that
is running; any other ends the session. -/
def close (commons : Commons) (disconnect : Disconnect) (status : CloseStatus) : Commons :=
  let commons := commons.log ⟨.info, "closing gateway connection",
    [("behavior", disconnect.text), ("status", status.text)]⟩
  let commons := commons.record (.closing (.ofDisconnect disconnect status))
  if disconnect.action.keepsSession then
    { commons with slot := { cancelled := true, close := some status } }
  else { commons with cancelled := true }

/-- The shared state once the close in the slot is taken out. -/
def takeClose (commons : Commons) : Commons :=
  { commons with slot := { commons.slot with close := none } }

/-- The session of the running cycle is established: the retry budget is refilled. Only the first
time in a cycle counts. -/
def confirm (commons : Commons) : Commons :=
  match commons.cycle with
  | some cycle =>
    if cycle.confirmed then commons
    else
      let commons := { commons with
        counter := commons.counter.reset
        cycle := some { cycle with confirmed := true } }
      (commons.record (.published .connected)).log
        ⟨.info, "gateway session confirmed", [("mode", cycle.mode.text)]⟩
  | none => commons

end Commons

end Rejoin
