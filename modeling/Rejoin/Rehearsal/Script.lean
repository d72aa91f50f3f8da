import Rejoin.Task.Chain

/-! Scripts: hooks and connectors that do what they are told, and the chains that hooks are put
into. -/

namespace Rejoin

namespace Rehearsal

inductive CounterMove where
  | advance
  | reset

/-- A hook that does what is set, in this order. -/
structure HookScript where
  name : String
  /-- At attempts below this one the hook does nothing. -/
  fromAttempt : UInt64 := 0
  counter : Option CounterMove := none
  panic : Option String := none
  cancels : Bool := false
  /-- Milliseconds to wait; the hook notes when it wakes. -/
  sleep : Option Nat := none
  fail : Option HookError := none

namespace HookScript

def counterDeeds (script : HookScript) : List Deed :=
  match script.counter with
  | some .advance => [.advanceCounter]
  | some .reset => [.resetCounter]
  | none => []

def result (script : HookScript) : Except HookError Unit :=
  match script.fail with
  | some error => .error error
  | none => .ok ()

/-- The end of a hook: its wait and its result. -/
def ending (script : HookScript) : Routine (Except HookError Unit) :=
  match script.sleep with
  | some millis => .sleep millis (.act (.note (.woke script.name)) (.done script.result))
  | none => .done script.result

def run (script : HookScript) (signal : Signal) : Routine (Except HookError Unit) :=
  if signal.attempt < script.fromAttempt then .done (.ok ())
  else
    .actAll script.counterDeeds <|
      match script.panic with
      | some message => .panic message
      | none => .actAll (if script.cancels then [.cancel] else []) script.ending

end HookScript

inductive PlannedHook where
  | meter
  | scripted (script : HookScript)

/-- Where hooks run, as far as it makes a difference to them: whether the ledger of the session is
theirs, and whether there is a token that they can cancel. -/
structure Venue where
  ownLedger : Bool
  cancellable : Bool

/-- Chains on their own have no token to cancel. -/
def Venue.chain : Venue := ⟨true, false⟩

def Venue.engine : Venue := ⟨true, true⟩

/-- A session counts in a ledger of its own and hides its token. -/
def Venue.session : Venue := ⟨false, false⟩

def PlannedHook.hook (venue : Venue) : PlannedHook → Hook
  | .meter => .meter venue.ownLedger
  | .scripted script =>
    .custom script.name { script with cancels := script.cancels && venue.cancellable }.run

/-- A step in putting a chain together. -/
inductive ChainStep where
  | add (hook : PlannedHook)
  /-- Adds a hook that may be added again. -/
  | share (hook : PlannedHook)
  /-- Adds the hook that was shared at that place. -/
  | again (index : Nat)
  | append (chain : List ChainStep)

mutual

/-- The hooks that a step adds, and all hooks shared until then. -/
def ChainStep.build (venue : Venue) (step : ChainStep) (shared : List Hook) :
    List Hook × List Hook :=
  match step with
  | .add hook => ([hook.hook venue], shared)
  | .share hook => ([hook.hook venue], shared ++ [hook.hook venue])
  | .again index => (shared[index]?.toList, shared)
  | .append chain => ChainStep.buildAll venue chain shared

def ChainStep.buildAll (venue : Venue) (steps : List ChainStep) (shared : List Hook) :
    List Hook × List Hook :=
  match steps with
  | [] => ([], shared)
  | step :: steps =>
    let (hooks, shared) := step.build venue shared
    let (more, shared) := ChainStep.buildAll venue steps shared
    (hooks ++ more, shared)

end

def chain (venue : Venue) (steps : List ChainStep) : List Hook :=
  (ChainStep.buildAll venue steps []).1

/-! ### Connectors -/

/-- Something for a connector to do. -/
inductive Cue where
  | confirm
  | sleep (millis : Nat)
  | close (disconnect : Disconnect) (status : CloseStatus)
  | advanceCounter
  | untilAbandoned
  | fail (failure : Failure)
  | clean

/-- Notes what is visible after a cue. -/
def noteStep (step : String) (next : Routine (Except Failure Unit)) :
    Routine (Except Failure Unit) :=
  .observe fun commons =>
    .act (.note (.stepped step commons.confirmed commons.abandoned commons.cancelled)) next

/-- Follows the cues of a cycle; a cycle without a word about its end ends cleanly. -/
def follow : List Cue → Routine (Except Failure Unit)
  | [] => .done (.ok ())
  | .confirm :: cues => .act .confirm (noteStep "confirm" (follow cues))
  | .sleep millis :: cues => .sleep millis (noteStep "sleep" (follow cues))
  | .close disconnect status :: cues =>
    .act (.close disconnect status) (noteStep "close" (follow cues))
  | .advanceCounter :: cues => .act .advanceCounter (noteStep "next" (follow cues))
  | .untilAbandoned :: cues => .untilAbandoned (noteStep "wait_cancelled" (follow cues))
  | .fail failure :: _ => noteStep "fail" (.done (.error failure))
  | .clean :: _ => noteStep "clean" (.done (.ok ()))

/-- A connector that follows the next list of cues in each cycle. -/
def connector (script : List (List Cue)) (cycle : Cycle) : Routine (Except Failure Unit) :=
  follow (script.getD cycle.number [])

end Rehearsal

end Rejoin
