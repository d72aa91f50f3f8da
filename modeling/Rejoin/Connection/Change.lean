import Rejoin.Connection.Disconnect
import Rejoin.Decision.Signal

/-! The events that a connection publishes as it moves from stage to stage. -/

namespace Rejoin

structure Change where
  stage : Stage
  attempt : UInt64 := 0
  backoff : Option Duration := none
  closing : Option (Disconnect × CloseStatus) := none
  deriving DecidableEq

namespace Change

def connecting : Change where
  stage := .connecting

def connected : Change where
  stage := .connected

def retrying (signal : Signal) : Change where
  stage := signal.stage
  attempt := signal.attempt
  backoff := some signal.backoff

def disconnected (disconnect : Disconnect) (status : CloseStatus) : Change where
  stage := .disconnected
  closing := some (disconnect, status)

def suspended (disconnect : Disconnect) (status : CloseStatus) : Change where
  stage := .suspended
  closing := some (disconnect, status)

/-- The change that a deliberate disconnect makes. -/
def ofDisconnect (disconnect : Disconnect) (status : CloseStatus) : Change :=
  if disconnect.action.keepsSession then suspended disconnect status
  else disconnected disconnect status

def text (change : Change) : String :=
  match change.backoff, change.closing with
  | some backoff, _ =>
    change.stage.text ++ " (attempt " ++ toString change.attempt.toNat
      ++ ", backoff " ++ backoff.text ++ ")"
  | none, some (disconnect, status) =>
    change.stage.text ++ " (" ++ disconnect.text ++ ", status " ++ status.text ++ ")"
  | none, none => change.stage.text

end Change

end Rejoin
