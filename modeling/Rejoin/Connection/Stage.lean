/-! The stages of a connection's life. -/

namespace Rejoin

inductive Stage where
  | connecting
  | connected
  | resuming
  | reconnecting
  | disconnected
  /-- Disconnected on purpose, with the session kept. -/
  | suspended
  deriving DecidableEq

namespace Stage

def isRetrying : Stage → Bool
  | .resuming | .reconnecting => true
  | _ => false

def isDisconnected : Stage → Bool
  | .disconnected | .suspended => true
  | _ => false

def text : Stage → String
  | .connecting => "CONNECTING"
  | .connected => "CONNECTED"
  | .resuming => "RESUMING"
  | .reconnecting => "RECONNECTING"
  | .disconnected => "DISCONNECTED"
  | .suspended => "DISCONNECTED_RESUME"

def all : List Stage :=
  [.connecting, .connected, .resuming, .reconnecting, .disconnected, .suspended]

end Stage

end Rejoin
