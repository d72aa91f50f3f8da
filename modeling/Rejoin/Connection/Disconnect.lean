/-! Deliberate disconnects: whether the session is kept, whether the closing handshake is skipped,
and perhaps why. -/

namespace Rejoin

inductive Disconnect.Action where
  | retry
  | retryAbruptly
  | stop
  | stopAbruptly
  deriving DecidableEq

namespace Disconnect.Action

def keepsSession : Action → Bool
  | .retry | .retryAbruptly => true
  | .stop | .stopAbruptly => false

def isAbrupt : Action → Bool
  | .retryAbruptly | .stopAbruptly => true
  | .retry | .stop => false

def text : Action → String
  | .retry => "retry"
  | .retryAbruptly => "retry_abruptly"
  | .stop => "stop"
  | .stopAbruptly => "stop_abruptly"

def all : List Action := [.retry, .retryAbruptly, .stop, .stopAbruptly]

end Disconnect.Action

structure Disconnect where
  action : Disconnect.Action
  cause : Option String
  deriving DecidableEq

namespace Disconnect

def retry (cause : String) : Disconnect := ⟨.retry, some cause⟩

def retryAbruptly (cause : String) : Disconnect := ⟨.retryAbruptly, some cause⟩

def stop : Disconnect := ⟨.stop, none⟩

def stopAbruptly (cause : String) : Disconnect := ⟨.stopAbruptly, some cause⟩

def text (disconnect : Disconnect) : String :=
  match disconnect.cause with
  | some cause => disconnect.action.text ++ ": " ++ cause
  | none => disconnect.action.text

end Disconnect

end Rejoin
