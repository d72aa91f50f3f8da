import Rejoin.Connection.Failure
import Rejoin.Connection.Stage
import Rejoin.Duration

/-! One retry decision: what failed, the attempt it failed at, how long to wait, and whether the
next connection resumes the session. -/

namespace Rejoin

structure Signal where
  failure : Failure
  attempt : UInt64
  backoff : Duration
  stage : Stage
  deriving DecidableEq

namespace Signal

def isResume (signal : Signal) : Bool := signal.stage = .resuming

def text (signal : Signal) : String :=
  signal.stage.text ++ " attempt " ++ toString signal.attempt.toNat ++ " in " ++ signal.backoff.text
    ++ " after: " ++ signal.failure.text

end Signal

end Rejoin
