import Rejoin.Connection.CloseStatus

/-! Why a connection ended other than cleanly, and the two questions asked of every failure: may
another connection be tried at all, and may it continue the session. -/

namespace Rejoin

/-- A fault from a lower layer: its text, and the texts of the faults behind it, nearest first. -/
structure Fault where
  text : String
  behind : List String := []
  deriving DecidableEq

/-- The fault next behind a fault. -/
def Fault.source? : Fault → Option Fault
  | ⟨_, []⟩ => none
  | ⟨_, next :: behind⟩ => some ⟨next, behind⟩

inductive Failure where
  | closed (status : CloseStatus)
  | invalidSession
  | partialDisconnect
  | fault (fault : Fault)
  deriving DecidableEq

namespace Failure

def ofMessage (message : String) : Failure := .fault ⟨message, []⟩

def closeStatus? : Failure → Option CloseStatus
  | .closed status => some status
  | _ => none

def isRetryable (nonRetryableCodes : List UInt16) : Failure → Bool
  | .closed status => !nonRetryableCodes.contains status.code
  | .partialDisconnect => false
  | .invalidSession | .fault _ => true

def canResume : Failure → Bool
  | .closed status => status.code < CloseStatus.gatewayThreshold
  | .invalidSession => false
  | .partialDisconnect | .fault _ => true

def invalidatesSession : Failure → Bool
  | .invalidSession => true
  | _ => false

def text : Failure → String
  | .closed status => "gateway closed with status " ++ status.text
  | .invalidSession => "gateway session was invalidated"
  | .partialDisconnect => "gateway connection is shutting down"
  | .fault inner => "gateway fault: " ++ inner.text

end Failure

end Rejoin
