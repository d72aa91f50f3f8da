import Rejoin.Number.Shortest
import Rejoin.Decision.Signal

/-! The errors of hooks, of retrying, and of policies that are refused. -/

namespace Rejoin

inductive HookError where
  | message (text : String)
  | fault (fault : Fault)
  deriving DecidableEq

def HookError.text : HookError → String
  | .message text => text
  | .fault inner => inner.text

inductive RetryError where
  /-- The failure admits no further attempt. -/
  | terminal (failure : Failure)
  | exhausted (attempts limit : UInt64) (failure : Failure)
  | hook (error : HookError)
  /-- There was nothing to decide on. -/
  | missingCause
  | cancelled
  deriving DecidableEq

namespace RetryError

def failure? : RetryError → Option Failure
  | .terminal failure | .exhausted _ _ failure => some failure
  | _ => none

def isTerminal : RetryError → Bool
  | .terminal _ => true
  | _ => false

def isExhausted : RetryError → Bool
  | .exhausted _ _ _ => true
  | _ => false

def isCancelled : RetryError → Bool
  | .cancelled => true
  | _ => false

def text : RetryError → String
  | .terminal failure => failure.text
  | .exhausted attempts limit _ =>
    "Retries exhausted: " ++ toString attempts.toNat ++ "/" ++ toString limit.toNat
  | .hook error => "pre-retry hook failed: " ++ error.text
  | .missingCause => "retry signal carried no failure cause"
  | .cancelled => "retry cancelled"

end RetryError

inductive PolicyError where
  | jitterFactor (factor : Binary64)
  | backoffRange (first ceiling : Duration)
  deriving DecidableEq

def PolicyError.text : PolicyError → String
  | .jitterFactor factor =>
    "jitter factor must be within [0.0, 1.0], got " ++ Layout.message.write factor
  | .backoffRange first ceiling =>
    "first backoff " ++ first.text ++ " exceeds max backoff interval " ++ ceiling.text

end Rejoin
