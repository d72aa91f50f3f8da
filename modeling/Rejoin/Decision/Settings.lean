import Rejoin.Decision.Policy

/-! Retry policies as they stand in a configuration: plain values, spans in whole milliseconds. -/

namespace Rejoin

structure Settings where
  firstBackoffMillis : UInt64
  maxBackoffMillis : UInt64
  maxRetries : UInt64
  jitterFactor : Binary64
  nonRetryableCodes : List UInt16
  deriving DecidableEq

namespace Settings

def default : Settings where
  firstBackoffMillis := 2000
  maxBackoffMillis := 120000
  maxRetries := Counter.largest
  jitterFactor := .half
  nonRetryableCodes := CloseStatus.nonRetryableCodes

def draft (settings : Settings) : Draft where
  firstBackoff := .ofMillis settings.firstBackoffMillis
  maxBackoff := .ofMillis settings.maxBackoffMillis
  maxRetries := settings.maxRetries
  jitterFactor := settings.jitterFactor
  nonRetryableCodes := settings.nonRetryableCodes
  scheduler := .timer

def policy (settings : Settings) : Except PolicyError Policy := settings.draft.build

end Settings

end Rejoin
