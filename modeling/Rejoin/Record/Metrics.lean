import Rejoin.Decision.Error

/-! Counts of what became of retries. Every record goes into a ledger that may be reset and into the
exported totals, which are never taken back. -/

namespace Rejoin

/-- The kinds of outcomes that are counted. -/
inductive Tally where
  | resume
  | reconnect
  | exhausted
  | terminal
  | hookFailure
  | cancelled
  deriving DecidableEq

namespace Tally

def ofSignal (signal : Signal) : Tally :=
  if signal.stage = .resuming then .resume else .reconnect

def ofError : RetryError → Tally
  | .exhausted _ _ _ => .exhausted
  | .terminal _ | .missingCause => .terminal
  | .hook _ => .hookFailure
  | .cancelled => .cancelled

def all : List Tally := [.resume, .reconnect, .exhausted, .terminal, .hookFailure, .cancelled]

/-- The name a count is exported under. -/
def exportName : Tally → String
  | .resume => "gateway.retry.resumes"
  | .reconnect => "gateway.retry.reconnects"
  | .exhausted => "gateway.retry.exhausted"
  | .terminal => "gateway.retry.terminal"
  | .hookFailure => "gateway.retry.hook_failures"
  | .cancelled => "gateway.retry.cancelled"

end Tally

structure Ledger where
  resumes : Nat := 0
  reconnects : Nat := 0
  exhausted : Nat := 0
  terminal : Nat := 0
  hookFailures : Nat := 0
  cancelled : Nat := 0
  deriving DecidableEq

namespace Ledger

def empty : Ledger where

def get (ledger : Ledger) : Tally → Nat
  | .resume => ledger.resumes
  | .reconnect => ledger.reconnects
  | .exhausted => ledger.exhausted
  | .terminal => ledger.terminal
  | .hookFailure => ledger.hookFailures
  | .cancelled => ledger.cancelled

def count (ledger : Ledger) : Tally → Ledger
  | .resume => { ledger with resumes := ledger.resumes + 1 }
  | .reconnect => { ledger with reconnects := ledger.reconnects + 1 }
  | .exhausted => { ledger with exhausted := ledger.exhausted + 1 }
  | .terminal => { ledger with terminal := ledger.terminal + 1 }
  | .hookFailure => { ledger with hookFailures := ledger.hookFailures + 1 }
  | .cancelled => { ledger with cancelled := ledger.cancelled + 1 }

def totalRetries (ledger : Ledger) : Nat := ledger.resumes + ledger.reconnects

end Ledger

structure Metrics where
  ledger : Ledger := .empty
  exported : Ledger := .empty
  deriving DecidableEq

namespace Metrics

inductive Step where
  | retry (signal : Signal)
  | error (error : RetryError)
  | reset

def count (metrics : Metrics) (tally : Tally) : Metrics :=
  ⟨metrics.ledger.count tally, metrics.exported.count tally⟩

/-- A record made in some other ledger: only the exported totals show it. -/
def countElsewhere (metrics : Metrics) (tally : Tally) : Metrics :=
  { metrics with exported := metrics.exported.count tally }

def reset (metrics : Metrics) : Metrics := { metrics with ledger := .empty }

def step (metrics : Metrics) : Step → Metrics
  | .retry signal => metrics.count (.ofSignal signal)
  | .error error => metrics.count (.ofError error)
  | .reset => metrics.reset

def steps (metrics : Metrics) (steps : List Step) : Metrics := steps.foldl step metrics

/-- The exported totals by name. A count that was never raised has none. -/
def exportedTotals (metrics : Metrics) : List (String × Nat) :=
  Tally.all.filterMap fun tally =>
    if metrics.exported.get tally = 0 then none
    else some (tally.exportName, metrics.exported.get tally)

end Metrics

end Rejoin
