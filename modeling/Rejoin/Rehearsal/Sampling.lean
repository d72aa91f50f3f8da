import Rejoin.Decision.Verdict

/-! Samples of random offsets and delays, and what is told of a sample: its values where they are
few, and otherwise how it lies about some given values. -/

namespace Rejoin

namespace Rehearsal

/-- The number of draws in a sample. -/
def sampleSize : Nat := 4000

inductive Share where
  | none
  | some
  | all

inductive Summary where
  | values (values : List Int)
  /-- For each of some values, the share of the sample below it. -/
  | wide (below : List Share)

def shareBelow (sample : List Int) (bound : Int) : Share :=
  if sample.all (· < bound) then .all
  else if sample.any (· < bound) then .some
  else .none

/-- An ascending list without its repetitions. -/
def distinct : List Int → List Int
  | [] => []
  | [value] => [value]
  | first :: second :: rest =>
    if first = second then distinct (second :: rest) else first :: distinct (second :: rest)

def summarize (sample : List Int) (probes : List Int) : Summary :=
  let values := distinct (sample.mergeSort (· ≤ ·))
  if values.length ≤ 64 then .values values else .wide (probes.map (shareBelow sample))

def sampleJitter (next first ceiling : Duration) (factor : Binary64) (probes : List Int) :
    Summary :=
  let offset := Jitter.draw next first ceiling factor
  summarize ((List.range sampleSize).map fun position => offset (Noise.draw position)) probes

/-- Delays in nanoseconds decided at one attempt, or `-1` where the decision is an error. -/
def sampleDelay (policy : Policy) (attempt : UInt64) (failure : Option Failure)
    (probes : List Int) : Summary :=
  let counter := Counter.initial.advanceBy (attempt.toNat - 1)
  let delay (draw : Nat) : Int :=
    match (policy.decide counter draw failure).outcome with
    | .ok signal => signal.backoff.nanos
    | .error _ => -1
  summarize ((List.range sampleSize).map fun position => delay (Noise.draw position)) probes

end Rehearsal

end Rejoin
