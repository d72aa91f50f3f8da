import Rejoin.Decision.Counter

/-! Handles on attempt counters. A handle may be cloned: all its clones then show one counter. -/

namespace Rejoin

/-- Handles on counters: the family each handle belongs to, and the counter of each family. -/
structure Handles where
  families : List Nat
  counters : List Counter
  deriving DecidableEq

namespace Handles

inductive Step where
  | advance (handle : Nat) (count : Nat)
  | reset (handle : Nat)
  /-- One more handle on the counter of `handle`. -/
  | clone (handle : Nat)
  /-- A handle on a counter of its own. -/
  | fresh
  | look

def initial : Handles := ⟨[0], [Counter.initial]⟩

def familyOf (handles : Handles) (handle : Nat) : Nat := handles.families.getD handle 0

/-- The counter behind a handle. -/
def counter (handles : Handles) (handle : Nat) : Counter :=
  handles.counters.getD (handles.familyOf handle) .initial

def modify (handles : Handles) (handle : Nat) (change : Counter → Counter) : Handles :=
  { handles with counters := handles.counters.modify (handles.familyOf handle) change }

def step (handles : Handles) : Step → Handles
  | .advance handle count => handles.modify handle fun counter => counter.advanceBy count
  | .reset handle => handles.modify handle Counter.reset
  | .clone handle => { handles with families := handles.families ++ [handles.familyOf handle] }
  | .fresh =>
    ⟨handles.families ++ [handles.counters.length], handles.counters ++ [Counter.initial]⟩
  | .look => handles

/-- What every handle shows. -/
def attempts (handles : Handles) : List UInt64 :=
  (List.range handles.families.length).map fun handle => (handles.counter handle).attempts

/-- What every handle shows after each of some steps. -/
def history (handles : Handles) : List Step → List (List UInt64)
  | [] => []
  | step :: steps => (handles.step step).attempts :: (handles.step step).history steps

end Handles

end Rejoin
