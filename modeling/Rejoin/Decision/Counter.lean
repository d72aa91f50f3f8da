/-! The counter of connection attempts. It holds the number of the attempt about to be made, starts
at one, and stops at the largest word instead of starting over. -/

namespace Rejoin

structure Counter where
  attempts : UInt64
  deriving DecidableEq

namespace Counter

def initial : Counter := ⟨1⟩

def largest : UInt64 := 0xffffffffffffffff

def advance (counter : Counter) : Counter :=
  if counter.attempts = largest then counter else ⟨counter.attempts + 1⟩

def advanceBy (counter : Counter) : Nat → Counter
  | 0 => counter
  | count + 1 => counter.advance.advanceBy count

/-- The counter with its budget refilled. -/
def reset (_ : Counter) : Counter := initial

end Counter

end Rejoin
