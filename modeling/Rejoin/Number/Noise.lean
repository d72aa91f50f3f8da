/-! A stream of evenly spread words, each computed from its position alone. -/

namespace Rejoin

namespace Noise

/-- A word with all its bits stirred. -/
def stir (word : UInt64) : UInt64 :=
  let word := (word ^^^ (word >>> 30)) * 0xbf58476d1ce4e5b9
  let word := (word ^^^ (word >>> 27)) * 0x94d049bb133111eb
  word ^^^ (word >>> 31)

def draw (position : Nat) : Nat :=
  (stir (UInt64.ofNat (position + 1) * 0x9e3779b97f4a7c15)).toNat

end Noise

end Rejoin
