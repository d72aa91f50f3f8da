/-! What a subscriber gets of a broadcast when it reads only at the end. The broadcast keeps as many
of the newest items as its capacity, rounded up to a power of two. -/

namespace Rejoin

namespace Subscription

/-- The least power of two that is no smaller. -/
def powerOfTwo (capacity : Nat) : Nat :=
  if capacity ≤ 1 then 1 else Nat.pow 2 ((capacity - 1).log2 + 1)

/-- The number of items missed, and the items that are left. -/
def drain {Item : Type} (capacity : Nat) (sent : List Item) : Nat × List Item :=
  let missed := sent.length - powerOfTwo capacity
  (missed, sent.drop missed)

end Subscription

end Rejoin
