import Rejoin.Duration

/-! Delays that double with every attempt up to a ceiling. Powers of two and products of nanoseconds
are words of 128 bits, and one that they cannot hold counts as above the ceiling. -/

namespace Rejoin

namespace Doubling

/-- The number of places to shift by, in a word of 32 bits. -/
def places? (doublings : UInt64) : Option UInt32 :=
  if doublings.toNat < Nat.pow 2 32 then some doublings.toUInt32 else none

/-- A single bit shifted by so many places, unless it leaves the word. -/
def power? (places : UInt32) : Option Nat :=
  if places.toNat < 128 then some (Nat.pow 2 places.toNat) else none

/-- The product, unless it leaves the word. -/
def product? (nanos factor : Nat) : Option Nat :=
  if nanos * factor < Nat.pow 2 128 then some (nanos * factor) else none

/-- The nanoseconds of a span doubled so often, unless a step on the way to them leaves its word. -/
def nanos? (doublings : UInt64) (first : Duration) : Option Nat := do
  let places ← places? doublings
  let factor ← power? places
  product? first.nanos factor

end Doubling

/-- The span `first` doubled `doublings` times, or the ceiling where that is shorter. From the 128th
doubling on it is the ceiling, also for a first span of zero. -/
def backoff (doublings : UInt64) (first ceiling : Duration) : Duration :=
  match Doubling.nanos? doublings first with
  | some grown => if grown ≤ ceiling.nanos then .ofCount grown else ceiling
  | none => ceiling

namespace Doubling

theorem nanos?_of_lt {doublings : UInt64} (h : doublings.toNat < 128) (first : Duration) :
    nanos? doublings first = product? first.nanos (Nat.pow 2 doublings.toNat) := by
  have hnarrow : doublings.toNat < Nat.pow 2 32 := Nat.lt_trans h (by decide)
  have hplaces : doublings.toUInt32.toNat = doublings.toNat := by
    rw [UInt64.toNat_toUInt32]
    exact Nat.mod_eq_of_lt hnarrow
  rw [nanos?, places?, if_pos hnarrow]
  change (power? doublings.toUInt32).bind _ = _
  rw [power?, hplaces, if_pos h]
  rfl

theorem nanos?_of_le {doublings : UInt64} (h : 128 ≤ doublings.toNat) (first : Duration) :
    nanos? doublings first = none := by
  rw [nanos?, places?]
  by_cases hnarrow : doublings.toNat < Nat.pow 2 32
  · have hplaces : doublings.toUInt32.toNat = doublings.toNat := by
      rw [UInt64.toNat_toUInt32]
      exact Nat.mod_eq_of_lt hnarrow
    rw [if_pos hnarrow]
    change (power? doublings.toUInt32).bind _ = _
    rw [power?, hplaces, if_neg (Nat.not_lt.2 h)]
    rfl
  · rw [if_neg hnarrow]
    rfl

end Doubling

/-- Short of the 128th doubling the delay is the exact product or the ceiling, whichever is less. -/
theorem nanos_backoff_of_lt {doublings : UInt64} (h : doublings.toNat < 128)
    (first ceiling : Duration) :
    (backoff doublings first ceiling).nanos =
      min (first.nanos * Nat.pow 2 doublings.toNat) ceiling.nanos := by
  have hlargest : ceiling.nanos < Nat.pow 2 128 :=
    Nat.lt_of_le_of_lt ceiling.nanos_le (by decide)
  rw [backoff, Doubling.nanos?_of_lt h, Doubling.product?]
  generalize first.nanos * Nat.pow 2 doublings.toNat = grown
  by_cases hroom : grown < Nat.pow 2 128
  · rw [if_pos hroom]
    dsimp only
    split
    case isTrue hle =>
        rw [Duration.nanos_ofCount (Nat.le_trans hle ceiling.nanos_le), Nat.min_eq_left hle]
    case isFalse hgt => rw [Nat.min_eq_right (Nat.le_of_not_le hgt)]
  · have hle : ceiling.nanos ≤ grown :=
      Nat.le_of_lt (Nat.lt_of_lt_of_le hlargest (Nat.le_of_not_lt hroom))
    rw [if_neg hroom, Nat.min_eq_right hle]

theorem backoff_of_le {doublings : UInt64} (h : 128 ≤ doublings.toNat) (first ceiling : Duration) :
    backoff doublings first ceiling = ceiling := by
  rw [backoff, Doubling.nanos?_of_le h]

end Rejoin
