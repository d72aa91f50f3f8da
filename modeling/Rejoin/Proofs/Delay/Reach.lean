import Rejoin.Proofs.Delay.Spread

/-! How far a drawn offset leads, whatever the spans and the factor are. No order of the three spans and
no sign, NaN or infinity of the factor makes the reach negative or leads to a draw from nothing, and no
draw leads further than the reach. -/

namespace Rejoin

/-! ### Numbers below zero -/

namespace Binary64

/-- The magnitude of a number leaves the weight of its sign to the sign alone. -/
theorem isNegative_ofUnits_true (units : Nat) : (ofUnits true units).isNegative := by
  have hmagnitude := Nat.min_le_right ((units.log2 - 52) * leading + units / Nat.pow 2
    (units.log2 - 52)) (2047 * leading)
  rw [isNegative, decide_eq_true_iff, ofUnits, if_pos rfl]
  dsimp only
  generalize min ((units.log2 - 52) * leading + units / Nat.pow 2 (units.log2 - 52))
    (2047 * leading) = magnitude at *
  rw [UInt64.toNat_ofNat_of_lt']
  · exact Nat.le_add_right _ _
  · simp only [leading, signWeight, UInt64.size] at *
    omega

/-- A negative number has no whole part to count. -/
theorem floorWithin_of_isNegative {number : Binary64} (h : number.isNegative) (bound : Nat) :
    number.floorWithin bound = 0 := by
  rw [floorWithin]
  split
  case h_1 hreading => exact absurd ((isNegative_of_infinite hreading).symm.trans h) (by decide)
  case h_2 hreading => exact absurd ((isNegative_of_reading hreading).symm.trans h) (by decide)
  case h_3 => rfl

end Binary64

namespace Jitter

/-! ### The reach -/

/-- A factor of some percent has a share of the largest offset that is not negative. -/
theorem fallback_nonneg {factor : Binary64} (h : percent factor ≠ 0) : 0 ≤ fallback factor := by
  have hhundred : ∃ units, (Binary64.ofNat 100).reading = .finite false units ∧ units ≠ 0 :=
    ⟨100 * Binary64.one, by decide +kernel⟩
  have hlargest : ∃ units, (Binary64.ofNat largest).reading = .finite false units ∧ units ≠ 0 :=
    ⟨Nat.pow 2 63 * Binary64.one, by decide +kernel⟩
  obtain ⟨hundred, hhundred, hnonzero⟩ := hhundred
  obtain ⟨top, htop, htopNonzero⟩ := hlargest
  rw [percent, Binary64.mul, hhundred] at h
  rw [fallback, Binary64.mul, htop]
  cases hreading : factor.reading with
  | nan =>
      rw [hreading] at h
      dsimp only at h
      exact absurd (by decide) h
  | infinite negative =>
      rw [hreading] at h
      dsimp only at h ⊢
      rw [if_neg hnonzero] at h
      rw [if_neg htopNonzero]
      cases negative with
      | true => exact absurd (by decide) h
      | false => decide
  | finite negative units =>
      rw [hreading] at h
      cases negative with
      | true => exact absurd (Binary64.floorWithin_of_isNegative
          (Binary64.isNegative_ofUnits_true _) _) h
      | false => exact Binary64.nearestWithin_nonneg (Binary64.isNegative_ofUnits _) (by decide)

/-- The reach is within the words that hold it, whatever the factor is. Without any percent nothing is
ever too long, so the share of the largest offset is only taken of a factor that is positive. -/
theorem offset_mem_word (next : Duration) (factor : Binary64) :
    0 ≤ offset next factor ∧ offset next factor ≤ largest := by
  refine ⟨?_, offset_le_largest next factor⟩
  by_cases hpercent : percent factor = 0
  · rw [offset, hpercent, Duration.times?, Nat.mul_zero, Duration.ofNanos?]
    exact Int.le_refl 0
  · rw [offset]
    split
    · dsimp only
      split
      · exact Int.natCast_nonneg _
      · exact fallback_nonneg hpercent
    · exact fallback_nonneg hpercent

/-! ### The draw -/

/-- A generator that is asked for one of the numbers from `low` up to but not including `high`. It has no
answer if there are none. -/
def generate? (low high : Int) (drawn : Nat) : Option Int :=
  if low < high then some (low + (drawn % (high - low).toNat : Nat)) else none

/-- The offset as it is asked for: from the range between the two ends, or from zero up to the upper one
if that range is collapsed and the upper end positive. -/
def ask? (next first ceiling : Duration) (factor : Binary64) (drawn : Nat) : Option Int :=
  let low := clamp (lowest next first factor)
  let high := clamp (highest next ceiling factor)
  if high ≤ low then if 0 < high then generate? 0 high drawn else some 0
  else generate? low high drawn

variable (next first ceiling : Duration) (factor : Binary64) (drawn : Nat)

/-- The generator always has an answer, and it is the offset that is drawn. -/
theorem ask?_eq_some_draw :
    ask? next first ceiling factor drawn = some (draw next first ceiling factor drawn) := by
  have hwindow : window next first ceiling factor =
      windowOf (clamp (lowest next first factor)) (clamp (highest next ceiling factor)) := rfl
  rw [ask?, draw, hwindow, windowOf]
  generalize clamp (lowest next first factor) = low
  generalize clamp (highest next ceiling factor) = high
  by_cases hlt : low < high
  · rw [if_neg (Int.not_le.2 hlt), dif_pos hlt, generate?, if_pos hlt]
    rfl
  · rw [if_pos (Int.not_lt.1 hlt), dif_neg hlt]
    by_cases hpos : 0 < high
    · rw [if_pos hpos, dif_pos hpos, generate?, if_pos hpos]
      rfl
    · rw [if_neg hpos, dif_neg hpos]

theorem mem_of_generate? {low high offset : Int} (h : generate? low high drawn = some offset) :
    low ≤ offset ∧ offset < high := by
  rw [generate?] at h
  split at h
  case isTrue hlt =>
      cases h
      have hrest : drawn % (high - low).toNat < (high - low).toNat := Nat.mod_lt _ (by omega)
      omega
  case isFalse => cases h

/-- Where an offset comes from: the range between the two ends, the numbers from zero up to a positive
upper end, or nowhere. -/
theorem draw_mem {low high : Int} (hlow : clamp (lowest next first factor) = low)
    (hhigh : clamp (highest next ceiling factor) = high) :
    (low < high ∧ low ≤ draw next first ceiling factor drawn ∧
      draw next first ceiling factor drawn < high) ∨
    (high ≤ low ∧ 0 < high ∧ 0 ≤ draw next first ceiling factor drawn ∧
      draw next first ceiling factor drawn < high) ∨
    (high ≤ low ∧ high ≤ 0 ∧ draw next first ceiling factor drawn = 0) := by
  have hask := ask?_eq_some_draw next first ceiling factor drawn
  rw [ask?, hlow, hhigh] at hask
  split at hask
  case isFalse hlt => exact .inl ⟨Int.not_le.1 hlt, mem_of_generate? drawn hask⟩
  case isTrue hcollapsed =>
      split at hask
      case isTrue hpos => exact .inr (.inl ⟨hcollapsed, hpos, mem_of_generate? drawn hask⟩)
      case isFalse hnonpos =>
          exact .inr (.inr ⟨hcollapsed, Int.not_lt.1 hnonpos, (Option.some.inj hask).symm⟩)

/-- **How far a draw leads.** For any three spans and any factor, the generator is never asked for a member
of an empty range. The reach is zero or more and within its word, and no draw leads further, the reach
itself only downwards. Between the outer spans, as whole milliseconds go, a draw leads to none below the
first and, unless it leads nowhere, to none that is not below the ceiling. From a collapsed range come the
numbers from zero up to its upper end if that is positive, and nothing but zero otherwise. -/
theorem draw_within_reach :
    let reach := offset next factor
    let low := clamp (lowest next first factor)
    let high := clamp (highest next ceiling factor)
    (0 ≤ reach ∧ reach ≤ largest) ∧
    (∀ drawn, ask? next first ceiling factor drawn = some (draw next first ceiling factor drawn)) ∧
    (∀ drawn, -reach ≤ draw next first ceiling factor drawn ∧
      draw next first ceiling factor drawn < max reach 1) ∧
    (first.millis ≤ next.millis → next.millis ≤ ceiling.millis → ∀ drawn,
      (first.millis : Int) - next.millis ≤ draw next first ceiling factor drawn ∧
        (draw next first ceiling factor drawn = 0 ∨
          draw next first ceiling factor drawn < (ceiling.millis : Int) - next.millis)) ∧
    (high ≤ low → ∀ drawn,
      (0 < high → 0 ≤ draw next first ceiling factor drawn ∧
        draw next first ceiling factor drawn < high) ∧
      (high ≤ 0 → draw next first ceiling factor drawn = 0)) := by
  intro reach low high
  obtain ⟨hnonneg, hword⟩ : 0 ≤ reach ∧ reach ≤ largest := offset_mem_word next factor
  have hlow : low = clamp (max ((first.millis : Int) - next.millis) (-reach)) := rfl
  have hhigh : high = clamp (min ((ceiling.millis : Int) - next.millis) reach) := rfl
  have hmem := fun drawn => draw_mem next first ceiling factor drawn hlow.symm hhigh.symm
  refine ⟨⟨hnonneg, hword⟩, ask?_eq_some_draw next first ceiling factor, fun drawn => ?_,
    fun hfirst hceiling drawn => ?_, fun hcollapsed drawn => ?_⟩
  · have hends : -reach ≤ low ∧ high ≤ reach := by
      simp only [hlow, hhigh, clamp, smallest, largest] at hword ⊢
      omega
    rcases hmem drawn with hdraw | hdraw | hdraw <;> omega
  · have hends : (first.millis : Int) - next.millis ≤ low ∧ low ≤ 0 ∧ 0 ≤ high ∧
        high ≤ (ceiling.millis : Int) - next.millis := by
      simp only [hlow, hhigh, clamp, smallest, largest] at hword ⊢
      omega
    rcases hmem drawn with hdraw | hdraw | hdraw <;> omega
  · rcases hmem drawn with hdraw | hdraw | hdraw <;> omega

/-- The longest span there is. -/
def longest : Duration := .ofNanos Duration.maxNanos

/-- The longest span with itself for a ceiling is never made longer, and loses no more than all of it; a
second between two equal bounds of 1.2 seconds gets up to, but not all of, the 200 milliseconds it
lacks. -/
theorem draw_within_reach_at_extremes :
    (Duration.zero.millis ≤ longest.millis ∧ ∀ drawn,
      -(longest.millis : Int) ≤ draw longest .zero longest (Binary64.infinity false) drawn ∧
        draw longest .zero longest (Binary64.infinity false) drawn ≤ 0) ∧
    (clamp (highest (.ofMillis 1000) (.ofMillis 1200) .half) = 200 ∧
      clamp (lowest (.ofMillis 1000) (.ofMillis 1200) .half) = 200 ∧
      ∀ drawn, 0 ≤ draw (.ofMillis 1000) (.ofMillis 1200) (.ofMillis 1200) .half drawn ∧
        draw (.ofMillis 1000) (.ofMillis 1200) (.ofMillis 1200) .half drawn < 200) := by
  obtain ⟨-, -, -, hbetween, -⟩ := draw_within_reach longest .zero longest (Binary64.infinity false)
  obtain ⟨-, -, -, -, hcollapsed⟩ := draw_within_reach (.ofMillis 1000) (.ofMillis 1200)
    (.ofMillis 1200) .half
  have hlow : clamp (lowest (.ofMillis 1000) (.ofMillis 1200) .half) = 200 := by decide +kernel
  have hhigh : clamp (highest (.ofMillis 1000) (.ofMillis 1200) .half) = 200 := by decide +kernel
  rw [hlow, hhigh] at hcollapsed
  refine ⟨⟨by decide, fun drawn => ?_⟩, hhigh, hlow,
    fun drawn => (hcollapsed (by decide) drawn).1 (by decide)⟩
  have hzero : Duration.zero.millis = 0 := by decide
  obtain ⟨hbelow, habove⟩ := hbetween (by decide) (by decide) drawn
  omega

end Jitter

end Rejoin
