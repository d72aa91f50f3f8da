import Rejoin.Proofs.Delay.Share

/-! Where the share of a delay leaves its words. It is worked out in three steps, and two of them may give
up: the product may leave the seconds of a span, and the milliseconds may leave the word of an offset. A
product that leaves its seconds is so far out that its milliseconds would not have fitted either, so it is
the milliseconds alone that decide. -/

namespace Rejoin

namespace Duration

variable {span scaled : Duration} {factor : Nat}

/-- The seconds of a product: those of the span times the factor, and what the nanoseconds beside them
carry over. -/
theorem nanos_mul_div (span : Duration) (factor : Nat) :
    span.nanos * factor / perSecond =
      span.nanos / perSecond * factor + span.nanos % perSecond * factor / perSecond := by
  have hpos : 0 < perSecond := by decide
  calc span.nanos * factor / perSecond
      = (perSecond * (span.nanos / perSecond * factor) + span.nanos % perSecond * factor) /
          perSecond := by
        rw [← Nat.mul_assoc, ← Nat.add_mul, Nat.div_add_mod]
    _ = span.nanos / perSecond * factor + span.nanos % perSecond * factor / perSecond :=
        Nat.mul_add_div hpos _ _

/-- A product is refused exactly if its seconds leave a word of 64 bits. -/
theorem times?_eq_none_iff :
    span.times? factor = none ↔
      UInt64.size ≤ span.nanos / perSecond * factor + span.nanos % perSecond * factor / perSecond := by
  have hword : maxNanos + 1 = UInt64.size * perSecond := by decide
  have hpos : 0 < perSecond := by decide
  rw [← nanos_mul_div, Nat.le_div_iff_mul_le hpos, ← hword, times?, ofNanos?]
  by_cases hfits : span.nanos * factor ≤ maxNanos
  · rw [dif_pos hfits]
    exact iff_of_false (Option.some_ne_none _) (Nat.not_lt.2 hfits)
  · rw [dif_neg hfits]
    exact iff_of_true rfl (Nat.not_le.1 hfits)

theorem nanos_of_times? (h : span.times? factor = some scaled) :
    scaled.nanos = span.nanos * factor := by
  unfold times? ofNanos? at h
  split at h
  case isTrue =>
      cases h
      rfl
  case isFalse => cases h

end Duration

namespace Jitter

variable {next scaled : Duration} {factor : Binary64}

/-- The share of a delay in milliseconds, a step after the other: nothing if the product is refused, or
if the milliseconds leave the word of an offset. -/
def share? (next : Duration) (percent : Nat) : Option Int :=
  (next.times? percent).bind fun scaled =>
    if (scaled.divide 100).millis ≤ largest then some (scaled.divide 100).millis else none

/-- The share of the largest offset stands in where the steps come to nothing. -/
theorem offset_eq_getD (next : Duration) (factor : Binary64) :
    offset next factor = (share? next (percent factor)).getD (fallback factor) := by
  rw [offset, share?]
  cases next.times? (percent factor) with
  | none => rfl
  | some scaled =>
      simp only [Option.bind_some]
      split <;> rfl

/-- A percent is a word of 32 bits. -/
theorem percent_lt (factor : Binary64) : percent factor < UInt32.size := by
  rw [percent, Binary64.floorWithin]
  generalize ((Binary64.ofNat 100).mul factor).reading = reading
  have hbound : (0xffffffff : Nat) < UInt32.size := by decide
  split
  · exact hbound
  · exact Nat.lt_of_le_of_lt (Nat.min_le_left _ _) hbound
  · exact Nat.lt_of_le_of_lt (Nat.zero_le _) hbound

/-- Cutting off the nanoseconds before the milliseconds are counted loses nothing. -/
theorem millis_divide (h : next.times? (percent factor) = some scaled) :
    ((scaled.divide 100).millis : Int) = ⌊wholeShare next factor⌋ := by
  rw [floor_wholeShare, ← Duration.nanos_of_times? h]
  rfl

/-- A product that is refused has more milliseconds than any offset. -/
theorem largest_lt_of_times? (h : next.times? (percent factor) = none) :
    (largest : Int) < ⌊wholeShare next factor⌋ := by
  rw [Duration.times?_eq_none_iff, ← Duration.nanos_mul_div] at h
  rw [floor_wholeShare]
  generalize next.nanos * percent factor = product at h ⊢
  have hbeyond : largest < product / 100 / Duration.perMilli := by
    simp only [UInt64.size, Duration.perSecond, Duration.perMilli, largest] at h ⊢
    omega
  exact Int.ofNat_lt.2 hbeyond

theorem share?_eq_none_iff :
    share? next (percent factor) = none ↔ (largest : Int) < ⌊wholeShare next factor⌋ := by
  rw [share?]
  cases htimes : next.times? (percent factor) with
  | none => exact iff_of_true rfl (largest_lt_of_times? htimes)
  | some scaled =>
      rw [← millis_divide htimes, Int.ofNat_lt, Option.bind_some]
      split
      case isTrue hfits => exact iff_of_false nofun (Nat.not_lt.2 hfits)
      case isFalse hbeyond => exact iff_of_true rfl (Nat.not_le.1 hbeyond)

theorem eq_of_share? {share : Int} (h : share? next (percent factor) = some share) :
    share = ⌊wholeShare next factor⌋ := by
  obtain ⟨scaled, htimes, hshare⟩ := Option.bind_eq_some_iff.1 h
  split at hshare
  case isTrue =>
      cases hshare
      exact millis_divide htimes
  case isFalse => cases hshare

/-- **Falling back on true overflow only.** For any delay and any factor, the share of the largest
offset stands in exactly if the whole milliseconds of the share in whole percent are more than the
largest offset, and they are the offset otherwise. The share of the largest offset is the product of
the two numbers, rounded to the nearest whole one within the words of an offset; for a factor from
nothing to all of it, that is the nearest whole number to the exact share of `2 ^ 63`. The product
is refused exactly if its seconds leave a word of 64 bits, and then the milliseconds would not have
fitted either; where it is not refused, dividing by one hundred in nanoseconds first and counting
milliseconds after gives the milliseconds of the exact share. -/
theorem offset_falls_back_iff (next : Duration) (factor : Binary64) :
    percent factor < UInt32.size ∧
    offset next factor = (share? next (percent factor)).getD (fallback factor) ∧
    (share? next (percent factor) = none ↔ (largest : Int) < ⌊wholeShare next factor⌋) ∧
    (fallback factor = ((Binary64.ofNat 0x7fffffffffffffff).mul factor).nearestWithin
        (-0x8000000000000000) 0x7fffffffffffffff ∧
      ∀ share, factor.value? = some share → 0 ≤ share → share ≤ 1 →
        fallback factor = min (largest : Int) ⌊2 ^ 63 * share + 1 / 2⌋) ∧
    ((largest : Int) < ⌊wholeShare next factor⌋ → offset next factor = fallback factor) ∧
    (⌊wholeShare next factor⌋ ≤ (largest : Int) → offset next factor = ⌊wholeShare next factor⌋) ∧
    (next.times? (percent factor) = none ↔
      UInt64.size ≤ next.nanos / Duration.perSecond * percent factor +
        next.nanos % Duration.perSecond * percent factor / Duration.perSecond) ∧
    (next.times? (percent factor) = none → (largest : Int) < ⌊wholeShare next factor⌋) ∧
    ∀ scaled, next.times? (percent factor) = some scaled →
      ((scaled.divide 100).millis : Int) = ⌊wholeShare next factor⌋ := by
  have hoffset := offset_eq_getD next factor
  refine ⟨percent_lt factor, hoffset, share?_eq_none_iff,
    ⟨rfl, fun _ => fallback_eq_floor⟩, fun hbeyond => ?_,
    fun hfits => ?_,
    Duration.times?_eq_none_iff, largest_lt_of_times?, fun _ => millis_divide⟩
  · rw [hoffset, share?_eq_none_iff.2 hbeyond, Option.getD_none]
  · cases hshare : share? next (percent factor) with
    | none => exact absurd (share?_eq_none_iff.1 hshare) (Int.not_lt.2 hfits)
    | some share => rw [hoffset, hshare, Option.getD_some, eq_of_share? hshare]

/-- Half of the largest offset stands in for half of `2 ^ 55` seconds, whose product with the percent is
still a span, and for half of `2 ^ 63` seconds, whose product is none. -/
theorem offset_falls_back_when_vast :
    (Duration.ofSeconds 0x80000000000000).times? (percent .half) ≠ none ∧
      offset (.ofSeconds 0x80000000000000) .half = 0x4000000000000000 ∧
      (Duration.ofSeconds 0x8000000000000000).times? (percent .half) = none ∧
      offset (.ofSeconds 0x8000000000000000) .half = 0x4000000000000000 := by
  have hvalue : Binary64.half.value? = some (1 / (2 : Nat) : ℚ) :=
    value?_ofRatio (Nat.pow 2 1073) (by decide +kernel) (by decide +kernel)
  have hpercent : percent .half = 50 := by decide +kernel
  obtain ⟨-, -, -, ⟨-, hfallback⟩, hbeyond, -⟩ :=
    offset_falls_back_iff (.ofSeconds 0x80000000000000) .half
  obtain ⟨-, -, -, -, hfarBeyond, -, -, hrefused, -⟩ :=
    offset_falls_back_iff (.ofSeconds 0x8000000000000000) .half
  have hhalf : fallback .half = 0x4000000000000000 := by
    rw [hfallback _ hvalue (by norm_num) (by norm_num)]
    norm_num [largest]
  have hnone : (Duration.ofSeconds 0x8000000000000000).times? (percent .half) = none := by
    rw [hpercent]
    decide
  refine ⟨?_, (hbeyond ?_).trans hhalf, hnone, (hfarBeyond (hrefused hnone)).trans hhalf⟩
  · rw [hpercent]
    decide
  · rw [floor_wholeShare, hpercent]
    decide

end Jitter

end Rejoin
