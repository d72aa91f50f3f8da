import Mathlib.Algebra.Order.Floor.Ring
import Mathlib.Data.Rat.Floor
import Mathlib.Tactic.FieldSimp
import Mathlib.Tactic.GCongr
import Mathlib.Tactic.Linarith
import Mathlib.Tactic.NormNum
import Mathlib.Tactic.Ring
import Rejoin.Proofs.Delay.Reach
import Rejoin.Proofs.Number.Rounding

/-! What the reach of an offset has to do with the factor. The factor counts in whole percent: what it has
beyond the last whole one is dropped, so the share of a delay falls short of the exact one by up to one
percent of the delay, and a factor below one percent has no share at all. Of the share in whole percent
the reach is the whole milliseconds, wherever they fit. -/

namespace Rejoin

namespace Jitter

/-! ### Whole percent -/

/-- The share of a delay in whole percent, in milliseconds. -/
def wholeShare (next : Duration) (factor : Binary64) : ℚ :=
  next.nanos * (percent factor / 100) / Duration.perMilli

/-- Some share of a delay, in milliseconds. -/
def exactShare (next : Duration) (share : ℚ) : ℚ := next.nanos * share / Duration.perMilli

/-- A share between nothing and all is given by its units; the sign counts for nothing. -/
theorem exists_units {factor : Binary64} {share : ℚ} (hvalue : factor.value? = some share)
    (hlow : 0 ≤ share) (hhigh : share ≤ 1) :
    ∃ negative units, factor.reading = .finite negative units ∧ share = units / Binary64.one ∧
      units ≤ Binary64.one ∧ (negative → units = 0) := by
  have hone : (0 : ℚ) < Binary64.one := Nat.cast_pos.2 Binary64.one_pos
  rw [Binary64.value?] at hvalue
  split at hvalue
  case h_1 units hreading =>
      obtain rfl := Option.some.inj hvalue
      have hpos : (0 : ℚ) ≤ units / Binary64.one := div_nonneg (Nat.cast_nonneg _) hone.le
      have hnone : (units : ℚ) / Binary64.one = 0 := le_antisymm (neg_nonneg.1 hlow) hpos
      have hunits : units = 0 :=
        Nat.cast_eq_zero.1 ((div_eq_zero_iff.1 hnone).resolve_right hone.ne')
      refine ⟨true, units, hreading, ?_, hunits ▸ Nat.zero_le _, fun _ => hunits⟩
      rw [hnone, neg_zero]
  case h_2 units hreading =>
      obtain rfl := Option.some.inj hvalue
      exact ⟨false, units, hreading, rfl, Nat.cast_le.1 ((div_le_one hone).1 hhigh),
        fun hnegative => absurd hnegative Bool.false_ne_true⟩
  case h_3 => cases hvalue

/-- The percent of a factor, without its units' being cut off. -/
theorem percent_of_units {factor : Binary64} {negative : Bool} {units : Nat}
    (hreading : factor.reading = .finite negative units) (hle : units ≤ Binary64.one)
    (hsign : negative → units = 0) :
    percent factor * Binary64.one * (2 * Binary64.leading) ≤
        100 * units * (2 * Binary64.leading) + 100 * units ∧
      100 * units < (percent factor + 1) * Binary64.one := by
  obtain ⟨places, hone, hplaces⟩ : ∃ places, Binary64.one = 2 ^ places ∧ places = 1074 :=
    ⟨1074, by decide +kernel, rfl⟩
  have hhundred : (Binary64.ofNat 100).reading = .finite false (100 * Binary64.one) := by
    decide +kernel
  have hdigits : (100 * units).log2 < places + 52 := by
    by_cases hzero : 100 * units = 0
    · rw [hzero, Nat.log2_zero]
      omega
    · rw [Nat.log2_lt hzero, Nat.pow_add, ← hone]
      omega
  obtain ⟨product, hproduct, habove, hreach⟩ :=
    Binary64.exists_reading_mul hhundred hreading hdigits (by omega)
  rw [← hone] at hreach
  have hpos := Binary64.one_pos
  cases negative with
  | true =>
      obtain rfl := hsign rfl
      have hnone : percent factor = 0 := by rw [percent, Binary64.floorWithin, hproduct]
      rw [hnone]
      omega
  | false =>
      have hsplit := Nat.div_add_mod' product Binary64.one
      have hrest := Nat.mod_lt product hpos
      have hbelow : product / Binary64.one < 0xffffffff := by
        rw [Nat.div_lt_iff_lt_mul hpos]
        simp only [Binary64.leading] at habove
        omega
      have hpercent : percent factor = product / Binary64.one := by
        rw [percent, Binary64.floorWithin, hproduct]
        exact Nat.min_eq_right (Nat.le_of_lt hbelow)
      rw [hpercent]
      refine ⟨Nat.le_trans (Nat.mul_le_mul_right _ (Nat.div_mul_le_self _ _)) habove, ?_⟩
      by_contra hreached
      have hmore := hreach ((product / Binary64.one + 1) * Binary64.one) (Nat.dvd_mul_left _ _)
        (Nat.not_lt.1 hreached)
      rw [Nat.succ_mul] at hmore
      omega

/-- The whole percent of a share: what is dropped is less than one, and rounding adds at most one part in
`2 ^ 53`. -/
theorem percent_bounds {factor : Binary64} {share : ℚ} (hvalue : factor.value? = some share)
    (hlow : 0 ≤ share) (hhigh : share ≤ 1) :
    100 * share < percent factor + 1 ∧ (percent factor : ℚ) ≤ 100 * share * (1 + 1 / 2 ^ 53) := by
  obtain ⟨negative, units, hreading, rfl, hle, hsign⟩ := exists_units hvalue hlow hhigh
  obtain ⟨hupper, hlower⟩ := percent_of_units hreading hle hsign
  have hone : (0 : ℚ) < Binary64.one := Nat.cast_pos.2 Binary64.one_pos
  have hcastUpper : (percent factor : ℚ) * Binary64.one * 2 ^ 53 ≤
      100 * units * 2 ^ 53 + 100 * units := by
    have hleading : 2 * Binary64.leading = 2 ^ 53 := by decide
    rw [hleading] at hupper
    exact_mod_cast hupper
  have hcastLower : (100 : ℚ) * units < (percent factor + 1) * Binary64.one := by
    exact_mod_cast hlower
  constructor
  · rw [← mul_div_assoc, div_lt_iff₀ hone]
    exact hcastLower
  · have hsplit : 100 * (units / Binary64.one : ℚ) * (1 + 1 / 2 ^ 53) =
        (100 * units * 2 ^ 53 + 100 * units) / (Binary64.one * 2 ^ 53) := by
      field_simp
    rw [hsplit, le_div_iff₀ (mul_pos hone (by norm_num)), ← mul_assoc]
    exact hcastUpper

/-- What whole percent leave out is less than one percent of the delay, and they exceed the exact share by
no more than the rounding does. -/
theorem wholeShare_bounds (next : Duration) {factor : Binary64} {share : ℚ}
    (hvalue : factor.value? = some share) (hlow : 0 ≤ share) (hhigh : share ≤ 1) :
    exactShare next share ≤ wholeShare next factor + exactShare next (1 / 100) ∧
      wholeShare next factor ≤ exactShare next share * (1 + 1 / 2 ^ 53) := by
  obtain ⟨hlower, hupper⟩ := percent_bounds hvalue hlow hhigh
  constructor
  · calc exactShare next share ≤ next.nanos * (percent factor / 100 + 1 / 100) / Duration.perMilli := by
          rw [exactShare]
          gcongr
          linarith
      _ = wholeShare next factor + exactShare next (1 / 100) := by
          rw [wholeShare, exactShare]
          ring
  · calc wholeShare next factor ≤ next.nanos * (share * (1 + 1 / 2 ^ 53)) / Duration.perMilli := by
          rw [wholeShare]
          gcongr
          linarith
      _ = exactShare next share * (1 + 1 / 2 ^ 53) := by
          rw [exactShare]
          ring

/-! ### The reach -/

/-- The reach is the whole milliseconds of the share in whole percent where these fit its word, and the
share of the largest one otherwise. A product beyond all spans is far beyond that word. -/
theorem offset_eq (next : Duration) (factor : Binary64) :
    offset next factor =
      if next.nanos * percent factor / 100 / Duration.perMilli ≤ largest then
        ((next.nanos * percent factor / 100 / Duration.perMilli : Nat) : Int)
      else fallback factor := by
  rw [offset, Duration.times?, Duration.ofNanos?]
  generalize next.nanos * percent factor = product
  by_cases hspan : product ≤ Duration.maxNanos
  · rw [dif_pos hspan]
    rfl
  · rw [dif_neg hspan, if_neg]
    simp only [Duration.maxNanos, Duration.perMilli, largest] at *
    omega

theorem floor_wholeShare (next : Duration) (factor : Binary64) : ⌊wholeShare next factor⌋ =
    ((next.nanos * percent factor / 100 / Duration.perMilli : Nat) : Int) := by
  have hshare : wholeShare next factor =
      ((next.nanos * percent factor : Nat) : ℚ) / ((100 * Duration.perMilli : Nat) : ℚ) := by
    rw [wholeShare]
    push_cast
    field_simp
  rw [hshare, Nat.div_div_eq_div_mul, Rat.floor_natCast_div_natCast]
  rfl

theorem offset_eq_floor {next : Duration} {factor : Binary64}
    (h : wholeShare next factor < largest + 1) :
    offset next factor = ⌊wholeShare next factor⌋ := by
  have hfits : ⌊wholeShare next factor⌋ ≤ (largest : Int) :=
    Int.floor_le_iff.2 (by exact_mod_cast h)
  rw [floor_wholeShare] at hfits ⊢
  rw [offset_eq, if_pos (Int.ofNat_le.1 hfits)]

theorem offset_eq_fallback {next : Duration} {factor : Binary64}
    (h : ¬ wholeShare next factor < largest + 1) : offset next factor = fallback factor := by
  have hbeyond : ¬ ⌊wholeShare next factor⌋ ≤ (largest : Int) :=
    fun hfits => h (by exact_mod_cast Int.floor_le_iff.1 hfits)
  rw [floor_wholeShare] at hbeyond
  rw [offset_eq, if_neg (mt Int.ofNat_le.2 hbeyond)]

/-! ### The share of the largest offset -/

/-- The nearest whole number, a half going up, of a magnitude in units. -/
theorem floor_add_half (units : Nat) : ⌊(units : ℚ) / Binary64.one + 1 / 2⌋ =
    ((2 * units + Binary64.one) / (2 * Binary64.one) : Nat) := by
  have hone : (Binary64.one : ℚ) ≠ 0 := Nat.cast_ne_zero.2 Binary64.one_pos.ne'
  have hquotient : (units : ℚ) / Binary64.one + 1 / 2 =
      ((2 * units + Binary64.one : Nat) : ℚ) / ((2 * Binary64.one : Nat) : ℚ) := by
    push_cast
    field_simp
  rw [hquotient, Rat.floor_natCast_div_natCast]
  rfl

section Fallback

variable {factor : Binary64} {share : ℚ} (hvalue : factor.value? = some share) (hlow : 0 ≤ share)
  (hhigh : share ≤ 1)

include hvalue hlow hhigh

/-- The largest offset counts as `2 ^ 63`, whose product with a share is exact: only the last step rounds,
to the nearest whole number, and cuts off what is beyond the largest offset. -/
theorem fallback_eq_floor : fallback factor = min (largest : Int) ⌊2 ^ 63 * share + 1 / 2⌋ := by
  obtain ⟨negative, units, hreading, rfl, hle, hsign⟩ := exists_units hvalue hlow hhigh
  obtain ⟨places, hone, hplaces⟩ : ∃ places, Binary64.one = 2 ^ places ∧ places = 1074 :=
    ⟨1074, by decide +kernel, rfl⟩
  have htop : (Binary64.ofNat largest).reading = .finite false (2 ^ 63 * Binary64.one) := by
    decide +kernel
  have hsize : (2 ^ 63 * units).log2 ≤ 2097 := by
    by_cases hzero : 2 ^ 63 * units = 0
    · rw [hzero]
      decide
    · have hbelow : 2 ^ 63 * units < 2 ^ (places + 64) := by
        rw [Nat.pow_add, ← hone]
        have hpos := Binary64.one_pos
        omega
      have hlog := (Nat.log2_lt hzero).2 hbelow
      omega
  have hproduct := Binary64.reading_mul_two_pow htop hreading hsize
  have hscaled : (2 : ℚ) ^ 63 * (units / Binary64.one) =
      ((2 ^ 63 * units : Nat) : ℚ) / Binary64.one := by
    rw [mul_div_assoc', Nat.cast_mul, Nat.cast_pow, Nat.cast_ofNat]
  rw [hscaled, floor_add_half, fallback, Binary64.nearestWithin, hproduct]
  dsimp only
  have hnone : (2 * (2 ^ 63 * 0) + Binary64.one) / (2 * Binary64.one) = 0 := by decide +kernel
  cases negative with
  | false =>
      rw [if_neg Bool.false_ne_true]
      exact Int.max_eq_right (Int.le_min.2 ⟨by decide, Int.le_trans (by decide) (Int.natCast_nonneg _)⟩)
  | true =>
      rw [hsign rfl, hnone]
      decide

theorem fallback_le : (fallback factor : ℚ) ≤ 2 ^ 63 * share + 1 / 2 := by
  rw [fallback_eq_floor hvalue hlow hhigh]
  exact (Int.cast_le.2 (Int.min_le_right _ _)).trans (Int.floor_le _)

theorem fallback_pos (hshare : 1 ≤ 128 * share) : 0 < fallback factor := by
  rw [fallback_eq_floor hvalue hlow hhigh]
  refine Int.lt_min.2 ⟨by decide, Int.lt_floor_iff.2 ?_⟩
  push_cast
  linarith

end Fallback

/-! ### Shares that do not fit -/

section Beyond

variable {next : Duration} {factor : Binary64} {share : ℚ} (hvalue : factor.value? = some share)
  (hlow : 0 ≤ share) (hhigh : share ≤ 1) (hbeyond : ¬ wholeShare next factor < largest + 1)

include hvalue hlow hhigh

/-- A factor below one that is rounded up to no more percent than it may be stays below one hundred. -/
theorem percent_lt_of_lt_one (hlt : share < 1) : percent factor < 100 := by
  obtain ⟨negative, units, hreading, rfl, -, -⟩ := exists_units hvalue hlow hhigh
  obtain ⟨-, hpercent⟩ := percent_bounds hvalue hlow hhigh
  have hone : (0 : ℚ) < Binary64.one := Nat.cast_pos.2 Binary64.one_pos
  have hgap := Binary64.units_le_of_lt_one hreading (Nat.cast_lt.1 ((div_lt_one hone).1 hlt))
  have hleading : 2 * Binary64.leading = 2 ^ 53 := by decide
  rw [hleading] at hgap
  have hshare : (units / Binary64.one : ℚ) ≤ 1 - 1 / 2 ^ 53 := by
    rw [div_le_iff₀ hone]
    have hcast : (units : ℚ) * 2 ^ 53 + Binary64.one ≤ Binary64.one * 2 ^ 53 := by
      exact_mod_cast hgap
    linarith
  have hcast : (percent factor : ℚ) < (100 : Nat) :=
    calc (percent factor : ℚ) ≤ 100 * (units / Binary64.one) * (1 + 1 / 2 ^ 53) := hpercent
      _ ≤ 100 * (1 - 1 / 2 ^ 53) * (1 + 1 / 2 ^ 53) := by gcongr
      _ < (100 : Nat) := by norm_num
  exact Nat.cast_lt.1 hcast

/-- A factor that was rounded up to its percent has no more than 99 of them: one has exactly 100, and those
below one stay below that. -/
theorem percent_le_of_share_lt (hup : share < percent factor / 100) : percent factor ≤ 99 := by
  obtain ⟨-, hpercent⟩ := percent_bounds hvalue hlow hhigh
  have hmost : (percent factor : ℚ) < (101 : Nat) :=
    calc (percent factor : ℚ) ≤ 100 * share * (1 + 1 / 2 ^ 53) := hpercent
      _ ≤ 100 * 1 * (1 + 1 / 2 ^ 53) := by gcongr
      _ < (101 : Nat) := by norm_num
  have hcast : (percent factor : ℚ) ≤ 100 := by
    exact_mod_cast Nat.le_of_lt_succ (Nat.cast_lt.1 hmost)
  have hless : share < 1 := by linarith
  exact Nat.le_of_lt_succ (percent_lt_of_lt_one hvalue hlow hhigh hless)

include hbeyond

/-- A share in whole percent that does not fit is one of some percent, so the factor has nearly one percent
itself. -/
theorem one_le_share_of_beyond : 1 ≤ 128 * share := by
  obtain ⟨-, hpercent⟩ := percent_bounds hvalue hlow hhigh
  have hsome : 1 ≤ percent factor := by
    rw [Nat.one_le_iff_ne_zero]
    intro hnone
    apply hbeyond
    rw [wholeShare, hnone, Nat.cast_zero, zero_div, mul_zero, zero_div]
    exact_mod_cast Nat.succ_pos largest
  calc (1 : ℚ) ≤ percent factor := Nat.one_le_cast.2 hsome
    _ ≤ 100 * share * (1 + 1 / 2 ^ 53) := hpercent
    _ ≤ 128 * share := by linarith

/-- A share in whole percent that does not fit is not given as zero. -/
theorem offset_pos_of_beyond : 0 < offset next factor := by
  rw [offset_eq_fallback hbeyond]
  exact fallback_pos hvalue hlow hhigh (one_le_share_of_beyond hvalue hlow hhigh hbeyond)

/-- If the exact share would have fitted, the share of the largest offset is far below it: the factor was
rounded up to its percent, so it is no more than 99 percent, while the exact share is nearly the largest
offset. -/
theorem offset_far_of_beyond (hfits : exactShare next share ≤ largest) :
    (offset next factor : ℚ) + 1 < exactShare next share := by
  have hmore : exactShare next share < wholeShare next factor := by
    have hroom : (largest : ℚ) < largest + 1 := lt_add_one _
    linarith
  have hup : share < percent factor / 100 := by
    by_contra hdown
    apply hmore.not_ge
    rw [wholeShare, exactShare]
    gcongr
    exact not_lt.1 hdown
  have hnext : (percent factor : ℚ) ≤ 99 := by
    exact_mod_cast percent_le_of_share_lt hvalue hlow hhigh hup
  obtain ⟨-, hnear⟩ := wholeShare_bounds next hvalue hlow hhigh
  have htop : ((largest : Nat) : ℚ) + 1 = 2 ^ 63 := by
    rw [largest]
    norm_num
  have hfallback := fallback_le hvalue hlow hhigh
  rw [offset_eq_fallback hbeyond]
  rw [htop] at hbeyond
  linarith

end Beyond

/-! ### The reach and the factor -/

/-- **A reach in whole percent.** For any delay and any factor from nothing to all of it, the share in
percent is that of the factor without what it has beyond the last whole one, but for the rounding. Where
the share of the delay in whole percent fits the word of the reach, the reach is its whole milliseconds; so
it exceeds the exact share by no more than the rounding, and falls short of it by less than one percent of
the delay and a millisecond. The reach is not zero if and only if the share in whole percent is a
millisecond or more, whether or not it fits. Where the exact share fits, the reach is within one
millisecond of it if and only if the share in whole percent fits too and its whole milliseconds are. -/
theorem offset_shares_whole_percent (next : Duration) {factor : Binary64} {share : ℚ}
    (hvalue : factor.value? = some share) (hlow : 0 ≤ share) (hhigh : share ≤ 1) :
    (100 * share < percent factor + 1 ∧ (percent factor : ℚ) ≤ 100 * share * (1 + 1 / 2 ^ 53)) ∧
    (wholeShare next factor ≤ largest →
      (offset next factor ≤ wholeShare next factor ∧ wholeShare next factor < offset next factor + 1) ∧
      offset next factor ≤ exactShare next share * (1 + 1 / 2 ^ 53) ∧
      exactShare next share < offset next factor + exactShare next (1 / 100) + 1) ∧
    (offset next factor ≠ 0 ↔ 1 ≤ wholeShare next factor) ∧
    (exactShare next share ≤ largest →
      (|offset next factor - exactShare next share| ≤ 1 ↔
        wholeShare next factor < largest + 1 ∧
          |⌊wholeShare next factor⌋ - exactShare next share| ≤ 1)) := by
  obtain ⟨hshort, hlong⟩ := wholeShare_bounds next hvalue hlow hhigh
  refine ⟨percent_bounds hvalue hlow hhigh, fun hfits => ?_, ?_, fun hfits => ?_⟩
  · rw [offset_eq_floor (lt_of_le_of_lt hfits (lt_add_one _))]
    have hfloor := Int.floor_le (wholeShare next factor)
    have hrest := Int.lt_floor_add_one (wholeShare next factor)
    exact ⟨⟨hfloor, hrest⟩, hfloor.trans hlong, by linarith⟩
  · by_cases hfits : wholeShare next factor < largest + 1
    · rw [offset_eq_floor hfits, ← Int.cast_one, ← Int.le_floor]
      have hnonneg : 0 ≤ ⌊wholeShare next factor⌋ := by
        rw [floor_wholeShare]
        exact Int.natCast_nonneg _
      omega
    · have hmany : (1 : ℚ) ≤ wholeShare next factor :=
        le_trans (by exact_mod_cast Nat.succ_le_succ (Nat.zero_le largest)) (not_lt.1 hfits)
      exact iff_of_true (offset_pos_of_beyond hvalue hlow hhigh hfits).ne' hmany
  · by_cases hwhole : wholeShare next factor < largest + 1
    · rw [offset_eq_floor hwhole, and_iff_right hwhole]
    · have hfar := offset_far_of_beyond hvalue hlow hhigh hwhole hfits
      refine iff_of_false (fun hnear => ?_) (fun h => hwhole h.1)
      have hback := (abs_le.1 hnear).1
      linarith

theorem value?_ofRatio {denominator : Nat} (units : Nat)
    (hreading : (Binary64.ofRatio false 1 denominator).reading = .finite false units)
    (hone : Binary64.one = units * denominator) :
    (Binary64.ofRatio false 1 denominator).value? = some (1 / denominator : ℚ) := by
  have hunits : (units : ℚ) ≠ 0 := by
    rw [Nat.cast_ne_zero]
    rintro rfl
    have hpos := Binary64.one_pos
    omega
  rw [Binary64.value?, hreading]
  dsimp only
  rw [hone, Nat.cast_mul, div_mul_cancel_left₀ hunits, one_div]

/-- Half of three seconds is 1500 milliseconds. -/
theorem offset_shares_whole_percent_of_half :
    (Binary64.half.value? = some (1 / (2 : Nat) : ℚ) ∧ (0 : ℚ) ≤ 1 / (2 : Nat) ∧
      1 / (2 : Nat) ≤ (1 : ℚ)) ∧
    offset (.ofMillis 3000) .half ≠ 0 ∧
    |(offset (.ofMillis 3000) .half : ℚ) - exactShare (.ofMillis 3000) (1 / (2 : Nat))| ≤ 1 := by
  have hvalue : Binary64.half.value? = some (1 / (2 : Nat) : ℚ) :=
    value?_ofRatio (Nat.pow 2 1073) (by decide +kernel) (by decide +kernel)
  have hlow : (0 : ℚ) ≤ 1 / (2 : Nat) := by norm_num
  have hhigh : 1 / (2 : Nat) ≤ (1 : ℚ) := by norm_num
  have hpercent : percent .half = 50 := by decide +kernel
  have hnanos : (Duration.ofMillis 3000).nanos = 3000000000 := by decide
  have hwhole : wholeShare (.ofMillis 3000) .half = 1500 := by
    rw [wholeShare, hpercent, hnanos, Duration.perMilli]
    norm_num
  have hexact : exactShare (.ofMillis 3000) (1 / (2 : Nat)) = 1500 := by
    rw [exactShare, hnanos, Duration.perMilli]
    norm_num
  obtain ⟨-, -, hnonzero, hnear⟩ := offset_shares_whole_percent (.ofMillis 3000) hvalue hlow hhigh
  rw [hwhole] at hnonzero
  rw [hwhole, hexact] at hnear
  rw [hexact]
  refine ⟨⟨hvalue, hlow, hhigh⟩, hnonzero.2 (by norm_num), (hnear (by norm_num [largest])).2 ?_⟩
  norm_num [largest]

/-- A factor of 1/256 has no reach with a delay of 100 seconds, although that share of it is more than 390
milliseconds. -/
theorem exists_offset_far_from_share :
    ∃ next factor share, factor.value? = some share ∧ 0 ≤ share ∧ share ≤ 1 ∧
      2 ≤ exactShare next share ∧ exactShare next share ≤ largest ∧
      offset next factor = 0 ∧ ¬ |offset next factor - exactShare next share| ≤ 1 := by
  have hvalue : (Binary64.ofRatio false 1 256).value? = some (1 / (256 : Nat) : ℚ) :=
    value?_ofRatio (Nat.pow 2 1066) (by decide +kernel) (by decide +kernel)
  have hnone : offset (.ofMillis 100000) (.ofRatio false 1 256) = 0 := by decide +kernel
  have hnanos : (Duration.ofMillis 100000).nanos = 100000000000 := by decide
  have hexact : exactShare (.ofMillis 100000) (1 / (256 : Nat)) = 390.625 := by
    rw [exactShare, hnanos, Duration.perMilli]
    norm_num
  refine ⟨.ofMillis 100000, .ofRatio false 1 256, 1 / (256 : Nat), hvalue, by norm_num, by norm_num, ?_⟩
  rw [hexact, hnone]
  norm_num [largest]

end Jitter

end Rejoin
