import Rejoin.Decision.Settings
import Rejoin.Proofs.Delay.Floor

/-! The delays that settings allow. Settings give their spans in whole milliseconds, so a delay before
jitter is a whole number of them too, and jitter moves it by exactly the milliseconds it draws. The
delays over all draws are then every millisecond of a window around the delay before jitter, cut off
at the two bounds of the settings, or that delay alone where the window is empty. -/

namespace Rejoin

/-! ### The reach of an offset -/

namespace Binary64

/-- The magnitude of a number stays below the weight of its sign, so it cannot set the sign. -/
theorem isNegative_ofUnits (units : Nat) : (ofUnits false units).isNegative = false := by
  rw [isNegative, decide_eq_false_iff_not, Nat.not_le, ofUnits, if_neg Bool.false_ne_true,
    Nat.zero_add, UInt64.toNat_ofNat']
  have hmagnitude := Nat.min_le_right ((units.log2 - 52) * leading + units / Nat.pow 2
    (units.log2 - 52)) (2047 * leading)
  refine Nat.lt_of_le_of_lt (Nat.mod_le _ _) (Nat.lt_of_le_of_lt hmagnitude ?_)
  decide

theorem isNegative_of_reading {number : Binary64} {negative : Bool} {units : Nat}
    (h : number.reading = .finite negative units) : number.isNegative = negative := by
  rw [reading] at h
  split at h
  · split at h <;> cases h
  · split at h
    · exact (Reading.finite.inj h).1
    · exact (Reading.finite.inj h).1

theorem isNegative_of_infinite {number : Binary64} {negative : Bool}
    (h : number.reading = .infinite negative) : number.isNegative = negative := by
  rw [reading] at h
  split at h
  · split at h
    · exact Reading.infinite.inj h
    · cases h
  · split at h <;> cases h

/-- A number without a sign is rounded to no less than zero. -/
theorem nearestWithin_nonneg {number : Binary64} (h : number.isNegative = false) {low high : Int}
    (hhigh : 0 ≤ high) : 0 ≤ number.nearestWithin low high := by
  rw [nearestWithin]
  split
  case h_1 => exact Int.le_refl 0
  case h_2 hreading => exact absurd ((isNegative_of_infinite hreading).symm.trans h) (by decide)
  case h_3 => exact hhigh
  case h_4 negative units hreading =>
    obtain rfl := (isNegative_of_reading hreading).symm.trans h
    refine Int.le_trans (Int.le_min.2 ⟨hhigh, ?_⟩) (Int.le_max_right _ _)
    exact Int.natCast_nonneg _

/-- Half a unit up from nothing is still nothing, so the sign of a negative zero has nothing to act
on. -/
theorem nearestWithin_of_zero {number : Binary64} {negative : Bool}
    (h : number.reading = .finite negative 0) {low high : Int} (hlow : low ≤ 0) (hhigh : 0 ≤ high) :
    number.nearestWithin low high = 0 := by
  have hnone : (2 * 0 + one) / (2 * one) = 0 := by decide +kernel
  rw [nearestWithin, h]
  dsimp only
  rw [hnone, Int.natCast_zero, Int.neg_zero, ite_self, Int.min_eq_right hhigh,
    Int.max_eq_right hlow]

/-- A product with a factor between zero and one is rounded to no less than zero. -/
theorem nearestWithin_mul_nonneg {number factor : Binary64} {units : Nat}
    (hnumber : number.reading = .finite false units) (hfactor : factor.inUnitInterval)
    {low high : Int} (hlow : low ≤ 0) (hhigh : 0 ≤ high) :
    0 ≤ (number.mul factor).nearestWithin low high := by
  rw [inUnitInterval] at hfactor
  split at hfactor
  case h_1 share hreading =>
    obtain rfl : share = 0 := of_decide_eq_true hfactor
    have hround : roundUnits 0 one = 0 := by decide +kernel
    have hproduct : (number.mul factor).reading = .finite true 0 := by
      rw [mul, hnumber, hreading]
      dsimp only
      rw [Nat.mul_zero, hround]
      decide +kernel
    exact Int.le_of_eq (nearestWithin_of_zero hproduct hlow hhigh).symm
  case h_2 share hreading =>
    rw [mul, hnumber, hreading]
    exact nearestWithin_nonneg (isNegative_ofUnits _) hhigh
  case h_3 => cases hfactor

end Binary64

/-- Drawn numbers stand for all members of a window and for nothing else. -/
theorem Window.exists_pick_eq_iff (window : Window) {millis : Int} :
    (∃ drawn, window.pick drawn = millis) ↔ window.low ≤ millis ∧ millis < window.high := by
  have hlength := window.low_lt_high
  constructor
  · rintro ⟨drawn, rfl⟩
    have hrest : drawn % (window.high - window.low).toNat < (window.high - window.low).toNat :=
      Nat.mod_lt _ (by omega)
    refine ⟨Int.le_add_of_nonneg_right (Int.natCast_nonneg _), ?_⟩
    unfold pick
    omega
  · rintro ⟨hlow, hhigh⟩
    refine ⟨(millis - window.low).toNat, ?_⟩
    unfold pick
    rw [Nat.mod_eq_of_lt (by omega)]
    omega

namespace Jitter

theorem offset_nonneg (next : Duration) {factor : Binary64} (h : factor.inUnitInterval) :
    0 ≤ offset next factor := by
  have hlargest : (Binary64.ofNat largest).reading =
      .finite false (Nat.pow 2 63 * Binary64.one) := by decide +kernel
  have hfallback : 0 ≤ fallback factor :=
    Binary64.nearestWithin_mul_nonneg hlargest h (by decide) (by decide)
  rw [offset]
  split
  · dsimp only
    split
    · exact Int.natCast_nonneg _
    · exact hfallback
  · exact hfallback

/-- The least offset for a delay, in milliseconds: all that the delay is ahead of the first span, but
no more than its share. -/
def lowest (next first : Duration) (factor : Binary64) : Int :=
  max ((first.millis : Int) - next.millis) (-offset next factor)

/-- The end of the offsets for a delay, in milliseconds: all that the ceiling is ahead of the delay,
but no more than its share. -/
def highest (next ceiling : Duration) (factor : Binary64) : Int :=
  min ((ceiling.millis : Int) - next.millis) (offset next factor)

variable {next first ceiling : Duration} {factor : Binary64}

theorem lowest_nonpos (hfactor : factor.inUnitInterval) (hfirst : first ≤ next) :
    lowest next first factor ≤ 0 := by
  have hmillis := Duration.millis_le_millis hfirst
  have hoffset := offset_nonneg next hfactor
  rw [lowest]
  omega

theorem highest_nonneg (hfactor : factor.inUnitInterval) (hceiling : next ≤ ceiling) :
    0 ≤ highest next ceiling factor := by
  have hmillis := Duration.millis_le_millis hceiling
  have hoffset := offset_nonneg next hfactor
  rw [highest]
  omega

/-! Both ends of a window are far from the ends of the words that hold them. -/

theorem clamp_lowest (hfactor : factor.inUnitInterval) (hfirst : first ≤ next) :
    clamp (lowest next first factor) = lowest next first factor := by
  have hlargest := offset_le_largest next factor
  have hlow := lowest_nonpos hfactor hfirst
  rw [lowest] at hlow ⊢
  simp only [clamp, smallest, largest] at *
  omega

theorem clamp_highest (hfactor : factor.inUnitInterval) (hceiling : next ≤ ceiling) :
    clamp (highest next ceiling factor) = highest next ceiling factor := by
  have hlargest := offset_le_largest next factor
  have hhigh := highest_nonneg hfactor hceiling
  rw [highest] at hhigh ⊢
  simp only [clamp, smallest, largest] at *
  omega

theorem window_eq (hfactor : factor.inUnitInterval) (hfirst : first ≤ next)
    (hceiling : next ≤ ceiling) :
    window next first ceiling factor =
      windowOf (lowest next first factor) (highest next ceiling factor) := by
  change windowOf (clamp (lowest next first factor)) (clamp (highest next ceiling factor)) = _
  rw [clamp_lowest hfactor hfirst, clamp_highest hfactor hceiling]

/-- The offsets that can be drawn: all from the least one up to but not including the end, or none
but zero if there are none. -/
theorem exists_draw_eq_iff (hfactor : factor.inUnitInterval) (hfirst : first ≤ next)
    (hceiling : next ≤ ceiling) (millis : Int) :
    (∃ drawn, draw next first ceiling factor drawn = millis) ↔
      (lowest next first factor ≤ millis ∧ millis < highest next ceiling factor) ∨
        (lowest next first factor = highest next ceiling factor ∧ millis = 0) := by
  have hlow := lowest_nonpos hfactor hfirst
  have hhigh := highest_nonneg hfactor hceiling
  simp only [draw, window_eq hfactor hfirst hceiling]
  generalize lowest next first factor = low at *
  generalize highest next ceiling factor = high at *
  rw [windowOf]
  by_cases hlt : low < high
  · rw [dif_pos hlt]
    refine (Window.exists_pick_eq_iff _).trans ⟨.inl, fun h => h.resolve_right ?_⟩
    exact fun hempty => Int.ne_of_lt hlt hempty.1
  · obtain rfl : low = 0 := by omega
    obtain rfl : high = 0 := by omega
    rw [dif_neg hlt, dif_neg hlt]
    constructor
    · rintro ⟨_, rfl⟩
      exact .inr ⟨rfl, rfl⟩
    · intro hmillis
      exact ⟨0, show (0 : Int) = millis by omega⟩

end Jitter

/-! ### Whole milliseconds -/

namespace Duration

theorem perMilli_dvd_nanos_ofMillis (millis : UInt64) : perMilli ∣ (ofMillis millis).nanos :=
  ⟨millis.toNat, (nanos_ofMillis millis).trans (Nat.mul_comm _ _)⟩

theorem nanos_of_dvd {span : Duration} (h : perMilli ∣ span.nanos) :
    span.nanos = span.millis * perMilli :=
  (Nat.div_mul_cancel h).symm

theorem eq_zero_iff {span : Duration} : span = .zero ↔ span.isZero := by
  rw [isZero, decide_eq_true_iff, Duration.ext_iff]
  rfl

/-- An offset that leads neither below zero nor beyond the longest span is added exactly. -/
theorem nanos_shift {span : Duration} {offset : Int} (hlow : -(span.millis : Int) ≤ offset)
    (hhigh : (span.nanos : Int) + offset * perMilli ≤ maxNanos) :
    ((span.shift offset).nanos : Int) = span.nanos + offset * perMilli := by
  have hsplit := span.nanos_eq
  by_cases hneg : offset < 0
  · rw [span.nanos_shift_of_neg hneg hlow]
    simp only [perMilli] at *
    omega
  · rw [shift, if_pos (Int.not_lt.1 hneg)]
    simp only [add, ofNanos, perMilli] at *
    omega

end Duration

theorem dvd_backoff {unit : Nat} (doublings : UInt64) {first ceiling : Duration}
    (hfirst : unit ∣ first.nanos) (hceiling : unit ∣ ceiling.nanos) :
    unit ∣ (backoff doublings first ceiling).nanos := by
  rcases Nat.lt_or_ge doublings.toNat 128 with hlt | hge
  · rw [nanos_backoff_of_lt hlt]
    rcases Nat.le_total (first.nanos * Nat.pow 2 doublings.toNat) ceiling.nanos with hle | hle
    · rw [Nat.min_eq_left hle]
      exact Nat.dvd_mul_right_of_dvd hfirst _
    · rwa [Nat.min_eq_right hle]
  · rwa [backoff_of_le hge]

/-! ### The delays of settings -/

namespace Policy

variable (policy : Policy) (counter : Counter) (failure : Failure)

/-- Some draw makes a decision on the failure ask for this delay. -/
def CanWait (delay : Duration) : Prop :=
  ∃ drawn signal,
    (policy.decide counter drawn (some failure)).outcome = .ok signal ∧ signal.backoff = delay

variable {policy counter failure}

theorem canWait_iff (hretry : failure.isRetryable policy.nonRetryableCodes)
    (hbudget : (counter.facing failure).attempts < policy.maxRetries) (delay : Duration) :
    policy.CanWait counter failure delay ↔
      ∃ drawn, policy.jittered
        (policy.plainBackoff failure (counter.facing failure).attempts) drawn = delay := by
  constructor
  · rintro ⟨drawn, signal, hdecide, rfl⟩
    obtain ⟨_, _, rfl⟩ := (decide_outcome_eq_ok_iff policy counter drawn).1 hdecide
    exact ⟨drawn, rfl⟩
  · rintro ⟨drawn, hdelay⟩
    exact ⟨drawn, _,
      (decide_outcome_eq_ok_iff policy counter drawn).2 ⟨hretry, hbudget, rfl⟩, hdelay⟩

/-- A delay before jitter is nothing at all, or between the two bounds and in the units of both. -/
theorem plainBackoff_between {unit : Nat} (hfirst : unit ∣ policy.firstBackoff.nanos)
    (hmax : unit ∣ policy.maxBackoff.nanos) {attempt : UInt64}
    (hnext : policy.plainBackoff failure attempt ≠ .zero) :
    policy.firstBackoff ≤ policy.plainBackoff failure attempt ∧
      policy.plainBackoff failure attempt ≤ policy.maxBackoff ∧
      unit ∣ (policy.plainBackoff failure attempt).nanos := by
  rcases policy.plainBackoff_cases failure attempt with ⟨hzero, _⟩ | ⟨_, doublings, hplain⟩
  · exact absurd hzero hnext
  · rw [hplain]
    exact ⟨first_le_backoff doublings policy.first_le_max, backoff_le_ceiling doublings _ _,
      dvd_backoff doublings hfirst hmax⟩

/-- Between the two bounds a delay is moved by exactly the offset that is drawn. -/
theorem nanos_jittered {next : Duration} (hzero : next ≠ .zero)
    (hfirst : policy.firstBackoff ≤ next) (hmax : next ≤ policy.maxBackoff) (drawn : Nat) :
    ((policy.jittered next drawn).nanos : Int) = next.nanos +
      Jitter.draw next policy.firstBackoff policy.maxBackoff policy.jitterFactor drawn *
        Duration.perMilli := by
  have hbounds := (Jitter.exists_draw_eq_iff policy.factor_inUnitInterval hfirst hmax _).1
    ⟨drawn, rfl⟩
  rw [jittered_of_not_isZero drawn (mt Duration.eq_zero_iff.2 hzero)]
  generalize Jitter.draw next policy.firstBackoff policy.maxBackoff policy.jitterFactor drawn =
    offset at *
  have hlow : -(next.millis : Int) ≤ offset := by
    rw [Jitter.lowest] at hbounds
    omega
  have hhigh : offset = 0 ∨ offset < (policy.maxBackoff.millis : Int) - next.millis := by
    rw [Jitter.highest] at hbounds
    omega
  have hsplit := next.nanos_eq
  have hrest : next.nanos % Duration.perMilli < Duration.perMilli := Nat.mod_lt _ (by decide)
  have hmaxSplit := policy.maxBackoff.nanos_eq
  have hlargest := policy.maxBackoff.nanos_le
  have hnext := next.nanos_le
  refine Duration.nanos_shift hlow ?_
  simp only [Duration.perMilli] at *
  omega

/-- Between bounds of whole milliseconds, a delay of whole milliseconds is moved by exactly the
offset that is drawn, and stays between the bounds. -/
theorem jittered_exact {next : Duration} (hzero : next ≠ .zero)
    (hfirst : policy.firstBackoff ≤ next) (hmax : next ≤ policy.maxBackoff)
    (hfirstWhole : Duration.perMilli ∣ policy.firstBackoff.nanos)
    (hmaxWhole : Duration.perMilli ∣ policy.maxBackoff.nanos)
    (hwhole : Duration.perMilli ∣ next.nanos) (drawn : Nat) :
    ((policy.jittered next drawn).nanos : Int) = next.nanos +
        Jitter.draw next policy.firstBackoff policy.maxBackoff policy.jitterFactor drawn *
          Duration.perMilli ∧
      policy.firstBackoff ≤ policy.jittered next drawn ∧
      policy.jittered next drawn ≤ policy.maxBackoff := by
  have hbounds := (Jitter.exists_draw_eq_iff policy.factor_inUnitInterval hfirst hmax _).1
    ⟨drawn, rfl⟩
  have hshift := nanos_jittered hzero hfirst hmax drawn
  generalize Jitter.draw next policy.firstBackoff policy.maxBackoff policy.jitterFactor drawn =
    offset at *
  have hlow : (policy.firstBackoff.millis : Int) - next.millis ≤ offset := by
    have hmillis := Duration.millis_le_millis hfirst
    rw [Jitter.lowest] at hbounds
    omega
  have hhigh : offset ≤ (policy.maxBackoff.millis : Int) - next.millis := by
    have hmillis := Duration.millis_le_millis hmax
    rw [Jitter.highest] at hbounds
    omega
  have hfirstNanos := Duration.nanos_of_dvd hfirstWhole
  have hmaxNanos := Duration.nanos_of_dvd hmaxWhole
  have hnextNanos := Duration.nanos_of_dvd hwhole
  refine ⟨hshift, ?_, ?_⟩
  · rw [Duration.le_iff]
    simp only [Duration.perMilli] at *
    omega
  · rw [Duration.le_iff]
    simp only [Duration.perMilli] at *
    omega

/-- The delays over all draws are those off by a number of milliseconds in the window, or the delay
before jitter alone where the window is empty. -/
theorem exists_jittered_eq_iff {next : Duration} (hzero : next ≠ .zero)
    (hfirst : policy.firstBackoff ≤ next) (hmax : next ≤ policy.maxBackoff)
    (hfirstWhole : Duration.perMilli ∣ policy.firstBackoff.nanos)
    (hmaxWhole : Duration.perMilli ∣ policy.maxBackoff.nanos)
    (hwhole : Duration.perMilli ∣ next.nanos) (delay : Duration) :
    (∃ drawn, policy.jittered next drawn = delay) ↔
      (∃ millis : Int, Jitter.lowest next policy.firstBackoff policy.jitterFactor ≤ millis ∧
        millis < Jitter.highest next policy.maxBackoff policy.jitterFactor ∧
        (delay.nanos : Int) = next.nanos + millis * Duration.perMilli) ∨
      (Jitter.lowest next policy.firstBackoff policy.jitterFactor =
        Jitter.highest next policy.maxBackoff policy.jitterFactor ∧ delay = next) := by
  have hexact := jittered_exact hzero hfirst hmax hfirstWhole hmaxWhole hwhole
  have hdraw := Jitter.exists_draw_eq_iff policy.factor_inUnitInterval hfirst hmax
  constructor
  · rintro ⟨drawn, rfl⟩
    rcases (hdraw _).1 ⟨drawn, rfl⟩ with ⟨hlow, hhigh⟩ | ⟨hempty, hnone⟩
    · exact .inl ⟨_, hlow, hhigh, (hexact drawn).1⟩
    · refine .inr ⟨hempty, Duration.ext (Int.ofNat.inj ?_)⟩
      have hnanos := (hexact drawn).1
      rw [hnone, Int.zero_mul, Int.add_zero] at hnanos
      exact hnanos
  · rintro (⟨millis, hlow, hhigh, hnanos⟩ | ⟨hempty, rfl⟩)
    · obtain ⟨drawn, rfl⟩ := (hdraw millis).2 (.inl ⟨hlow, hhigh⟩)
      exact ⟨drawn, Duration.ext (Int.ofNat.inj ((hexact drawn).1.trans hnanos.symm))⟩
    · obtain ⟨drawn, hnone⟩ := (hdraw 0).2 (.inr ⟨hempty, rfl⟩)
      have hnanos := (hexact drawn).1
      rw [hnone, Int.zero_mul, Int.add_zero] at hnanos
      exact ⟨drawn, Duration.ext (Int.ofNat.inj hnanos)⟩

end Policy

theorem Draft.build_eq_ok {draft : Draft} {policy : Policy} (h : draft.build = .ok policy) :
    policy.firstBackoff = draft.firstBackoff ∧ policy.maxBackoff = draft.maxBackoff ∧
      policy.maxRetries = draft.maxRetries ∧ policy.jitterFactor = draft.jitterFactor := by
  obtain ⟨-, -, hdraft⟩ := build_eq_ok_iff.1 h
  exact ⟨congrArg firstBackoff hdraft, congrArg maxBackoff hdraft, congrArg maxRetries hdraft,
    congrArg jitterFactor hdraft⟩

namespace Settings

/-- **The delays of settings.** Where settings give a policy, every draw makes a decision on a
retryable failure within the budget a signal. The delay before jitter is none for a failure that can
be resumed at the first attempt; else the first backoff is doubled once for each attempt from the
second one on, and one time less where the session can be resumed. Without a delay before jitter
there is no other delay. Otherwise the delays over all draws are exactly those that are so many
milliseconds off the delay before jitter, for every number in the window, or that delay alone where
the window is empty, which takes both its ends to be zero; all of them are between the two bounds of
the settings. -/
theorem canWait_exact {settings : Settings} {policy : Policy} (hpolicy : settings.policy = .ok policy)
    (counter : Counter) (failure : Failure) {attempt : UInt64}
    (hattempt : attempt = if failure = .invalidSession then 1 else counter.attempts)
    (hretry : failure.isRetryable policy.nonRetryableCodes)
    (hbudget : attempt < settings.maxRetries) :
    let first := Duration.ofMillis settings.firstBackoffMillis
    let ceiling := Duration.ofMillis settings.maxBackoffMillis
    let next :=
      if failure.canResume then
        if attempt = 1 then .zero
        else backoff (UInt64.ofNat (attempt.toNat - 2)) first ceiling
      else backoff (UInt64.ofNat (attempt.toNat - 1)) first ceiling
    let low := Jitter.lowest next first settings.jitterFactor
    let high := Jitter.highest next ceiling settings.jitterFactor
    (∀ drawn, ∃ signal, (policy.decide counter drawn (some failure)).outcome = .ok signal) ∧
    (next = .zero → ∀ delay, policy.CanWait counter failure delay ↔ delay = .zero) ∧
    (next ≠ .zero →
      (low < high → ∀ delay, policy.CanWait counter failure delay ↔
        ∃ millis : Int, low ≤ millis ∧ millis < high ∧
          (delay.nanos : Int) = next.nanos + millis * Duration.perMilli) ∧
      (high ≤ low → low = 0 ∧ high = 0 ∧
        ∀ delay, policy.CanWait counter failure delay ↔ delay = next) ∧
      ∀ delay, policy.CanWait counter failure delay → first ≤ delay ∧ delay ≤ ceiling) := by
  obtain ⟨hfirst, hmax, hretries, hfactor⟩ := Draft.build_eq_ok hpolicy
  change policy.firstBackoff = .ofMillis settings.firstBackoffMillis at hfirst
  change policy.maxBackoff = .ofMillis settings.maxBackoffMillis at hmax
  change policy.maxRetries = settings.maxRetries at hretries
  change policy.jitterFactor = settings.jitterFactor at hfactor
  have hfirstWhole := hfirst ▸ Duration.perMilli_dvd_nanos_ofMillis settings.firstBackoffMillis
  have hmaxWhole := hmax ▸ Duration.perMilli_dvd_nanos_ofMillis settings.maxBackoffMillis
  rw [← Counter.attempts_facing] at hattempt
  rw [← hretries, hattempt] at hbudget
  rw [← hfirst, ← hmax, ← hfactor]
  intro first ceiling next low high
  have hplain : policy.plainBackoff failure (counter.facing failure).attempts = next :=
    hattempt ▸ rfl
  have hcan := Policy.canWait_iff hretry hbudget
  rw [hplain] at hcan
  refine ⟨fun drawn => ⟨_, (Policy.decide_outcome_eq_ok_iff policy counter drawn).2
    ⟨hretry, hbudget, rfl⟩⟩, fun hzero delay => ?_, fun hnext => ?_⟩
  · have hjittered : ∀ drawn, policy.jittered next drawn = .zero := fun drawn =>
      (Policy.jittered_of_isZero drawn (Duration.eq_zero_iff.1 hzero)).trans hzero
    rw [hcan]
    constructor
    · rintro ⟨drawn, rfl⟩
      exact hjittered drawn
    · rintro rfl
      exact ⟨0, hjittered 0⟩
  · obtain ⟨hfirstLe, hleMax, hwhole⟩ :=
      hplain ▸ Policy.plainBackoff_between hfirstWhole hmaxWhole (hplain ▸ hnext)
    have hlow : low ≤ 0 := Jitter.lowest_nonpos policy.factor_inUnitInterval hfirstLe
    have hhigh : 0 ≤ high := Jitter.highest_nonneg policy.factor_inUnitInterval hleMax
    have hdelays := fun delay => (hcan delay).trans (Policy.exists_jittered_eq_iff hnext hfirstLe
      hleMax hfirstWhole hmaxWhole hwhole delay)
    refine ⟨fun hlt delay => ?_, fun hge => ?_, fun delay hdelay => ?_⟩
    · refine (hdelays delay).trans ⟨fun h => h.resolve_right ?_, .inl⟩
      exact fun hempty => Int.ne_of_lt hlt hempty.1
    · have hlowZero : low = 0 := Int.le_antisymm hlow (Int.le_trans hhigh hge)
      have hhighZero : high = 0 := Int.le_antisymm (Int.le_trans hge hlow) hhigh
      refine ⟨hlowZero, hhighZero, fun delay => (hdelays delay).trans ⟨?_, fun heq => ?_⟩⟩
      · rintro (⟨millis, hmillis, hend, _⟩ | ⟨_, heq⟩)
        · exact absurd (Int.lt_of_le_of_lt hmillis hend) (Int.not_lt.2 hge)
        · exact heq
      · exact .inr ⟨hlowZero.trans hhighZero.symm, heq⟩
    · obtain ⟨drawn, rfl⟩ := (hcan delay).1 hdelay
      exact (Policy.jittered_exact hnext hfirstLe hleMax hfirstWhole hmaxWhole hwhole drawn).2

/-- Settings at the far end of what they can say. -/
def farthest : Settings where
  firstBackoffMillis := 18446744073709551000
  maxBackoffMillis := 18446744073709551615
  maxRetries := 10
  jitterFactor := .ofNat 1
  nonRetryableCodes := CloseStatus.nonRetryableCodes

def farthestPolicy : Policy where
  firstBackoff := .ofMillis farthest.firstBackoffMillis
  maxBackoff := .ofMillis farthest.maxBackoffMillis
  maxRetries := farthest.maxRetries
  jitterFactor := farthest.jitterFactor
  nonRetryableCodes := CloseStatus.nonRetryableCodes
  scheduler := .timer
  first_le_max := by decide
  factor_inUnitInterval := by decide +kernel
  codes_ascending := CloseStatus.nonRetryableCodes_ascending

/-- At the far end the delay before jitter has a share beyond all signed words, and the draw is still
cut off at both bounds: the longest delay is one millisecond short of the ceiling. -/
theorem canWait_farthest :
    farthest.policy = .ok farthestPolicy ∧
      farthestPolicy.CanWait .initial (.closed ⟨4000, none⟩) (.ofMillis 18446744073709551000) ∧
      farthestPolicy.CanWait .initial (.closed ⟨4000, none⟩) (.ofMillis 18446744073709551614) ∧
      ¬ farthestPolicy.CanWait .initial (.closed ⟨4000, none⟩) (.ofMillis 18446744073709551615) := by
  have hpolicy : farthest.draft.build = .ok farthestPolicy := Policy.build_draft farthestPolicy
  have hfirst : (1 : UInt64) = if Failure.closed ⟨4000, none⟩ = .invalidSession then 1 else
      Counter.initial.attempts := by decide
  obtain ⟨_, _, hjittered⟩ := canWait_exact hpolicy .initial (.closed ⟨4000, none⟩) hfirst
    (by decide) (by decide)
  have hreconnect : ¬ Failure.canResume (.closed ⟨4000, none⟩) := by decide
  have hnext : backoff (UInt64.ofNat ((1 : UInt64).toNat - 1))
      (.ofMillis farthest.firstBackoffMillis) (.ofMillis farthest.maxBackoffMillis) =
        .ofMillis 18446744073709551000 := by decide +kernel
  have hlow : Jitter.lowest (.ofMillis 18446744073709551000)
      (.ofMillis farthest.firstBackoffMillis) farthest.jitterFactor = 0 := by decide +kernel
  have hhigh : Jitter.highest (.ofMillis 18446744073709551000)
      (.ofMillis farthest.maxBackoffMillis) farthest.jitterFactor = 615 := by decide +kernel
  rw [if_neg hreconnect, hnext, hlow, hhigh] at hjittered
  have hdelays := (hjittered (by decide)).1 (by decide)
  refine ⟨hpolicy, (hdelays _).2 ⟨0, ?_⟩, (hdelays _).2 ⟨614, ?_⟩, fun hwait => ?_⟩
  · decide
  · decide
  · obtain ⟨millis, _, hend, hnanos⟩ := (hdelays _).1 hwait
    simp only [Duration.nanos_ofMillis, Duration.perMilli] at hnanos
    have hlast : (18446744073709551615 : UInt64).toNat = 18446744073709551615 := rfl
    have hnext : (18446744073709551000 : UInt64).toNat = 18446744073709551000 := rfl
    omega

end Settings

end Rejoin
