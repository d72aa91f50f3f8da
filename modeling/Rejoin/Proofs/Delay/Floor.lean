import Rejoin.Proofs.Decision.Policy
import Rejoin.Proofs.Decision.Verdict

/-! How short a jittered delay can get. Delays are exact to the nanosecond, while the window of
offsets is laid out between whole milliseconds. A delay is therefore never shorter than the first
backoff in whole milliseconds, but it may fall short of it by a part of one: exactly if an offset can
take away all the milliseconds that the two differ by, and the delay has the smaller part left. -/

namespace Rejoin

namespace Duration

theorem millis_le_millis {left right : Duration} (h : left ≤ right) : left.millis ≤ right.millis :=
  Nat.div_le_div_right h

theorem nanos_eq (span : Duration) :
    span.nanos = span.millis * perMilli + span.nanos % perMilli :=
  (Nat.div_add_mod' span.nanos perMilli).symm

theorem le_shift_of_nonneg (span : Duration) {offset : Int} (h : 0 ≤ offset) :
    span ≤ span.shift offset := by
  have hle := span.nanos_le
  simp only [shift, if_pos h, add, ofNanos, le_iff]
  omega

/-- An offset that leaves something of the whole milliseconds is taken off exactly. -/
theorem nanos_shift_of_neg (span : Duration) {offset : Int} (hneg : offset < 0)
    (hlow : -(span.millis : Int) ≤ offset) :
    (span.shift offset).nanos = span.nanos - offset.natAbs * perMilli := by
  have hle := span.nanos_le
  have hmillis : offset.natAbs * perMilli ≤ span.millis * perMilli :=
    Nat.mul_le_mul_right _ (by omega)
  have hsplit := span.nanos_eq
  simp only [shift, if_neg (Int.not_le.2 hneg), sub, ofNanos]
  rw [Nat.min_eq_left (by omega)]

/-- A delay moved down by no more than the milliseconds it is ahead stays above a span, unless it is
moved down by all of them and has the smaller rest. -/
theorem shift_lt_iff {first delay : Duration} {offset : Int} (hle : first ≤ delay)
    (hlow : (first.millis : Int) - delay.millis ≤ offset) :
    ¬ first ≤ delay.shift offset ↔
      offset = (first.millis : Int) - delay.millis ∧
        delay.nanos % perMilli < first.nanos % perMilli := by
  have hfirst := first.nanos_eq
  have hdelay := delay.nanos_eq
  have hrest : first.nanos % perMilli < perMilli := Nat.mod_lt _ (by decide)
  have hmillis := millis_le_millis hle
  rw [le_iff] at hle
  by_cases hneg : offset < 0
  · have hshift := delay.nanos_shift_of_neg hneg (by omega)
    rw [le_iff, hshift]
    simp only [perMilli] at *
    omega
  · have hge := le_iff.1 (delay.le_shift_of_nonneg (Int.not_lt.1 hneg))
    rw [le_iff]
    simp only [perMilli] at *
    omega

/-- In whole milliseconds nothing is lost. -/
theorem millis_le_millis_shift {first delay : Duration} {offset : Int} (hle : first ≤ delay)
    (hlow : (first.millis : Int) - delay.millis ≤ offset) :
    first.millis ≤ (delay.shift offset).millis := by
  by_cases hneg : offset < 0
  · have hmillis := millis_le_millis hle
    have hshift := delay.nanos_shift_of_neg hneg (by omega)
    have hdelay := delay.nanos_eq
    refine (Nat.le_div_iff_mul_le (by decide)).2 ?_
    rw [hshift]
    simp only [perMilli] at *
    omega
  · exact Nat.le_trans (millis_le_millis hle)
      (millis_le_millis (delay.le_shift_of_nonneg (Int.not_lt.1 hneg)))

end Duration

theorem backoff_le_ceiling (doublings : UInt64) (first ceiling : Duration) :
    backoff doublings first ceiling ≤ ceiling := by
  rcases Nat.lt_or_ge doublings.toNat 128 with hlt | hge
  · rw [Duration.le_iff, nanos_backoff_of_lt hlt]
    exact Nat.min_le_right _ _
  · rw [backoff_of_le hge]
    exact Nat.le_refl _

theorem first_le_backoff (doublings : UInt64) {first ceiling : Duration} (h : first ≤ ceiling) :
    first ≤ backoff doublings first ceiling := by
  rcases Nat.lt_or_ge doublings.toNat 128 with hlt | hge
  · rw [Duration.le_iff, nanos_backoff_of_lt hlt]
    exact Nat.le_min.2 ⟨Nat.le_mul_of_pos_right _ (Nat.pow_pos (by decide)), h⟩
  · rwa [backoff_of_le hge]

/-! ### The window of offsets -/

theorem Binary64.nearestWithin_le (number : Binary64) {low high : Int} (hlow : low ≤ high)
    (hzero : 0 ≤ high) : number.nearestWithin low high ≤ high := by
  rw [nearestWithin]
  split
  · exact hzero
  · exact hlow
  · exact Int.le_refl high
  · exact Int.max_le.2 ⟨hlow, Int.min_le_left _ _⟩

namespace Jitter

theorem offset_le_largest (next : Duration) (factor : Binary64) : offset next factor ≤ largest := by
  have hfallback : fallback factor ≤ largest :=
    Binary64.nearestWithin_le _ (by decide) (by decide)
  rw [offset]
  split
  · dsimp only
    split
    · omega
    · exact hfallback
  · exact hfallback

variable {next first : Duration} (ceiling : Duration) (factor : Binary64)

/-- The cases of a draw: from the window between the clamped ends, from zero up to a positive end,
or none at all. -/
theorem draw_cases (drawn : Nat) {low high : Int}
    (hlow : clamp (max ((first.millis : Int) - next.millis) (-offset next factor)) = low)
    (hhigh : clamp (min ((ceiling.millis : Int) - next.millis) (offset next factor)) = high) :
    (low < high ∧ draw next first ceiling factor drawn = low + (drawn % (high - low).toNat : Nat)) ∨
      (high ≤ low ∧ 0 ≤ draw next first ceiling factor drawn) := by
  rw [draw, window, hlow, hhigh, windowOf]
  by_cases hlt : low < high
  · rw [dif_pos hlt]
    exact .inl ⟨hlt, rfl⟩
  · rw [dif_neg hlt]
    refine .inr ⟨Int.not_lt.1 hlt, ?_⟩
    by_cases hpos : 0 < high
    · rw [dif_pos hpos]
      exact Int.add_nonneg (Int.le_refl 0) (Int.natCast_nonneg _)
    · refine Int.le_of_eq ?_
      rw [dif_neg hpos]

/-- No draw leads below the first span, as whole milliseconds go. -/
theorem sub_le_draw (hle : first ≤ next) (drawn : Nat) :
    (first.millis : Int) - next.millis ≤ draw next first ceiling factor drawn := by
  have hmillis := Duration.millis_le_millis hle
  rcases draw_cases ceiling factor drawn rfl rfl with ⟨_, hdraw⟩ | ⟨_, hdraw⟩
  · rw [hdraw]
    simp only [clamp, smallest, largest]
    omega
  · omega

/-- Some draw takes off all the milliseconds that a delay is ahead, exactly if its share reaches as
far. -/
theorem exists_draw_eq_sub_iff (hlt : first.millis < next.millis) (hceiling : next ≤ ceiling) :
    (∃ drawn, draw next first ceiling factor drawn = (first.millis : Int) - next.millis) ↔
      (next.millis : Int) - first.millis ≤ offset next factor := by
  have hmillis := Duration.millis_le_millis hceiling
  have hlargest := offset_le_largest next factor
  constructor
  · rintro ⟨drawn, heq⟩
    rcases draw_cases ceiling factor drawn rfl rfl with ⟨_, hdraw⟩ | ⟨_, hdraw⟩
    · rw [heq] at hdraw
      simp only [clamp, smallest, largest] at hdraw
      omega
    · omega
  · intro hreach
    refine ⟨0, ?_⟩
    rcases draw_cases ceiling factor 0 rfl rfl with ⟨_, hdraw⟩ | ⟨hempty, _⟩
    · rw [hdraw, Nat.zero_mod]
      simp only [clamp, smallest, largest] at *
      omega
    · simp only [clamp, smallest, largest] at *
      omega

end Jitter

/-! ### The delays of a policy -/

namespace Policy

variable (policy : Policy)

/-- A delay before jitter is zero for an immediate resumption, and a doubled first backoff
otherwise. -/
theorem plainBackoff_cases (failure : Failure) (attempt : UInt64) :
    (policy.plainBackoff failure attempt = .zero ∧ failure.canResume ∧ attempt = 1) ∨
      ¬ (failure.canResume ∧ attempt = 1) ∧
        ∃ doublings, policy.plainBackoff failure attempt =
          backoff doublings policy.firstBackoff policy.maxBackoff := by
  rw [plainBackoff]
  by_cases hresume : failure.canResume
  · rw [if_pos hresume]
    by_cases hattempt : attempt = Counter.initial.attempts
    · rw [if_pos hattempt]
      exact .inl ⟨rfl, hresume, hattempt⟩
    · rw [if_neg hattempt]
      exact .inr ⟨fun h => hattempt h.2, _, rfl⟩
  · rw [if_neg hresume]
    exact .inr ⟨fun h => hresume h.1, _, rfl⟩

/-- Jitter can move this delay below the first backoff: its share reaches down to the milliseconds
of the first backoff, and it has the smaller rest below a millisecond. -/
structure Undercuts (delay : Duration) : Prop where
  nonzero : delay.isZero = false
  reach : (delay.millis : Int) - policy.firstBackoff.millis ≤
    Jitter.offset delay policy.jitterFactor
  rest : delay.nanos % Duration.perMilli < policy.firstBackoff.nanos % Duration.perMilli

/-- A delay with the smaller rest is ahead by a whole millisecond at least. -/
theorem Undercuts.millis_lt {policy : Policy} {delay : Duration} (h : policy.Undercuts delay)
    (hle : policy.firstBackoff ≤ delay) : policy.firstBackoff.millis < delay.millis := by
  have hrest := h.rest
  have hfirst := policy.firstBackoff.nanos_eq
  have hdelay := delay.nanos_eq
  rw [Duration.le_iff] at hle
  simp only [Duration.perMilli] at *
  omega

variable {policy : Policy} {delay : Duration} (drawn : Nat)

theorem jittered_of_isZero (h : delay.isZero) : policy.jittered delay drawn = delay := if_pos h

theorem jittered_of_not_isZero (h : ¬ delay.isZero) :
    policy.jittered delay drawn = delay.shift (Jitter.draw delay policy.firstBackoff
      policy.maxBackoff policy.jitterFactor drawn) := if_neg h

theorem millis_le_millis_jittered (hle : policy.firstBackoff ≤ delay) :
    policy.firstBackoff.millis ≤ (policy.jittered delay drawn).millis := by
  by_cases hzero : delay.isZero
  · rw [jittered_of_isZero drawn hzero]
    exact Duration.millis_le_millis hle
  · rw [jittered_of_not_isZero drawn hzero]
    exact Duration.millis_le_millis_shift hle (Jitter.sub_le_draw _ _ hle drawn)

/-- Of the delays between the two bounds, those that some draw moves below the lower one. -/
theorem exists_jittered_lt_iff (hfirst : policy.firstBackoff ≤ delay)
    (hmax : delay ≤ policy.maxBackoff) :
    (∃ drawn, ¬ policy.firstBackoff ≤ policy.jittered delay drawn) ↔ policy.Undercuts delay := by
  have hlow := fun drawn => Jitter.sub_le_draw policy.maxBackoff policy.jitterFactor
    hfirst drawn
  constructor
  · rintro ⟨drawn, hshort⟩
    by_cases hzero : delay.isZero
    · rw [jittered_of_isZero drawn hzero] at hshort
      exact absurd hfirst hshort
    · rw [jittered_of_not_isZero drawn hzero, Duration.shift_lt_iff hfirst (hlow drawn)] at hshort
      obtain ⟨hdraw, hrest⟩ := hshort
      refine ⟨Bool.eq_false_iff.2 hzero, ?_, hrest⟩
      by_cases hlt : policy.firstBackoff.millis < delay.millis
      · exact (Jitter.exists_draw_eq_sub_iff _ _ hlt hmax).1 ⟨drawn, hdraw⟩
      · have hfirstSplit := policy.firstBackoff.nanos_eq
        have hdelaySplit := delay.nanos_eq
        rw [Duration.le_iff] at hfirst
        simp only [Duration.perMilli] at *
        omega
  · intro hunder
    obtain ⟨drawn, hdraw⟩ := (Jitter.exists_draw_eq_sub_iff policy.maxBackoff policy.jitterFactor
      (hunder.millis_lt hfirst) hmax).2 hunder.reach
    refine ⟨drawn, ?_⟩
    rw [jittered_of_not_isZero drawn (Bool.eq_false_iff.1 hunder.nonzero),
      Duration.shift_lt_iff hfirst (hlow drawn)]
    exact ⟨hdraw, hunder.rest⟩

/-- **The least delay.** In whole milliseconds every delay but that of an immediate resumption is at
least the first backoff. In nanoseconds that holds for every draw exactly if the delay before jitter
is not one that jitter can move below the first backoff. -/
theorem firstBackoff_le_backoff_iff (policy : Policy) (counter : Counter) (failure : Failure) :
    (∀ drawn signal, (policy.decide counter drawn (some failure)).outcome = .ok signal →
      policy.firstBackoff.millis ≤ signal.backoff.millis ∨
        signal.backoff = .zero ∧ failure.canResume ∧ signal.attempt = 1) ∧
    ((∀ drawn signal, (policy.decide counter drawn (some failure)).outcome = .ok signal →
      policy.firstBackoff ≤ signal.backoff ∨
        signal.backoff = .zero ∧ failure.canResume ∧ signal.attempt = 1) ↔
      ¬ (failure.isRetryable policy.nonRetryableCodes ∧
        (counter.facing failure).attempts < policy.maxRetries ∧
        policy.Undercuts (policy.plainBackoff failure (counter.facing failure).attempts))) := by
  rcases policy.plainBackoff_cases failure (counter.facing failure).attempts with
    ⟨hplain, himmediate⟩ | ⟨hlater, doublings, hplain⟩
  · have hexcept : ∀ drawn signal,
        (policy.decide counter drawn (some failure)).outcome = .ok signal →
          signal.backoff = .zero ∧ failure.canResume ∧ signal.attempt = 1 := by
      intro drawn signal hdecide
      obtain ⟨_, _, rfl⟩ := (decide_outcome_eq_ok_iff policy counter drawn).1 hdecide
      refine ⟨?_, himmediate⟩
      change policy.jittered (policy.plainBackoff failure _) drawn = .zero
      rw [hplain]
      exact jittered_of_isZero drawn (by decide)
    constructor
    · intro drawn signal hdecide
      exact .inr (hexcept drawn signal hdecide)
    · constructor
      · intro _ hunder
        rw [hplain] at hunder
        exact absurd hunder.2.2.nonzero (by decide)
      · intro _ drawn signal hdecide
        exact .inr (hexcept drawn signal hdecide)
  · have hfirst := first_le_backoff doublings policy.first_le_max
    have hmax := backoff_le_ceiling doublings policy.firstBackoff policy.maxBackoff
    rw [← hplain] at hfirst hmax
    constructor
    · intro drawn signal hdecide
      obtain ⟨_, _, rfl⟩ := (decide_outcome_eq_ok_iff policy counter drawn).1 hdecide
      exact .inl (millis_le_millis_jittered drawn hfirst)
    · constructor
      · rintro hall ⟨hretry, hbudget, hunder⟩
        obtain ⟨drawn, hshort⟩ := (exists_jittered_lt_iff hfirst hmax).2 hunder
        have hdecide := (decide_outcome_eq_ok_iff policy counter drawn).2 ⟨hretry, hbudget, rfl⟩
        exact (hall drawn _ hdecide).elim hshort fun h => hlater h.2
      · intro hnot drawn signal hdecide
        obtain ⟨hretry, hbudget, rfl⟩ := (decide_outcome_eq_ok_iff policy counter drawn).1 hdecide
        by_cases hle : policy.firstBackoff ≤ policy.jittered
            (policy.plainBackoff failure (counter.facing failure).attempts) drawn
        · exact .inl hle
        · have hunder := (exists_jittered_lt_iff hfirst hmax).1 ⟨drawn, hle⟩
          exact absurd ⟨hretry, hbudget, hunder⟩ hnot

/-- A first backoff of 100.9 ms, which the second attempt doubles to 201.8 ms. The whole milliseconds
are 101 apart, and taking them off leaves 100.8 ms. -/
def uneven : Policy where
  firstBackoff := .ofNanos 100900000
  maxBackoff := .ofNanos 210000000
  maxRetries := 10
  jitterFactor := .ofNat 1
  nonRetryableCodes := CloseStatus.nonRetryableCodes
  scheduler := .timer
  first_le_max := by decide
  factor_inUnitInterval := by decide +kernel
  codes_ascending := CloseStatus.nonRetryableCodes_ascending

theorem exists_backoff_lt_firstBackoff :
    uneven.draft.build = .ok uneven ∧
      ∃ signal, (uneven.decide ⟨2⟩ 0 (some (.closed ⟨4000, none⟩))).outcome = .ok signal ∧
        ¬ uneven.firstBackoff ≤ signal.backoff ∧ signal.attempt = 2 ∧
        ¬ Failure.canResume (.closed ⟨4000, none⟩) := by
  refine ⟨build_draft uneven, _,
    (decide_outcome_eq_ok_iff _ _ _).2 ⟨by decide, by decide, rfl⟩, ?_⟩
  decide +kernel

end Policy

end Rejoin
