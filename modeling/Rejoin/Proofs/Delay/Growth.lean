import Rejoin.Proofs.Delay.Spread

/-! How delays grow. Doubling a span of at least a nanosecond is exact: whatever leaves the words on the
way is far above every ceiling. A first span of zero is the exception. It stays zero as long as the
powers of two fit in their word, and then it is suddenly the ceiling. -/

namespace Rejoin

namespace Doubling

variable {doublings : UInt64} {first : Duration}

/-- From the 128th doubling on the product of a span that is not zero leaves the word as well, so that
the power alone does not decide anything. -/
theorem nanos?_of_pos (hfirst : 0 < first.nanos) :
    nanos? doublings first = product? first.nanos (Nat.pow 2 doublings.toNat) := by
  rcases Nat.lt_or_ge doublings.toNat 128 with hlt | hge
  · exact nanos?_of_lt hlt first
  · have hproduct : Nat.pow 2 128 ≤ first.nanos * Nat.pow 2 doublings.toNat :=
      calc Nat.pow 2 128 ≤ Nat.pow 2 doublings.toNat := Nat.pow_le_pow_right (by decide) hge
        _ ≤ first.nanos * Nat.pow 2 doublings.toNat := Nat.le_mul_of_pos_left _ hfirst
    rw [nanos?_of_le hge, product?, if_neg (Nat.not_lt.2 hproduct)]

/-- What leaves a word of 128 bits is above every ceiling. -/
theorem lt_of_product?_eq_none {nanos factor : Nat} (h : product? nanos factor = none)
    (ceiling : Duration) : ceiling.nanos < nanos * factor := by
  have hlarge : Nat.pow 2 128 ≤ nanos * factor := by
    rw [product?] at h
    split at h
    case isTrue => cases h
    case isFalse hge => exact Nat.not_lt.1 hge
  calc ceiling.nanos ≤ Duration.maxNanos := ceiling.nanos_le
    _ < Nat.pow 2 128 := by decide
    _ ≤ nanos * factor := hlarge

theorem eq_of_product?_eq_some {nanos factor product : Nat}
    (h : product? nanos factor = some product) : product = nanos * factor := by
  rw [product?] at h
  split at h <;> cases h
  rfl

end Doubling

/-! ### A first span of at least a nanosecond -/

section Exact

variable {doublings later : UInt64} {first longer ceiling higher : Duration}

theorem nanos_backoff_of_pos (hfirst : 0 < first.nanos) (doublings : UInt64) (ceiling : Duration) :
    (backoff doublings first ceiling).nanos =
      min (first.nanos * Nat.pow 2 doublings.toNat) ceiling.nanos := by
  rcases Nat.lt_or_ge doublings.toNat 128 with hlt | hge
  · exact nanos_backoff_of_lt hlt first ceiling
  · have hnone := Doubling.nanos?_of_le hge first
    rw [Doubling.nanos?_of_pos hfirst] at hnone
    have habove := Doubling.lt_of_product?_eq_none hnone ceiling
    rw [backoff_of_le hge, Nat.min_eq_right (Nat.le_of_lt habove)]

theorem backoff_le_backoff (hfirst : 0 < first.nanos) (hlater : doublings ≤ later)
    (hlonger : first ≤ longer) (hhigher : ceiling ≤ higher) :
    backoff doublings first ceiling ≤ backoff later longer higher := by
  have hpower : Nat.pow 2 doublings.toNat ≤ Nat.pow 2 later.toNat :=
    Nat.pow_le_pow_right (by decide) (UInt64.le_iff_toNat_le.1 hlater)
  have hproduct := Nat.mul_le_mul hlonger hpower
  rw [Duration.le_iff, nanos_backoff_of_pos hfirst,
    nanos_backoff_of_pos (Nat.lt_of_lt_of_le hfirst hlonger)]
  refine Nat.le_min.2 ⟨Nat.le_trans (Nat.min_le_left _ _) hproduct, ?_⟩
  exact Nat.le_trans (Nat.min_le_right _ _) hhigher

/-- A delay that has come up to the ceiling stays there. -/
theorem backoff_eq_ceiling (hfirst : 0 < first.nanos)
    (h : backoff doublings first ceiling = ceiling) (hlater : doublings ≤ later) :
    backoff later first ceiling = ceiling := by
  have hle := backoff_le_backoff hfirst hlater (Nat.le_refl _) (Nat.le_refl ceiling.nanos)
  rw [h] at hle
  exact Duration.ext (Nat.le_antisymm (backoff_le_ceiling later first ceiling) hle)

/-- **Doubling is exact.** For a first span of at least a nanosecond the delay is the exact product or
the ceiling, whichever is less. Where a step leaves its word the product is above the ceiling, and a
product that is not above it has its seconds and their rest fit in their words. So the delay never
falls as the doublings, the first span or the ceiling grow, and once at the ceiling it stays there. -/
theorem backoff_exact (hfirst : 0 < first.nanos) (doublings : UInt64) (ceiling : Duration) :
    (backoff doublings first ceiling).nanos =
      min (first.nanos * Nat.pow 2 doublings.toNat) ceiling.nanos ∧
    (Doubling.nanos? doublings first = none →
      ceiling.nanos < first.nanos * Nat.pow 2 doublings.toNat) ∧
    (∀ grown, Doubling.nanos? doublings first = some grown →
      grown = first.nanos * Nat.pow 2 doublings.toNat ∧
      (grown ≤ ceiling.nanos →
        (UInt64.ofNat (grown / Duration.perSecond)).toNat = grown / Duration.perSecond ∧
        (UInt32.ofNat (grown % Duration.perSecond)).toNat = grown % Duration.perSecond)) ∧
    (∀ later longer higher, doublings ≤ later → first ≤ longer → ceiling ≤ higher →
      backoff doublings first ceiling ≤ backoff later longer higher) ∧
    (backoff doublings first ceiling = ceiling →
      ∀ later, doublings ≤ later → backoff later first ceiling = ceiling) := by
  refine ⟨nanos_backoff_of_pos hfirst doublings ceiling, fun hnone => ?_, fun grown hgrown => ?_,
    fun _ _ _ => backoff_le_backoff hfirst, fun h _ => backoff_eq_ceiling hfirst h⟩
  · rw [Doubling.nanos?_of_pos hfirst] at hnone
    exact Doubling.lt_of_product?_eq_none hnone ceiling
  · rw [Doubling.nanos?_of_pos hfirst] at hgrown
    exact ⟨Doubling.eq_of_product?_eq_some hgrown,
      fun hle => Duration.parts_of_le (Nat.le_trans hle ceiling.nanos_le)⟩

/-- A span of `2 ^ 40` seconds is beyond all words of 64 bits in nanoseconds. Three doublings are still
exact, and the 24th comes up to the longest span, from where the delay does not move. -/
theorem backoff_exact_when_vast :
    0 < (Duration.ofSeconds 1099511627776).nanos ∧
      (backoff 3 (.ofSeconds 1099511627776) (.ofNanos Duration.maxNanos)).nanos =
        8 * (1099511627776 * Duration.perSecond) ∧
      backoff 24 (.ofSeconds 1099511627776) (.ofNanos Duration.maxNanos) =
        .ofNanos Duration.maxNanos ∧
      ∀ later, 24 ≤ later →
        backoff later (.ofSeconds 1099511627776) (.ofNanos Duration.maxNanos) =
          .ofNanos Duration.maxNanos := by
  have hfirst : 0 < (Duration.ofSeconds 1099511627776).nanos := by decide
  have hceiling : backoff 24 (.ofSeconds 1099511627776) (.ofNanos Duration.maxNanos) =
      .ofNanos Duration.maxNanos := by decide
  obtain ⟨hthree, -⟩ := backoff_exact hfirst 3 (.ofNanos Duration.maxNanos)
  obtain ⟨-, -, -, -, hstays⟩ := backoff_exact hfirst 24 (.ofNanos Duration.maxNanos)
  exact ⟨hfirst, hthree.trans (by decide), hceiling, hstays hceiling⟩

end Exact

/-! ### A first span of zero -/

theorem backoff_zero_of_lt {doublings : UInt64} (h : doublings.toNat < 128) (ceiling : Duration) :
    backoff doublings .zero ceiling = .zero := by
  refine Duration.ext ((nanos_backoff_of_lt h .zero ceiling).trans ?_)
  have hzero : Duration.zero.nanos = 0 := rfl
  rw [hzero, Nat.zero_mul, Nat.zero_min]

theorem Duration.eq_ofMillis_one_iff {span : Duration} :
    span = .ofMillis 1 ↔ span.nanos = perMilli := by
  rw [Duration.ext_iff, nanos_ofMillis]
  rfl

namespace Policy

variable {policy : Policy} {counter : Counter} {failure : Failure}

/-- How often the first backoff is doubled for a failure at an attempt. -/
def doublings (failure : Failure) (attempt : UInt64) : Nat :=
  attempt.toNat - if failure.canResume then 2 else 1

theorem toNat_ofNat_doublings (failure : Failure) (attempt : UInt64) :
    (UInt64.ofNat (doublings failure attempt)).toNat = doublings failure attempt :=
  UInt64.toNat_ofNat_of_lt' (Nat.lt_of_le_of_lt (Nat.sub_le _ _) attempt.toNat_lt)

theorem plainBackoff_eq (failure : Failure) (attempt : UInt64) :
    policy.plainBackoff failure attempt =
      if failure.canResume ∧ attempt = 1 then .zero
      else backoff (UInt64.ofNat (doublings failure attempt)) policy.firstBackoff
        policy.maxBackoff := by
  rw [plainBackoff, doublings]
  by_cases hresume : failure.canResume
  · rw [if_pos hresume, if_pos hresume]
    by_cases hattempt : attempt = Counter.initial.attempts
    · rw [if_pos hattempt, if_pos ⟨hresume, hattempt⟩]
    · rw [if_neg hattempt, if_neg fun h => hattempt h.2]
  · rw [if_neg hresume, if_neg hresume, if_neg fun h => hresume h.1]

/-- Without a first backoff the delay before jitter is nothing at first, and the whole ceiling from the
128th doubling on. -/
theorem plainBackoff_of_zero (hnothing : policy.firstBackoff = .zero) (failure : Failure)
    (attempt : UInt64) :
    policy.plainBackoff failure attempt =
      if doublings failure attempt < 128 then .zero else policy.maxBackoff := by
  have hword := toNat_ofNat_doublings failure attempt
  rw [plainBackoff_eq, hnothing]
  by_cases himmediate : failure.canResume ∧ attempt = 1
  · obtain ⟨hresume, rfl⟩ := himmediate
    have hnone : doublings failure 1 < 128 := by
      rw [doublings, if_pos hresume]
      decide
    rw [if_pos ⟨hresume, rfl⟩, if_pos hnone]
  · rw [if_neg himmediate]
    by_cases hlt : doublings failure attempt < 128
    · rw [if_pos hlt, backoff_zero_of_lt (hword.symm ▸ hlt)]
    · rw [if_neg hlt, backoff_of_le (hword.symm ▸ Nat.not_lt.1 hlt)]

/-- The offsets that can be drawn for a delay of the whole ceiling, without a first backoff: only ones
that shorten it, by no more than its share and its whole milliseconds. -/
theorem exists_draw_maxBackoff_iff (hnothing : policy.firstBackoff = .zero) (millis : Int) :
    (∃ drawn, Jitter.draw policy.maxBackoff policy.firstBackoff policy.maxBackoff
        policy.jitterFactor drawn = millis) ↔
      (-(policy.maxBackoff.millis : Int) ≤ millis ∧
          -Jitter.offset policy.maxBackoff policy.jitterFactor ≤ millis ∧ millis < 0) ∨
        (policy.maxBackoff.millis = 0 ∨ Jitter.offset policy.maxBackoff policy.jitterFactor = 0) ∧
          millis = 0 := by
  have hoffset := Jitter.offset_nonneg policy.maxBackoff policy.factor_inUnitInterval
  have hfirst : (policy.firstBackoff.millis : Int) = 0 := by
    rw [hnothing]
    rfl
  rw [Jitter.exists_draw_eq_iff policy.factor_inUnitInterval policy.first_le_max
    (Nat.le_refl policy.maxBackoff.nanos), Jitter.lowest, Jitter.highest, hfirst]
  omega

/-- All that the whole ceiling is jittered to is nothing, exactly if there is no ceiling at all, or the
one millisecond that it has is what every draw takes away. -/
theorem jittered_maxBackoff_eq_zero_iff (hnothing : policy.firstBackoff = .zero) :
    (∀ drawn, policy.jittered policy.maxBackoff drawn = .zero) ↔
      policy.maxBackoff = .zero ∨
        policy.maxBackoff = .ofMillis 1 ∧
          1 ≤ Jitter.offset policy.maxBackoff policy.jitterFactor := by
  by_cases hzero : policy.maxBackoff = .zero
  · refine iff_of_true (fun drawn => ?_) (.inl hzero)
    exact (jittered_of_isZero drawn (Duration.eq_zero_iff.1 hzero)).trans hzero
  have hdraws := exists_draw_maxBackoff_iff hnothing
  have hoffset := Jitter.offset_nonneg policy.maxBackoff policy.factor_inUnitInterval
  have hnanos := nanos_jittered hzero policy.first_le_max (Nat.le_refl policy.maxBackoff.nanos)
  have hsplit := policy.maxBackoff.nanos_eq
  have hsome : policy.maxBackoff.nanos ≠ 0 := fun hnone => hzero (Duration.ext hnone)
  rw [or_iff_right hzero, Duration.eq_ofMillis_one_iff]
  constructor
  · intro hall
    have htaken : ∀ drawn, (policy.maxBackoff.nanos : Int) + Jitter.draw policy.maxBackoff
        policy.firstBackoff policy.maxBackoff policy.jitterFactor drawn * Duration.perMilli = 0 :=
      fun drawn => (hnanos drawn).symm.trans (congrArg (Nat.cast ·.nanos) (hall drawn))
    -- A single millisecond is among the draws, or nothing is drawn and the ceiling stays.
    by_cases hdrawn : 1 ≤ policy.maxBackoff.millis ∧
        1 ≤ Jitter.offset policy.maxBackoff policy.jitterFactor
    · obtain ⟨drawn, hone⟩ := (hdraws (-1)).2 (.inl (by omega))
      have hleft := htaken drawn
      rw [hone] at hleft
      exact ⟨by omega, hdrawn.2⟩
    · obtain ⟨drawn, hone⟩ := (hdraws 0).2 (.inr (by omega))
      have hleft := htaken drawn
      rw [hone] at hleft
      omega
  · rintro ⟨hone, hreach⟩ drawn
    have hmillis : policy.maxBackoff.millis = 1 := by
      rw [Duration.millis, hone]
      rfl
    have hdraw := (hdraws _).1 ⟨drawn, rfl⟩
    have hleft := hnanos drawn
    refine Duration.ext ?_
    change (policy.jittered policy.maxBackoff drawn).nanos = 0
    simp only [Duration.perMilli] at *
    omega

/-- **No first backoff.** Without a first backoff every failure within the budget gets a signal. Up to
the 127th doubling it waits for nothing; from the 128th on it waits as long as the ceiling and jitter
say. So it never waits at all exactly if the doublings stop short of that, there is no ceiling, or
jitter always takes away the only millisecond of the ceiling. -/
theorem backoff_eq_zero_iff (hnothing : policy.firstBackoff = .zero)
    (hretry : failure.isRetryable policy.nonRetryableCodes)
    (hbudget : (counter.facing failure).attempts < policy.maxRetries) :
    let doubled := doublings failure (counter.facing failure).attempts
    (∀ drawn, ∃ signal, (policy.decide counter drawn (some failure)).outcome = .ok signal) ∧
    (∀ drawn signal, (policy.decide counter drawn (some failure)).outcome = .ok signal →
      (doubled < 128 → signal.backoff = .zero) ∧
      (128 ≤ doubled → signal.backoff = policy.jittered policy.maxBackoff drawn)) ∧
    ((∀ drawn signal, (policy.decide counter drawn (some failure)).outcome = .ok signal →
        signal.backoff = .zero) ↔
      doubled < 128 ∨ policy.maxBackoff = .zero ∨
        policy.maxBackoff = .ofMillis 1 ∧
          1 ≤ Jitter.offset policy.maxBackoff policy.jitterFactor) := by
  intro doubled
  have hsignal := fun drawn => (decide_outcome_eq_ok_iff policy counter drawn).2
    ⟨hretry, hbudget, rfl⟩
  have hbackoff : ∀ drawn signal,
      (policy.decide counter drawn (some failure)).outcome = .ok signal →
        signal.backoff =
          policy.jittered (if doubled < 128 then .zero else policy.maxBackoff) drawn := by
    intro drawn signal hdecide
    obtain ⟨-, -, rfl⟩ := (decide_outcome_eq_ok_iff policy counter drawn).1 hdecide
    exact congrArg (policy.jittered · drawn) (plainBackoff_of_zero hnothing failure _)
  refine ⟨fun drawn => ⟨_, hsignal drawn⟩, ?_⟩
  by_cases hlt : doubled < 128
  · rw [if_pos hlt] at hbackoff
    have hnone := fun drawn signal hdecide =>
      (hbackoff drawn signal hdecide).trans (jittered_of_isZero drawn (by decide))
    refine ⟨fun drawn signal hdecide => ⟨fun _ => hnone drawn signal hdecide, fun hge => ?_⟩,
      iff_of_true hnone (.inl hlt)⟩
    exact absurd hlt (Nat.not_lt.2 hge)
  · rw [if_neg hlt] at hbackoff
    refine ⟨fun drawn signal hdecide => ⟨fun h => absurd h hlt, fun _ => ?_⟩, ?_⟩
    · exact hbackoff drawn signal hdecide
    · rw [or_iff_right hlt, ← jittered_maxBackoff_eq_zero_iff hnothing]
      constructor
      · intro hall drawn
        rw [← hbackoff drawn _ (hsignal drawn)]
        exact hall drawn _ (hsignal drawn)
      · intro hall drawn signal hdecide
        rw [hbackoff drawn signal hdecide]
        exact hall drawn

/-- No first backoff, and a budget for more attempts than there are places in a word. -/
def tireless : Policy where
  firstBackoff := .zero
  maxBackoff := .ofSeconds 1
  maxRetries := 1000
  jitterFactor := .zero false
  nonRetryableCodes := CloseStatus.nonRetryableCodes
  scheduler := .timer
  first_le_max := by decide
  factor_inUnitInterval := by decide +kernel
  codes_ascending := CloseStatus.nonRetryableCodes_ascending

/-- After 127 attempts a connection still tries again at once, and after 128 it waits. -/
theorem backoff_eq_zero_iff_when_tireless :
    (∀ drawn signal, (tireless.decide (Counter.initial.advanceBy 127) drawn
        (some (.closed ⟨4000, none⟩))).outcome = .ok signal → signal.backoff = .zero) ∧
      ¬ ∀ drawn signal, (tireless.decide (Counter.initial.advanceBy 128) drawn
        (some (.closed ⟨4000, none⟩))).outcome = .ok signal → signal.backoff = .zero := by
  have hnothing : tireless.firstBackoff = .zero := rfl
  have hretry : Failure.isRetryable tireless.nonRetryableCodes (.closed ⟨4000, none⟩) := by decide
  obtain ⟨-, -, hbefore⟩ := backoff_eq_zero_iff hnothing hretry
    (by decide +kernel : ((Counter.initial.advanceBy 127).facing _).attempts < 1000)
  obtain ⟨-, -, hafter⟩ := backoff_eq_zero_iff hnothing hretry
    (by decide +kernel : ((Counter.initial.advanceBy 128).facing _).attempts < 1000)
  exact ⟨hbefore.2 (by decide +kernel), fun hall => absurd (hafter.1 hall) (by decide +kernel)⟩

/-- After 128 attempts a connection without a first backoff waits for the whole ceiling. -/
theorem exists_backoff_ne_zero :
    tireless.draft.build = .ok tireless ∧ tireless.firstBackoff = .zero ∧
      ∃ signal, (tireless.decide (Counter.initial.advanceBy 128) 0
          (some (.closed ⟨4000, none⟩))).outcome = .ok signal ∧
        signal.attempt = 129 ∧ signal.backoff = .ofSeconds 1 := by
  refine ⟨build_draft tireless, rfl, _,
    (decide_outcome_eq_ok_iff _ _ _).2 ⟨by decide, by decide +kernel, rfl⟩, ?_⟩
  decide +kernel

end Policy

end Rejoin
