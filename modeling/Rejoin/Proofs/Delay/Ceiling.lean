import Rejoin.Proofs.Delay.Spread

/-! How long a jittered delay can get. A draw leaves out the end of its window, so a drawn offset stops
at least one whole millisecond short of the milliseconds that the ceiling is ahead. What the window
does not see of a delay is less than that, so a drawn delay is below the ceiling to the nanosecond. -/

namespace Rejoin

namespace Jitter

variable {next first ceiling : Duration} {factor : Binary64}

/-- There is something to draw from exactly if the least offset is below the end. -/
theorem isSome_window_iff (hfactor : factor.inUnitInterval) (hfirst : first ≤ next)
    (hceiling : next ≤ ceiling) :
    (window next first ceiling factor).isSome ↔
      lowest next first factor < highest next ceiling factor := by
  have hlow := lowest_nonpos hfactor hfirst
  rw [window_eq hfactor hfirst hceiling, windowOf]
  by_cases hlt : lowest next first factor < highest next ceiling factor
  · rw [dif_pos hlt]
    exact iff_of_true rfl hlt
  · rw [dif_neg hlt, dif_neg (by omega)]
    exact iff_of_false Bool.false_ne_true hlt

/-- A drawn offset is below the milliseconds that the ceiling is ahead. -/
theorem draw_lt_of_isSome (hfactor : factor.inUnitInterval) (hfirst : first ≤ next)
    (hceiling : next ≤ ceiling) (hwindow : (window next first ceiling factor).isSome)
    (drawn : Nat) :
    draw next first ceiling factor drawn < (ceiling.millis : Int) - next.millis := by
  have hlt := (isSome_window_iff hfactor hfirst hceiling).1 hwindow
  have hdraw := (exists_draw_eq_iff hfactor hfirst hceiling _).1 ⟨drawn, rfl⟩
  have hbelow : draw next first ceiling factor drawn < highest next ceiling factor :=
    hdraw.elim And.right fun hempty => absurd hempty.1 (Int.ne_of_lt hlt)
  exact Int.lt_of_lt_of_le hbelow (Int.min_le_left _ _)

theorem draw_of_isNone (hwindow : window next first ceiling factor = none) (drawn : Nat) :
    draw next first ceiling factor drawn = 0 := by
  rw [draw, hwindow]

end Jitter

namespace Policy

variable {policy : Policy} {next : Duration}

/-- Where there is something to draw from, the delay ends up below the ceiling. -/
theorem jittered_lt_maxBackoff (hzero : next ≠ .zero) (hfirst : policy.firstBackoff ≤ next)
    (hmax : next ≤ policy.maxBackoff)
    (hwindow : (Jitter.window next policy.firstBackoff policy.maxBackoff
      policy.jitterFactor).isSome) (drawn : Nat) :
    (policy.jittered next drawn).nanos < policy.maxBackoff.nanos := by
  have hdraw := Jitter.draw_lt_of_isSome policy.factor_inUnitInterval hfirst hmax hwindow drawn
  have hnanos := nanos_jittered hzero hfirst hmax drawn
  have hnext := next.nanos_eq
  have hrest : next.nanos % Duration.perMilli < Duration.perMilli := Nat.mod_lt _ (by decide)
  have hceiling := policy.maxBackoff.nanos_eq
  simp only [Duration.perMilli] at *
  omega

/-- Where there is nothing to draw from, the delay stays as it is. -/
theorem jittered_of_isNone (hzero : next ≠ .zero) (hfirst : policy.firstBackoff ≤ next)
    (hmax : next ≤ policy.maxBackoff)
    (hwindow : Jitter.window next policy.firstBackoff policy.maxBackoff policy.jitterFactor = none)
    (drawn : Nat) : policy.jittered next drawn = next := by
  have hnanos := nanos_jittered hzero hfirst hmax drawn
  rw [Jitter.draw_of_isNone hwindow, Int.zero_mul, Int.add_zero] at hnanos
  exact Duration.ext (Int.ofNat.inj hnanos)

theorem jittered_le_maxBackoff (hzero : next ≠ .zero) (hfirst : policy.firstBackoff ≤ next)
    (hmax : next ≤ policy.maxBackoff) (drawn : Nat) :
    policy.jittered next drawn ≤ policy.maxBackoff := by
  cases hwindow : Jitter.window next policy.firstBackoff policy.maxBackoff policy.jitterFactor with
  | none =>
      rw [jittered_of_isNone hzero hfirst hmax hwindow]
      exact hmax
  | some window =>
      exact Nat.le_of_lt (jittered_lt_maxBackoff hzero hfirst hmax (hwindow ▸ rfl) drawn)

/-- The delay before jitter is between the bounds, unless it is none at all. -/
theorem plainBackoff_mem_bounds {failure : Failure} {attempt : UInt64}
    (hnext : policy.plainBackoff failure attempt ≠ .zero) :
    policy.firstBackoff ≤ policy.plainBackoff failure attempt ∧
      policy.plainBackoff failure attempt ≤ policy.maxBackoff :=
  have hbetween := plainBackoff_between (Nat.one_dvd _) (Nat.one_dvd _) hnext
  ⟨hbetween.1, hbetween.2.1⟩

/-- **The greatest delay.** No delay is above the ceiling. A delay of zero is not jittered. Any other
is moved by exactly the offset that is drawn, neither end of the range of spans being in the way, and
the ends of the window are not cut off by the words that hold them; where there is something to draw
from, the delay is below the ceiling, and where there is nothing, it stays as it was before jitter. -/
theorem backoff_le_maxBackoff {counter : Counter} {drawn : Nat} {failure : Failure} {signal : Signal}
    (h : (policy.decide counter drawn (some failure)).outcome = .ok signal) :
    let next := policy.plainBackoff failure signal.attempt
    let window := Jitter.window next policy.firstBackoff policy.maxBackoff policy.jitterFactor
    let low := Jitter.lowest next policy.firstBackoff policy.jitterFactor
    let high := Jitter.highest next policy.maxBackoff policy.jitterFactor
    signal.backoff ≤ policy.maxBackoff ∧
    (next = .zero → signal.backoff = .zero) ∧
    (next ≠ .zero →
      Jitter.clamp low = low ∧ Jitter.clamp high = high ∧
      (signal.backoff.nanos : Int) = next.nanos +
        Jitter.draw next policy.firstBackoff policy.maxBackoff policy.jitterFactor drawn *
          Duration.perMilli ∧
      (window.isSome → signal.backoff.nanos < policy.maxBackoff.nanos) ∧
      (window = none → signal.backoff = next)) := by
  obtain ⟨-, -, rfl⟩ := (decide_outcome_eq_ok_iff policy counter drawn).1 h
  intro next window low high
  change policy.jittered next drawn ≤ policy.maxBackoff ∧ _
  by_cases hzero : next = .zero
  · have hnone : policy.jittered next drawn = .zero :=
      (jittered_of_isZero drawn (Duration.eq_zero_iff.1 hzero)).trans hzero
    refine ⟨?_, fun _ => hnone, fun hnext => absurd hzero hnext⟩
    rw [hnone]
    exact Nat.zero_le _
  · obtain ⟨hfirst, hmax⟩ := plainBackoff_mem_bounds hzero
    refine ⟨jittered_le_maxBackoff hzero hfirst hmax drawn, fun hnext => absurd hnext hzero,
      fun _ => ⟨?_, ?_, nanos_jittered hzero hfirst hmax drawn, fun hwindow => ?_, fun hwindow => ?_⟩⟩
    · exact Jitter.clamp_lowest policy.factor_inUnitInterval hfirst
    · exact Jitter.clamp_highest policy.factor_inUnitInterval hmax
    · exact jittered_lt_maxBackoff hzero hfirst hmax hwindow drawn
    · exact jittered_of_isNone hzero hfirst hmax hwindow drawn

/-- The longest span there is for a ceiling, and jitter by all of a delay. -/
def boundless : Policy :=
  { Settings.farthestPolicy with
    firstBackoff := .ofNanos 1
    maxBackoff := .ofNanos Duration.maxNanos
    maxRetries := Counter.largest
    first_le_max := by decide }

/-- Even at the end of the range of spans, and with the largest draw, the delay is a millisecond
short of the ceiling. -/
theorem backoff_le_maxBackoff_when_boundless : ∃ signal,
    (boundless.decide ⟨200⟩ 9223372036854775806 (some (.closed ⟨4000, none⟩))).outcome = .ok signal ∧
      boundless.plainBackoff (.closed ⟨4000, none⟩) signal.attempt = boundless.maxBackoff ∧
      signal.backoff.nanos < boundless.maxBackoff.nanos ∧
      (signal.backoff.nanos : Int) = Duration.maxNanos - Duration.perMilli := by
  have hdecide := (decide_outcome_eq_ok_iff boundless ⟨200⟩ 9223372036854775806).2
    ⟨(by decide : Failure.isRetryable boundless.nonRetryableCodes (.closed ⟨4000, none⟩)),
      by decide, rfl⟩
  have hnext : boundless.plainBackoff (.closed ⟨4000, none⟩) 200 = boundless.maxBackoff := by
    decide +kernel
  obtain ⟨-, -, hjittered⟩ := backoff_le_maxBackoff hdecide
  obtain ⟨-, -, hnanos, hbelow, -⟩ := hjittered (by decide +kernel)
  refine ⟨_, hdecide, hnext, hbelow (by decide +kernel), hnanos.trans ?_⟩
  decide +kernel

end Policy

end Rejoin
