import Mathlib.Algebra.Order.Field.Rat
import Mathlib.Algebra.Order.Field.Basic
import Mathlib.Data.Nat.Cast.Order.Field
import Rejoin.Number.Binary64

/-! What a binary64 number is worth as a rational, and where that lies. A number that is not finite is
worth nothing, so it lies nowhere. -/

namespace Rejoin

namespace Binary64

/-- The exact value of a finite number. -/
def value? (number : Binary64) : Option ℚ :=
  match number.reading with
  | .finite true units => some (-(units / one))
  | .finite false units => some (units / one)
  | _ => none

/-- Numbers with a value from `low` to `high`. -/
def Lies (number : Binary64) (low high : ℚ) : Prop :=
  ∃ value, number.value? = some value ∧ low ≤ value ∧ value ≤ high

theorem one_pos : 0 < one := by decide +kernel

theorem inUnitInterval_iff {number : Binary64} : number.inUnitInterval ↔ number.Lies 0 1 := by
  have hpos : (0 : ℚ) < one := Nat.cast_pos.2 one_pos
  rw [inUnitInterval, Lies, value?]
  rcases number.reading with _ | _ | ⟨negative | negative, units⟩
  · exact ⟨nofun, nofun⟩
  · exact ⟨nofun, nofun⟩
  · have hvalue : (0 : ℚ) ≤ units / one := div_nonneg (Nat.cast_nonneg units) hpos.le
    simp only [decide_eq_true_eq, Option.some.injEq, exists_eq_left', div_le_one hpos, Nat.cast_le,
      hvalue, true_and]
  · have hvalue : (0 : ℚ) ≤ units / one := div_nonneg (Nat.cast_nonneg units) hpos.le
    simp only [decide_eq_true_eq, Option.some.injEq, exists_eq_left']
    constructor
    · rintro rfl
      rw [Nat.cast_zero, zero_div, neg_zero]
      exact ⟨le_refl 0, zero_le_one⟩
    · rintro ⟨hlow, -⟩
      have hnone := le_antisymm (neg_nonneg.1 hlow) hvalue
      exact Nat.cast_eq_zero.1 ((div_eq_zero_iff.1 hnone).resolve_right hpos.ne')

end Binary64

end Rejoin
