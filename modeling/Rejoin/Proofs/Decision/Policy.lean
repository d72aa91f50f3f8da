import Rejoin.Decision.Policy

/-! Accepted policies. A draft is refused for its factor or for its range and for nothing else, and its
policy keeps all of it but the order of the codes. A policy taken up again as a draft is accepted as it
is, so the policies are just what drafts are accepted as. -/

namespace Rejoin

namespace Codes

theorem insert_of_forall_lt {code : UInt16} {codes : List UInt16}
    (h : ∀ other ∈ codes, code < other) : insert code codes = code :: codes := by
  cases codes with
  | nil => rfl
  | cons first rest => rw [insert, if_pos (h first List.mem_cons_self)]

theorem ofList_of_ascending {codes : List UInt16} (h : codes.Pairwise (· < ·)) :
    ofList codes = codes := by
  induction codes with
  | nil => rfl
  | cons code codes ih =>
      obtain ⟨hlt, hrest⟩ := List.pairwise_cons.1 h
      change insert code (ofList codes) = code :: codes
      rw [ih hrest, insert_of_forall_lt hlt]

end Codes

theorem CloseStatus.nonRetryableCodes_ascending : nonRetryableCodes.Pairwise (· < ·) := by decide

theorem Draft.build_of_valid {draft : Draft} (hfactor : draft.jitterFactor.inUnitInterval)
    (hrange : draft.firstBackoff ≤ draft.maxBackoff) :
    draft.build = .ok {
      firstBackoff := draft.firstBackoff
      maxBackoff := draft.maxBackoff
      maxRetries := draft.maxRetries
      jitterFactor := draft.jitterFactor
      nonRetryableCodes := Codes.ofList draft.nonRetryableCodes
      scheduler := draft.scheduler
      first_le_max := hrange
      factor_inUnitInterval := hfactor
      codes_ascending := Codes.ofList_ascending _ } := by
  rw [build, dif_pos hfactor, dif_pos hrange]

theorem Policy.build_draft (policy : Policy) : policy.draft.build = .ok policy := by
  rw [Draft.build_of_valid policy.factor_inUnitInterval policy.first_le_max]
  cases policy
  simp only [Policy.draft, Codes.ofList_of_ascending, *]

theorem Policy.draft_injective {left right : Policy} (h : left.draft = right.draft) :
    left = right := by
  have hbuild := left.build_draft
  rw [h, right.build_draft, Except.ok.injEq] at hbuild
  exact hbuild.symm

namespace Draft

/-- A draft as its policy keeps it. -/
def tidied (draft : Draft) : Draft :=
  { draft with nonRetryableCodes := Codes.ofList draft.nonRetryableCodes }

theorem build_cases (draft : Draft) :
    ¬ draft.jitterFactor.inUnitInterval ∧
      draft.build = .error (.jitterFactor draft.jitterFactor) ∨
    draft.jitterFactor.inUnitInterval ∧ ¬ draft.firstBackoff ≤ draft.maxBackoff ∧
      draft.build = .error (.backoffRange draft.firstBackoff draft.maxBackoff) ∨
    draft.jitterFactor.inUnitInterval ∧ draft.firstBackoff ≤ draft.maxBackoff ∧
      ∃ policy, draft.build = .ok policy ∧ policy.draft = draft.tidied := by
  by_cases hfactor : draft.jitterFactor.inUnitInterval
  · by_cases hrange : draft.firstBackoff ≤ draft.maxBackoff
    · exact Or.inr (Or.inr ⟨hfactor, hrange, _, build_of_valid hfactor hrange, rfl⟩)
    · refine Or.inr (Or.inl ⟨hfactor, hrange, ?_⟩)
      rw [build, dif_pos hfactor, dif_neg hrange]
  · refine Or.inl ⟨hfactor, ?_⟩
    rw [build, dif_neg hfactor]

theorem build_eq_ok_iff {draft : Draft} {policy : Policy} :
    draft.build = .ok policy ↔
      draft.jitterFactor.inUnitInterval ∧ draft.firstBackoff ≤ draft.maxBackoff ∧
        policy.draft = draft.tidied := by
  rcases draft.build_cases with ⟨hfactor, hbuild⟩ | ⟨-, hrange, hbuild⟩ |
    ⟨hfactor, hrange, accepted, hbuild, hdraft⟩
  · simp [hbuild, hfactor]
  · simp [hbuild, hrange]
  · simp only [hbuild, Except.ok.injEq, hfactor, hrange, true_and, ← hdraft]
    exact ⟨fun h => by rw [h], fun h => Policy.draft_injective h.symm⟩

theorem build_eq_error_iff {draft : Draft} {error : PolicyError} :
    draft.build = .error error ↔
      ¬ draft.jitterFactor.inUnitInterval ∧ error = .jitterFactor draft.jitterFactor ∨
      draft.jitterFactor.inUnitInterval ∧ ¬ draft.firstBackoff ≤ draft.maxBackoff ∧
        error = .backoffRange draft.firstBackoff draft.maxBackoff := by
  rcases draft.build_cases with ⟨hfactor, hbuild⟩ | ⟨hfactor, hrange, hbuild⟩ |
    ⟨hfactor, hrange, accepted, hbuild, -⟩
  · simp [hbuild, hfactor, eq_comm]
  · simp [hbuild, hfactor, hrange, eq_comm]
  · simp [hbuild, hfactor, hrange]

end Draft

end Rejoin
