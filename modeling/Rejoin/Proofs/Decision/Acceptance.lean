import Rejoin.Decision.Settings
import Rejoin.Proofs.Decision.Policy
import Rejoin.Proofs.Decision.Verdict
import Rejoin.Proofs.Number.Value

/-! Policies by the way they come about: as the default, from settings, or as a revision of one that
was accepted before. Whatever the way, the codes of a policy are just the ones that were given last, and
all that looks a code up finds the same ones. -/

namespace Rejoin

namespace Codes

variable {code other : UInt16} {codes : List UInt16} {low high : Nat}

theorem mem_ofList : code ∈ ofList codes ↔ code ∈ codes := by
  induction codes with
  | nil => rfl
  | cons first codes ih =>
      show code ∈ insert first (ofList codes) ↔ code ∈ first :: codes
      rw [mem_insert, ih, List.mem_cons]

/-! ### Looking up by halving -/

theorem lt_of_index_lt (h : codes.Pairwise (· < ·)) {left right : Nat}
    (hleft : codes[left]? = some code) (hright : codes[right]? = some other) (hlt : left < right) :
    code < other := by
  obtain ⟨_, rfl⟩ := List.getElem?_eq_some_iff.1 hleft
  obtain ⟨hbound, rfl⟩ := List.getElem?_eq_some_iff.1 hright
  exact List.pairwise_iff_getElem.1 h left right _ hbound hlt

theorem index_lt_of_lt (h : codes.Pairwise (· < ·)) {left right : Nat}
    (hleft : codes[left]? = some code) (hright : codes[right]? = some other) (hlt : code < other) :
    left < right := by
  rcases Nat.lt_trichotomy left right with hless | rfl | hgreater
  · exact hless
  · rw [hleft, Option.some.injEq] at hright
    exact absurd (hright ▸ hlt) (UInt16.lt_irrefl _)
  · exact absurd (lt_of_index_lt h hright hleft hgreater) (UInt16.lt_asymm hlt)

/-- What halving finds is in the list, in whatever order that is. -/
theorem mem_of_bisect (h : bisect codes.toArray code low high) : code ∈ codes := by
  fun_induction bisect codes.toArray code low high with
  | case1 _ _ _ middle hfound =>
    rw [List.getElem?_toArray] at hfound
    exact List.mem_of_getElem? hfound
  | case2 _ _ _ _ _ _ _ _ ih => exact ih h
  | case3 _ _ _ _ _ _ _ _ ih => exact ih h
  | case4 => cases h
  | case5 => cases h

/-- In an ascending list halving misses nothing between its two ends. -/
theorem bisect_of_getElem? (hascending : codes.Pairwise (· < ·)) (hbound : high ≤ codes.length)
    {position : Nat} (hlow : low ≤ position) (hhigh : position < high)
    (hcode : codes[position]? = some code) : bisect codes.toArray code low high := by
  fun_induction bisect codes.toArray code low high with
  | case1 => rfl
  | case2 low high _ middle found hfound _ hless ih =>
    rw [List.getElem?_toArray] at hfound
    exact ih hbound (index_lt_of_lt hascending hfound hcode hless) hhigh
  | case3 low high hlt middle found hfound hne hless ih =>
    rw [List.getElem?_toArray] at hfound
    have hmiddle : middle ≤ high := by omega
    exact ih (Nat.le_trans hmiddle hbound) hlow
      (index_lt_of_lt hascending hcode hfound (lt_of_not_lt_of_ne hless hne))
  | case4 low high hlt middle hnone =>
    rw [List.getElem?_toArray, List.getElem?_eq_none_iff] at hnone
    omega
  | case5 low high hge => exact absurd (Nat.lt_of_le_of_lt hlow hhigh) hge

theorem bisect_iff (hascending : codes.Pairwise (· < ·)) :
    bisect codes.toArray code 0 codes.length ↔ code ∈ codes := by
  refine ⟨mem_of_bisect, fun h => ?_⟩
  obtain ⟨position, hposition, hcode⟩ := List.getElem_of_mem h
  exact bisect_of_getElem? hascending (Nat.le_refl _) (Nat.zero_le _) hposition
    (List.getElem?_eq_some_iff.2 ⟨hposition, hcode⟩)

end Codes

theorem Failure.isRetryable_closed_iff {codes : List UInt16} {status : CloseStatus} :
    (Failure.closed status).isRetryable codes = false ↔ status.code ∈ codes := by
  rw [isRetryable, Bool.not_eq_false', List.contains_iff_mem]

/-! ### Ways to a policy -/

namespace Draft

/-- The codes that a choice gives, if it is a choice of codes. -/
def Choice.codes? : Choice → Option (List UInt16)
  | .nonRetryableCodes codes => some codes
  | _ => none

theorem nonRetryableCodes_chooseAll (draft : Draft) (choices : List Choice) :
    (draft.chooseAll choices).nonRetryableCodes =
      (choices.filterMap Choice.codes?).getLastD draft.nonRetryableCodes := by
  induction choices generalizing draft with
  | nil => rfl
  | cons choice choices ih =>
      change ((draft.choose choice).chooseAll choices).nonRetryableCodes = _
      rw [ih]
      cases choice with
      | nonRetryableCodes codes =>
          change _ = (codes :: choices.filterMap Choice.codes?).getLastD _
          exact List.getLastD_cons.symm
      | _ =>
          rw [List.filterMap_cons_none rfl]
          rfl

end Draft

namespace Policy

variable {policy last : Policy} {codes : List UInt16} {code : UInt16}

/-- The codes given last once a revision is accepted, `codes` being those given last before it. -/
def Revision.codesAfter (revision : Revision) (codes : List UInt16) : List UInt16 :=
  (revision.choices.filterMap Draft.Choice.codes?).getLastD
    (if revision.fresh then CloseStatus.nonRetryableCodes else codes)

/-- The ways to a policy, each with the codes that were given last on it. -/
inductive Obtained : Policy → List UInt16 → Prop
  | default : Obtained default CloseStatus.nonRetryableCodes
  | settings {settings : Settings} {policy : Policy} (hbuild : settings.policy = .ok policy) :
      Obtained policy settings.nonRetryableCodes
  | revised {last policy : Policy} {codes : List UInt16} (hlast : Obtained last codes)
      (revision : Revision) (hbuild : revision.build (some last) = .ok policy) :
      Obtained policy (revision.codesAfter codes)

theorem mem_nonRetryableCodes_iff {draft : Draft} (hbuild : draft.build = .ok policy) :
    code ∈ policy.nonRetryableCodes ↔ code ∈ draft.nonRetryableCodes := by
  obtain ⟨-, -, hdraft⟩ := Draft.build_eq_ok_iff.1 hbuild
  rw [show policy.nonRetryableCodes = _ from congrArg Draft.nonRetryableCodes hdraft]
  exact Codes.mem_ofList

theorem mem_revised_iff {revision : Revision} (hbuild : revision.build (some last) = .ok policy)
    (hlast : code ∈ last.nonRetryableCodes ↔ code ∈ codes) :
    code ∈ policy.nonRetryableCodes ↔ code ∈ revision.codesAfter codes := by
  rw [mem_nonRetryableCodes_iff hbuild, Draft.nonRetryableCodes_chooseAll, Revision.codesAfter,
    List.getLastD_eq_getLast?, List.getLastD_eq_getLast?]
  cases (revision.choices.filterMap Draft.Choice.codes?).getLast? with
  | some given => rfl
  | none =>
      change code ∈ (revision.base (some last)).nonRetryableCodes ↔ _ ∈ if _ then _ else _
      rw [Revision.base]
      split
      case isTrue => rfl
      case isFalse => exact hlast

/-- The codes of a policy are the ones given last, whatever their order and repetitions were. -/
theorem Obtained.mem_iff (h : Obtained policy codes) :
    code ∈ policy.nonRetryableCodes ↔ code ∈ codes := by
  induction h with
  | default => rfl
  | settings hbuild => exact mem_nonRetryableCodes_iff hbuild
  | revised _ _ hbuild ih => exact mem_revised_iff hbuild ih

theorem isNonRetryable_iff : policy.isNonRetryable code ↔ code ∈ policy.nonRetryableCodes :=
  Codes.bisect_iff policy.codes_ascending

/-- **Accepted policies.** However a policy came about, its first backoff is within the longest, its
factor is from zero to one, and its codes are the ones given last, in ascending order. Looking up by
halving, searching in order and the decision on a closed connection all agree with that list. Taken up
as a draft the policy is accepted as it is. A draft is refused exactly if its factor is not from zero to
one, which is reported first, or its first backoff is too long, and is otherwise kept but for the order
of its codes. -/
theorem Obtained.keeps_codes (h : Obtained policy codes) :
    (policy.firstBackoff ≤ policy.maxBackoff ∧ policy.jitterFactor.Lies 0 1 ∧
      policy.nonRetryableCodes.Pairwise (· < ·) ∧
      ∀ code, code ∈ policy.nonRetryableCodes ↔ code ∈ codes) ∧
    (∀ status : CloseStatus,
      (policy.isNonRetryable status.code ↔ status.code ∈ codes) ∧
      ((Failure.closed status).isRetryable policy.nonRetryableCodes = false ↔
        status.code ∈ codes) ∧
      ∀ counter drawn,
        (policy.decide counter drawn (some (.closed status))).outcome =
          .error (.terminal (.closed status)) ↔ status.code ∈ codes) ∧
    policy.draft.build = .ok policy ∧
    ∀ draft : Draft,
      (∀ error, draft.build = .error error ↔
        ¬ draft.jitterFactor.Lies 0 1 ∧ error = .jitterFactor draft.jitterFactor ∨
        draft.jitterFactor.Lies 0 1 ∧ ¬ draft.firstBackoff ≤ draft.maxBackoff ∧
          error = .backoffRange draft.firstBackoff draft.maxBackoff) ∧
      ((∃ accepted, draft.build = .ok accepted ∧ accepted.draft = draft.tidied) ↔
        draft.jitterFactor.Lies 0 1 ∧ draft.firstBackoff ≤ draft.maxBackoff) := by
  refine ⟨⟨policy.first_le_max, Binary64.inUnitInterval_iff.1 policy.factor_inUnitInterval,
    policy.codes_ascending, fun _ => h.mem_iff⟩, fun status => ⟨?_, ?_, fun counter drawn => ?_⟩,
    policy.build_draft, fun draft => ?_⟩
  · rw [isNonRetryable_iff, h.mem_iff]
  · rw [Failure.isRetryable_closed_iff, h.mem_iff]
  · rw [decide_outcome_eq_terminal_iff, Failure.isRetryable_closed_iff, h.mem_iff]
  · simp only [← Binary64.inUnitInterval_iff]
    refine ⟨fun _ => Draft.build_eq_error_iff, ?_⟩
    constructor
    · rintro ⟨accepted, hbuild, -⟩
      obtain ⟨hfactor, hrange, -⟩ := Draft.build_eq_ok_iff.1 hbuild
      exact ⟨hfactor, hrange⟩
    · rintro ⟨hfactor, hrange⟩
      exact ⟨_, Draft.build_of_valid hfactor hrange, rfl⟩

/-- The default policy with two codes, given out of order and one of them twice. -/
def relisted : Policy :=
  { default with
    firstBackoff := .zero
    nonRetryableCodes := [4004, 4014]
    first_le_max := by decide
    codes_ascending := by decide }

def shortened : Policy := { relisted with maxRetries := 3 }

/-- A later revision that gives no codes leaves those of an earlier one as they are. -/
theorem Obtained.keeps_codes_when_shortened :
    Obtained shortened [4014, 4004, 4004] ∧ shortened.isNonRetryable 4014 ∧
      ¬ shortened.isNonRetryable 4010 ∧
      (shortened.decide .initial 0 (some (.closed ⟨4014, none⟩))).outcome =
        .error (.terminal (.closed ⟨4014, none⟩)) := by
  have hfactor : Binary64.half.inUnitInterval := by decide +kernel
  have hrelisted : Revision.build
      ⟨true, [.nonRetryableCodes [4014, 4004, 4004], .firstBackoff .zero]⟩
      (some .default) = .ok relisted := Draft.build_eq_ok_iff.2 ⟨hfactor, by decide, rfl⟩
  have hshortened : Revision.build ⟨false, [.maxRetries 3]⟩ (some relisted) = .ok shortened :=
    Draft.build_eq_ok_iff.2 ⟨hfactor, by decide, rfl⟩
  have hobtained := Obtained.revised (.revised .default _ hrelisted) _ hshortened
  obtain ⟨-, hlookups, -⟩ := keeps_codes hobtained
  obtain ⟨hfound, -, hterminal⟩ := hlookups ⟨4014, none⟩
  obtain ⟨habsent, -⟩ := hlookups ⟨4010, none⟩
  exact ⟨hobtained, hfound.2 (by decide), fun h => absurd (habsent.1 h) (by decide),
    (hterminal .initial 0).2 (by decide)⟩

end Policy

end Rejoin
