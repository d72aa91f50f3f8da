import Rejoin.Decision.Handles
import Rejoin.Proofs.Delay.Growth

/-! Handles and the families they come in. A handle made by cloning joins the family of the handle it was
made from, and every other one begins a family of its own. All handles of a family show one counter, which
counts the advances through any of them since the last reset through any of them. It is never below one,
so the doublings of a delay that it leads to are never cut off at zero. -/

namespace Rejoin

namespace Counter

theorem toNat_attempts_le (counter : Counter) : counter.attempts.toNat ≤ largest.toNat :=
  Nat.le_of_lt_succ counter.attempts.toNat_lt_size

/-- Advancing stops at the largest word. -/
theorem toNat_advance (counter : Counter) :
    counter.advance.attempts.toNat = min (counter.attempts.toNat + 1) largest.toNat := by
  have hword := counter.toNat_attempts_le
  by_cases hlast : counter.attempts = largest
  · unfold advance
    rw [if_pos hlast, hlast]
    omega
  · have hbelow : counter.attempts.toNat ≠ largest.toNat := fun h => hlast (UInt64.toNat_inj.1 h)
    have hlt : counter.attempts < largest := UInt64.lt_iff_toNat_lt.2 (by omega)
    rw [toNat_attempts_advance hlt]
    omega

theorem toNat_advanceBy (counter : Counter) (count : Nat) :
    (counter.advanceBy count).attempts.toNat =
      min (counter.attempts.toNat + count) largest.toNat := by
  induction count generalizing counter with
  | zero => exact (Nat.min_eq_left counter.toNat_attempts_le).symm
  | succ count ih =>
      rw [advanceBy, ih, toNat_advance]
      omega

end Counter

namespace Handles

/-! ### What some steps made -/

/-- The handle that a step goes through. -/
def Step.handle? : Step → Option Nat
  | .advance handle _ | .reset handle | .clone handle => some handle
  | .fresh | .look => none

/-- The handles after some steps, the last one first. -/
def after : List Step → Handles
  | [] => initial
  | step :: past => (after past).step step

/-- How many handles some steps have made. -/
def made : List Step → Nat
  | [] => 1
  | .clone _ :: past | .fresh :: past => made past + 1
  | .advance _ _ :: past | .reset _ :: past | .look :: past => made past

/-- Steps through handles that there are at the time. -/
def Sound : List Step → Prop
  | [] => True
  | step :: past => (∀ handle, step.handle? = some handle → handle < made past) ∧ Sound past

/-- The handle that the family of a handle began with. -/
def founder : List Step → Nat → Nat
  | [], handle => handle
  | .clone source :: past, handle => founder past (if handle = made past then source else handle)
  | .advance _ _ :: past, handle | .reset _ :: past, handle | .fresh :: past, handle
  | .look :: past, handle => founder past handle

/-- How often the family that began with `first` was advanced since it was last reset. -/
def advances : List Step → Nat → Nat
  | [], _ => 0
  | .advance handle count :: past, first =>
    advances past first + if founder past handle = first then count else 0
  | .reset handle :: past, first => if founder past handle = first then 0 else advances past first
  | .clone _ :: past, first | .fresh :: past, first | .look :: past, first => advances past first

section Made

variable {past : List Step} {handle first : Nat}

theorem founder_of_le (h : made past ≤ handle) : founder past handle = handle := by
  induction past with
  | nil => rfl
  | cons step past ih =>
      cases step with
      | clone source =>
          -- The clone made here has a smaller number than any handle yet to be made.
          simp only [made] at h
          rw [founder, if_neg (by omega), ih (by omega)]
      | fresh =>
          simp only [made] at h
          exact ih (by omega)
      | advance | reset | look => exact ih h

theorem founder_lt (hsound : Sound past) (h : handle < made past) : founder past handle < made past := by
  induction past generalizing handle with
  | nil => exact h
  | cons step past ih =>
      obtain ⟨hstep, hsound⟩ := hsound
      cases step with
      | clone source =>
          simp only [made] at h ⊢
          rw [founder]
          apply Nat.lt_succ_of_lt
          apply ih hsound
          split
          · exact hstep source rfl
          · omega
      | fresh =>
          simp only [made] at h ⊢
          rw [founder]
          by_cases hnew : handle = made past
          · rw [founder_of_le (by omega)]
            exact h
          · exact Nat.lt_succ_of_lt (ih hsound (by omega))
      | advance | reset | look => exact ih hsound h

/-- Nobody has advanced a family that is yet to begin. -/
theorem advances_of_le (hsound : Sound past) (h : made past ≤ first) : advances past first = 0 := by
  induction past with
  | nil => rfl
  | cons step past ih =>
      obtain ⟨hstep, hsound⟩ := hsound
      cases step with
      | advance handle count =>
          have hother := founder_lt hsound (hstep handle rfl)
          simp only [made] at h
          rw [advances, ih hsound h, if_neg (by omega)]
      | reset handle =>
          simp only [made] at h
          rw [advances, ih hsound h, ite_self]
      | clone | fresh =>
          simp only [made] at h
          exact ih hsound (by omega)
      | look => exact ih hsound h

end Made

/-! ### What handles show -/

section Counters

variable {handles : Handles} {handle other : Nat} {change : Counter → Counter}

theorem counter_modify (h : handles.familyOf other < handles.counters.length) :
    (handles.modify handle change).counter other =
      if handles.familyOf handle = handles.familyOf other then change (handles.counter other)
      else handles.counter other := by
  have hfamily : (handles.modify handle change).familyOf other = handles.familyOf other := rfl
  rw [counter, hfamily, counter, List.getD_eq_getElem?_getD, List.getD_eq_getElem?_getD]
  change ((handles.counters.modify _ change)[_]?).getD _ = _
  rw [List.getElem?_modify, List.getElem?_eq_getElem h]
  split <;> rfl

/-- One more handle belongs to the family that it is given, and the others stay where they are. -/
theorem familyOf_concat (family : Nat) (counters : List Counter) (handle : Nat) :
    familyOf ⟨handles.families ++ [family], counters⟩ handle =
      if handle = handles.families.length then family else handles.familyOf handle := by
  unfold familyOf
  rw [List.getD_eq_getElem?_getD, List.getD_eq_getElem?_getD]
  rcases Nat.lt_trichotomy handle handles.families.length with hold | rfl | hbeyond
  · rw [if_neg (by omega), List.getElem?_append_left hold]
  · rw [if_pos rfl, List.getElem?_concat_length]
    rfl
  · rw [if_neg (by omega), List.getElem?_eq_none (by simp; omega), List.getElem?_eq_none (by omega)]

/-- One more handle, with or without a counter of its own, changes nothing for the others. -/
theorem counter_concat (hhandle : handle < handles.families.length)
    (hfamily : handles.familyOf handle < handles.counters.length) (family : Nat)
    {counters : List Counter} (hcounters : handles.counters <+: counters) :
    counter ⟨handles.families ++ [family], counters⟩ handle = handles.counter handle := by
  obtain ⟨more, rfl⟩ := hcounters
  unfold counter
  rw [familyOf_concat, if_neg (Nat.ne_of_lt hhandle), List.getD_eq_getElem?_getD,
    List.getElem?_append_left hfamily, ← List.getD_eq_getElem?_getD]

end Counters

/-- What handles have to do with the steps that made them. -/
structure Tracks (past : List Step) (handles : Handles) : Prop where
  length_families : handles.families.length = made past
  familyOf_lt : ∀ handle < made past, handles.familyOf handle < handles.counters.length
  familyOf_eq_iff : ∀ handle < made past, ∀ other < made past,
    handles.familyOf handle = handles.familyOf other ↔ founder past handle = founder past other
  toNat_attempts : ∀ handle < made past, (handles.counter handle).attempts.toNat =
    min (1 + advances past (founder past handle)) Counter.largest.toNat

namespace Tracks

variable {past : List Step} {handles : Handles} {handle other : Nat}

theorem initial : Tracks [] initial where
  length_families := rfl
  familyOf_lt := by
    intro handle hlt
    obtain rfl := Nat.lt_one_iff.1 hlt
    decide
  familyOf_eq_iff := by
    intro handle hhandle other hother
    obtain rfl := Nat.lt_one_iff.1 hhandle
    obtain rfl := Nat.lt_one_iff.1 hother
    exact iff_of_true rfl rfl
  toNat_attempts := by
    intro handle hlt
    obtain rfl := Nat.lt_one_iff.1 hlt
    decide

/-- A step that changes a counter leaves the families as they are, and changes the counter of one. -/
theorem modify (h : Tracks past handles) {step : Step} {change : Counter → Counter}
    (hhandle : handle < made past) (hmade : made (step :: past) = made past)
    (hfounder : ∀ other, founder (step :: past) other = founder past other)
    (hchange : ∀ first counter,
      counter.attempts.toNat = min (1 + advances past first) Counter.largest.toNat →
      (if founder past handle = first then change counter else counter).attempts.toNat =
        min (1 + advances (step :: past) first) Counter.largest.toNat) :
    Tracks (step :: past) (handles.modify handle change) where
  length_families := h.length_families.trans hmade.symm
  familyOf_lt := by
    intro other hother
    change handles.familyOf other < (handles.counters.modify _ change).length
    rw [List.length_modify]
    exact h.familyOf_lt other (hmade ▸ hother)
  familyOf_eq_iff := by
    intro left hleft right hright
    rw [hfounder, hfounder]
    exact h.familyOf_eq_iff left (hmade ▸ hleft) right (hmade ▸ hright)
  toNat_attempts := by
    intro other hother
    rw [hmade] at hother
    rw [counter_modify (h.familyOf_lt other hother), hfounder]
    simp only [h.familyOf_eq_iff handle hhandle other hother]
    exact hchange _ _ (h.toNat_attempts other hother)

theorem advance (h : Tracks past handles) (hhandle : handle < made past) (count : Nat) :
    Tracks (.advance handle count :: past) (handles.modify handle (·.advanceBy count)) := by
  refine h.modify hhandle rfl (fun _ => rfl) fun first counter hcounter => ?_
  rw [advances]
  split
  · rw [Counter.toNat_advanceBy]
    omega
  · exact hcounter

theorem reset (h : Tracks past handles) (hhandle : handle < made past) :
    Tracks (.reset handle :: past) (handles.modify handle Counter.reset) := by
  refine h.modify hhandle rfl (fun _ => rfl) fun first counter hcounter => ?_
  rw [advances]
  split
  · change Counter.initial.attempts.toNat = _
    decide
  · exact hcounter

/-- To a clone everything is as to the handle that it was made from. -/
theorem clone (h : Tracks past handles) {source : Nat} (hsource : source < made past) :
    Tracks (.clone source :: past)
      { handles with families := handles.families ++ [handles.familyOf source] } := by
  have hfamily : ∀ handle, familyOf
      { handles with families := handles.families ++ [handles.familyOf source] } handle =
        handles.familyOf (if handle = made past then source else handle) := by
    intro handle
    rw [familyOf_concat, h.length_families]
    split <;> rfl
  have hmade : ∀ handle < made past + 1,
      (if handle = made past then source else handle) < made past := by
    intro handle hhandle
    split
    · exact hsource
    · omega
  constructor
  · rw [List.length_append, h.length_families]
    rfl
  · intro handle hhandle
    rw [hfamily]
    exact h.familyOf_lt _ (hmade handle hhandle)
  · intro handle hhandle other hother
    rw [hfamily, hfamily]
    exact h.familyOf_eq_iff _ (hmade handle hhandle) _ (hmade other hother)
  · intro handle hhandle
    rw [counter, hfamily]
    exact h.toNat_attempts _ (hmade handle hhandle)

/-- A fresh handle begins a family, which nobody has advanced yet. -/
theorem fresh (hsound : Sound past) (h : Tracks past handles) :
    Tracks (.fresh :: past)
      ⟨handles.families ++ [handles.counters.length], handles.counters ++ [Counter.initial]⟩ := by
  have hfamily : ∀ handle, familyOf
      ⟨handles.families ++ [handles.counters.length], handles.counters ++ [Counter.initial]⟩ handle =
        if handle = made past then handles.counters.length else handles.familyOf handle := by
    intro handle
    rw [familyOf_concat, h.length_families]
  have hold : ∀ handle, handle < made past + 1 → handle ≠ made past → handle < made past := by
    omega
  constructor
  · rw [List.length_append, h.length_families]
    rfl
  · intro handle hhandle
    rw [hfamily, List.length_append]
    split
    · exact Nat.lt_succ_self _
    case isFalse hne => exact Nat.lt_succ_of_lt (h.familyOf_lt _ (hold handle hhandle hne))
  · intro left hleft right hright
    rw [hfamily, hfamily]
    change _ ↔ founder past left = founder past right
    -- The new handle founded its own family, and the families of the others are older.
    have hnew := founder_of_le (Nat.le_refl (made past))
    by_cases hl : left = made past <;> by_cases hr : right = made past
    · exact iff_of_true (by rw [if_pos hl, if_pos hr]) (by rw [hl, hr])
    · have hlt := hold right hright hr
      rw [if_pos hl, if_neg hr, hl, hnew]
      exact iff_of_false (Nat.ne_of_gt (h.familyOf_lt right hlt))
        (Nat.ne_of_gt (founder_lt hsound hlt))
    · have hlt := hold left hleft hl
      rw [if_neg hl, if_pos hr, hr, hnew]
      exact iff_of_false (Nat.ne_of_lt (h.familyOf_lt left hlt))
        (Nat.ne_of_lt (founder_lt hsound hlt))
    · rw [if_neg hl, if_neg hr]
      exact h.familyOf_eq_iff left (hold left hleft hl) right (hold right hright hr)
  · intro handle hhandle
    change _ = min (1 + advances past (founder past handle)) _
    by_cases hnew : handle = made past
    · rw [counter, hfamily, if_pos hnew, List.getD_eq_getElem?_getD, List.getElem?_concat_length, hnew,
        founder_of_le (Nat.le_refl _), advances_of_le hsound (Nat.le_refl _)]
      decide
    · have hlt := hold handle hhandle hnew
      rw [counter_concat (h.length_families ▸ hlt) (h.familyOf_lt handle hlt) _
        (List.prefix_append _ _)]
      exact h.toNat_attempts handle hlt

end Tracks

theorem tracks_after {past : List Step} (hsound : Sound past) : Tracks past (after past) := by
  induction past with
  | nil => exact .initial
  | cons step past ih =>
      obtain ⟨hstep, hsound⟩ := hsound
      cases step with
      | advance handle count => exact (ih hsound).advance (hstep handle rfl) count
      | reset handle => exact (ih hsound).reset (hstep handle rfl)
      | clone source => exact (ih hsound).clone (hstep source rfl)
      | fresh => exact (ih hsound).fresh hsound
      | look =>
          have h := ih hsound
          exact ⟨h.length_families, h.familyOf_lt, h.familyOf_eq_iff, h.toNat_attempts⟩

section Run

variable {past : List Step} {handle other : Nat}

/-- Handles show the same counter if they are of one family. -/
theorem counter_eq_of_founder_eq (hsound : Sound past) (hhandle : handle < made past)
    (hother : other < made past) (h : founder past handle = founder past other) :
    (after past).counter handle = (after past).counter other := by
  have hfamily := ((tracks_after hsound).familyOf_eq_iff handle hhandle other hother).2 h
  unfold counter
  rw [hfamily]

/-- A step leaves every handle alone that is not of the family of the one it goes through. -/
theorem counter_after_of_other {step : Step} (hsound : Sound (step :: past))
    (hhandle : handle < made past)
    (hother : ∀ other, step.handle? = some other → founder past other ≠ founder past handle) :
    (after (step :: past)).counter handle = (after past).counter handle := by
  obtain ⟨hstep, hsound⟩ := hsound
  have htracks := tracks_after hsound
  have hlt := htracks.familyOf_lt handle hhandle
  have hold : handle < (after past).families.length := htracks.length_families ▸ hhandle
  cases step with
  | advance other count =>
      refine (counter_modify hlt).trans (if_neg ?_)
      rw [htracks.familyOf_eq_iff other (hstep other rfl) handle hhandle]
      exact hother other rfl
  | reset other =>
      refine (counter_modify hlt).trans (if_neg ?_)
      rw [htracks.familyOf_eq_iff other (hstep other rfl) handle hhandle]
      exact hother other rfl
  | clone source => exact counter_concat hold hlt _ (List.prefix_refl _)
  | fresh => exact counter_concat hold hlt _ (List.prefix_append _ _)
  | look => rfl

theorem history_append (handles : Handles) (steps later : List Step) :
    handles.history (steps ++ later) =
      handles.history steps ++ (steps.foldl Handles.step handles).history later := by
  induction steps generalizing handles with
  | nil => rfl
  | cons step steps ih =>
      rw [List.cons_append, history, history, ih]
      rfl

theorem after_eq_foldl (past : List Step) : after past = past.reverse.foldl Handles.step initial := by
  induction past with
  | nil => rfl
  | cons step past ih =>
      rw [List.reverse_cons, List.foldl_append, ← ih]
      rfl

/-- What is shown after the last step comes last. -/
theorem history_reverse_cons (step : Step) (past : List Step) :
    initial.history (step :: past).reverse =
      initial.history past.reverse ++ [(after (step :: past)).attempts] := by
  rw [List.reverse_cons, history_append, ← after_eq_foldl]
  rfl

/-! ### The counter in a decision -/

/-- Counters that come about by steps through one handle. -/
def Brings (past : List Step) (handle : Nat) (counter : Counter) : Prop :=
  ∃ moves : List Step, (∀ move ∈ moves, move = .advance handle 1 ∨ move = .reset handle) ∧
    Sound (moves ++ past) ∧ (after (moves ++ past)).counter handle = counter

theorem brings_self (hsound : Sound past) (handle : Nat) :
    Brings past handle ((after past).counter handle) :=
  ⟨[], nofun, hsound, rfl⟩

namespace Brings

variable {counter : Counter}

theorem move (h : Brings past handle counter) (hhandle : handle < made past) {move : Step}
    (hmove : move = .advance handle 1 ∨ move = .reset handle) (change : Counter → Counter)
    (hstep : ∀ handles : Handles, handles.step move = handles.modify handle change) :
    Brings past handle (change counter) := by
  obtain ⟨moves, hmoves, hsound, rfl⟩ := h
  have hmade : handle < made (moves ++ past) := by
    clear hsound
    induction moves with
    | nil => exact hhandle
    | cons first moves ih =>
        have hmade := ih fun later hlater => hmoves later (List.mem_cons_of_mem _ hlater)
        rcases hmoves first List.mem_cons_self with rfl | rfl <;> exact hmade
  refine ⟨move :: moves, ?_, ⟨?_, hsound⟩, ?_⟩
  · intro later hlater
    rcases List.mem_cons.1 hlater with rfl | hlater
    · exact hmove
    · exact hmoves later hlater
  · intro through hthrough
    rcases hmove with rfl | rfl <;> exact Option.some.inj hthrough ▸ hmade
  · change ((after (moves ++ past)).step move).counter handle = _
    rw [hstep, counter_modify ((tracks_after hsound).familyOf_lt handle hmade), if_pos rfl]

theorem advance (h : Brings past handle counter) (hhandle : handle < made past) :
    Brings past handle counter.advance :=
  h.move hhandle (.inl rfl) Counter.advance fun _ => rfl

theorem reset (h : Brings past handle counter) (hhandle : handle < made past) :
    Brings past handle counter.reset :=
  h.move hhandle (.inr rfl) Counter.reset fun _ => rfl

end Brings

/-- What a decision does to a counter comes about by steps through the handle that it reads. -/
theorem brings_decide (hsound : Sound past) (hhandle : handle < made past) (policy : Policy)
    (drawn : Nat) (cause : Option Failure) :
    Brings past handle (policy.decide ((after past).counter handle) drawn cause).counter := by
  have hself := brings_self hsound handle
  cases cause with
  | none => exact hself
  | some failure =>
      by_cases hretry : failure.isRetryable policy.nonRetryableCodes
      · have hfacing : Brings past handle (((after past).counter handle).facing failure) := by
          unfold Counter.facing
          split
          · exact hself.reset hhandle
          · exact hself
        rw [Policy.decide_counter_of_retryable _ _ _ hretry, Policy.schedule_counter]
        split
        · exact hfacing
        · exact hfacing.advance hhandle
      · rw [Policy.decide_counter_of_final _ _ _ hretry]
        exact hself

end Run

end Handles

namespace Policy

variable {policy : Policy} {failure : Failure} {attempt : UInt64}

/-- The delay before jitter at an attempt: none at a first attempt that resumes, and otherwise doubled as
often as the attempt is beyond the second one, or beyond the first one where it reconnects. -/
inductive Doubles (policy : Policy) (failure : Failure) : UInt64 → Duration → Prop where
  | immediate (hresume : failure.canResume) : Doubles policy failure 1 .zero
  | resuming (hresume : failure.canResume) {attempt doublings : UInt64}
      (hattempt : attempt.toNat = doublings.toNat + 2) :
      Doubles policy failure attempt (backoff doublings policy.firstBackoff policy.maxBackoff)
  | reconnecting (hreconnect : ¬ failure.canResume) {attempt doublings : UInt64}
      (hattempt : attempt.toNat = doublings.toNat + 1) :
      Doubles policy failure attempt (backoff doublings policy.firstBackoff policy.maxBackoff)

/-- From the first attempt on nothing of the doublings is cut off at zero. -/
theorem doubles_plainBackoff (hpos : 1 ≤ attempt.toNat) :
    policy.Doubles failure attempt (policy.plainBackoff failure attempt) := by
  have hword := toNat_ofNat_doublings failure attempt
  rw [plainBackoff_eq]
  by_cases hresume : failure.canResume
  · by_cases hfirst : attempt = 1
    · rw [if_pos ⟨hresume, hfirst⟩, hfirst]
      exact .immediate hresume
    · rw [if_neg fun h => hfirst h.2]
      apply Doubles.resuming hresume
      have hlater : attempt.toNat ≠ 1 := fun h => hfirst (UInt64.toNat_inj.1 h)
      rw [hword, doublings, if_pos hresume]
      omega
  · rw [if_neg fun h => hresume h.1]
    apply Doubles.reconnecting hresume
    rw [hword, doublings, if_neg hresume]
    omega

theorem exists_doubles_of_decide_ok {counter : Counter} {drawn : Nat} {signal : Signal}
    {cause : Option Failure} (hpos : 1 ≤ counter.attempts.toNat)
    (h : (policy.decide counter drawn cause).outcome = .ok signal) :
    ∃ plain, policy.Doubles signal.failure signal.attempt plain ∧
      signal.backoff = policy.jittered plain drawn := by
  obtain ⟨rfl, -⟩ := failure_of_decide_ok _ _ _ h
  obtain ⟨-, -, hsignal⟩ := (decide_outcome_eq_ok_iff _ _ _).1 h
  have hattempt : signal.attempt = (counter.facing signal.failure).attempts :=
    (congrArg Signal.attempt hsignal).symm
  have hbackoff : signal.backoff =
      policy.jittered (policy.plainBackoff signal.failure signal.attempt) drawn := by
    rw [hattempt]
    exact (congrArg Signal.backoff hsignal).symm
  refine ⟨_, doubles_plainBackoff ?_, hbackoff⟩
  -- A counter that is refilled is back at one, whatever it was before.
  rw [hattempt, Counter.facing]
  split
  · change 1 ≤ Counter.initial.attempts.toNat
    decide
  · exact hpos

end Policy

namespace Handles

/-- **Families of handles.** After any steps through handles that there are, every handle shows one more
than the advances through any handle of its family since the last reset through any of them, but never
more than the largest word; that is at least one. Handles of one family show the same, and a step through
a handle changes nothing for other families. So a decision, which changes the counter behind a handle as
steps through it do, counts its doublings from the attempt with nothing cut off at zero. -/
theorem counts_families {past : List Step} (hsound : Sound past) :
    (∀ step, initial.history (step :: past).reverse =
      initial.history past.reverse ++ [(after (step :: past)).attempts]) ∧
    (after past).attempts =
      (List.range (made past)).map (fun handle => ((after past).counter handle).attempts) ∧
    (∀ handle < made past, ((after past).counter handle).attempts.toNat =
      min (1 + advances past (founder past handle)) Counter.largest.toNat) ∧
    (∀ handle < made past, ∀ other < made past, founder past handle = founder past other →
      (after past).counter handle = (after past).counter other) ∧
    (∀ step handle, Sound (step :: past) → handle < made past →
      (∀ other, step.handle? = some other → founder past other ≠ founder past handle) →
      (after (step :: past)).counter handle = (after past).counter handle) ∧
    ∀ handle < made past, 1 ≤ ((after past).counter handle).attempts.toNat ∧
      ∀ (policy : Policy) (drawn : Nat) (cause : Option Failure),
        Brings past handle (policy.decide ((after past).counter handle) drawn cause).counter ∧
        ∀ signal, (policy.decide ((after past).counter handle) drawn cause).outcome = .ok signal →
          ∃ plain, policy.Doubles signal.failure signal.attempt plain ∧
            signal.backoff = policy.jittered plain drawn := by
  have htracks := tracks_after hsound
  refine ⟨fun step => history_reverse_cons step past, ?_, htracks.toNat_attempts,
    fun _ hhandle _ hother => counter_eq_of_founder_eq hsound hhandle hother,
    fun _ _ hstep => counter_after_of_other hstep, fun handle hhandle => ?_⟩
  · rw [attempts, htracks.length_families]
  · have hpos : 1 ≤ ((after past).counter handle).attempts.toNat := by
      rw [htracks.toNat_attempts handle hhandle]
      exact Nat.le_min.2 ⟨Nat.le_add_right _ _, by decide⟩
    exact ⟨hpos, fun policy drawn cause => ⟨brings_decide hsound hhandle policy drawn cause,
      fun _ => Policy.exists_doubles_of_decide_ok hpos⟩⟩

/-- A handle, its clone, and a fresh one. Advanced through the clone more often than a word can count, the
first handle shows the largest word, and the fresh one still what it began with. -/
theorem counts_families_when_exhausted :
    Sound [.advance 1 0x10000000000000000, .fresh, .clone 0] ∧
      ((after [.advance 1 0x10000000000000000, .fresh, .clone 0]).counter 0).attempts.toNat =
        0xffffffffffffffff ∧
      ((after [.advance 1 0x10000000000000000, .fresh, .clone 0]).counter 2).attempts.toNat = 1 := by
  have hsound : Sound [.advance 1 0x10000000000000000, .fresh, .clone 0] := by
    refine ⟨fun handle hhandle => ?_, nofun, fun handle hhandle => ?_, trivial⟩
    · cases hhandle
      decide
    · cases hhandle
      decide
  obtain ⟨-, -, hshows, -⟩ := counts_families hsound
  exact ⟨hsound, (hshows 0 (by decide)).trans (by decide), (hshows 2 (by decide)).trans (by decide)⟩

end Handles

end Rejoin
