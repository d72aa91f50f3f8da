import Rejoin.Proofs.Task.Conduct
import Rejoin.Proofs.Task.Legs
import Rejoin.Proofs.Task.Spending

/-! What a failure costs. The attempt is taken out of the budget with the decision, before the hooks
and the delay, and nothing that becomes of the failure later gives it back. -/

namespace Rejoin

/-- Hooks and delays that leave the counter as it is. -/
def Conduct.frugal : Conduct where
  deed deed := ∀ commons, (deed.perform commons).counter = commons.counter
  panics := True
  counts _ _ := rfl

theorem Conduct.preserves_counter (counter : Counter) :
    Commons.Preserved frugal fun commons => commons.counter = counter where
  deed hdeed h := (hdeed _).trans h
  serves _ _ _ _ h := h
  announced h := h
  counted h := h

namespace Engine

/-! ### What a conduct preserves while a failure is on its way -/

section Conduct

variable {conduct : Conduct} {holds : Commons → Prop} {engine : Engine} {cause : Option Failure}
  {before : Commons} {moves : List Move}

theorem move_upholds (hpreserved : Commons.Preserved conduct holds)
    (hwait : ∀ {commons} now, holds commons → holds { commons with now })
    (hengine : engine.KeepsTo conduct) {result next : Commons × HandlingProgress} {move : Move}
    (hothers : ∀ deed, move = .others deed → conduct.deed deed)
    (h : Progress.Upholds conduct holds (Handling.KeepsTo conduct) result)
    (hmove : engine.move result move = some next) :
    Progress.Upholds conduct holds (Handling.KeepsTo conduct) next := by
  obtain ⟨commons, outcome | message | handling⟩ := result
  · cases hmove
  · cases hmove
  · obtain ⟨hholds, hkeeps⟩ := h
    cases move with
    | others deed =>
        cases hmove
        exact ⟨hpreserved.deed (hothers deed rfl) hholds, hkeeps⟩
    | wait millis =>
        cases hmove
        exact ⟨hwait _ hholds, hkeeps⟩
    | wake =>
        cases hmove
        exact resume_upholds hpreserved hengine hkeeps hholds

theorem handle_upholds (hpreserved : Commons.Preserved conduct holds)
    (hwait : ∀ {commons} now, holds commons → holds { commons with now })
    (hengine : engine.KeepsTo conduct) (hothers : ∀ deed, .others deed ∈ moves → conduct.deed deed)
    (hstart : Progress.Upholds conduct holds (Handling.KeepsTo conduct)
      (engine.start cause before))
    {result : Commons × HandlingProgress}
    (h : engine.handle cause before moves = some result) :
    Progress.Upholds conduct holds (Handling.KeepsTo conduct) result := by
  induction moves using List.reverseRecOn generalizing result with
  | nil =>
      cases h
      exact hstart
  | append_singleton moves move ih =>
      rw [handle_concat] at h
      obtain ⟨point, hpoint, hmove⟩ := Option.bind_eq_some_iff.1 h
      have hbefore := ih (fun deed hmem => hothers deed (List.mem_append_left _ hmem)) hpoint
      refine move_upholds hpreserved hwait hengine (fun deed hdeed => hothers deed ?_) hbefore hmove
      exact List.mem_append_right _ (hdeed ▸ List.mem_singleton_self _)

end Conduct

/-! ### The counter -/

variable {engine : Engine} {cause : Option Failure} {before last : Commons} {moves : List Move}

theorem start_keeps_counter (hengine : engine.KeepsTo .frugal) (hopen : before.cancelled = false) :
    Progress.Upholds .frugal
      (fun commons => commons.counter = (engine.decide cause before).1.counter)
      (Handling.KeepsTo .frugal) (engine.start cause before) := by
  cases hdecide : (engine.decide cause before).2 with
  | error error =>
      rw [start_of_refused hopen hdecide]
      exact ⟨rfl, trivial⟩
  | ok signal =>
      rw [start_of_scheduled hopen hdecide]
      have hpreserved := Conduct.preserves_counter (engine.decide cause before).1.counter
      exact afterHooks_upholds hpreserved signal hengine
        (Hook.runAll_upholds hpreserved signal hengine.hooks rfl)

/-- Once a failure is decided, its way has no effect on the counter. -/
theorem counter_of_handle (hengine : engine.KeepsTo .frugal)
    (hothers : ∀ deed, .others deed ∈ moves → Conduct.frugal.deed deed)
    (hopen : before.cancelled = false) {progress : HandlingProgress}
    (h : engine.handle cause before moves = some (last, progress)) :
    last.counter = (engine.decide cause before).1.counter :=
  (handle_upholds (Conduct.preserves_counter _) (fun _ h => h) hengine hothers
    (start_keeps_counter hengine hopen) h).holds

/-- What a failure that was decided as a signal comes to is no error of the decision. -/
theorem Leaves.outcome_cases {signal : Signal} {legs : List Leg}
    {outcome : Except RetryError Signal}
    (h : engine.Leaves cause before signal moves legs (.finished outcome)) :
    outcome = .ok signal ∨ outcome = .error .cancelled ∨ ∃ error, outcome = .error (.hook error) := by
  generalize hprogress : Progress.finished outcome = progress at h
  cases h with
  | hook _ _ h =>
      obtain ⟨_, rfl⟩ | rfl | ⟨_, rfl⟩ := h <;> cases hprogress
      exact .inr (.inl rfl)
  | failed =>
      cases hprogress
      exact .inr (.inr ⟨_, rfl⟩)
  | stopped =>
      cases hprogress
      exact .inr (.inl rfl)
  | delay _ _ h =>
      obtain ⟨_, rfl⟩ | rfl | ⟨_, rfl⟩ | rfl := h <;> cases hprogress
      · exact .inr (.inl rfl)
      · exact .inl rfl

/-- A signal costs exactly one attempt, and that is the first where the session is lost. -/
theorem counter_of_scheduled {signal : Signal} (h : (engine.decide cause before).2 = .ok signal) :
    (cause ≠ some .invalidSession →
      (engine.decide cause before).1.counter.attempts.toNat = before.counter.attempts.toNat + 1) ∧
    (cause = some .invalidSession →
      (engine.decide cause before).1.counter.attempts.toNat = 2) := by
  obtain ⟨failure, rfl, hattempt, -, hadvanced⟩ := counter_of_decide_ok h
  rw [hadvanced, hattempt]
  constructor
  · intro hkept
    rw [Counter.facing_of_ne fun hlost => hkept (congrArg some hlost)]
  · rintro ⟨⟩
    rfl

/-- **What a failure costs.** With nobody else touching the counter, a failure that is handed in too
late, that is none, or that is final leaves it as it was, and so does one that exhausts the budget,
but that one which loses the session sets it to the first attempt, and then not even a second attempt
is within the bound. Every other failure costs exactly one attempt, whether it comes to a signal, a
hook fails, or it is given up during the hooks or the delay; from the first attempt on where the
session is lost. Only a lost session ever sets the counter back. -/
theorem costs_one_attempt (hengine : engine.KeepsTo .frugal)
    (hothers : ∀ deed, .others deed ∈ moves → Conduct.frugal.deed deed)
    {outcome : Except RetryError Signal}
    (h : engine.handle cause before moves = some (last, .finished outcome)) :
    (before.cancelled → outcome = .error .cancelled ∧ last.counter = before.counter) ∧
    (before.cancelled = false →
      match outcome with
      | .error .missingCause | .error (.terminal _) => last.counter = before.counter
      | .error (.exhausted ..) =>
        (cause ≠ some .invalidSession → last.counter = before.counter) ∧
          (cause = some .invalidSession →
            last.counter = .initial ∧ engine.policy.maxRetries ≤ 1)
      | .ok _ | .error (.hook _) | .error .cancelled =>
        (cause ≠ some .invalidSession →
          last.counter.attempts.toNat = before.counter.attempts.toNat + 1) ∧
        (cause = some .invalidSession → last.counter.attempts.toNat = 2)) ∧
    (cause ≠ some .invalidSession → before.counter.attempts ≤ last.counter.attempts) := by
  cases hopen : before.cancelled with
  | true =>
      cases (gets_of_handle h).of_late hopen
      exact ⟨fun _ => ⟨rfl, rfl⟩, nofun, fun _ => UInt64.le_refl _⟩
  | false =>
      rw [counter_of_handle hengine hothers hopen h]
      cases hdecide : (engine.decide cause before).2 with
      | error error =>
          cases (gets_of_handle h).of_refused hopen hdecide
          refine ⟨nofun, fun _ => ?_, fun hkept => ?_⟩
          · obtain ⟨rfl | ⟨failure, rfl⟩, hsame⟩ | ⟨failure, rfl, rfl, hspent, hfacing⟩ :=
              counter_of_refused hdecide
            · exact hsame
            · exact hsame
            · refine ⟨counter_of_decide_error hdecide, ?_⟩
              rintro ⟨⟩
              exact ⟨hfacing, hspent⟩
          · rw [counter_of_decide_error hdecide hkept]
            exact UInt64.le_refl _
      | ok signal =>
          obtain ⟨left, -, hleaves⟩ := (gets_of_handle h).leaves hopen hdecide
          have hcost := counter_of_scheduled hdecide
          refine ⟨nofun, fun _ => ?_, fun hkept => ?_⟩
          · obtain rfl | rfl | ⟨error, rfl⟩ := hleaves.outcome_cases
            · exact hcost
            · exact hcost
            · exact hcost
          · rw [UInt64.le_iff_toNat_le, hcost.1 hkept]
            exact Nat.le_succ _

def gaveUp : HandlingProgress → Bool
  | .finished (.error .cancelled) => true
  | _ => false

theorem eq_of_gaveUp {progress : HandlingProgress} (h : gaveUp progress) :
    progress = .finished (.error .cancelled) := by
  rw [gaveUp.eq_def] at h
  split at h
  · rfl
  · cases h

/-- The second hook comes to its end, and the token is cancelled during the delay. -/
def Move.abort : List Move := [.wait 5, .wake, .others .cancel, .wake]

/-- The fifth attempt is given up during the delay, and stays spent; where the session is lost it is
the first attempt that does. -/
theorem costs_one_attempt_when_given_up :
    (∃ last, drowsy.handle (some (.closed ⟨4000, none⟩)) { counter := ⟨5⟩ } Move.abort =
      some (last, .finished (.error .cancelled)) ∧ last.counter.attempts.toNat = 6) ∧
    ∃ last, drowsy.handle (some .invalidSession) { counter := ⟨5⟩ } Move.abort =
      some (last, .finished (.error .cancelled)) ∧ last.counter.attempts.toNat = 2 := by
  have hgiven : ∀ cause ∈ [some (.closed ⟨4000, none⟩), some .invalidSession],
      (drowsy.handle cause { counter := ⟨5⟩ } Move.abort).any fun result => gaveUp result.2 := by
    decide +kernel
  have hrun : ∀ cause ∈ [some (.closed ⟨4000, none⟩), some .invalidSession], ∃ last,
      drowsy.handle cause { counter := ⟨5⟩ } Move.abort =
        some (last, .finished (.error .cancelled)) := by
    intro cause hcause
    obtain ⟨⟨last, progress⟩, hrun, hgave⟩ := (Option.any_eq_true ..).1 (hgiven cause hcause)
    obtain rfl := eq_of_gaveUp hgave
    exact ⟨last, hrun⟩
  have hengine : drowsy.KeepsTo .frugal :=
    ⟨List.forall_mem_cons.2 ⟨trivial, List.forall_mem_singleton.2 fun _ => ⟨fun _ => rfl, trivial⟩⟩,
      fun _ => trivial⟩
  have hothers : ∀ deed, .others deed ∈ Move.abort → Conduct.frugal.deed deed := by
    intro deed hmem
    obtain rfl : deed = .cancel := by simpa [Move.abort] using hmem
    exact fun _ => rfl
  obtain ⟨last, hlast⟩ := hrun _ List.mem_cons_self
  obtain ⟨reset, hreset⟩ := hrun _ (List.mem_cons_of_mem _ List.mem_cons_self)
  exact ⟨⟨last, hlast, ((costs_one_attempt hengine hothers hlast).2.1 rfl).1 nofun⟩,
    reset, hreset, ((costs_one_attempt hengine hothers hreset).2.1 rfl).2 rfl⟩

end Engine

end Rejoin
