import Mathlib.Logic.Relation
import Rejoin.Task.Handling

/-! What a poll may make of what is shared. Routines, hooks and delays change it only by deeds, by
entries in the journal and by counts, one after the other: these are the edits. What no single edit
touches, no poll touches. -/

namespace Rejoin

namespace Commons

/-- What a reader of single entries finds in the journal, oldest first. -/
def read {Item : Type} (reader : Entry → Option Item) (commons : Commons) : List Item :=
  commons.history.filterMap reader

theorem read_record {Item : Type} (reader : Entry → Option Item) (commons : Commons)
    (entry : Entry) :
    (commons.record entry).read reader = commons.read reader ++ (reader entry).toList := by
  simp only [read, history, record, List.reverse_cons, List.filterMap_append]
  cases h : reader entry <;> simp [h]

theorem read_record_of_none {Item : Type} {reader : Entry → Option Item} {entry : Entry}
    (h : reader entry = none) (commons : Commons) :
    (commons.record entry).read reader = commons.read reader := by
  rw [read_record, h]
  exact List.append_nil _

theorem read_log {Item : Type} {reader : Entry → Option Item}
    (hlogged : ∀ entry, reader (.logged entry) = none) (commons : Commons) (entry : LogEntry) :
    (commons.log entry).read reader = commons.read reader :=
  read_record_of_none (hlogged entry) commons

/-- One edit: a deed, an entry of an allowed kind, or a count. -/
inductive Edit (allowed : Entry → Prop) : Commons → Commons → Prop where
  | deed (commons : Commons) (deed : Deed) : Edit allowed commons (deed.perform commons)
  | entry (commons : Commons) {entry : Entry} (h : allowed entry) :
      Edit allowed commons (commons.record entry)
  | count (commons : Commons) (tally : Tally) :
      Edit allowed commons { commons with metrics := commons.metrics.count tally }

/-- Edits, one after the other. -/
def Edits (allowed : Entry → Prop) : Commons → Commons → Prop :=
  Relation.ReflTransGen (Edit allowed)

namespace Edits

variable {allowed : Entry → Prop} {before between after : Commons}

theorem refl (commons : Commons) : Edits allowed commons commons := Relation.ReflTransGen.refl

theorem single (h : Edit allowed before after) : Edits allowed before after :=
  Relation.ReflTransGen.single h

theorem trans (h : Edits allowed before between) (h' : Edits allowed between after) :
    Edits allowed before after := Relation.ReflTransGen.trans h h'

theorem record (h : Edits allowed before after) {entry : Entry} (hentry : allowed entry) :
    Edits allowed before (after.record entry) := h.tail (.entry after hentry)

/-- What every edit preserves, edits preserve. -/
theorem invariant (h : Edits allowed before after) (holds : Commons → Prop)
    (hedit : ∀ {left right}, Edit allowed left right → holds left → holds right)
    (hbefore : holds before) : holds after := by
  induction h with
  | refl => exact hbefore
  | tail _ hlast ih => exact hedit hlast ih

end Edits

/-- A reader that skips whatever a deed puts into the journal. -/
structure SkipsDeeds {Item : Type} (reader : Entry → Option Item) : Prop where
  logged : ∀ entry, reader (.logged entry) = none
  closing : ∀ change, reader (.closing change) = none
  confirmed : reader (.published .connected) = none
  noted : ∀ note time, reader (.noted note time) = none

section Deeds

variable {Item : Type} {reader : Entry → Option Item}

theorem read_close (hlogged : ∀ entry, reader (.logged entry) = none)
    (hclosing : ∀ change, reader (.closing change) = none) (commons : Commons)
    (disconnect : Disconnect) (status : CloseStatus) :
    (commons.close disconnect status).read reader = commons.read reader := by
  rw [close]
  have hboth : ∀ entry change, ((commons.log entry).record (.closing change)).read reader =
      commons.read reader := by
    intro entry change
    rw [read_record_of_none (hclosing _), read_log hlogged]
  split
  · exact hboth _ _
  · exact hboth _ _

theorem confirm_of_unconfirmed {commons : Commons} {cycle : Cycle}
    (hcycle : commons.cycle = some cycle) (hconfirmed : cycle.confirmed = false) :
    commons.confirm = (({ commons with
      counter := commons.counter.reset
      cycle := some { cycle with confirmed := true } }.record (.published .connected)).log
        ⟨.info, "gateway session confirmed", [("mode", cycle.mode.text)]⟩) := by
  rw [confirm, hcycle]
  dsimp only
  rw [if_neg (Bool.eq_false_iff.1 hconfirmed)]

/-- Only the first confirmation in a cycle makes a difference. -/
theorem confirm_eq_self {commons : Commons}
    (h : ∀ cycle, commons.cycle = some cycle → cycle.confirmed) : commons.confirm = commons := by
  rw [confirm]
  cases hcycle : commons.cycle with
  | none => rfl
  | some cycle => exact if_pos (h cycle hcycle)

theorem read_confirm_of_unconfirmed (hlogged : ∀ entry, reader (.logged entry) = none)
    {commons : Commons} {cycle : Cycle} (hcycle : commons.cycle = some cycle)
    (hconfirmed : cycle.confirmed = false) :
    commons.confirm.read reader =
      commons.read reader ++ (reader (.published .connected)).toList := by
  rw [confirm_of_unconfirmed hcycle hconfirmed, read_log hlogged, read_record]
  rfl

theorem read_perform_of_ne (hlogged : ∀ entry, reader (.logged entry) = none)
    (hclosing : ∀ change, reader (.closing change) = none)
    (hnoted : ∀ note time, reader (.noted note time) = none) {deed : Deed} (h : deed ≠ .confirm)
    (commons : Commons) : (deed.perform commons).read reader = commons.read reader := by
  cases deed with
  | close disconnect status => exact read_close hlogged hclosing commons disconnect status
  | confirm => exact absurd rfl h
  | note made => exact read_record_of_none (hnoted _ _) commons
  | advanceCounter | resetCounter | cancel | countElsewhere => rfl

theorem read_perform (hskip : SkipsDeeds reader) (deed : Deed) (commons : Commons) :
    (deed.perform commons).read reader = commons.read reader := by
  by_cases hdeed : deed = .confirm
  · rw [hdeed, Deed.perform]
    by_cases h : ∀ cycle, commons.cycle = some cycle → cycle.confirmed
    · rw [confirm_eq_self h]
    · simp only [Classical.not_forall, Bool.not_eq_true] at h
      obtain ⟨cycle, hcycle, hconfirmed⟩ := h
      rw [read_confirm_of_unconfirmed hskip.logged hcycle hconfirmed, hskip.confirmed]
      exact List.append_nil _
  · exact read_perform_of_ne hskip.logged hskip.closing hskip.noted hdeed commons

/-- What edits add for a reader comes from the allowed entries. -/
theorem Edits.read_append {allowed : Entry → Prop} {before after : Commons}
    (h : Edits allowed before after) (hskip : SkipsDeeds reader) :
    ∃ added, after.read reader = before.read reader ++ added ∧
      ∀ item ∈ added, ∃ entry, allowed entry ∧ reader entry = some item := by
  refine h.invariant (fun commons => ∃ added, commons.read reader = before.read reader ++ added ∧
    ∀ item ∈ added, ∃ entry, allowed entry ∧ reader entry = some item) ?_
      ⟨[], (List.append_nil _).symm, nofun⟩
  rintro left right hedit ⟨added, hleft, hadded⟩
  cases hedit with
  | deed deed => exact ⟨added, (read_perform hskip deed left).trans hleft, hadded⟩
  | @entry entry hentry =>
      refine ⟨added ++ (reader entry).toList, ?_, ?_⟩
      · rw [read_record, hleft, List.append_assoc]
      · intro item hitem
        rcases List.mem_append.1 hitem with hold | hnew
        · exact hadded item hold
        · exact ⟨entry, hentry, Option.mem_toList.1 hnew⟩
  | count => exact ⟨added, hleft, hadded⟩

theorem Edits.read_eq {allowed : Entry → Prop} {before after : Commons}
    (h : Edits allowed before after) (hskip : SkipsDeeds reader)
    (hallowed : ∀ entry, allowed entry → reader entry = none) :
    after.read reader = before.read reader := by
  obtain ⟨added, hadded, hitems⟩ := h.read_append hskip
  have hnone : added = [] := by
    apply List.eq_nil_iff_forall_not_mem.2
    intro item hitem
    obtain ⟨entry, hentry, hitem⟩ := hitems item hitem
    rw [hallowed entry hentry] at hitem
    cases hitem
  rw [hadded, hnone, List.append_nil]

end Deeds

/-! ### Cancellation is final -/

theorem cancelled_close (commons : Commons) (disconnect : Disconnect) (status : CloseStatus)
    (h : commons.cancelled) : (commons.close disconnect status).cancelled := by
  rw [close]
  split
  · exact h
  · rfl

theorem cancelled_confirm (commons : Commons) : commons.confirm.cancelled = commons.cancelled := by
  rw [confirm]
  split
  · split <;> rfl
  · rfl

theorem cancelled_perform (deed : Deed) (commons : Commons) (h : commons.cancelled) :
    (deed.perform commons).cancelled := by
  cases deed with
  | close disconnect status => exact cancelled_close commons disconnect status h
  | confirm => exact (cancelled_confirm commons).trans h
  | cancel => rfl
  | advanceCounter | resetCounter | countElsewhere | note => exact h

/-! ### The journal only grows -/

theorem journal_suffix_record (commons : Commons) (entry : Entry) :
    commons.journal <:+ (commons.record entry).journal := List.suffix_cons _ _

theorem journal_suffix_perform (deed : Deed) (commons : Commons) :
    commons.journal <:+ (deed.perform commons).journal := by
  cases deed with
  | close disconnect status =>
      rw [Deed.perform, close]
      split <;> exact (List.suffix_cons _ _).trans (List.suffix_cons _ _)
  | confirm =>
      rw [Deed.perform, confirm]
      split
      · split
        · exact List.suffix_rfl
        · exact (List.suffix_cons _ _).trans (List.suffix_cons _ _)
      · exact List.suffix_rfl
  | note => exact List.suffix_cons _ _
  | advanceCounter | resetCounter | cancel | countElsewhere => exact List.suffix_rfl

end Commons

end Rejoin
