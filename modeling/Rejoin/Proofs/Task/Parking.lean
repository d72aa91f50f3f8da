import Rejoin.Proofs.Task.Exchange

/-! Joins that never end. A join empties the outbox once and then waits for the task. If the task is
still at a failure by then, with another one in the inbox, and both come to a signal, the first
signal fills the outbox for good and the second one waits for room that nobody makes. In every other
case the task gets to its end. -/

namespace Rejoin

open Commons (Edits)

/-! ### The course of one failure -/

namespace Engine

/-- One failure, a little later: something else happened, or the engine was woken. -/
inductive Later (engine : Engine) : Commons × HandlingProgress → Commons × HandlingProgress → Prop
    where
  | others (deed : Deed) (commons : Commons) (progress : HandlingProgress) :
      Later engine (commons, progress) (deed.perform commons, progress)
  | waited (millis : Nat) (commons : Commons) (progress : HandlingProgress) :
      Later engine (commons, progress) ({ commons with now := commons.now + millis }, progress)
  | resumed {handling : Handling} {commons : Commons} (hdue : handling.isDue commons) :
      Later engine (commons, .waiting handling) (engine.resume handling commons)

/-- A failure can get from one point to another. -/
def Leads (engine : Engine) :
    Commons × HandlingProgress → Commons × HandlingProgress → Prop :=
  Relation.ReflTransGen (Later engine)

theorem cancelled_resume (engine : Engine) (handling : Handling) {commons : Commons}
    (h : commons.cancelled) : (engine.resume handling commons).1.cancelled := by
  rw [resume.eq_def, if_pos h]
  exact h

variable {engine : Engine} {before after : Commons × HandlingProgress}

theorem Later.cancelled (h : Later engine before after) (hcancelled : before.1.cancelled) :
    after.1.cancelled := by
  cases h with
  | others deed commons => exact Commons.cancelled_perform deed commons hcancelled
  | waited => exact hcancelled
  | resumed => exact engine.cancelled_resume _ hcancelled

theorem Leads.cancelled (h : engine.Leads before after) (hcancelled : before.1.cancelled) :
    after.1.cancelled := by
  induction h with
  | refl => exact hcancelled
  | tail _ hlast ih => exact hlast.cancelled ih

end Engine

namespace Pipeline.Task

/-- Whether a signal is in hand. -/
def isOffering : Task → Bool
  | .offering _ => true
  | .idle | .handling _ | .ended _ | .panicked _ | .aborted => false

theorem isOffering_iff {task : Task} : task.isOffering ↔ ∃ signal, task = .offering signal := by
  cases task <;> simp [isOffering]

/-- A task that is neither idle nor over is at some failure. -/
theorem exists_ofProgress {task : Task} (hbusy : task ≠ .idle) (hrunning : task.isOver = false) :
    ∃ progress, task = ofProgress progress := by
  cases task with
  | idle => exact absurd rfl hbusy
  | handling current => exact ⟨.waiting current, rfl⟩
  | offering signal => exact ⟨.finished (.ok signal), rfl⟩
  | ended | panicked | aborted => cases hrunning

end Pipeline.Task

/-! ### What the task still does -/

namespace Pipeline

/-- At most one signal is still to come, and there is room for it. -/
def Light (pipeline : Pipeline) : Prop :=
  pipeline.task.isOver ∨ (pipeline.outbox = none ∧ (pipeline.inbox = none ∨ pipeline.task = .idle)) ∨
    (pipeline.inbox = none ∧ pipeline.task = .idle)

variable {pipeline next : Pipeline} {commons after : Commons}

theorem Light.stepped (h : Stepped pipeline commons next after) (hlight : pipeline.Light) :
    next.Light := by
  cases h with
  | cancelled | closed | dropped => exact .inl rfl
  | took htask hopen hinbox =>
      rcases hlight with hover | ⟨houtbox, _⟩ | ⟨hnone, _⟩
      · rw [htask] at hover
        cases hover
      · exact .inr (.inl ⟨houtbox, .inl rfl⟩)
      · rw [hinbox] at hnone
        cases hnone
  | resumed htask =>
      rcases hlight with hover | ⟨houtbox, hnone | hidle⟩ | ⟨_, hidle⟩
      · rw [htask] at hover
        cases hover
      · exact .inr (.inl ⟨houtbox, .inl hnone⟩)
      all_goals
        rw [htask] at hidle
        cases hidle
  | placed htask =>
      rcases hlight with hover | ⟨_, hnone | hidle⟩ | ⟨_, hidle⟩
      · rw [htask] at hover
        cases hover
      · exact .inr (.inr ⟨hnone, rfl⟩)
      all_goals
        rw [htask] at hidle
        cases hidle

/-- How far the task got with two failures, the one it was at and the one in the inbox. -/
inductive Draining (origin : Commons × HandlingProgress) (failure : Option Failure)
    (pipeline : Pipeline) (commons : Commons) : Prop where
  | light (h : pipeline.Light)
  | first {progress : HandlingProgress} (hinbox : pipeline.inbox = some failure)
      (houtbox : pipeline.outbox = none) (htask : pipeline.task = .ofProgress progress)
      (h : pipeline.engine.Leads origin (commons, progress))
  | between {signal : Signal} (hinbox : pipeline.inbox = some failure)
      (htask : pipeline.task = .idle)
      (h : pipeline.engine.Leads origin (commons, .finished (.ok signal)))
  | second {between : Commons} {signal : Signal} {progress : HandlingProgress}
      (hinbox : pipeline.inbox = none) (htask : pipeline.task = .ofProgress progress)
      (hfirst : pipeline.engine.Leads origin (between, .finished (.ok signal)))
      (h : pipeline.engine.Leads (pipeline.engine.start failure between) (commons, progress))

namespace Draining

variable {origin : Commons × HandlingProgress} {failure : Option Failure}

theorem stepped (h : Stepped pipeline commons next after)
    (hdraining : Draining origin failure pipeline commons) :
    Draining origin failure next after := by
  cases hdraining with
  | light hlight => exact .light (hlight.stepped h)
  | first hinbox houtbox htask hleads =>
      cases h with
      | cancelled | closed | dropped => exact .light (.inl rfl)
      | took hidle => exact absurd (htask.symm.trans hidle) (Task.ofProgress_ne_idle _)
      | resumed hhandling hdue =>
          cases Task.eq_waiting_of_ofProgress (htask.symm.trans hhandling)
          exact .first hinbox houtbox rfl (hleads.tail (.resumed hdue))
      | placed hoffering =>
          cases Task.eq_finished_of_ofProgress (htask.symm.trans hoffering)
          exact .between hinbox rfl hleads
  | between hinbox htask hleads =>
      cases h with
      | cancelled | closed | dropped => exact .light (.inl rfl)
      | took _ _ htaken =>
          cases hinbox.symm.trans htaken
          exact .second rfl rfl hleads .refl
      | resumed hbusy | placed hbusy => cases htask.symm.trans hbusy
  | second hinbox htask hfirst hleads =>
      cases h with
      | cancelled | closed | dropped => exact .light (.inl rfl)
      | took hidle => exact absurd (htask.symm.trans hidle) (Task.ofProgress_ne_idle _)
      | resumed hhandling hdue =>
          cases Task.eq_waiting_of_ofProgress (htask.symm.trans hhandling)
          exact .second hinbox rfl hfirst (hleads.tail (.resumed hdue))
      | placed => exact .light (.inr (.inr ⟨hinbox, rfl⟩))

/-- What others do in the meantime makes no difference to the task, and neither does what the owner
is told. -/
theorem later (accepting receiving reported : Bool)
    (h : ∀ progress, pipeline.engine.Leads (commons, progress) (after, progress))
    (hdraining : Draining origin failure pipeline commons) :
    Draining origin failure { pipeline with accepting, receiving, reported } after := by
  cases hdraining with
  | light hlight => exact .light hlight
  | first hinbox houtbox htask hleads => exact .first hinbox houtbox htask (hleads.trans (h _))
  | between hinbox htask hleads => exact .between hinbox htask (hleads.trans (h _))
  | second hinbox htask hfirst hleads => exact .second hinbox htask hfirst (hleads.trans (h _))

end Draining

end Pipeline

namespace Exchange

/-- The task has a signal in hand and no room to put it. -/
def Parked (exchange : Exchange) : Prop :=
  exchange.pipeline.task.isOffering ∧ exchange.pipeline.outbox.isSome

instance (exchange : Exchange) : Decidable exchange.Parked := inferInstanceAs (Decidable (_ ∧ _))

/-- A join waits for the task, and nothing is cancelled. -/
def Waiting (exchange : Exchange) : Prop :=
  exchange.pending = some (.awaitEnd false) ∧ exchange.commons.cancelled = false

instance (exchange : Exchange) : Decidable exchange.Waiting := inferInstanceAs (Decidable (_ ∧ _))

/-- Nothing happens to the pipeline by itself any more, and no hook or delay is waited for. -/
def Stuck (exchange : Exchange) : Prop :=
  exchange.move .task = none ∧ exchange.move .answer = none ∧
    ∀ handling, exchange.pipeline.task = .handling handling → handling.isDue exchange.commons

/-- Two failures are still ahead of the owner, the one that the task is at and the one in the inbox,
and they can both come to a signal, the one after the other. -/
def Overfull (exchange : Exchange) : Prop :=
  ∃ failure progress between first second after,
    exchange.pipeline.inbox = some failure ∧
    exchange.pipeline.task = .ofProgress progress ∧
    exchange.pipeline.engine.Leads (exchange.commons, progress)
      (between, .finished (.ok first)) ∧
    exchange.pipeline.engine.Leads (exchange.pipeline.engine.start failure between)
      (after, .finished (.ok second)) ∧
    after.cancelled = false

/-- After the first step of a join, which empties the outbox. -/
def drained (exchange : Exchange) : Exchange :=
  exchange.settle .join exchange.pipeline.shut (.inl (.awaitEnd false))

variable {exchange next last : Exchange}

theorem move_answer_of_join (hjoin : exchange.pending = some .join) :
    exchange.move .answer = some exchange.drained := by
  rw [move, hjoin]
  rfl

/-! ### After the drain -/

/-- The owner has given the pipeline away and makes no further calls. -/
structure Closing (exchange : Exchange) : Prop where
  accepting : exchange.pipeline.accepting = false
  joining : exchange.joining
  pending : exchange.pending = none ∨ exchange.pending = some (.awaitEnd false)

theorem Owned.closing_drained (howned : exchange.Owned) (hjoin : exchange.pending = some .join) :
    exchange.drained.Closing :=
  ⟨rfl, howned.join hjoin, .inr rfl⟩

/-- From then on the task is on its own: everything else leaves it where it is. -/
theorem Closing.moved (hclosing : exchange.Closing) (h : exchange.Moved next) :
    next.Closing ∧ (exchange.pipeline.Stepped exchange.commons next.pipeline next.commons ∨
      (∃ accepting receiving reported,
          next.pipeline = { exchange.pipeline with accepting, receiving, reported }) ∧
        ∀ progress, exchange.pipeline.engine.Leads (exchange.commons, progress)
          (next.commons, progress)) := by
  obtain ⟨haccepting, hjoining, hpending⟩ := hclosing
  cases h with
  | task hstep => exact ⟨⟨hstep.accepting_eq.trans haccepting, hjoining, hpending⟩, .inl hstep⟩
  | called _ hstays =>
      rw [hjoining] at hstays
      cases hstays
  | answered hanswering hstep =>
      rcases hpending with hnone | hawait
      · rw [hnone] at hanswering
        cases hanswering
      · cases hawait.symm.trans hanswering
        cases hstep with
        | toldBefore | toldEnd | toldPanic | toldAborted =>
            exact ⟨⟨haccepting, hjoining, .inl rfl⟩, .inr ⟨⟨_, _, _, rfl⟩, fun _ => .refl⟩⟩
  | gaveUp hgiving =>
      rcases hpending with hnone | hawait
      · rw [hnone] at hgiving
        cases hgiving
      · cases hawait.symm.trans hgiving
        exact ⟨⟨rfl, hjoining, .inl rfl⟩, .inr ⟨⟨_, _, _, rfl⟩, fun _ => .refl⟩⟩
  | others deed =>
      exact ⟨⟨haccepting, hjoining, hpending⟩, .inr ⟨⟨_, _, _, rfl⟩, fun progress =>
        .single (.others deed exchange.commons progress)⟩⟩
  | waited millis =>
      exact ⟨⟨haccepting, hjoining, hpending⟩, .inr ⟨⟨_, _, _, rfl⟩, fun progress =>
        .single (.waited millis exchange.commons progress)⟩⟩

theorem Closing.reaches (hclosing : exchange.Closing) (h : exchange.Reaches last) : last.Closing :=
  h.invariant Closing (fun hmoved hbefore => (hbefore.moved hmoved).1) hclosing

/-- What the steps of the task and the time between them preserve holds from then on. -/
theorem Closing.invariant (hclosing : exchange.Closing) (h : exchange.Reaches last)
    (holds : Pipeline → Commons → Prop)
    (hstepped : ∀ {pipeline next commons after}, Pipeline.Stepped pipeline commons next after →
      holds pipeline commons → holds next after)
    (hlater : ∀ {pipeline commons after} (accepting receiving reported : Bool),
      (∀ progress, pipeline.engine.Leads (commons, progress) (after, progress)) →
        holds pipeline commons → holds { pipeline with accepting, receiving, reported } after)
    (hfirst : holds exchange.pipeline exchange.commons) : holds last.pipeline last.commons := by
  have hboth := h.invariant (fun exchange => exchange.Closing ∧
    holds exchange.pipeline exchange.commons) ?_ ⟨hclosing, hfirst⟩
  · exact hboth.2
  · intro before after hmoved hbefore
    obtain ⟨hclosing, hstep | ⟨⟨accepting, receiving, reported, hsame⟩, hleads⟩⟩ :=
      hbefore.1.moved hmoved
    · exact ⟨hclosing, hstepped hstep hbefore.2⟩
    · rw [hsame]
      exact ⟨hclosing, hlater accepting receiving reported hleads hbefore.2⟩

theorem Closing.draining {origin : Commons × HandlingProgress} {failure : Option Failure}
    (hclosing : exchange.Closing) (h : exchange.Reaches last)
    (hdraining : exchange.pipeline.Draining origin failure exchange.commons) :
    last.pipeline.Draining origin failure last.commons :=
  hclosing.invariant h (fun pipeline commons => pipeline.Draining origin failure commons)
    Pipeline.Draining.stepped Pipeline.Draining.later hdraining

theorem Closing.light (hclosing : exchange.Closing) (h : exchange.Reaches last)
    (hlight : exchange.pipeline.Light) : last.pipeline.Light :=
  hclosing.invariant h (fun pipeline _ => pipeline.Light) Pipeline.Light.stepped
    (fun _ _ _ _ => id) hlight

theorem Parked.not_light (h : exchange.Parked) : ¬ exchange.pipeline.Light := by
  obtain ⟨hoffering, houtbox⟩ := h
  obtain ⟨signal, htask⟩ := Pipeline.Task.isOffering_iff.1 hoffering
  rintro (hover | ⟨hnone, _⟩ | ⟨_, hidle⟩)
  · rw [htask] at hover
    cases hover
  · rw [hnone] at houtbox
    cases houtbox
  · cases htask.symm.trans hidle

/-- Of the ways to be stuck in a join, room that nobody makes is the only one. -/
theorem parked_iff_stuck (howned : exchange.Owned) (hclosing : exchange.Closing)
    (hwaiting : exchange.Waiting) : exchange.Parked ↔ exchange.Stuck := by
  obtain ⟨hpending, hopen⟩ := hwaiting
  have hthere := Bool.of_not_eq_false (howned.receiving_ne_false hpending)
  have htask : exchange.move .task = none ↔ exchange.pipeline.step exchange.commons = none :=
    Option.map_eq_none_iff
  have hanswer : exchange.move .answer = none ↔ exchange.pipeline.task.isOver = false := by
    rw [move, hpending, Option.bind_some, Option.map_eq_none_iff, Call.step_awaitEnd_eq_none_iff]
    refine ⟨And.right, fun hrunning => ⟨?_, hrunning⟩⟩
    exact Bool.eq_false_iff.2 fun htold => Bool.eq_false_iff.1 hrunning (howned.reported htold)
  rw [Stuck, htask, hanswer, Pipeline.step_eq_none_iff hopen]
  constructor
  · rintro ⟨hoffering, houtbox⟩
    obtain ⟨signal, hsignal⟩ := Pipeline.Task.isOffering_iff.1 hoffering
    refine ⟨.inr (.inr (.inl ⟨signal, hsignal, hthere, Option.isSome_iff_ne_none.1 houtbox⟩)), ?_⟩
    rw [hsignal]
    refine ⟨rfl, ?_⟩
    intro handling hhandling
    cases hhandling
  · rintro ⟨⟨_, _, haccepting⟩ | ⟨handling, hhandling, hlater⟩ | ⟨signal, hsignal, _, houtbox⟩ |
      hover, hrunning, hdue⟩
    · exact absurd haccepting (Bool.eq_false_iff.1 hclosing.accepting)
    · exact absurd (hdue handling hhandling) (Bool.eq_false_iff.1 hlater)
    · exact ⟨Pipeline.Task.isOffering_iff.2 ⟨signal, hsignal⟩,
        Option.isSome_iff_ne_none.2 houtbox⟩
    · exact absurd hover (Bool.eq_false_iff.1 hrunning)

/-! ### Both signals can come -/

/-- The moves of an exchange can take the failure that its task is at wherever it can get. -/
theorem reaches_of_leads {progress : HandlingProgress} {target : Commons × HandlingProgress}
    (htask : exchange.pipeline.task = .ofProgress progress)
    (h : exchange.pipeline.engine.Leads (exchange.commons, progress) target) :
    exchange.Reaches { exchange with
      pipeline := { exchange.pipeline with task := .ofProgress target.2 }
      commons := target.1 } := by
  induction h with
  | refl =>
      rw [← htask]
      exact .refl
  | tail _ hlater ih =>
      cases hlater with
      | others deed => exact ih.step (.others deed) rfl
      | waited millis => exact ih.step (.wait millis) rfl
      | resumed hdue => exact ih.step .task (move_task (Pipeline.step_of_resumed rfl hdue))

theorem parks_of_overfull (h : exchange.Overfull) (houtbox : exchange.pipeline.outbox = none)
    (hthere : exchange.pipeline.receiving) :
    ∃ last, exchange.Reaches last ∧ last.pending = exchange.pending ∧
      last.commons.cancelled = false ∧ last.Parked := by
  obtain ⟨failure, progress, between, first, second, after, hinbox, htask, hfirst, hsecond,
    hopen⟩ := h
  have hbetween : between.cancelled = false := by
    apply Bool.eq_false_iff.2
    intro hcancelled
    rw [Engine.start_of_cancelled hcancelled] at hsecond
    exact Bool.eq_false_iff.1 hopen (hsecond.cancelled hcancelled)
  have hoffered := reaches_of_leads htask hfirst
  have hplaced := hoffered.step .task
    (move_task (Pipeline.step_of_placed rfl hbetween hthere houtbox))
  have htaken := hplaced.step .task (move_task (Pipeline.step_of_took rfl hbetween hinbox))
  exact ⟨_, htaken.trans (reaches_of_leads rfl hsecond), rfl, hopen, rfl, rfl⟩

/-- A task that parks after the drain has got through both failures. -/
theorem Closing.overfull_of_parks (hclosing : exchange.Closing)
    (houtbox : exchange.pipeline.outbox = none) (h : exchange.Reaches last)
    (hopen : last.commons.cancelled = false) (hparked : last.Parked) : exchange.Overfull := by
  have hheavy : ¬ exchange.pipeline.Light := fun hlight =>
    hparked.not_light (hclosing.light h hlight)
  rw [Pipeline.Light, not_or, not_or, not_and, not_or] at hheavy
  obtain ⟨hrunning, hboth, -⟩ := hheavy
  obtain ⟨hfull, hbusy⟩ := hboth houtbox
  obtain ⟨failure, hinbox⟩ := Option.ne_none_iff_exists'.1 hfull
  obtain ⟨progress, htask⟩ :=
    Pipeline.Task.exists_ofProgress hbusy (Bool.eq_false_iff.2 hrunning)
  have hdraining := hclosing.draining h
    (Pipeline.Draining.first hinbox houtbox htask .refl)
  obtain ⟨hoffering, hfilled⟩ := hparked
  obtain ⟨signal, hsignal⟩ := Pipeline.Task.isOffering_iff.1 hoffering
  cases hdraining with
  | light hlight => exact absurd hlight (Parked.not_light ⟨hoffering, hfilled⟩)
  | first _ hempty =>
      rw [hempty] at hfilled
      cases hfilled
  | between _ hidle => cases hsignal.symm.trans hidle
  | second _ hlast hfirst hsecond =>
      cases Pipeline.Task.eq_finished_of_ofProgress (hlast.symm.trans hsignal)
      rw [h.engine_eq] at hfirst hsecond
      exact ⟨failure, progress, _, _, _, _, hinbox, htask, hfirst, hsecond, hopen⟩

/-- A join can be left waiting for a task that is parked, exactly if two failures that both come to
a signal are still ahead when it empties the outbox; whenever the task is not parked, it goes on by
itself or its end is taken note of. -/
theorem Reaches.join_parks_iff {engine : Engine} {commons : Commons}
    (h : (initial engine commons).Reaches exchange) (hjoin : exchange.pending = some .join) :
    exchange.move .answer = some exchange.drained ∧
      exchange.drained.pending = some (.awaitEnd false) ∧
      (∀ last, exchange.drained.Reaches last → last.Waiting → (last.Parked ↔ last.Stuck)) ∧
      ((∃ last, exchange.drained.Reaches last ∧ last.Waiting ∧ last.Parked) ↔
        exchange.Overfull) := by
  have hmove := move_answer_of_join hjoin
  have howned := h.owned
  have hclosing := howned.closing_drained hjoin
  refine ⟨hmove, rfl, ?_, ?_, ?_⟩
  · intro last hlast hwaiting
    exact parked_iff_stuck ((h.step .answer hmove).trans hlast).owned (hclosing.reaches hlast)
      hwaiting
  · rintro ⟨last, hlast, hwaiting, hparked⟩
    exact hclosing.overfull_of_parks rfl hlast hwaiting.2 hparked
  · intro hover
    have hthere : exchange.drained.pipeline.receiving :=
      Bool.of_not_eq_false (howned.receiving_ne_false hjoin)
    have hdrained : exchange.drained.Overfull := hover
    obtain ⟨last, hlast, hpending, hopen, hparked⟩ := parks_of_overfull hdrained rfl hthere
    exact ⟨last, hlast, ⟨hpending, hopen⟩, hparked⟩

/-- Three failures handed in without a signal taken out, to an engine without hooks or delays, and
then a join. -/
theorem exists_crowded : ∃ exchange last,
    (initial { policy := .prompt } .initial).Reaches exchange ∧ exchange.pending = some .join ∧
      exchange.drained.Reaches last ∧ last.Waiting ∧ last.Parked := by
  have hrun : ((initial { policy := .prompt } .initial).run
      [.call (.submit (some (.closed ⟨4000, none⟩))), .answer, .task, .task,
        .call (.submit (some (.closed ⟨4000, none⟩))), .answer, .task,
        .call (.submit (some (.closed ⟨4000, none⟩))), .answer, .call .join]).bind
      (fun exchange => (exchange.drained.run [.task, .task]).map fun last =>
        decide (exchange.pending = some .join ∧ last.Waiting ∧ last.Parked)) = some true := by
    decide +kernel
  obtain ⟨exchange, hmoves, hrest⟩ := Option.bind_eq_some_iff.1 hrun
  obtain ⟨last, hlast, hend⟩ := Option.map_eq_some_iff.1 hrest
  obtain ⟨hjoin, hwaiting, hparked⟩ := of_decide_eq_true hend
  exact ⟨exchange, last, reaches_of_run hmoves, hjoin, reaches_of_run hlast, hwaiting, hparked⟩

theorem overfull_when_crowded :
    ∃ exchange, (initial { policy := .prompt } .initial).Reaches exchange ∧
      exchange.pending = some .join ∧ exchange.Overfull := by
  obtain ⟨exchange, last, hreaches, hjoin, hlast, hwaiting, hparked⟩ := exists_crowded
  obtain ⟨-, -, -, hparks⟩ := hreaches.join_parks_iff hjoin
  exact ⟨exchange, hreaches, hjoin, hparks.1 ⟨last, hlast, hwaiting, hparked⟩⟩

/-- Nothing is cancelled and nothing is waited for, yet the join does not come to its end. -/
theorem exists_stuck_join : ∃ exchange last,
    (initial { policy := .prompt } .initial).Reaches exchange ∧ exchange.pending = some .join ∧
      exchange.move .answer = some exchange.drained ∧ exchange.drained.Reaches last ∧
      last.Waiting ∧ last.Parked ∧ last.Stuck := by
  obtain ⟨exchange, last, hreaches, hjoin, hlast, hwaiting, hparked⟩ := exists_crowded
  have hmove := move_answer_of_join hjoin
  have hclosing := hreaches.owned.closing_drained hjoin
  have hstuck := (parked_iff_stuck ((hreaches.step .answer hmove).trans hlast).owned
    (hclosing.reaches hlast) hwaiting).1 hparked
  exact ⟨exchange, last, hreaches, hjoin, hmove, hlast, hwaiting, hparked, hstuck⟩

end Exchange

end Rejoin
