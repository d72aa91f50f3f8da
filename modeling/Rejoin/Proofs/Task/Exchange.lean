import Rejoin.Proofs.Task.Steps

/-! A pipeline and its owner, and everything that may happen to them. The task and the owner take
their steps in any order; in between, others do whatever a hook or a connector may do, and time
passes. What the owner got accepted and what it received is kept in two lists, oldest first. -/

namespace Rejoin

namespace Call

/-- Whether an owner may make the call, rather than being in the middle of it. -/
def isOpening : Call → Bool
  | .submit _ | .proceed | .retry _ | .join => true
  | .awaitSignal | .awaitEnd _ => false

def isJoin : Call → Bool
  | .join => true
  | _ => false

/-- What a step of a call got accepted. -/
def accepts : Call → Call ⊕ Reply → List (Option Failure)
  | .submit failure, .inr (.accepted true) => [failure]
  | .retry failure, .inl .awaitSignal => [failure]
  | _, _ => []

end Call

/-- The signal that a reply hands over. -/
def Reply.signals : Reply → List Signal
  | .proceeded signal => signal.toList
  | .retried (.ok signal) => [signal]
  | _ => []

theorem Reply.signals_ofEnd (retrying : Bool) (result : Except RetryError Unit) :
    (Reply.ofEnd retrying result).signals = [] := by
  cases retrying <;> cases result <;> rfl

structure Exchange where
  pipeline : Pipeline
  commons : Commons
  /-- The call that the owner is in the middle of. -/
  pending : Option Call := none
  /-- Whether the owner has given the pipeline away to a join. -/
  joining : Bool := false
  accepted : List (Option Failure) := []
  received : List Signal := []

namespace Exchange

/-- A fresh pipeline. The journal begins with it. -/
def initial (engine : Engine) (commons : Commons) : Exchange where
  pipeline := { engine }
  commons := { commons with journal := [] }

inductive Move where
  /-- The task takes a step. -/
  | task
  /-- The owner makes a call. -/
  | call (call : Call)
  /-- The pending call takes a step. -/
  | answer
  /-- The owner gives up a call that has to wait. -/
  | giveUp
  | others (deed : Deed)
  | wait (millis : Nat)

/-- What follows a step of the pending call. -/
def settle (exchange : Exchange) (call : Call) (pipeline : Pipeline) (result : Call ⊕ Reply) :
    Exchange :=
  { exchange with
    pipeline
    pending := result.getLeft?
    accepted := exchange.accepted ++ call.accepts result
    received := exchange.received ++ result.elim (fun _ => []) Reply.signals }

/-- A join that is given up leaves the task to itself. -/
def withdraw (exchange : Exchange) (call : Call) : Exchange :=
  { exchange with
    pending := none
    pipeline := match call with
      | .awaitEnd false => exchange.pipeline.detach
      | _ => exchange.pipeline }

def move (exchange : Exchange) : Move → Option Exchange
  | .task => (exchange.pipeline.step exchange.commons).map fun (pipeline, commons) =>
    { exchange with pipeline, commons }
  | .call call =>
    if exchange.pending.isNone ∧ ¬ exchange.joining ∧ call.isOpening then
      some { exchange with pending := some call, joining := call.isJoin }
    else none
  | .answer => exchange.pending.bind fun call => (call.step exchange.pipeline).map
    fun (pipeline, result) => exchange.settle call pipeline result
  | .giveUp => exchange.pending.bind fun call =>
    if (call.step exchange.pipeline).isNone then some (exchange.withdraw call) else none
  | .others deed => some { exchange with commons := deed.perform exchange.commons }
  | .wait millis => some { exchange with commons.now := exchange.commons.now + millis }

/-- Moves in a row, if all of them are possible. -/
def run (exchange : Exchange) (moves : List Move) : Option Exchange := moves.foldlM move exchange

/-- One exchange can become another. -/
def Reaches : Exchange → Exchange → Prop :=
  Relation.ReflTransGen fun before after => ∃ next, before.move next = some after

variable {exchange next last : Exchange}

theorem Reaches.step (h : exchange.Reaches next) (move : Move) (hmove : next.move move = some last) :
    exchange.Reaches last := h.tail ⟨move, hmove⟩

theorem Reaches.trans (h : exchange.Reaches next) (hrest : next.Reaches last) :
    exchange.Reaches last := Relation.ReflTransGen.trans h hrest

theorem reaches_of_run {moves : List Move} (h : exchange.run moves = some last) :
    exchange.Reaches last := reflTransGen_of_foldlM h

theorem move_task {pipeline : Pipeline} {commons : Commons}
    (h : exchange.pipeline.step exchange.commons = some (pipeline, commons)) :
    exchange.move .task = some { exchange with pipeline, commons } :=
  Option.map_eq_some_iff.2 ⟨_, h, rfl⟩

/-- The steps of the task are moves, and so are its turns. -/
theorem reaches_of_goes {after : Pipeline × Commons}
    (h : Pipeline.Goes (exchange.pipeline, exchange.commons) after) :
    exchange.Reaches { exchange with pipeline := after.1, commons := after.2 } := by
  induction h with
  | refl => exact .refl
  | tail _ hstep ih => exact ih.step .task (move_task hstep)

/-- The moves, each with the conditions it is made under. -/
inductive Moved (exchange : Exchange) : Exchange → Prop where
  | task {pipeline : Pipeline} {commons : Commons}
      (h : exchange.pipeline.Stepped exchange.commons pipeline commons) :
      Moved exchange { exchange with pipeline, commons }
  | called {call : Call} (hpending : exchange.pending = none)
      (hstays : exchange.joining = false) (hopening : call.isOpening) :
      Moved exchange { exchange with pending := some call, joining := call.isJoin }
  | answered {call : Call} {pipeline : Pipeline} {result : Call ⊕ Reply}
      (hpending : exchange.pending = some call)
      (h : Call.Stepped exchange.pipeline call pipeline result) :
      Moved exchange (exchange.settle call pipeline result)
  | gaveUp {call : Call} (hpending : exchange.pending = some call) :
      Moved exchange (exchange.withdraw call)
  | others (deed : Deed) : Moved exchange { exchange with commons := deed.perform exchange.commons }
  | waited (millis : Nat) :
      Moved exchange { exchange with commons.now := exchange.commons.now + millis }

theorem moved_of_move {move : Move} (h : exchange.move move = some next) :
    exchange.Moved next := by
  cases move with
  | task =>
      obtain ⟨⟨pipeline, commons⟩, hstep, rfl⟩ := Option.map_eq_some_iff.1 h
      exact .task (Pipeline.stepped_of_step hstep)
  | call call =>
      rw [Exchange.move] at h
      split at h
      case isTrue hcall =>
          cases h
          exact .called (Option.isNone_iff_eq_none.1 hcall.1) (Bool.eq_false_iff.2 hcall.2.1)
            hcall.2.2
      case isFalse => cases h
  | answer =>
      obtain ⟨call, hpending, hanswer⟩ := Option.bind_eq_some_iff.1 h
      obtain ⟨⟨pipeline, result⟩, hstep, rfl⟩ := Option.map_eq_some_iff.1 hanswer
      exact .answered hpending (Call.stepped_of_step hstep)
  | giveUp =>
      obtain ⟨call, hpending, hgive⟩ := Option.bind_eq_some_iff.1 h
      split at hgive <;> cases hgive
      exact .gaveUp hpending
  | others deed =>
      cases h
      exact .others deed
  | wait millis =>
      cases h
      exact .waited millis

/-- What every move preserves holds wherever they lead. -/
theorem Reaches.invariant (h : exchange.Reaches last) (holds : Exchange → Prop)
    (hmoved : ∀ {before after}, Moved before after → holds before → holds after)
    (hfirst : holds exchange) : holds last := by
  induction h with
  | refl => exact hfirst
  | tail _ hlast ih =>
      obtain ⟨move, hmove⟩ := hlast
      exact hmoved (moved_of_move hmove) ih

/-- The engine stays the same. -/
theorem Reaches.engine_eq (h : exchange.Reaches last) :
    last.pipeline.engine = exchange.pipeline.engine := by
  refine h.invariant (fun next => next.pipeline.engine = exchange.pipeline.engine) ?_ rfl
  intro before after hmoved hbefore
  cases hmoved with
  | task hstep => exact hstep.engine_eq.trans hbefore
  | answered _ hstep => exact hstep.engine_eq.trans hbefore
  | @gaveUp call =>
      refine Eq.trans ?_ hbefore
      cases call with
      | awaitEnd retrying => cases retrying <;> rfl
      | submit | proceed | retry | awaitSignal | join => rfl
  | called | others | waited => exact hbefore

/-! ### The owner's side -/

/-- The owner waits for the end only once it is due or the pipeline is given away, and nobody else
stops the pipeline from accepting or receiving; it is told of the end only after the end. -/
structure Owned (exchange : Exchange) : Prop where
  join : exchange.pending = some .join → exchange.joining
  awaitEnd : exchange.pending = some (.awaitEnd false) → exchange.joining
  accepting : exchange.pipeline.accepting = false →
    exchange.joining ∨ exchange.pipeline.task.isOver
  receiving : exchange.pipeline.receiving = false → exchange.joining ∧ exchange.pending = none
  reported : exchange.pipeline.reported → exchange.pipeline.task.isOver

theorem owned_initial (engine : Engine) (commons : Commons) : (initial engine commons).Owned where
  join := nofun
  awaitEnd := nofun
  accepting := nofun
  receiving := nofun
  reported := nofun

theorem pipeline_withdraw (exchange : Exchange) {call : Call} (h : call ≠ .awaitEnd false) :
    (exchange.withdraw call).pipeline = exchange.pipeline := by
  cases call with
  | awaitEnd retrying =>
      cases retrying with
      | true => rfl
      | false => exact absurd rfl h
  | submit | proceed | retry | awaitSignal | join => rfl

/-- A call stops the pipeline from accepting only if that is due. -/
theorem Owned.accepting_of_stepped (howned : exchange.Owned) {call : Call} {pipeline : Pipeline}
    {result : Call ⊕ Reply} (hpending : exchange.pending = some call)
    (h : Call.Stepped exchange.pipeline call pipeline result)
    (hclosed : pipeline.accepting = false) :
    exchange.joining ∨ exchange.pipeline.task.isOver := by
  cases h with
  | retryRefused hrefused => exact hrefused.elim howned.accepting .inr
  | missed _ hover => exact .inr hover
  | joined => exact .inl (howned.join hpending)
  | refused | accepted | retryAccepted | proceeded | proceededNone | retried | toldBefore
  | toldEnd | toldPanic | toldAborted => exact howned.accepting hclosed

/-- An owner in the middle of a call is still there to receive. -/
theorem Owned.receiving_ne_false (howned : exchange.Owned) {call : Call}
    (hpending : exchange.pending = some call) : exchange.pipeline.receiving ≠ false := by
  intro hleft
  have hnone := (howned.receiving hleft).2
  rw [hpending] at hnone
  cases hnone

theorem Owned.moved (h : exchange.Moved next) (howned : exchange.Owned) : next.Owned := by
  cases h with
  | task hstep =>
      have hrunning := Bool.eq_false_iff.1 hstep.isOver_eq_false
      refine ⟨howned.join, howned.awaitEnd, ?_, ?_, ?_⟩
      · intro hclosed
        rw [hstep.accepting_eq] at hclosed
        exact .inl ((howned.accepting hclosed).resolve_right hrunning)
      · intro hleft
        rw [hstep.receiving_eq] at hleft
        exact howned.receiving hleft
      · intro htold
        rw [hstep.reported_eq] at htold
        exact absurd (howned.reported htold) hrunning
  | called hpending hstays hopening =>
      have hnot := Bool.eq_false_iff.1 hstays
      refine ⟨?_, ?_, ?_, ?_, howned.reported⟩
      · intro hjoin
        cases hjoin
        rfl
      · intro hawait
        cases hawait
        cases hopening
      · intro hclosed
        exact .inr ((howned.accepting hclosed).resolve_left hnot)
      · intro hleft
        exact absurd (howned.receiving hleft).1 hnot
  | @answered call pipeline result hpending hstep =>
      refine ⟨?_, ?_, ?_, ?_, ?_⟩
      · intro hjoin
        cases hstep <;> cases hjoin
      · intro hawait
        cases hstep <;> cases hawait
        exact howned.join hpending
      · intro hclosed
        change exchange.joining ∨ pipeline.task.isOver
        rw [hstep.task_eq]
        exact howned.accepting_of_stepped hpending hstep hclosed
      · intro hleft
        rw [settle, hstep.receiving_eq] at hleft
        exact absurd hleft (howned.receiving_ne_false hpending)
      · intro htold
        change pipeline.task.isOver
        rw [hstep.task_eq]
        exact (hstep.reported_cases htold).elim howned.reported id
  | @gaveUp call hpending =>
      by_cases hawait : call = .awaitEnd false
      · cases hawait
        have hjoining := howned.awaitEnd hpending
        exact ⟨nofun, nofun, fun _ => .inl hjoining, fun _ => ⟨hjoining, rfl⟩, howned.reported⟩
      · have hsame := exchange.pipeline_withdraw hawait
        refine ⟨nofun, nofun, ?_, ?_, ?_⟩
        · intro hclosed
          rw [hsame] at hclosed ⊢
          exact howned.accepting hclosed
        · intro hleft
          rw [hsame] at hleft
          exact absurd hleft (howned.receiving_ne_false hpending)
        · intro htold
          rw [hsame] at htold ⊢
          exact howned.reported htold
  | others | waited =>
      exact ⟨howned.join, howned.awaitEnd, howned.accepting, howned.receiving, howned.reported⟩

theorem Reaches.owned {engine : Engine} {commons : Commons}
    (h : (initial engine commons).Reaches exchange) : exchange.Owned :=
  h.invariant Owned Owned.moved (owned_initial engine commons)

/-- What every move keeps of a pipeline that is owned holds wherever the moves lead from a fresh
one. -/
theorem Reaches.invariant_of_owned {engine : Engine} {commons : Commons}
    (h : (initial engine commons).Reaches last) (holds : Exchange → Prop)
    (hmoved : ∀ {before after}, Moved before after → before.Owned → holds before → holds after)
    (hfirst : holds (initial engine commons)) : holds last := by
  have hboth : last.Owned ∧ holds last :=
    h.invariant (fun exchange => exchange.Owned ∧ holds exchange)
      (fun hstep hbefore => ⟨Owned.moved hstep hbefore.1, hmoved hstep hbefore.1 hbefore.2⟩)
      ⟨owned_initial engine commons, hfirst⟩
  exact hboth.2

end Exchange

end Rejoin
