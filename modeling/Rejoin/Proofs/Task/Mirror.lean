import Rejoin.Proofs.Task.Steps

/-! Retrying through a pipeline, against calling its engine directly. An owner that makes nothing but
retries, each awaited before the next, gets from the pipeline what it would get from the engine, one
failure after the other: the same replies, with the same hooks, delays, draws and counts in between.
After the first failure that came to no signal the pipeline does nothing any more. -/

namespace Rejoin

/-- Whether a retry came to a signal. -/
def Reply.isSignal : Reply → Bool
  | .retried (.ok _) => true
  | _ => false

/-- What retries came to, oldest first, each with the counter at its end. -/
abbrev Results := List (Reply × Counter)

/-- Whether some retry came to no signal. -/
def Results.spent (results : Results) : Bool := results.any fun result => ! result.1.isSignal

namespace Results

/-- Which retries came to a signal, oldest first. -/
def signals (results : Results) : List Bool := results.map fun result => result.1.isSignal

theorem spent_concat (results : Results) (reply : Reply) (counter : Counter) :
    spent (results ++ [(reply, counter)]) = (results.spent || ! reply.isSignal) := by
  rw [spent, List.any_append, List.any_cons, List.any_nil, Bool.or_false]
  rfl

theorem spent_append {results : Results} (h : results.spent) (more : Results) :
    spent (results ++ more) := by
  rw [spent, List.any_append]
  exact Bool.or_eq_true_iff.2 (.inl h)

end Results

/-- A pipeline whose owner makes nothing but retries, each awaited before the next. -/
structure Piped where
  pipeline : Pipeline
  commons : Commons
  /-- The retry that the owner is in the middle of. -/
  pending : Option Call := none
  asked : List (Option Failure) := []
  results : Results := []

namespace Piped

/-- A fresh pipeline. -/
def initial (engine : Engine) (commons : Commons) : Piped where
  pipeline := { engine }
  commons

inductive Move where
  /-- The task takes a step. -/
  | task
  /-- The owner makes the next retry. -/
  | retry (failure : Option Failure)
  /-- The pending retry takes a step. -/
  | answer
  | wait (millis : Nat)

/-- What follows a step of the pending retry. -/
def settle (piped : Piped) (pipeline : Pipeline) : Call ⊕ Reply → Piped
  | .inl call => { piped with pipeline, pending := some call }
  | .inr reply =>
    { piped with
      pipeline
      pending := none
      results := piped.results ++ [(reply, piped.commons.counter)] }

def move (piped : Piped) : Move → Option Piped
  | .task => (piped.pipeline.step piped.commons).map fun (pipeline, commons) =>
    { piped with pipeline, commons }
  | .retry failure =>
    if piped.pending.isNone then
      some { piped with pending := some (.retry failure), asked := piped.asked ++ [failure] }
    else none
  | .answer => piped.pending.bind fun call => (call.step piped.pipeline).map
    fun (pipeline, result) => piped.settle pipeline result
  | .wait millis => some { piped with commons.now := piped.commons.now + millis }

/-- Moves in a row, if all of them are possible. -/
def run (piped : Piped) (moves : List Move) : Option Piped := moves.foldlM move piped

def Reaches : Piped → Piped → Prop :=
  Relation.ReflTransGen fun before after => ∃ next, before.move next = some after

/-- What comes about without the owner, and without time passing. -/
def Goes : Piped → Piped → Prop :=
  Relation.ReflTransGen fun before after =>
    before.move .task = some after ∨ before.move .answer = some after

variable {piped next last : Piped}

theorem reaches_of_run {moves : List Move} (h : piped.run moves = some last) :
    piped.Reaches last := reflTransGen_of_foldlM h

theorem Goes.reaches (h : piped.Goes next) : piped.Reaches next :=
  Relation.ReflTransGen.mono (fun _ _ hmove => hmove.elim (⟨.task, ·⟩) (⟨.answer, ·⟩)) _ _ h

theorem move_task {pipeline : Pipeline} {commons : Commons}
    (h : piped.pipeline.step piped.commons = some (pipeline, commons)) :
    piped.move .task = some { piped with pipeline, commons } :=
  Option.map_eq_some_iff.2 ⟨_, h, rfl⟩

theorem move_answer {call : Call} {pipeline : Pipeline} {result : Call ⊕ Reply}
    (hpending : piped.pending = some call)
    (h : call.step piped.pipeline = some (pipeline, result)) :
    piped.move .answer = some (piped.settle pipeline result) := by
  rw [move, hpending, Option.bind_some, h]
  rfl

theorem move_task_eq_none (h : piped.pipeline.step piped.commons = none) :
    piped.move .task = none := by
  rw [move, h]
  rfl

/-- The token stays cancelled, and what retries came to stays as it is. -/
theorem kept_of_move {move : Move} (hmove : piped.move move = some next) :
    (piped.commons.cancelled → next.commons.cancelled) ∧ piped.results <+: next.results := by
  cases move with
  | task =>
      obtain ⟨⟨pipeline, commons⟩, hstep, rfl⟩ := Option.map_eq_some_iff.1 hmove
      refine ⟨fun h => ?_, List.prefix_refl _⟩
      obtain ⟨-, rfl⟩ := (Pipeline.stepped_of_step hstep).of_cancelled h
      exact h
  | retry failure =>
      obtain ⟨-, hmove⟩ := Option.ite_none_right_eq_some.1 hmove
      cases hmove
      exact ⟨id, List.prefix_refl _⟩
  | answer =>
      obtain ⟨call, -, hmove⟩ := Option.bind_eq_some_iff.1 hmove
      obtain ⟨⟨pipeline, result⟩, -, rfl⟩ := Option.map_eq_some_iff.1 hmove
      cases result with
      | inl call => exact ⟨id, List.prefix_refl _⟩
      | inr reply => exact ⟨id, List.prefix_append _ _⟩
  | wait millis =>
      cases hmove
      exact ⟨id, List.prefix_refl _⟩

end Piped

/-- An engine that is called directly, with one failure after the other. -/
structure Direct where
  engine : Engine
  commons : Commons
  /-- The failure on its way. -/
  current : Option Handling := none
  asked : List (Option Failure) := []
  results : Results := []

namespace Direct

def initial (engine : Engine) (commons : Commons) : Direct := { engine, commons }

inductive Move where
  /-- The next failure. -/
  | call (failure : Option Failure)
  /-- The engine carries on, once woken. -/
  | resume
  | wait (millis : Nat)

def conclude (direct : Direct) (commons : Commons) (reply : Reply) : Direct :=
  { direct with
    commons
    current := none
    results := direct.results ++ [(reply, commons.counter)] }

/-- What follows once the failure got so far. -/
def settle (direct : Direct) : Commons × HandlingProgress → Direct
  | (commons, .finished result) => direct.conclude commons (.retried result)
  | (commons, .panicked message) => direct.conclude commons (.panicked message)
  | (commons, .waiting handling) => { direct with commons, current := some handling }

/-- Hands the engine a failure. Once one came to no signal the engine is not called any more. -/
def call (direct : Direct) (failure : Option Failure) : Direct :=
  let direct := { direct with asked := direct.asked ++ [failure] }
  if direct.results.spent then direct.conclude direct.commons (.retried (.error .cancelled))
  else direct.settle (direct.engine.start failure direct.commons)

def move (direct : Direct) : Move → Option Direct
  | .call failure => if direct.current.isNone then some (direct.call failure) else none
  | .resume => direct.current.bind fun handling =>
    if handling.isDue direct.commons then
      some (direct.settle (direct.engine.resume handling direct.commons))
    else none
  | .wait millis => some { direct with commons.now := direct.commons.now + millis }

def Reaches : Direct → Direct → Prop :=
  Relation.ReflTransGen fun before after => ∃ next, before.move next = some after

/-- Moves in a row, if all of them are possible. -/
def run (direct : Direct) (moves : List Move) : Option Direct := moves.foldlM move direct

variable {direct next last : Direct}

theorem reaches_of_run {moves : List Move} (h : direct.run moves = some last) :
    direct.Reaches last := reflTransGen_of_foldlM h

theorem move_call (hcurrent : direct.current = none) (failure : Option Failure) :
    direct.move (.call failure) = some (direct.call failure) := by
  rw [move, hcurrent]
  rfl

theorem move_resume {handling : Handling} (hcurrent : direct.current = some handling)
    (hdue : handling.isDue direct.commons) :
    direct.move .resume = some (direct.settle (direct.engine.resume handling direct.commons)) := by
  rw [move, hcurrent]
  exact if_pos hdue

theorem call_of_fresh (hfresh : direct.results.spent = false) (failure : Option Failure) :
    direct.call failure = settle { direct with asked := direct.asked ++ [failure] }
      (direct.engine.start failure direct.commons) := if_neg (Bool.eq_false_iff.1 hfresh)

theorem call_of_spent (hspent : direct.results.spent) (failure : Option Failure) :
    direct.call failure = conclude { direct with asked := direct.asked ++ [failure] }
      direct.commons (.retried (.error .cancelled)) := if_pos hspent

theorem settle_asked (progress : Commons × HandlingProgress) :
    (direct.settle progress).asked = direct.asked := by
  rcases progress with ⟨commons, (error | signal) | message | handling⟩ <;> rfl

theorem settle_commons (progress : Commons × HandlingProgress) :
    (direct.settle progress).commons = progress.1 := by
  rcases progress with ⟨commons, (error | signal) | message | handling⟩ <;> rfl

/-- With the token cancelled it stays so. -/
theorem cancelled_of_move {move : Move} (hmove : direct.move move = some next)
    (h : direct.commons.cancelled) : next.commons.cancelled := by
  cases move with
  | call failure =>
      obtain ⟨-, hmove⟩ := Option.ite_none_right_eq_some.1 hmove
      cases hmove
      cases hspent : direct.results.spent with
      | true => rwa [call_of_spent hspent]
      | false => rwa [call_of_fresh hspent, settle_commons, Engine.start_of_cancelled h]
  | resume =>
      obtain ⟨handling, -, hmove⟩ := Option.bind_eq_some_iff.1 hmove
      obtain ⟨-, hmove⟩ := Option.ite_none_right_eq_some.1 hmove
      cases hmove
      rwa [settle_commons, Engine.resume.eq_def, if_pos h]
  | wait millis =>
      cases hmove
      exact h

/-- After a failure without a signal every other one is refused, and nothing else happens. -/
theorem Reaches.of_spent (hspent : direct.results.spent) (hcurrent : direct.current = none)
    (h : direct.Reaches last) :
    last.current = none ∧ ∃ millis calls,
      last.commons = { direct.commons with now := direct.commons.now + millis } ∧
      last.results = direct.results ++
        List.replicate calls (.retried (.error .cancelled), direct.commons.counter) := by
  induction h with
  | refl => exact ⟨hcurrent, 0, 0, rfl, (List.append_nil _).symm⟩
  | @tail before after _ hlast ih =>
      obtain ⟨hbefore, millis, calls, hcommons, hresults⟩ := ih
      obtain ⟨move, hmove⟩ := hlast
      cases move with
      | call failure =>
          rw [move_call hbefore, call_of_spent (hresults ▸ Results.spent_append hspent _)] at hmove
          cases hmove
          refine ⟨rfl, millis, calls + 1, hcommons, ?_⟩
          rw [conclude, hresults, hcommons, List.replicate_succ', List.append_assoc]
      | resume =>
          rw [move, hbefore] at hmove
          cases hmove
      | wait more =>
          cases hmove
          refine ⟨hbefore, millis + more, calls, ?_, hresults⟩
          rw [hcommons, Nat.add_assoc]

end Direct

/-- What a task that is over without a signal tells the owner. -/
inductive Pipeline.Task.Tells : Pipeline.Task → Reply → Prop where
  | failed (error : RetryError) : Tells (.ended (.error error)) (.retried (.error error))
  | panicked (message : String) : Tells (.panicked message) (.panicked message)

namespace Pipeline.Task.Tells

variable {task : Task} {reply : Reply}

theorem isOver (h : task.Tells reply) : task.isOver := by
  cases h <;> rfl

theorem not_isSignal (h : task.Tells reply) : reply.isSignal = false := by
  cases h <;> rfl

/-- A retry that waits for its signal finds that there will be none. -/
theorem awaitSignal_step {pipeline : Pipeline} (h : pipeline.task.Tells reply)
    (houtbox : pipeline.outbox = none) :
    Call.awaitSignal.step pipeline = some (pipeline.shut, .inl (.awaitEnd true)) :=
  Call.step_awaitSignal_of_isOver h.isOver houtbox

/-- It is then told how the task ended. -/
theorem awaitEnd_step {pipeline : Pipeline} (h : pipeline.task.Tells reply)
    (hreported : pipeline.reported = false) :
    (Call.awaitEnd true).step pipeline =
      some ({ pipeline with reported := true }, .inr reply) := by
  rw [Call.step, Call.report, if_neg (Bool.eq_false_iff.1 hreported)]
  generalize pipeline.task = task at h ⊢
  cases h <;> rfl

end Pipeline.Task.Tells

/-- Where a pipeline is when its engine, called directly, is at some point. A failure reaches the
engine later than the owner hands it in, and what it comes to reaches the owner later. -/
inductive Mirrors : Piped → Direct → Prop where
  -- The owner rests, or its failure is on its way to the engine, or the engine is at it.
  | resting {engine commons asked results} (hfresh : Results.spent results = false) :
      Mirrors ⟨{ engine }, commons, none, asked, results⟩ ⟨engine, commons, none, asked, results⟩
  | called {engine commons asked results} (hfresh : Results.spent results = false)
      (failure : Option Failure) :
      Mirrors ⟨{ engine }, commons, some (.retry failure), asked ++ [failure], results⟩
        ⟨engine, commons, none, asked, results⟩
  | submitted {engine commons asked results} (hfresh : Results.spent results = false)
      (failure : Option Failure) :
      Mirrors
        ⟨{ engine, inbox := some failure }, commons, some .awaitSignal, asked ++ [failure], results⟩
        ⟨engine, commons, none, asked, results⟩
  | carried {engine commons asked results} (hfresh : Results.spent results = false)
      (handling : Handling) :
      Mirrors ⟨{ engine, task := .handling handling }, commons, some .awaitSignal, asked, results⟩
        ⟨engine, commons, some handling, asked, results⟩
  -- The engine is through, and what it came to is on its way to the owner.
  | offered {engine commons asked results} (hfresh : Results.spent results = false)
      (signal : Signal) :
      Mirrors ⟨{ engine, task := .offering signal }, commons, some .awaitSignal, asked, results⟩
        ⟨engine, commons, none, asked, results ++ [(.retried (.ok signal), commons.counter)]⟩
  | placed {engine commons asked results} (hfresh : Results.spent results = false)
      (signal : Signal) :
      Mirrors ⟨{ engine, outbox := some signal }, commons, some .awaitSignal, asked, results⟩
        ⟨engine, commons, none, asked, results ++ [(.retried (.ok signal), commons.counter)]⟩
  | ended {engine commons asked results task reply} (hfresh : Results.spent results = false)
      (htells : Pipeline.Task.Tells task reply) :
      Mirrors ⟨{ engine, task }, commons, some .awaitSignal, asked, results⟩
        ⟨engine, commons, none, asked, results ++ [(reply, commons.counter)]⟩
  | missed {engine commons asked results task reply} (hfresh : Results.spent results = false)
      (htells : Pipeline.Task.Tells task reply) :
      Mirrors
        ⟨{ engine, task, accepting := false }, commons, some (.awaitEnd true), asked, results⟩
        ⟨engine, commons, none, asked, results ++ [(reply, commons.counter)]⟩
  -- Some retry came to no signal, and the engine is not called any more.
  | stopped {engine commons asked results task} (hspent : Results.spent results)
      (hover : Pipeline.Task.isOver task) :
      Mirrors ⟨{ engine, task, accepting := false, reported := true }, commons, none, asked, results⟩
        ⟨engine, commons, none, asked, results⟩
  | refused {engine commons asked results task} (hspent : Results.spent results)
      (hover : Pipeline.Task.isOver task) (failure : Option Failure) :
      Mirrors
        ⟨{ engine, task, accepting := false, reported := true }, commons, some (.retry failure),
          asked ++ [failure], results⟩
        ⟨engine, commons, none, asked, results⟩
  | awaiting {engine commons asked results task} (hspent : Results.spent results)
      (hover : Pipeline.Task.isOver task) (failure : Option Failure) :
      Mirrors
        ⟨{ engine, task, accepting := false, reported := true }, commons, some (.awaitEnd true),
          asked ++ [failure], results⟩
        ⟨engine, commons, none, asked, results⟩

namespace Mirrors

section Points

variable {engine : Engine} {commons : Commons} {asked : List (Option Failure)} {results : Results}

/-- However far a failure got, the task and the engine are at the same point. -/
theorem settled {current : Option Handling} (hfresh : results.spent = false)
    (progress : Commons × HandlingProgress) :
    Mirrors
      ⟨{ engine, task := .ofProgress progress.2 }, progress.1, some .awaitSignal, asked, results⟩
      (Direct.settle ⟨engine, commons, current, asked, results⟩ progress) := by
  rcases progress with ⟨after, (error | signal) | message | handling⟩
  · exact .ended hfresh (.failed error)
  · exact .offered hfresh signal
  · exact .ended hfresh (.panicked message)
  · exact .carried hfresh handling

theorem returned (hfresh : results.spent = false) (signal : Signal) :
    Mirrors
      ⟨{ engine }, commons, none, asked, results ++ [(.retried (.ok signal), commons.counter)]⟩
      ⟨engine, commons, none, asked, results ++ [(.retried (.ok signal), commons.counter)]⟩ := by
  refine .resting ?_
  rw [Results.spent_concat, hfresh]
  rfl

theorem goes_of_submitted (hopen : commons.cancelled = false) (failure : Option Failure) :
    Piped.Goes ⟨{ engine, inbox := some failure }, commons, some .awaitSignal, asked, results⟩
      ⟨{ engine, task := .ofProgress (engine.start failure commons).2 },
        (engine.start failure commons).1, some .awaitSignal, asked, results⟩ :=
  .single (.inl (Piped.move_task (Pipeline.step_of_took rfl hopen rfl)))

theorem goes_of_carried {handling : Handling} (hdue : handling.isDue commons) :
    Piped.Goes ⟨{ engine, task := .handling handling }, commons, some .awaitSignal, asked, results⟩
      ⟨{ engine, task := .ofProgress (engine.resume handling commons).2 },
        (engine.resume handling commons).1, some .awaitSignal, asked, results⟩ :=
  .single (.inl (Piped.move_task (Pipeline.step_of_resumed rfl hdue)))

theorem goes_of_placed (signal : Signal) :
    Piped.Goes ⟨{ engine, outbox := some signal }, commons, some .awaitSignal, asked, results⟩
      ⟨{ engine }, commons, none, asked, results ++ [(.retried (.ok signal), commons.counter)]⟩ :=
  .single (.inr rfl)

theorem goes_of_awaiting (task : Pipeline.Task) :
    Piped.Goes
      ⟨{ engine, task, accepting := false, reported := true }, commons, some (.awaitEnd true), asked,
        results⟩
      ⟨{ engine, task, accepting := false, reported := true }, commons, none, asked,
        results ++ [(.retried (.error .cancelled), commons.counter)]⟩ :=
  .single (.inr rfl)

theorem goes_of_refused (task : Pipeline.Task) (failure : Option Failure) :
    Piped.Goes
      ⟨{ engine, task, accepting := false, reported := true }, commons, some (.retry failure), asked,
        results⟩
      ⟨{ engine, task, accepting := false, reported := true }, commons, none, asked,
        results ++ [(.retried (.error .cancelled), commons.counter)]⟩ :=
  (goes_of_awaiting task).head (.inr rfl)

variable {task : Pipeline.Task} {reply : Reply} (htells : task.Tells reply)

include htells

theorem told :
    Mirrors
      ⟨{ engine, task, accepting := false, reported := true }, commons, none, asked,
        results ++ [(reply, commons.counter)]⟩
      ⟨engine, commons, none, asked, results ++ [(reply, commons.counter)]⟩ := by
  refine .stopped ?_ htells.isOver
  rw [Results.spent_concat, htells.not_isSignal]
  exact Bool.or_true _

theorem goes_of_missed :
    Piped.Goes
      ⟨{ engine, task, accepting := false }, commons, some (.awaitEnd true), asked, results⟩
      ⟨{ engine, task, accepting := false, reported := true }, commons, none, asked,
        results ++ [(reply, commons.counter)]⟩ :=
  .single (.inr (Piped.move_answer rfl (htells.awaitEnd_step rfl)))

end Points

variable {piped next last : Piped} {direct after : Direct}

theorem initial (engine : Engine) (commons : Commons) :
    Mirrors (.initial engine commons) (.initial engine commons) := .resting rfl

theorem wait (h : Mirrors piped direct) (millis : Nat) :
    Mirrors { piped with commons.now := piped.commons.now + millis }
      { direct with commons.now := direct.commons.now + millis } := by
  cases h <;> constructor <;> assumption

theorem retry (h : Mirrors piped direct) (hpending : piped.pending = none)
    (failure : Option Failure) :
    Mirrors { piped with pending := some (.retry failure), asked := piped.asked ++ [failure] }
      direct := by
  cases h with
  | resting hfresh => exact .called hfresh failure
  | stopped hspent hover => exact .refused hspent hover failure
  | called | submitted | carried | offered | placed | ended | missed | refused | awaiting =>
      cases hpending

section Stages

variable (h : Mirrors piped direct)

include h

theorem commons_eq : piped.commons = direct.commons := by
  cases h <;> rfl

theorem asked_eq : ∃ waiting, piped.asked = direct.asked ++ waiting ∧ waiting.length ≤ 1 := by
  cases h with
  | resting | carried | offered | placed | ended | missed | stopped =>
      exact ⟨[], (List.append_nil _).symm, Nat.zero_le 1⟩
  | called _ failure | submitted _ failure | refused _ _ failure | awaiting _ _ failure =>
      exact ⟨[failure], rfl, Nat.le_refl 1⟩

theorem results_eq : ∃ coming, direct.results = piped.results ++ coming ∧ coming.length ≤ 1 := by
  cases h with
  | resting | called | submitted | carried | stopped | refused | awaiting =>
      exact ⟨[], (List.append_nil _).symm, Nat.zero_le 1⟩
  | offered | placed | ended | missed => exact ⟨_, rfl, Nat.le_refl 1⟩

/-- When no retry is pending the engine is through with everything that was asked. -/
theorem of_rests (hpending : piped.pending = none) :
    direct.current = none ∧ direct.asked = piped.asked ∧ direct.results = piped.results := by
  cases h with
  | resting | stopped => exact ⟨rfl, rfl, rfl⟩
  | called | submitted | carried | offered | placed | ended | missed | refused | awaiting =>
      cases hpending

/-- After a failure without a signal the engine is not called any more. -/
theorem of_spent (hspent : piped.results.spent) :
    direct.current = none ∧ direct.results = piped.results := by
  cases h with
  | stopped | refused | awaiting => exact ⟨rfl, rfl⟩
  | resting hfresh | called hfresh | submitted hfresh | carried hfresh | offered hfresh
  | placed hfresh | ended hfresh | missed hfresh => exact absurd hspent (Bool.eq_false_iff.1 hfresh)

/-- The engine is handed a failure when the task takes it up, and carries on when the task does. -/
theorem task (hopen : piped.commons.cancelled = false) (hmove : piped.move .task = some next) :
    ∃ after, direct.Reaches after ∧ Mirrors next after := by
  obtain ⟨⟨pipeline, commons⟩, hstep, rfl⟩ := Option.map_eq_some_iff.1 hmove
  cases h with
  | resting | called | placed =>
      rw [(Pipeline.step_eq_none_iff hopen).2 (.inl ⟨rfl, rfl, rfl⟩)] at hstep
      cases hstep
  | ended _ htells | missed _ htells =>
      rw [Pipeline.step_of_isOver htells.isOver] at hstep
      cases hstep
  | stopped _ hover | refused _ hover | awaiting _ hover =>
      rw [Pipeline.step_of_isOver hover] at hstep
      cases hstep
  | submitted hfresh failure =>
      rw [Pipeline.step_of_took rfl hopen rfl] at hstep
      cases hstep
      refine ⟨_, .single ⟨.call failure, Direct.move_call rfl failure⟩, ?_⟩
      rw [Direct.call_of_fresh hfresh]
      exact settled hfresh _
  | @carried engine commons asked results hfresh handling =>
      by_cases hdue : handling.isDue commons
      · rw [Pipeline.step_of_resumed rfl hdue] at hstep
        cases hstep
        exact ⟨_, .single ⟨.resume, Direct.move_resume rfl hdue⟩, settled hfresh _⟩
      · rw [(Pipeline.step_eq_none_iff hopen).2
          (.inr (.inl ⟨handling, rfl, Bool.eq_false_iff.2 hdue⟩))] at hstep
        cases hstep
  | offered hfresh signal =>
      rw [Pipeline.step_of_placed rfl hopen rfl rfl] at hstep
      cases hstep
      exact ⟨_, .refl, .placed hfresh signal⟩

/-- A retry after the first without a signal is refused; all the others wait for the engine. -/
theorem answer (hmove : piped.move .answer = some next) :
    ∃ after, direct.Reaches after ∧ Mirrors next after := by
  cases h with
  | resting | submitted | carried | offered | stopped => cases hmove
  | called hfresh failure =>
      cases hmove
      exact ⟨_, .refl, .submitted hfresh failure⟩
  | placed hfresh signal =>
      cases hmove
      exact ⟨_, .refl, returned hfresh signal⟩
  | ended hfresh htells =>
      rw [Piped.move_answer rfl (htells.awaitSignal_step rfl)] at hmove
      cases hmove
      exact ⟨_, .refl, .missed hfresh htells⟩
  | missed hfresh htells =>
      rw [Piped.move_answer rfl (htells.awaitEnd_step rfl)] at hmove
      cases hmove
      exact ⟨_, .refl, told htells⟩
  | refused hspent hover failure =>
      cases hmove
      exact ⟨_, .refl, .awaiting hspent hover failure⟩
  | awaiting hspent hover failure =>
      cases hmove
      refine ⟨_, .single ⟨.call failure, Direct.move_call rfl failure⟩, ?_⟩
      rw [Direct.call_of_spent hspent]
      exact .stopped (Results.spent_append hspent _) hover

/-- One of the two that could go on by themselves has to wait for the other. -/
theorem alternates (hopen : piped.commons.cancelled = false) :
    piped.move .task = none ∨ piped.move .answer = none := by
  cases h with
  | resting | submitted | carried | offered | stopped => exact .inr rfl
  | called | placed =>
      exact .inl (Piped.move_task_eq_none
        ((Pipeline.step_eq_none_iff hopen).2 (.inl ⟨rfl, rfl, rfl⟩)))
  | ended _ htells | missed _ htells =>
      exact .inl (Piped.move_task_eq_none (Pipeline.step_of_isOver htells.isOver))
  | refused _ hover | awaiting _ hover =>
      exact .inl (Piped.move_task_eq_none (Pipeline.step_of_isOver hover))

/-- A pending retry has to wait only where the engine does, for a hook or for a delay. -/
theorem waits (hopen : piped.commons.cancelled = false) (hpending : piped.pending ≠ none)
    (htask : piped.move .task = none) (hanswer : piped.move .answer = none) :
    ∃ handling, direct.current = some handling ∧ handling.isDue direct.commons = false := by
  cases h with
  | resting | stopped => exact absurd rfl hpending
  | called | placed | refused | awaiting => cases hanswer
  | submitted =>
      rw [Piped.move_task (Pipeline.step_of_took rfl hopen rfl)] at htask
      cases htask
  | @carried engine commons asked results hfresh handling =>
      refine ⟨handling, rfl, Bool.eq_false_iff.2 fun hdue => ?_⟩
      rw [Piped.move_task (Pipeline.step_of_resumed rfl hdue)] at htask
      cases htask
  | offered =>
      rw [Piped.move_task (Pipeline.step_of_placed rfl hopen rfl rfl)] at htask
      cases htask
  | ended _ htells =>
      rw [Piped.move_answer rfl (htells.awaitSignal_step rfl)] at hanswer
      cases hanswer
  | missed _ htells =>
      rw [Piped.move_answer rfl (htells.awaitEnd_step rfl)] at hanswer
      cases hanswer

/-- Once the engine is through, the pending retry returns by itself. -/
theorem returns (hopen : piped.commons.cancelled = false) (hcurrent : direct.current = none)
    (hasked : direct.asked = piped.asked) :
    ∃ returned, piped.Goes returned ∧ returned.pending = none ∧ Mirrors returned direct := by
  cases h with
  | resting hfresh => exact ⟨_, .refl, rfl, .resting hfresh⟩
  | stopped hspent hover => exact ⟨_, .refl, rfl, .stopped hspent hover⟩
  | placed hfresh signal => exact ⟨_, goes_of_placed signal, rfl, returned hfresh signal⟩
  | offered hfresh signal =>
      have hplaced := Piped.move_task (Pipeline.step_of_placed rfl hopen rfl rfl)
      exact ⟨_, (goes_of_placed signal).head (.inl hplaced), rfl, returned hfresh signal⟩
  | missed hfresh htells =>
      exact ⟨_, goes_of_missed htells, rfl, told htells⟩
  | ended hfresh htells =>
      refine ⟨_, (goes_of_missed htells).head (.inr ?_), rfl, told htells⟩
      exact Piped.move_answer rfl (htells.awaitSignal_step rfl)
  | called | submitted | refused | awaiting => exact absurd hasked (by simp)
  | carried => cases hcurrent

/-- After a failure without a signal no retry waits for anything. -/
theorem returns_of_spent (hspent : piped.results.spent) :
    ∃ returned, piped.Goes returned ∧ returned.pending = none := by
  cases h with
  | stopped => exact ⟨_, .refl, rfl⟩
  | @refused engine commons asked results task _ _ failure =>
      exact ⟨_, goes_of_refused task failure, rfl⟩
  | @awaiting engine commons asked results task => exact ⟨_, goes_of_awaiting task, rfl⟩
  | resting hfresh | called hfresh | submitted hfresh | carried hfresh | offered hfresh
  | placed hfresh | ended hfresh | missed hfresh => exact absurd hspent (Bool.eq_false_iff.1 hfresh)

/-- Whatever happens to the pipeline, the engine keeps up with it. -/
theorem moved (hopen : piped.commons.cancelled = false) {move : Piped.Move}
    (hmove : piped.move move = some next) : ∃ after, direct.Reaches after ∧ Mirrors next after := by
  cases move with
  | task => exact h.task hopen hmove
  | retry failure =>
      obtain ⟨hpending, hmove⟩ := Option.ite_none_right_eq_some.1 hmove
      cases hmove
      exact ⟨direct, .refl, h.retry (Option.isNone_iff_eq_none.1 hpending) failure⟩
  | answer => exact h.answer hmove
  | wait millis =>
      cases hmove
      exact ⟨_, .single ⟨.wait millis, rfl⟩, h.wait millis⟩

theorem reached (hreaches : piped.Reaches last) (hopen : last.commons.cancelled = false) :
    ∃ after, direct.Reaches after ∧ Mirrors last after := by
  induction hreaches with
  | refl => exact ⟨direct, .refl, h⟩
  | tail _ hlast ih =>
      obtain ⟨move, hmove⟩ := hlast
      have hopen := Bool.eq_false_iff.2 (mt (Piped.kept_of_move hmove).1 (Bool.eq_false_iff.1 hopen))
      obtain ⟨between, hbetween, hmirrors⟩ := ih hopen
      obtain ⟨after, hafter, hmirrors⟩ := hmirrors.moved hopen hmove
      exact ⟨after, hbetween.trans hafter, hmirrors⟩

/-- The pipeline can catch up with the engine. -/
theorem catchesUp (hopen : piped.commons.cancelled = false) (hasked : direct.asked = piped.asked) :
    ∃ last, piped.Reaches last ∧ Mirrors last direct ∧
      (direct.current = none → last.pending = none) := by
  cases hcurrent : direct.current with
  | none =>
      obtain ⟨last, hgoes, hpending, hmirrors⟩ := h.returns hopen hcurrent hasked
      exact ⟨last, hgoes.reaches, hmirrors, fun _ => hpending⟩
  | some handling => exact ⟨piped, .refl, h, nofun⟩

end Stages

/-- Whatever happens to the engine called directly, the pipeline can keep up with it. -/
theorem follows (h : Mirrors piped direct) {move : Direct.Move}
    (hrests : direct.current = none → piped.pending = none)
    (hmove : direct.move move = some after) (hopen : after.commons.cancelled = false) :
    ∃ last, piped.Reaches last ∧ Mirrors last after ∧
      (after.current = none → last.pending = none) := by
  have hbefore : direct.commons.cancelled = false :=
    Bool.eq_false_iff.2 (mt (Direct.cancelled_of_move hmove) (Bool.eq_false_iff.1 hopen))
  -- Once the task has done what the engine did, the rest is up to the pipeline.
  have hsettled : ∀ {next}, piped.Reaches next → Mirrors next after → after.asked = next.asked →
      ∃ last, piped.Reaches last ∧ Mirrors last after ∧
        (after.current = none → last.pending = none) := by
    intro next hnext hmirrors hasked
    obtain ⟨last, hlast, hrest⟩ := hmirrors.catchesUp (hmirrors.commons_eq ▸ hopen) hasked
    exact ⟨last, hnext.trans hlast, hrest⟩
  cases move with
  | call failure =>
      obtain ⟨hcurrent, hmove⟩ := Option.ite_none_right_eq_some.1 hmove
      cases hmove
      have hpending := hrests (Option.isNone_iff_eq_none.1 hcurrent)
      cases h with
      | @resting engine commons asked results hfresh =>
          rw [Direct.call_of_fresh hfresh] at hsettled ⊢
          refine hsettled (.head ⟨.retry failure, rfl⟩ (.head ⟨.answer, rfl⟩ ?_))
            (settled hfresh _) (Direct.settle_asked _)
          exact (goes_of_submitted hbefore failure).reaches
      | @stopped engine commons asked results task hspent hover =>
          rw [Direct.call_of_spent hspent]
          refine ⟨_, .head ⟨.retry failure, rfl⟩ (goes_of_refused task failure).reaches,
            .stopped (Results.spent_append hspent _) hover, fun _ => rfl⟩
      | called | submitted | carried | offered | placed | ended | missed | refused | awaiting =>
          cases hpending
  | resume =>
      obtain ⟨handling, hcurrent, hmove⟩ := Option.bind_eq_some_iff.1 hmove
      obtain ⟨hdue, hmove⟩ := Option.ite_none_right_eq_some.1 hmove
      cases hmove
      cases h with
      | carried hfresh =>
          cases hcurrent
          exact hsettled (goes_of_carried hdue).reaches (settled hfresh _) (Direct.settle_asked _)
      | resting | called | submitted | offered | placed | ended | missed | stopped | refused
      | awaiting => cases hcurrent
  | wait millis =>
      cases hmove
      exact ⟨_, .single ⟨.wait millis, rfl⟩, h.wait millis, hrests⟩

end Mirrors

/-- What shows of a pipeline and of its engine called directly is the same, but for a failure on its
way to the engine and a reply on its way to the owner. -/
structure Piped.Shows (piped : Piped) (direct : Direct) : Prop where
  commons : piped.commons = direct.commons
  asked : ∃ waiting, piped.asked = direct.asked ++ waiting ∧ waiting.length ≤ 1
  results : ∃ coming, direct.results = piped.results ++ coming ∧ coming.length ≤ 1
  rests : piped.pending = none →
    direct.current = none ∧ direct.asked = piped.asked ∧ direct.results = piped.results
  /-- What is to happen by itself is determined. -/
  alternates : piped.move .task = none ∨ piped.move .answer = none
  /-- A pending retry has to wait only where the engine does, for a hook or for a delay. -/
  waits : piped.pending ≠ none → piped.move .task = none → piped.move .answer = none →
    ∃ handling, direct.current = some handling ∧ handling.isDue direct.commons = false
  /-- Once the engine is through, the pending retry returns by itself. -/
  returns : direct.current = none → direct.asked = piped.asked →
    ∃ returned, piped.Goes returned ∧ returned.pending = none ∧
      returned.commons = piped.commons ∧ returned.results = direct.results

theorem Mirrors.shows {piped : Piped} {direct : Direct} (h : Mirrors piped direct)
    (hopen : piped.commons.cancelled = false) : piped.Shows direct where
  commons := h.commons_eq
  asked := h.asked_eq
  results := h.results_eq
  rests := h.of_rests
  alternates := h.alternates hopen
  waits := h.waits hopen
  returns := by
    intro hcurrent hasked
    obtain ⟨returned, hgoes, hpending, hmirrors⟩ := h.returns hopen hcurrent hasked
    exact ⟨returned, hgoes, hpending, hmirrors.commons_eq.trans h.commons_eq.symm,
      (hmirrors.of_rests hpending).2.2.symm⟩

namespace Piped

theorem exists_mirror {engine : Engine} {commons : Commons} {direct : Direct}
    (h : (Direct.initial engine commons).Reaches direct) (hopen : direct.commons.cancelled = false) :
    ∃ piped, (initial engine commons).Reaches piped ∧ Mirrors piped direct ∧
      (direct.current = none → piped.pending = none) := by
  induction h with
  | refl => exact ⟨_, .refl, .initial engine commons, fun _ => rfl⟩
  | tail _ hlast ih =>
      obtain ⟨move, hmove⟩ := hlast
      have hbefore := Bool.eq_false_iff.2
        (mt (Direct.cancelled_of_move hmove) (Bool.eq_false_iff.1 hopen))
      obtain ⟨piped, hreaches, hmirrors, hrests⟩ := ih hbefore
      obtain ⟨last, hlast, hmirrors, hrests⟩ := hmirrors.follows hrests hmove hopen
      exact ⟨last, hreaches.trans hlast, hmirrors, hrests⟩

/-- What becomes of a pipeline after a retry without a signal: time passes, every further retry is
told of a cancellation, and none waits for anything. -/
structure Idles (piped last : Piped) : Prop where
  commons : ∃ millis, last.commons = { piped.commons with now := piped.commons.now + millis }
  results : ∃ calls, last.results = piped.results ++
    List.replicate calls (.retried (.error .cancelled), piped.commons.counter)
  returns : ∃ returned, last.Goes returned ∧ returned.pending = none

/-- Every state that is reached after a retry without a signal is the state of an engine that is not
called any more. -/
theorem Reaches.mirrored_of_spent {piped last : Piped} {direct : Direct}
    (h : Mirrors piped direct) (hopen : piped.commons.cancelled = false)
    (hspent : piped.results.spent) (hreaches : piped.Reaches last) :
    ∃ after, direct.Reaches after ∧ Mirrors last after ∧ last.results.spent := by
  obtain ⟨hcurrent, hresults⟩ := h.of_spent hspent
  induction hreaches with
  | refl => exact ⟨direct, .refl, h, hspent⟩
  | @tail between next _ hlast ih =>
      obtain ⟨between', hbetween, hmirrors, hspent'⟩ := ih
      obtain ⟨-, millis, calls, hcommons, -⟩ := hbetween.of_spent (hresults ▸ hspent) hcurrent
      have hopen : between.commons.cancelled = false := by
        rw [hmirrors.commons_eq, hcommons, ← h.commons_eq]
        exact hopen
      obtain ⟨move, hmove⟩ := hlast
      obtain ⟨after, hafter, hmirrors⟩ := hmirrors.moved hopen hmove
      obtain ⟨more, hmore⟩ := (kept_of_move hmove).2
      exact ⟨after, hbetween.trans hafter, hmirrors, hmore ▸ Results.spent_append hspent' more⟩

theorem Reaches.idles {piped last : Piped} {direct : Direct} (hreaches : piped.Reaches last)
    (h : Mirrors piped direct) (hopen : piped.commons.cancelled = false)
    (hspent : piped.results.spent) : piped.Idles last := by
  obtain ⟨after, hafter, hmirrors, hlast⟩ := hreaches.mirrored_of_spent h hopen hspent
  obtain ⟨hcurrent, hresults⟩ := h.of_spent hspent
  obtain ⟨-, millis, calls, hcommons, hcalls⟩ := hafter.of_spent (hresults ▸ hspent) hcurrent
  rw [hresults, (hmirrors.of_spent hlast).2, ← h.commons_eq] at hcalls
  rw [← hmirrors.commons_eq, ← h.commons_eq] at hcommons
  exact ⟨⟨millis, hcommons⟩, ⟨calls, hcalls⟩, hmirrors.returns_of_spent hlast⟩

/-- **Retrying through a pipeline is calling its engine directly.** As long as the token is not
cancelled, a pipeline that is fed by awaited retries shows nothing but what its engine shows when it
is handed the same failures one after the other, up to the first that comes to no signal, and it can
show all of that: the same replies, and at all times the same counter, draws, hooks and delays, which
are what is shared and its journal. A retry waits only where the engine does. After a failure
without a signal every further retry is told of a cancellation, and nothing else happens. -/
theorem retries_as_called_directly (engine : Engine) (commons : Commons) :
    (∀ piped, (initial engine commons).Reaches piped → piped.commons.cancelled = false →
      ∃ direct, (Direct.initial engine commons).Reaches direct ∧ piped.Shows direct) ∧
    (∀ direct, (Direct.initial engine commons).Reaches direct →
      direct.commons.cancelled = false →
      ∃ piped, (initial engine commons).Reaches piped ∧ piped.Shows direct ∧
        (direct.current = none → piped.pending = none)) ∧
    ∀ piped, (initial engine commons).Reaches piped → piped.commons.cancelled = false →
      piped.results.spent → ∀ last, piped.Reaches last → piped.Idles last := by
  refine ⟨fun piped hreaches hopen => ?_, fun direct hreaches hopen => ?_,
    fun piped hreaches hopen hspent last hlast => ?_⟩
  · obtain ⟨direct, hdirect, hmirrors⟩ := (Mirrors.initial engine commons).reached hreaches hopen
    exact ⟨direct, hdirect, hmirrors.shows hopen⟩
  · obtain ⟨piped, hpiped, hmirrors, hrests⟩ := exists_mirror hreaches hopen
    exact ⟨piped, hpiped, hmirrors.shows (hmirrors.commons_eq ▸ hopen), hrests⟩
  · obtain ⟨direct, -, hmirrors⟩ := (Mirrors.initial engine commons).reached hreaches hopen
    exact hlast.idles hmirrors hopen hspent

/-- An engine with a hook that takes its time. -/
def leisurely : Engine where
  policy := .prompt
  hooks := [.custom "takes its time" fun _ => .sleep 5 (.done (.ok ()))]

/-- The first retry comes to a signal, the second has nothing to decide on, and the third is told of a
cancellation. -/
theorem retries_as_called_directly_when_failing :
    ∃ (piped last : Piped) (direct : Direct), piped.results.signals = [true, false] ∧
      last.results.signals = [true, false, false] ∧ direct.results.signals = [true, false] ∧
      (∃ mirror, (Direct.initial leisurely .initial).Reaches mirror ∧ piped.Shows mirror) ∧
      (∃ mirror, (initial leisurely .initial).Reaches mirror ∧ mirror.Shows direct) ∧
      piped.Idles last := by
  have hpiped : ((initial leisurely .initial).run
      [.retry (some (.closed ⟨4000, none⟩)), .answer, .task, .wait 5, .task, .task, .answer,
        .retry none, .answer, .task, .answer, .answer]).bind
      (fun piped => (piped.run [.retry (some (.closed ⟨4000, none⟩)), .answer, .answer]).map
        fun last => decide (piped.commons.cancelled = false ∧ piped.results.spent ∧
          piped.results.signals = [true, false] ∧ last.results.signals = [true, false, false])) =
      some true := by
    decide +kernel
  have hdirect : ((Direct.initial leisurely .initial).run
      [.call (some (.closed ⟨4000, none⟩)), .wait 5, .resume, .call none]).map
      (fun direct => decide (direct.commons.cancelled = false ∧
        direct.results.signals = [true, false])) = some true := by
    decide +kernel
  obtain ⟨piped, hmoves, hrest⟩ := Option.bind_eq_some_iff.1 hpiped
  obtain ⟨last, hmore, hview⟩ := Option.map_eq_some_iff.1 hrest
  obtain ⟨hopen, hspent, hsignals, hlast⟩ := of_decide_eq_true hview
  obtain ⟨direct, hcalls, hview⟩ := Option.map_eq_some_iff.1 hdirect
  obtain ⟨hdirectOpen, hdirectSignals⟩ := of_decide_eq_true hview
  obtain ⟨hmirrored, hkept, hidles⟩ := retries_as_called_directly leisurely .initial
  have hreaches := reaches_of_run hmoves
  obtain ⟨mirror, hmirror, hshows, -⟩ := hkept direct (Direct.reaches_of_run hcalls) hdirectOpen
  exact ⟨piped, last, direct, hsignals, hlast, hdirectSignals, hmirrored piped hreaches hopen,
    ⟨mirror, hmirror, hshows⟩, hidles piped hreaches hopen hspent last (reaches_of_run hmore)⟩

end Piped

end Rejoin
