import Rejoin.Proofs.Task.Exchange

/-! What the owner of a pipeline receives. Failures are decided in the order they were accepted in,
one at a time, and each signal reaches the owner in its turn, whichever call it is handed out by.
Until the task is over nothing is lost between the two ends. -/

namespace Rejoin

open Commons (Edits SkipsDeeds)

/-- The decision that a signal comes from. -/
def Signal.decision (signal : Signal) : Option Failure × Except RetryError Signal :=
  (some signal.failure, .ok signal)

/-- The signal that an entry tells a hook was started with. -/
def Entry.begun? : Entry → Option Signal
  | .hookStarted _ signal _ => some signal
  | _ => none

/-- The signals that hooks were started with, oldest first. -/
def Commons.begun (commons : Commons) : List Signal := commons.read Entry.begun?

theorem skipsDeeds_decision : SkipsDeeds Entry.decision? :=
  ⟨fun _ => rfl, fun _ => rfl, rfl, fun _ _ => rfl⟩

theorem skipsDeeds_begun : SkipsDeeds Entry.begun? :=
  ⟨fun _ => rfl, fun _ => rfl, rfl, fun _ _ => rfl⟩

/-- The entries that are about a signal. -/
def Entry.Tells (signal : Signal) (entry : Entry) : Prop :=
  entry.Serves signal ∨ entry = .published (.retrying signal)

namespace Entry.Tells

variable {signal : Signal} {entry : Entry}

theorem decision_eq_none (h : entry.Tells signal) : entry.decision? = none := by
  cases entry with
  | decided => rcases h with h | h <;> cases h
  | logged | published | closing | hookStarted | hookEnded | delayAsked | cycleStarted | noted =>
      rfl

theorem eq_of_begun (h : entry.Tells signal) {begun : Signal} (hbegun : entry.begun? = some begun) :
    begun = signal := by
  cases entry with
  | hookStarted =>
      cases hbegun
      rcases h with h | h
      · exact h
      · cases h
  | logged | published | closing | decided | hookEnded | delayAsked | cycleStarted | noted =>
      cases hbegun

end Entry.Tells

namespace Commons

variable {signal : Signal} {before after : Commons}

theorem decisions_of_edits (h : Edits (Entry.Tells signal) before after) :
    after.decisions = before.decisions :=
  h.read_eq skipsDeeds_decision fun _ hentry => hentry.decision_eq_none

theorem begun_of_edits (h : Edits (Entry.Tells signal) before after) :
    ∃ begun, after.begun = before.begun ++ begun ∧ ∀ other ∈ begun, other = signal := by
  obtain ⟨begun, hbegun, hitems⟩ := h.read_append skipsDeeds_begun
  refine ⟨begun, hbegun, ?_⟩
  intro other hother
  obtain ⟨entry, hentry, hread⟩ := hitems other hother
  exact hentry.eq_of_begun hread

end Commons

theorem Engine.begun_decide (engine : Engine) (failure : Option Failure) (commons : Commons) :
    (engine.decide failure commons).1.begun = commons.begun :=
  engine.read_decide_of_none failure commons (fun _ => rfl) fun _ _ => rfl

namespace Pipeline

/-- The signal that the task has decided on and not handed out yet. -/
def Task.signals : Task → List Signal
  | .handling current => [current.signal]
  | .offering signal => [signal]
  | .idle | .ended _ | .panicked _ | .aborted => []

theorem Task.length_signals_le (task : Task) : task.signals.length ≤ 1 := by
  cases task <;> simp [signals]

theorem Task.signals_ofProgress {allowed : Entry → Prop} {signal : Signal}
    {progress : HandlingProgress} (h : Engine.Carries allowed signal progress)
    (hopen : (ofProgress progress).isOver = false) : (ofProgress progress).signals = [signal] := by
  rcases progress with (error | finished) | message | handling
  · cases hopen
  · exact congrArg (fun signal => [signal]) h
  · cases hopen
  · exact congrArg (fun signal => [signal]) h.1

/-- What a step of the task does to the failures and signals on their way, with the decisions it
makes, the signals it starts hooks with, and the decisions that are then not handed out yet. -/
structure Conveys (pipeline next : Pipeline) (commons after : Commons)
    (made : List (Option Failure × Except RetryError Signal)) (begun : List Signal)
    (rest : List (Option Failure × Except RetryError Signal)) : Prop where
  decisions : after.decisions = commons.decisions ++ made
  hooks : after.begun = commons.begun ++ begun
  taken : pipeline.inbox.toList = made.map Prod.fst ++ next.inbox.toList
  alone : made = [] ∨ pipeline.task = .idle ∧ ∃ failure, pipeline.inbox = some failure ∧
    made = [(failure, (pipeline.engine.decide failure commons).2)]
  serving : ∀ signal ∈ begun, pipeline.task.signals.map Signal.decision ++ made = [signal.decision]
  handed : (pipeline.outbox.toList ++ pipeline.task.signals).map Signal.decision ++ made =
    next.outbox.toList.map Signal.decision ++ rest
  atMostOne : rest.length ≤ 1
  current : next.task.isOver = false → rest = next.task.signals.map Signal.decision

namespace Stepped

variable {pipeline next : Pipeline} {commons after : Commons}

theorem conveys_of_ended {result : Except RetryError Unit}
    (hdecisions : after.decisions = commons.decisions) (hbegun : after.begun = commons.begun) :
    Conveys pipeline { pipeline with task := .ended result } commons after [] []
      (pipeline.task.signals.map Signal.decision) where
  decisions := hdecisions.trans (List.append_nil _).symm
  hooks := hbegun.trans (List.append_nil _).symm
  taken := rfl
  alone := .inl rfl
  serving := nofun
  handed := (List.append_nil _).trans List.map_append
  atMostOne := List.length_map Signal.decision ▸ pipeline.task.length_signals_le
  current := nofun

/-- A failure is taken only when no signal is on its way; what is decided is about that failure. -/
theorem conveys_of_took (htask : pipeline.task = .idle) (hopen : commons.cancelled = false)
    {failure : Option Failure} (hinbox : pipeline.inbox = some failure) :
    ∃ begun, Conveys pipeline
      { pipeline with
        inbox := none
        task := .ofProgress (pipeline.engine.start failure commons).2 } commons
      (pipeline.engine.start failure commons).1
      [(failure, (pipeline.engine.decide failure commons).2)] begun
      [(failure, (pipeline.engine.decide failure commons).2)] := by
  have hsignals : pipeline.task.signals = [] := by rw [htask]; rfl
  have hhanded : ∀ outcome : Except RetryError Signal,
      (pipeline.outbox.toList ++ pipeline.task.signals).map Signal.decision ++
        [(failure, outcome)] =
          pipeline.outbox.toList.map Signal.decision ++ [(failure, outcome)] := by
    intro outcome
    rw [hsignals, List.append_nil]
  cases hdecide : (pipeline.engine.decide failure commons).2 with
  | error error =>
      have hdecisions := pipeline.engine.decisions_decide failure commons
      have hbegun := pipeline.engine.begun_decide failure commons
      rw [hdecide] at hdecisions
      rw [Engine.start_of_refused hopen hdecide]
      exact ⟨[], hdecisions, hbegun.trans (List.append_nil _).symm, by rw [hinbox]; rfl,
        .inr ⟨htask, failure, hinbox, by rw [hdecide]⟩, nofun, hhanded _, Nat.le_refl 1, nofun⟩
  | ok signal =>
      obtain ⟨hedits, hcarries⟩ := pipeline.engine.start_sound (Entry.Tells signal)
        (fun _ => .inl) (fun _ _ _ => .inr rfl) hopen hdecide
      obtain ⟨begun, hbegun, hserving⟩ := Commons.begun_of_edits hedits
      have hdecisions := Commons.decisions_of_edits hedits
      rw [pipeline.engine.decisions_decide, hdecide] at hdecisions
      rw [pipeline.engine.begun_decide] at hbegun
      have hmade : (failure, Except.ok signal) = signal.decision :=
        congrArg (·, Except.ok signal) (Engine.failure_of_decide_ok hdecide).1
      refine ⟨begun, hdecisions, hbegun, by rw [hinbox]; rfl,
        .inr ⟨htask, failure, hinbox, by rw [hdecide]⟩, ?_, hhanded _, Nat.le_refl 1, ?_⟩
      · intro other hother
        rw [hserving other hother, hsignals, hmade]
        rfl
      · intro hrunning
        rw [Task.signals_ofProgress hcarries hrunning, hmade]
        rfl

theorem conveys_of_resumed {handling : Handling} (htask : pipeline.task = .handling handling) :
    ∃ begun, Conveys pipeline
      { pipeline with task := .ofProgress (pipeline.engine.resume handling commons).2 } commons
      (pipeline.engine.resume handling commons).1 [] begun [handling.signal.decision] := by
  have hpermitted : handling.Permitted (Entry.Tells handling.signal) := by
    cases handling with
    | hooks signal wait => exact fun _ _ _ => .inr rfl
    | delay signal current => trivial
  obtain ⟨hedits, hcarries⟩ := pipeline.engine.resume_sound (fun _ => .inl) rfl hpermitted commons
  obtain ⟨begun, hbegun, hserving⟩ := Commons.begun_of_edits hedits
  have hsignals : pipeline.task.signals = [handling.signal] := by rw [htask]; rfl
  refine ⟨begun, (Commons.decisions_of_edits hedits).trans (List.append_nil _).symm, hbegun, rfl,
    .inl rfl, ?_, ?_, Nat.le_refl 1, ?_⟩
  · intro other hother
    rw [hserving other hother, hsignals]
    rfl
  · rw [hsignals, List.map_append, List.append_nil]
    rfl
  · intro hrunning
    rw [Task.signals_ofProgress hcarries hrunning]
    rfl

theorem conveys (h : Stepped pipeline commons next after) :
    ∃ made begun rest, Conveys pipeline next commons after made begun rest := by
  cases h with
  | cancelled | closed => exact ⟨[], [], _, conveys_of_ended rfl rfl⟩
  | dropped =>
      have hdecisions := Commons.read_log skipsDeeds_decision.logged commons
      have hbegun := Commons.read_log skipsDeeds_begun.logged commons
      exact ⟨[], [], _, conveys_of_ended (hdecisions _) (hbegun _)⟩
  | took htask hopen hinbox =>
      obtain ⟨begun, hconveys⟩ := conveys_of_took htask hopen hinbox
      exact ⟨_, begun, _, hconveys⟩
  | resumed htask =>
      obtain ⟨begun, hconveys⟩ := conveys_of_resumed htask
      exact ⟨[], begun, _, hconveys⟩
  | placed htask hopen hthere houtbox =>
      refine ⟨[], [], [], (List.append_nil _).symm, (List.append_nil _).symm, rfl, .inl rfl, nofun,
        ?_, Nat.zero_le 1, fun _ => rfl⟩
      rw [houtbox, htask]
      rfl

end Stepped

end Pipeline

namespace Call.Stepped

variable {pipeline next : Pipeline} {call : Call} {result : Call ⊕ Reply}

theorem inbox_eq (h : Stepped pipeline call next result) :
    next.inbox.toList = pipeline.inbox.toList ++ call.accepts result := by
  cases h with
  | accepted _ _ hinbox | retryAccepted _ _ hinbox => rw [hinbox]; rfl
  | refused | retryRefused | proceeded | proceededNone | retried | missed | joined | toldBefore
  | toldEnd | toldPanic | toldAborted => exact (List.append_nil _).symm

/-- A call that leaves the pipeline open hands over what it takes out of the outbox. -/
theorem outbox_eq (h : Stepped pipeline call next result) (hopen : next.accepting) :
    pipeline.accepting ∧ pipeline.outbox.toList =
      result.elim (fun _ => []) Reply.signals ++ next.outbox.toList := by
  cases h with
  | proceeded houtbox | retried houtbox =>
      refine ⟨hopen, ?_⟩
      rw [houtbox]
      rfl
  | toldBefore | toldEnd | toldAborted =>
      refine ⟨hopen, ?_⟩
      rw [Sum.elim_inr, Reply.signals_ofEnd]
      rfl
  | retryRefused | missed | joined => cases hopen
  | refused | accepted | retryAccepted | proceededNone | toldPanic => exact ⟨hopen, rfl⟩

/-- No call hands over anything else. -/
theorem outbox_prefix (h : Stepped pipeline call next result) :
    result.elim (fun _ => []) Reply.signals ++ next.outbox.toList <+: pipeline.outbox.toList := by
  cases h with
  | proceeded houtbox | retried houtbox => rw [houtbox]; exact List.prefix_rfl
  | toldBefore | toldEnd | toldAborted =>
      rw [Sum.elim_inr, Reply.signals_ofEnd]
      exact List.prefix_rfl
  | retryRefused | missed | joined => exact List.nil_prefix
  | refused | accepted | retryAccepted | proceededNone | toldPanic => exact List.prefix_rfl

end Call.Stepped

namespace Exchange

/-- Where the accepted failures are: decided or still in the inbox; and where the signals of those
decided are: received or in the outbox, except for the failure that the task is at or ended with. -/
structure Accounted (exchange : Exchange) : Prop where
  taken : exchange.accepted =
    exchange.commons.decisions.map Prod.fst ++ exchange.pipeline.inbox.toList
  offered : exchange.joining = false →
    (exchange.received ++ exchange.pipeline.outbox.toList).map Signal.decision <+:
      exchange.commons.decisions
  kept : exchange.pipeline.accepting → ∃ rest, exchange.commons.decisions =
      (exchange.received ++ exchange.pipeline.outbox.toList).map Signal.decision ++ rest ∧
    rest.length ≤ 1 ∧ (exchange.pipeline.task.isOver = false →
      rest = exchange.pipeline.task.signals.map Signal.decision)

theorem accounted_initial (engine : Engine) (commons : Commons) :
    (initial engine commons).Accounted where
  taken := rfl
  offered _ := List.prefix_rfl
  kept _ := ⟨[], rfl, Nat.zero_le 1, fun _ => rfl⟩

section Preserved

variable {exchange next : Exchange}

/-- As long as the owner keeps the pipeline, a task that is not over may be fed. -/
theorem Owned.accepts (howned : exchange.Owned) (hstays : exchange.joining = false)
    (hrunning : exchange.pipeline.task.isOver = false) : exchange.pipeline.accepting := by
  apply Bool.of_not_eq_false
  intro hclosed
  rcases howned.accepting hclosed with hjoining | hover
  · exact Bool.eq_false_iff.1 hstays hjoining
  · exact Bool.eq_false_iff.1 hrunning hover

theorem Accounted.task {pipeline : Pipeline} {commons : Commons} (haccounted : exchange.Accounted)
    (howned : exchange.Owned)
    (h : exchange.pipeline.Stepped exchange.commons pipeline commons) :
    Accounted { exchange with pipeline, commons } := by
  obtain ⟨made, begun, rest, hconveys⟩ := h.conveys
  have hrunning := h.isOver_eq_false
  have hkept : exchange.pipeline.accepting → commons.decisions =
      (exchange.received ++ pipeline.outbox.toList).map Signal.decision ++ rest := by
    intro hopen
    obtain ⟨former, hformer, _, hcurrent⟩ := haccounted.kept hopen
    calc commons.decisions
        = exchange.received.map Signal.decision ++ ((exchange.pipeline.outbox.toList ++
            exchange.pipeline.task.signals).map Signal.decision ++ made) := by
          rw [hconveys.decisions, hformer, hcurrent hrunning]
          simp only [List.map_append, List.append_assoc]
      _ = (exchange.received ++ pipeline.outbox.toList).map Signal.decision ++ rest := by
          rw [hconveys.handed, List.map_append, List.append_assoc]
  refine ⟨?_, ?_, ?_⟩
  · rw [haccounted.taken, hconveys.taken, hconveys.decisions, List.map_append, List.append_assoc]
  · intro hstays
    rw [hkept (howned.accepts hstays hrunning)]
    exact List.prefix_append _ _
  · intro hopen
    rw [h.accepting_eq] at hopen
    exact ⟨rest, hkept hopen, hconveys.atMostOne, hconveys.current⟩

theorem Accounted.answered {call : Call} {pipeline : Pipeline} {result : Call ⊕ Reply}
    (haccounted : exchange.Accounted)
    (h : Call.Stepped exchange.pipeline call pipeline result) :
    (exchange.settle call pipeline result).Accounted := by
  refine ⟨?_, ?_, ?_⟩
  · change exchange.accepted ++ call.accepts result = _ ++ pipeline.inbox.toList
    rw [haccounted.taken, h.inbox_eq, List.append_assoc]
    rfl
  · intro hstays
    refine List.IsPrefix.trans ?_ (haccounted.offered hstays)
    rw [settle, List.append_assoc]
    exact ((List.prefix_append_right_inj _).2 h.outbox_prefix).map _
  · intro hopen
    obtain ⟨haccepting, houtbox⟩ := h.outbox_eq hopen
    obtain ⟨rest, hkept, hlength, hcurrent⟩ := haccounted.kept haccepting
    refine ⟨rest, ?_, hlength, ?_⟩
    · rw [houtbox, ← List.append_assoc] at hkept
      exact hkept
    · intro hrunning
      change rest = pipeline.task.signals.map _
      rw [h.task_eq]
      exact hcurrent (h.task_eq ▸ hrunning)

theorem Accounted.withdraw (haccounted : exchange.Accounted) (call : Call) :
    (exchange.withdraw call).Accounted := by
  obtain ⟨htaken, hoffered, hkept⟩ := haccounted
  cases call with
  | awaitEnd retrying =>
      cases retrying with
      | true => exact ⟨htaken, hoffered, hkept⟩
      | false => exact ⟨htaken, hoffered, nofun⟩
  | submit | proceed | retry | awaitSignal | join => exact ⟨htaken, hoffered, hkept⟩

theorem Accounted.moved (h : exchange.Moved next) (howned : exchange.Owned)
    (haccounted : exchange.Accounted) : next.Accounted := by
  cases h with
  | task hstep => exact haccounted.task howned hstep
  | called _ hstays =>
      exact ⟨haccounted.taken, fun _ => haccounted.offered hstays, haccounted.kept⟩
  | answered _ hstep => exact haccounted.answered hstep
  | gaveUp => exact haccounted.withdraw _
  | others deed =>
      have hsame : (deed.perform exchange.commons).decisions = exchange.commons.decisions :=
        Commons.read_perform skipsDeeds_decision deed exchange.commons
      obtain ⟨htaken, hoffered, hkept⟩ := haccounted
      rw [← hsame] at htaken hoffered hkept
      exact ⟨htaken, hoffered, hkept⟩
  | waited => exact ⟨haccounted.taken, haccounted.offered, haccounted.kept⟩

theorem Reaches.accounted {engine : Engine} {commons : Commons}
    (h : (initial engine commons).Reaches exchange) : exchange.Accounted :=
  h.invariant_of_owned Accounted (fun hmoved howned hbefore => hbefore.moved hmoved howned)
    (accounted_initial engine commons)

end Preserved

/-- Delivery in order, one failure at a time. -/
structure InOrder (exchange : Exchange) : Prop where
  /-- What is received at a position was decided for what was accepted at that position. -/
  matched : ∀ (position : Nat) (signal : Signal), exchange.received[position]? = some signal →
    exchange.accepted[position]? = some (some signal.failure) ∧
      exchange.commons.decisions[position]? = some (some signal.failure, .ok signal)
  /-- Every accepted failure is decided once, in its turn, or still to be taken. -/
  taken : exchange.accepted =
    exchange.commons.decisions.map Prod.fst ++ exchange.pipeline.inbox.toList
  /-- While the pipeline may be fed, at most one decision is neither received nor in the outbox. -/
  handed : exchange.pipeline.accepting → ∃ rest, exchange.commons.decisions =
      (exchange.received ++ exchange.pipeline.outbox.toList).map Signal.decision ++ rest ∧
    rest.length ≤ 1 ∧ (exchange.pipeline.task.isOver = false →
      rest = exchange.pipeline.task.signals.map Signal.decision)
  /-- The task decides on a failure, or starts a hook for it, only once the signals of all failures
  before it are received or in the outbox. -/
  oneAtATime : ∀ next, exchange.move .task = some next → ∃ made begun,
    next.commons.decisions = exchange.commons.decisions ++ made ∧
    next.commons.begun = exchange.commons.begun ++ begun ∧
    (made = [] ∨ (∃ failure, exchange.pipeline.inbox = some failure ∧
        made = [(failure, (exchange.pipeline.engine.decide failure exchange.commons).2)]) ∧
      exchange.commons.decisions =
        (exchange.received ++ exchange.pipeline.outbox.toList).map Signal.decision) ∧
    ∀ signal ∈ begun, next.commons.decisions =
      (exchange.received ++ exchange.pipeline.outbox.toList ++ [signal]).map Signal.decision

theorem Reaches.delivers_in_order {engine : Engine} {commons : Commons}
    (h : (initial engine commons).Reaches exchange) (hstays : exchange.joining = false) :
    exchange.InOrder := by
  have haccounted := h.accounted
  refine ⟨?_, haccounted.taken, haccounted.kept, ?_⟩
  · intro position signal hreceived
    obtain ⟨rest, hoffered⟩ := haccounted.offered hstays
    have hdecided : exchange.commons.decisions[position]? = some signal.decision := by
      have hlength := (List.getElem?_eq_some_iff.1 hreceived).1
      rw [← hoffered, List.map_append, List.append_assoc, List.getElem?_append_left
        ((List.length_map _).symm ▸ hlength), List.getElem?_map, hreceived]
      rfl
    refine ⟨?_, hdecided⟩
    have hlength := (List.getElem?_eq_some_iff.1 hdecided).1
    rw [haccounted.taken, List.getElem?_append_left ((List.length_map _).symm ▸ hlength),
      List.getElem?_map, hdecided]
    rfl
  · intro next hmove
    obtain ⟨⟨pipeline, commons⟩, hstep, rfl⟩ := Option.map_eq_some_iff.1 hmove
    have hstepped := Pipeline.stepped_of_step hstep
    have hrunning := hstepped.isOver_eq_false
    obtain ⟨made, begun, rest, hconveys⟩ := hstepped.conveys
    obtain ⟨former, hformer, -, hcurrent⟩ :=
      haccounted.kept (h.owned.accepts hstays hrunning)
    rw [hcurrent hrunning] at hformer
    refine ⟨made, begun, hconveys.decisions, hconveys.hooks, ?_, ?_⟩
    · rcases hconveys.alone with hnone | ⟨htask, hmade⟩
      · exact .inl hnone
      · rw [htask] at hformer
        exact .inr ⟨hmade, hformer.trans (List.append_nil _)⟩
    · intro signal hsignal
      rw [hconveys.decisions, hformer, List.append_assoc, hconveys.serving signal hsignal,
        ← List.map_singleton, ← List.map_append]

/-- Three failures are accepted before the first signal is taken out, and the call that hands in the
last of them returns the signal of the first. -/
theorem delivers_in_order_when_late :
    ∃ exchange, (initial { policy := .prompt } .initial).Reaches exchange ∧
      exchange.joining = false ∧
      exchange.accepted =
        [some (.closed ⟨4000, none⟩), some (.closed ⟨4001, none⟩), some (.closed ⟨4002, none⟩)] ∧
      exchange.received.map Signal.failure = [.closed ⟨4000, none⟩] ∧ exchange.InOrder := by
  have hrun : ((initial { policy := .prompt } .initial).run
      [.call (.submit (some (.closed ⟨4000, none⟩))), .answer, .task, .task,
        .call (.submit (some (.closed ⟨4001, none⟩))), .answer, .task,
        .call (.retry (some (.closed ⟨4002, none⟩))), .answer, .answer, .task]).map
      (fun exchange => (exchange.joining, exchange.accepted,
        exchange.received.map Signal.failure)) = some (false,
          [some (.closed ⟨4000, none⟩), some (.closed ⟨4001, none⟩), some (.closed ⟨4002, none⟩)],
          [.closed ⟨4000, none⟩]) := by decide +kernel
  obtain ⟨exchange, hmoves, hview⟩ := Option.map_eq_some_iff.1 hrun
  simp only [Prod.mk.injEq] at hview
  obtain ⟨hstays, haccepted, hreceived⟩ := hview
  have hreaches := reaches_of_run hmoves
  exact ⟨exchange, hreaches, hstays, haccepted, hreceived, hreaches.delivers_in_order hstays⟩

end Exchange

end Rejoin
