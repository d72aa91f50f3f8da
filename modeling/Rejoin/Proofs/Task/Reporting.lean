import Rejoin.Proofs.Task.Exchange

/-! How the owner of a pipeline is told why it stopped. A pipeline and its owner are followed together
with all replies that the owner got. Of these at most one is the report of the error that the task ended
with, and whatever comes after it only says that there is nothing left. -/

namespace Rejoin

namespace Reply

/-- Whether a reply says how the task ended: one to a join, or to a retry that fails. -/
def isReport : Reply → Bool
  | .retried (.error _) | .joined _ | .panicked _ => true
  | .accepted _ | .proceeded _ | .retried (.ok _) => false

/-- The replies of a pipeline that has stopped and said why. -/
inductive Void : Reply → Prop
  | accepted : Void (.accepted false)
  | proceeded : Void (.proceeded none)
  | retried : Void (.retried (.error .cancelled))
  | joined : Void (.joined (.ok ()))

/-- The replies that report an error, to a join and to a retry. -/
inductive Reports (error : RetryError) : Reply → Prop
  | joined : Reports error (.joined (.error error))
  | retried : Reports error (.retried (.error error))

theorem isReport_ofEnd (retrying : Bool) (result : Except RetryError Unit) :
    (ofEnd retrying result).isReport := by
  cases retrying <;> cases result <;> rfl

theorem void_ofEnd (retrying : Bool) : (ofEnd retrying (.ok ())).Void := by
  cases retrying
  · exact .joined
  · exact .retried

theorem reports_ofEnd (retrying : Bool) (error : RetryError) :
    (ofEnd retrying (.error error)).Reports error := by
  cases retrying
  · exact .joined
  · exact .retried

theorem Reports.isReport {error : RetryError} {reply : Reply} (h : reply.Reports error) :
    reply.isReport := by
  cases h <;> rfl

/-- Replies of which one at most is a report. It is the report of one error, and all replies after it
are void. -/
inductive ReportOnce (error : RetryError) : List Reply → Prop
  | unreported {replies : List Reply} (h : replies.any isReport = false) : ReportOnce error replies
  | reported {before after : List Reply} {report : Reply} (hbefore : before.any isReport = false)
      (hreport : report.Reports error) (hafter : ∀ reply ∈ after, reply.Void) :
      ReportOnce error (before ++ report :: after)

variable {error : RetryError} {replies : List Reply} {reply : Reply}

theorem any_isReport_concat :
    (replies ++ [reply]).any isReport = (replies.any isReport || reply.isReport) := by
  rw [List.any_append, List.any_cons, List.any_nil, Bool.or_false]

/-- One more reply, which is void if there is a report already, and otherwise no report of anything but
the error. -/
theorem ReportOnce.concat (h : ReportOnce error replies)
    (hvoid : replies.any isReport → reply.Void)
    (hfirst : replies.any isReport = false → reply.isReport → reply.Reports error) :
    ReportOnce error (replies ++ [reply]) := by
  cases h with
  | unreported hnone =>
      by_cases hreport : reply.isReport
      · exact .reported hnone (hfirst hnone hreport) nofun
      · apply unreported
        simp [hnone, hreport]
  | @reported before after report hbefore hreport hafter =>
      have hvoid := hvoid (by simp [hreport.isReport])
      rw [List.append_assoc, List.cons_append]
      refine .reported hbefore hreport fun other hother => ?_
      rcases List.mem_append.1 hother with hformer | hlast
      · exact hafter other hformer
      · exact List.mem_singleton.1 hlast ▸ hvoid

end Reply

/-! ### The owner once the task is over -/

namespace Call

variable {pipeline next : Pipeline} {call : Call} {reply : Reply} {error : RetryError}

/-- Once told, the owner is told nothing else. -/
theorem Stepped.void_of_reported (h : Stepped pipeline call next (.inr reply))
    (hreported : pipeline.reported) (hover : pipeline.task.isOver)
    (houtbox : pipeline.outbox = none) : reply.Void := by
  cases h with
  | refused => exact .accepted
  | accepted _ hrunning => exact absurd hover (Bool.eq_false_iff.1 hrunning)
  | proceeded hsignal | retried hsignal =>
      rw [houtbox] at hsignal
      cases hsignal
  | proceededNone => exact .proceeded
  | toldBefore => exact Reply.void_ofEnd _
  | toldEnd hnot | toldPanic hnot | toldAborted hnot =>
      exact absurd hreported (Bool.eq_false_iff.1 hnot)

/-- What reports is what is marked as reported. -/
theorem Stepped.reported_eq (h : Stepped pipeline call next (.inr reply)) :
    next.reported = (pipeline.reported || reply.isReport) := by
  cases h with
  | toldBefore hreported =>
      rw [hreported]
      rfl
  | toldEnd | toldAborted => rw [Reply.isReport_ofEnd, Bool.or_true]
  | toldPanic => exact (Bool.or_true _).symm
  | refused | accepted | proceeded | proceededNone | retried => exact (Bool.or_false _).symm

theorem Stepped.reported_eq_of_inl {rest : Call} (h : Stepped pipeline call next (.inl rest)) :
    next.reported = pipeline.reported := by
  cases h <;> rfl

/-- The first report is about the error that the task ended with. -/
theorem Stepped.reports (h : Stepped pipeline call next (.inr reply))
    (hreported : pipeline.reported = false) (hended : pipeline.task = .ended (.error error))
    (hreport : reply.isReport) : reply.Reports error := by
  cases h with
  | refused | accepted | proceeded | proceededNone | retried => cases hreport
  | toldBefore hnot =>
      rw [hreported] at hnot
      cases hnot
  | toldEnd _ htask =>
      rw [hended] at htask
      cases htask
      exact Reply.reports_ofEnd _ error
  | toldPanic _ htask | toldAborted _ htask =>
      rw [hended] at htask
      cases htask

/-- What a call comes to with a pipeline whose task has ended with an error, as long as the error is
still due, and afterwards. A signal that is left in the outbox goes to whoever asks for one. -/
def finalReply (outbox : Option Signal) (due : Option RetryError) : Call → Reply
  | .submit _ => .accepted false
  | .proceed => .proceeded outbox
  | .awaitSignal =>
    match outbox, due with
    | some signal, _ => .retried (.ok signal)
    | none, some error => .retried (.error error)
    | none, none => .retried (.error .cancelled)
  | .retry _ | .awaitEnd true =>
    match due with
    | some error => .retried (.error error)
    | none => .retried (.error .cancelled)
  | .join | .awaitEnd false =>
    match due with
    | some error => .joined (.error error)
    | none => .joined (.ok ())

theorem step_awaitEnd_of_ended (hended : pipeline.task = .ended (.error error)) (retrying : Bool)
    (outbox : Option Signal) :
    ∃ told, (Call.awaitEnd retrying).step pipeline = some (told, .inr ((Call.awaitEnd
      retrying).finalReply outbox (if pipeline.reported then none else some error))) := by
  rw [step, report, hended]
  cases pipeline.reported <;> cases retrying <;> exact ⟨_, rfl⟩

/-- No call waits for a task that is over: it has its reply, or goes on to ask for the end. -/
theorem step_of_ended (hended : pipeline.task = .ended (.error error)) (call : Call) :
    let due := if pipeline.reported then none else some error
    (∃ next, call.step pipeline = some (next, .inr (call.finalReply pipeline.outbox due))) ∨
      ∃ retrying, call.step pipeline = some (pipeline.shut, .inl (.awaitEnd retrying)) ∧
        call.finalReply pipeline.outbox due = (Call.awaitEnd retrying).finalReply none due := by
  intro due
  have hover : pipeline.task.isOver := by
    rw [hended]
    rfl
  cases call with
  | submit failure =>
      refine .inl ⟨pipeline, ?_⟩
      rw [step, handIn_of_isOver hover]
      rfl
  | proceed =>
      refine .inl ⟨{ pipeline with outbox := none }, ?_⟩
      rw [step, takeOut_of_isOver hover]
      rfl
  | retry failure => exact .inr ⟨true, step_retry_of_isOver hover failure, rfl⟩
  | awaitSignal =>
      cases houtbox : pipeline.outbox with
      | some signal =>
          refine .inl ⟨{ pipeline with outbox := none }, ?_⟩
          rw [step, takeOut_of_isOver hover, houtbox]
          rfl
      | none => exact .inr ⟨true, step_awaitSignal_of_isOver hover houtbox, by cases due <;> rfl⟩
  | join => exact .inr ⟨false, rfl, rfl⟩
  | awaitEnd retrying =>
      obtain ⟨told, hstep⟩ := step_awaitEnd_of_ended hended retrying pipeline.outbox
      exact .inl ⟨told, hstep⟩

end Call

/-! ### What is left once the owner is told -/

namespace Exchange

variable {exchange next last : Exchange}

/-- Once the owner is told there is nothing left in the outbox, unless the owner has given the pipeline
away. Then it only joins. A retry that waits for the end does not have to. -/
structure Settled (exchange : Exchange) : Prop where
  reported : exchange.pipeline.reported →
    exchange.pipeline.outbox = none ∨ exchange.joining ∧ exchange.pending = none
  joining : exchange.joining → ∀ call, exchange.pending = some call →
    call = .join ∨ call = .awaitEnd false
  awaitEnd : exchange.pending = some (.awaitEnd true) →
    exchange.pipeline.task.isOver ∧ exchange.pipeline.outbox = none

theorem settled_initial (engine : Engine) (commons : Commons) :
    (initial engine commons).Settled where
  reported := nofun
  joining := nofun
  awaitEnd := nofun

theorem Settled.outbox_eq_none (hsettled : exchange.Settled) {call : Call}
    (hpending : exchange.pending = some call) (hreported : exchange.pipeline.reported) :
    exchange.pipeline.outbox = none := by
  refine (hsettled.reported hreported).resolve_right fun hgone => ?_
  rw [hpending] at hgone
  cases hgone.2

theorem Settled.stays (hsettled : exchange.Settled) {call : Call}
    (hpending : exchange.pending = some call) (hjoin : call ≠ .join)
    (hawait : call ≠ .awaitEnd false) : exchange.joining ≠ true := by
  intro hjoining
  rcases hsettled.joining hjoining call hpending with heq | heq
  · exact hjoin heq
  · exact hawait heq

theorem Settled.answered {call : Call} {pipeline : Pipeline} {result : Call ⊕ Reply}
    (hsettled : exchange.Settled) (howned : exchange.Owned) (hpending : exchange.pending = some call)
    (h : Call.Stepped exchange.pipeline call pipeline result) :
    (exchange.settle call pipeline result).Settled := by
  have hempty := hsettled.outbox_eq_none hpending
  cases h with
  | refused | proceededNone | toldBefore | accepted => exact ⟨fun h => .inl (hempty h), nofun, nofun⟩
  | proceeded | retried => exact ⟨fun _ => .inl rfl, nofun, nofun⟩
  | retryAccepted =>
      have hstays := hsettled.stays hpending nofun nofun
      exact ⟨fun h => .inl (hempty h), fun hjoining => absurd hjoining hstays, nofun⟩
  | retryRefused hrefused =>
      have hstays := hsettled.stays hpending nofun nofun
      have hover := hrefused.elim (fun hclosed => (howned.accepting hclosed).resolve_left hstays) id
      exact ⟨fun _ => .inl rfl, fun hjoining => absurd hjoining hstays, fun _ => ⟨hover, rfl⟩⟩
  | missed _ hover =>
      have hstays := hsettled.stays hpending nofun nofun
      exact ⟨fun _ => .inl rfl, fun hjoining => absurd hjoining hstays, fun _ => ⟨hover, rfl⟩⟩
  | joined => exact ⟨fun _ => .inl rfl, fun _ _ hnext => .inr (Option.some.inj hnext).symm, nofun⟩
  | @toldEnd retrying | @toldPanic retrying | @toldAborted retrying =>
      refine ⟨fun _ => ?_, nofun, nofun⟩
      cases retrying with
      | true => exact .inl (hsettled.awaitEnd hpending).2
      | false => exact .inr ⟨howned.awaitEnd hpending, rfl⟩

theorem kept_of_withdraw (exchange : Exchange) (call : Call) :
    (exchange.withdraw call).pipeline.task = exchange.pipeline.task ∧
      (exchange.withdraw call).pipeline.outbox = exchange.pipeline.outbox ∧
      (exchange.withdraw call).pipeline.reported = exchange.pipeline.reported := by
  cases call with
  | awaitEnd retrying => cases retrying <;> exact ⟨rfl, rfl, rfl⟩
  | submit | proceed | retry | awaitSignal | join => exact ⟨rfl, rfl, rfl⟩

theorem Settled.moved (h : exchange.Moved next) (howned : exchange.Owned)
    (hsettled : exchange.Settled) : next.Settled := by
  cases h with
  | task hstep =>
      have hrunning := Bool.eq_false_iff.1 hstep.isOver_eq_false
      refine ⟨fun hreported => ?_, hsettled.joining, fun hawait => ?_⟩
      · rw [hstep.reported_eq] at hreported
        exact absurd (howned.reported hreported) hrunning
      · exact absurd (hsettled.awaitEnd hawait).1 hrunning
  | @called call hpending hstays hopening =>
      have hnot := Bool.eq_false_iff.1 hstays
      refine ⟨fun hreported => ?_, fun hjoin next hnext => ?_, fun hawait => ?_⟩
      · exact .inl ((hsettled.reported hreported).resolve_right fun hgone => hnot hgone.1)
      · cases hnext
        cases call with
        | join => exact .inl rfl
        | submit | proceed | retry | awaitSignal | awaitEnd => cases hjoin
      · cases hawait
        cases hopening
  | answered hpending hstep => exact hsettled.answered howned hpending hstep
  | @gaveUp call hpending =>
      obtain ⟨-, houtbox, hreported⟩ := exchange.kept_of_withdraw call
      refine ⟨fun htold => ?_, nofun, nofun⟩
      rw [hreported] at htold
      exact .inl (houtbox.trans (hsettled.outbox_eq_none hpending htold))
  | others | waited => exact ⟨hsettled.reported, hsettled.joining, hsettled.awaitEnd⟩

theorem Reaches.settled {engine : Engine} {commons : Commons}
    (h : (initial engine commons).Reaches exchange) : exchange.Settled :=
  h.invariant_of_owned Settled (fun hmoved howned hbefore => hbefore.moved hmoved howned)
    (settled_initial engine commons)

/-- What a task ended with stays as it is. -/
theorem Reaches.task_eq_of_ended (h : exchange.Reaches last) {result : Except RetryError Unit}
    (hended : exchange.pipeline.task = .ended result) : last.pipeline.task = .ended result := by
  refine h.invariant (fun next => next.pipeline.task = .ended result) ?_ hended
  intro before after hmoved hbefore
  cases hmoved with
  | task hstep =>
      have hrunning := hstep.isOver_eq_false
      rw [hbefore] at hrunning
      cases hrunning
  | answered _ hstep => exact hstep.task_eq.trans hbefore
  | gaveUp => exact (before.kept_of_withdraw _).1.trans hbefore
  | called | others | waited => exact hbefore

/-- The reply that a move gives the owner, if it is the last step of a call. -/
def reply? (exchange : Exchange) : Move → Option Reply
  | .answer => exchange.pending.bind fun call =>
    (call.step exchange.pipeline).bind fun (_, result) => result.getRight?
  | .task | .call _ | .giveUp | .others _ | .wait _ => none

theorem move_answer {call : Call} {pipeline : Pipeline} {result : Call ⊕ Reply}
    (hpending : exchange.pending = some call)
    (hstep : call.step exchange.pipeline = some (pipeline, result)) :
    exchange.move .answer = some (exchange.settle call pipeline result) ∧
      exchange.reply? .answer = result.getRight? := by
  rw [move, reply?, hpending, Option.bind_some, Option.bind_some, hstep]
  exact ⟨rfl, rfl⟩

/-- Moves that are no answers leave a task that is over alone, and tell nothing. -/
theorem quiet_of_move {move : Move} (h : exchange.move move = some next) (hquiet : move ≠ .answer) :
    exchange.reply? move = none ∧ next.pipeline.reported = exchange.pipeline.reported ∧
      (exchange.pipeline.task.isOver → next.pipeline.task = exchange.pipeline.task) := by
  cases move with
  | answer => exact absurd rfl hquiet
  | task =>
      obtain ⟨⟨pipeline, commons⟩, hstep, rfl⟩ := Option.map_eq_some_iff.1 h
      have hstepped := Pipeline.stepped_of_step hstep
      exact ⟨rfl, hstepped.reported_eq,
        fun hover => absurd hover (Bool.eq_false_iff.1 hstepped.isOver_eq_false)⟩
  | call call =>
      rw [Exchange.move] at h
      split at h <;> cases h
      exact ⟨rfl, rfl, fun _ => rfl⟩
  | giveUp =>
      obtain ⟨call, hpending, hgive⟩ := Option.bind_eq_some_iff.1 h
      split at hgive <;> cases hgive
      obtain ⟨htask, -, hreported⟩ := exchange.kept_of_withdraw call
      exact ⟨rfl, hreported, fun _ => htask⟩
  | others deed =>
      cases h
      exact ⟨rfl, rfl, fun _ => rfl⟩
  | wait millis =>
      cases h
      exact ⟨rfl, rfl, fun _ => rfl⟩

end Exchange

/-! ### All that the owner is told -/

/-- A pipeline and its owner, with all replies that the owner got, oldest first. -/
structure Dialogue where
  exchange : Exchange
  replies : List Reply := []

namespace Dialogue

def initial (engine : Engine) (commons : Commons) : Dialogue where
  exchange := .initial engine commons

def move (dialogue : Dialogue) (move : Exchange.Move) : Option Dialogue :=
  (dialogue.exchange.move move).map fun exchange =>
    ⟨exchange, dialogue.replies ++ (dialogue.exchange.reply? move).toList⟩

/-- Moves in a row, if all of them are possible. -/
def run (dialogue : Dialogue) (moves : List Exchange.Move) : Option Dialogue :=
  moves.foldlM move dialogue

/-- One dialogue can become another. -/
def Reaches : Dialogue → Dialogue → Prop :=
  Relation.ReflTransGen fun before after => ∃ next, before.move next = some after

variable {dialogue next last : Dialogue} {error : RetryError}

theorem reaches_of_run {moves : List Exchange.Move} (h : dialogue.run moves = some last) :
    dialogue.Reaches last := reflTransGen_of_foldlM h

theorem Reaches.exchange (h : dialogue.Reaches last) :
    dialogue.exchange.Reaches last.exchange := by
  induction h with
  | refl => exact .refl
  | tail _ hlast ih =>
      obtain ⟨move, hmove⟩ := hlast
      obtain ⟨exchange, hnext, rfl⟩ := Option.map_eq_some_iff.1 hmove
      exact ih.step move hnext

/-- What the replies say is what the pipeline knows to be reported. -/
structure Honest (dialogue : Dialogue) : Prop where
  reported : dialogue.exchange.pipeline.reported = dialogue.replies.any Reply.isReport
  once : ∀ error, dialogue.exchange.pipeline.task = .ended (.error error) →
    Reply.ReportOnce error dialogue.replies

theorem Honest.quiet (hhonest : dialogue.Honest) (howned : dialogue.exchange.Owned)
    {move : Exchange.Move} (hquiet : move ≠ .answer) (h : dialogue.move move = some next) :
    next.Honest := by
  obtain ⟨exchange, hmove, rfl⟩ := Option.map_eq_some_iff.1 h
  obtain ⟨hreply, hreported, htask⟩ := Exchange.quiet_of_move hmove hquiet
  rw [hreply, Option.toList_none, List.append_nil]
  refine ⟨hreported.trans hhonest.reported, fun error hended => ?_⟩
  by_cases hover : dialogue.exchange.pipeline.task.isOver
  · exact hhonest.once error ((htask hover).symm.trans hended)
  · refine .unreported (hhonest.reported.symm.trans ?_)
    exact Bool.eq_false_iff.2 fun htold => hover (howned.reported htold)

theorem Honest.answered (hhonest : dialogue.Honest) (howned : dialogue.exchange.Owned)
    (hsettled : dialogue.exchange.Settled) (h : dialogue.move .answer = some next) :
    next.Honest := by
  obtain ⟨exchange, hmove, rfl⟩ := Option.map_eq_some_iff.1 h
  obtain ⟨call, hpending, hanswer⟩ := Option.bind_eq_some_iff.1 hmove
  obtain ⟨⟨pipeline, result⟩, hstep, rfl⟩ := Option.map_eq_some_iff.1 hanswer
  have hstepped := Call.stepped_of_step hstep
  rw [(Exchange.move_answer hpending hstep).2]
  cases result with
  | inl rest =>
      change Honest ⟨_, dialogue.replies ++ []⟩
      rw [List.append_nil]
      refine ⟨hstepped.reported_eq_of_inl.trans hhonest.reported, fun error hended => ?_⟩
      exact hhonest.once error (hstepped.task_eq.symm.trans hended)
  | inr reply =>
      change Honest ⟨_, dialogue.replies ++ [reply]⟩
      refine ⟨?_, fun error hended => ?_⟩
      · rw [Reply.any_isReport_concat, ← hhonest.reported]
        exact hstepped.reported_eq
      · replace hended := hstepped.task_eq.symm.trans hended
        have hreported := hhonest.reported
        refine (hhonest.once error hended).concat (fun htold => ?_) fun hnot => ?_
        · rw [← hreported] at htold
          exact hstepped.void_of_reported htold (howned.reported htold)
            (hsettled.outbox_eq_none hpending htold)
        · exact hstepped.reports (hreported.trans hnot) hended

theorem Reaches.honest {engine : Engine} {commons : Commons}
    (h : (initial engine commons).Reaches dialogue) : dialogue.Honest := by
  induction h with
  | refl => exact ⟨rfl, fun _ _ => .unreported rfl⟩
  | @tail before after hbefore hlast ih =>
      obtain ⟨move, hmove⟩ := hlast
      have hreaches := Reaches.exchange hbefore
      by_cases hanswer : move = .answer
      · exact ih.answered hreaches.owned hreaches.settled (hanswer ▸ hmove)
      · exact ih.quiet hreaches.owned hanswer hmove

theorem Reaches.trans (h : dialogue.Reaches next) (hrest : next.Reaches last) :
    dialogue.Reaches last := Relation.ReflTransGen.trans h hrest

/-- With nothing but its own steps the pending call comes to an end, and to a reply. -/
def Hears (dialogue : Dialogue) (reply : Reply) : Prop :=
  ∃ steps last, dialogue.run (List.replicate steps .answer) = some last ∧
    last.exchange.pending = none ∧ last.replies = dialogue.replies ++ [reply]

section Hears

variable {call rest : Call} {pipeline : Pipeline} {reply : Reply}

theorem hears_of_reply (hpending : dialogue.exchange.pending = some call)
    (hstep : call.step dialogue.exchange.pipeline = some (pipeline, .inr reply)) :
    dialogue.Hears reply := by
  obtain ⟨hmove, hreply⟩ := Exchange.move_answer hpending hstep
  refine ⟨1, ⟨dialogue.exchange.settle call pipeline (.inr reply), dialogue.replies ++ [reply]⟩, ?_,
    rfl, rfl⟩
  simp [run, move, hmove, hreply]

theorem hears_of_rest (hpending : dialogue.exchange.pending = some call)
    (hstep : call.step dialogue.exchange.pipeline = some (pipeline, .inl rest))
    (h : Hears ⟨dialogue.exchange.settle call pipeline (.inl rest), dialogue.replies⟩ reply) :
    dialogue.Hears reply := by
  obtain ⟨hmove, hreply⟩ := Exchange.move_answer hpending hstep
  obtain ⟨steps, last, hrun, hlast⟩ := h
  refine ⟨steps + 1, last, ?_, hlast⟩
  simpa [run, List.replicate_succ, move, hmove, hreply] using hrun

theorem hears_final (hended : dialogue.exchange.pipeline.task = .ended (.error error))
    (hpending : dialogue.exchange.pending = some call) :
    dialogue.Hears (call.finalReply dialogue.exchange.pipeline.outbox
      (if dialogue.exchange.pipeline.reported then none else some error)) := by
  rcases Call.step_of_ended hended call with ⟨next, hstep⟩ | ⟨retrying, hstep, hreply⟩
  · exact hears_of_reply hpending hstep
  · rw [hreply]
    refine hears_of_rest hpending hstep ?_
    have hshut : dialogue.exchange.pipeline.shut.task = .ended (.error error) := hended
    obtain ⟨told, hend⟩ := Call.step_awaitEnd_of_ended hshut retrying none
    exact hears_of_reply rfl hend

end Hears

/-- **The error is reported once.** After the task has ended with an error, at most one of all replies
that the owner ever got is a report. It names that error, and all replies after it are void. No call
waits, nor can it be given up: whatever else happens in between, its own steps bring it to a reply. That
of a submit is a refusal, and a proceed takes what is still in the outbox. A join, or a retry without a
signal, gets the error unless that is reported already. -/
theorem Reaches.reports_once {engine : Engine} {commons : Commons}
    (h : (initial engine commons).Reaches dialogue)
    (hended : dialogue.exchange.pipeline.task = .ended (.error error))
    (hlater : dialogue.Reaches last) :
    Reply.ReportOnce error last.replies ∧
    ∀ call, last.exchange.pending = some call →
      last.move .giveUp = none ∧
      last.Hears (call.finalReply last.exchange.pipeline.outbox
        (if last.replies.any Reply.isReport then none else some error)) := by
  have hhonest := (h.trans hlater).honest
  have htask := hlater.exchange.task_eq_of_ended hended
  refine ⟨hhonest.once error htask, fun call hpending => ⟨?_, ?_⟩⟩
  · have hstep : call.step last.exchange.pipeline ≠ none := by
      rcases Call.step_of_ended htask call with ⟨next, hstep⟩ | ⟨retrying, hstep, -⟩
      all_goals
        rw [hstep]
        nofun
    rw [move, Exchange.move, hpending, Option.bind_some, if_neg (mt Option.isNone_iff_eq_none.1 hstep)]
    rfl
  · rw [← hhonest.reported]
    exact hears_final htask hpending

/-- A submit is accepted and its failure ends the task, with a signal unread. The retry after it
discards the signal and reports the error, and then there is nothing left. -/
theorem reports_once_when_unread :
    ∃ dialogue last, (initial { policy := .prompt } .initial).Reaches dialogue ∧
      dialogue.exchange.pipeline.task = .ended (.error (.terminal .partialDisconnect)) ∧
      dialogue.replies = [.accepted true, .accepted true] ∧ dialogue.Reaches last ∧
      last.replies = dialogue.replies ++ [.retried (.error (.terminal .partialDisconnect)),
        .accepted false, .proceeded none, .retried (.error .cancelled)] ∧
      last.exchange.pending = some .join ∧ last.Hears (.joined (.ok ())) := by
  have hrun : ∃ dialogue, (initial { policy := .prompt } .initial).run
      [.call (.submit (some (.closed ⟨4000, none⟩))), .answer, .task, .task,
        .call (.submit (some .partialDisconnect)), .answer, .task] = some dialogue ∧
      dialogue.exchange.pipeline.task = .ended (.error (.terminal .partialDisconnect)) ∧
      dialogue.replies = [.accepted true, .accepted true] ∧
      ∃ last, dialogue.run [.call (.retry (some .invalidSession)), .answer, .answer,
          .call (.submit none), .answer, .call .proceed, .answer,
          .call (.retry none), .answer, .answer, .call .join] = some last ∧
        last.replies = dialogue.replies ++ [.retried (.error (.terminal .partialDisconnect)),
          .accepted false, .proceeded none, .retried (.error .cancelled)] ∧
        last.exchange.pending = some .join := ⟨_, rfl, rfl, rfl, _, rfl, rfl, rfl⟩
  obtain ⟨dialogue, hrun, hended, hreplies, last, hmoves, hlast, hpending⟩ := hrun
  have hreaches := reaches_of_run hrun
  have hlater := reaches_of_run hmoves
  obtain ⟨-, hcalls⟩ := hreaches.reports_once hended hlater
  obtain ⟨-, hhears⟩ := hcalls .join hpending
  rw [hlast, hreplies] at hhears
  exact ⟨dialogue, last, hreaches, hended, hreplies, hlater, hlast, hpending, hhears⟩

end Dialogue

end Rejoin
