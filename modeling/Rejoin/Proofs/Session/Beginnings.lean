import Rejoin.Proofs.Session.Closing
import Rejoin.Proofs.Session.Numbering
import Rejoin.Proofs.Session.Strides

/-! What a session begins. Cycles, decisions and retries are begun in one place each, and only as long
as the token is not cancelled; between two of these points a session drifts, and nothing that hooks,
connectors or others do begins anything. A session that was closed for good therefore begins nothing
any more, and what its connector would do makes no difference to it. -/

namespace Rejoin

open Commons (Edit Edits)

namespace Entry

/-- A cycle, a decision or a retry begins. -/
def begins : Entry → Bool
  | .published change => change.stage = .connecting || change.stage.isRetrying
  | .cycleStarted _ _ | .decided _ _ => true
  | .logged _ | .closing _ | .hookStarted _ _ _ | .hookEnded _ _ | .delayAsked _ | .noted _ _ => false

/-- The session was closed for good. -/
def stops : Entry → Bool
  | .closing change => change.stage = .disconnected
  | _ => false

theorem stops_closing (disconnect : Disconnect) (status : CloseStatus) :
    stops (.closing (.ofDisconnect disconnect status)) = !disconnect.action.keepsSession := by
  rw [Change.ofDisconnect]
  cases disconnect.action.keepsSession <;> rfl

/-- Every entry of a history stands in a relation to what is before it. -/
def Each (law : List Entry → Entry → Prop) (history : List Entry) : Prop :=
  ∀ earlier entry, earlier ++ [entry] <+: history → law earlier entry

variable {law : List Entry → Entry → Prop} {history : List Entry}

theorem each_nil : Each law [] := by
  intro earlier entry hprefix
  exact absurd (List.prefix_nil.1 hprefix) (List.append_ne_nil_of_right_ne_nil _ nofun)

theorem Each.concat (h : Each law history) {entry : Entry} (hentry : law history entry) :
    Each law (history ++ [entry]) := by
  intro earlier other hprefix
  rcases List.prefix_concat_iff.1 hprefix with heq | hold
  · obtain ⟨rfl, hlast⟩ := List.append_inj' heq rfl
    cases hlast
    exact hentry
  · exact h earlier other hold

theorem Each.append (h : Each law history) {added : List Entry}
    (hadded : ∀ earlier, ∀ entry ∈ added, law earlier entry) : Each law (history ++ added) := by
  induction added generalizing history with
  | nil =>
      rw [List.append_nil]
      exact h
  | cons entry added ih =>
      have hentry := h.concat (hadded history entry List.mem_cons_self)
      have hrest := ih hentry fun earlier other hmem =>
        hadded earlier other (List.mem_cons_of_mem _ hmem)
      rw [List.append_assoc] at hrest
      exact hrest

end Entry

/-! ### Drifting -/

namespace Commons

/-- From one point to a later one nothing begins, and if the session is closed for good in between,
or was before, its token is cancelled. -/
structure Drifts (before after : Commons) : Prop where
  added : ∃ added, after.history = before.history ++ added ∧
    ∀ entry ∈ added, entry.begins = false ∧ (entry.stops → after.cancelled)
  cancelled : before.cancelled → after.cancelled

namespace Drifts

variable {before between after : Commons}

theorem of_eq (hjournal : after.journal = before.journal)
    (hcancelled : before.cancelled → after.cancelled) : Drifts before after := by
  refine ⟨⟨[], ?_, List.forall_mem_nil _⟩, hcancelled⟩
  rw [history, hjournal, List.append_nil]
  rfl

theorem refl (commons : Commons) : Drifts commons commons := of_eq rfl id

theorem trans (h : Drifts before between) (hafter : Drifts between after) :
    Drifts before after := by
  obtain ⟨⟨added, hbetween, hadded⟩, hcancelled⟩ := h
  obtain ⟨⟨later, hlater, hentries⟩, hkept⟩ := hafter
  refine ⟨⟨added ++ later, ?_, fun entry hmem => ?_⟩, hkept ∘ hcancelled⟩
  · rw [hlater, hbetween, List.append_assoc]
  · rcases List.mem_append.1 hmem with hold | hnew
    · exact (hadded entry hold).imp_right fun hstops hclosing => hkept (hstops hclosing)
    · exact hentries entry hnew

theorem record (h : Drifts before after) {entry : Entry} (hbegins : entry.begins = false)
    (hstops : entry.stops → after.cancelled) : Drifts before (after.record entry) := by
  refine h.trans ⟨⟨[entry], after.history_record entry, fun other hmem => ?_⟩, id⟩
  cases List.mem_singleton.1 hmem
  exact ⟨hbegins, hstops⟩

theorem log (h : Drifts before after) (entry : LogEntry) : Drifts before (after.log entry) :=
  h.record rfl nofun

/-- A close for good cancels the token in the same breath. -/
theorem close (commons : Commons) (disconnect : Disconnect) (status : CloseStatus) :
    Drifts commons (commons.close disconnect status) := by
  have hlogged := (refl commons).log ⟨.info, "closing gateway connection",
    [("behavior", disconnect.text), ("status", status.text)]⟩
  have hstops := Entry.stops_closing disconnect status
  rw [Commons.close]
  split
  case isTrue hkeeps =>
      rw [hkeeps] at hstops
      refine (hlogged.record ?_ fun hstopped => absurd hstopped ?_).trans (of_eq rfl id)
      · exact rfl
      · exact Bool.eq_false_iff.1 hstops
  case isFalse =>
      obtain ⟨added, hadded, hentries⟩ := hlogged.added
      refine ⟨⟨added ++ [.closing (.ofDisconnect disconnect status)], ?_, fun entry hmem => ?_⟩,
        fun _ => rfl⟩
      · rw [← List.append_assoc, ← hadded]
        exact history_record _ _
      · refine ⟨?_, fun _ => rfl⟩
        rcases List.mem_append.1 hmem with hold | hnew
        · exact (hentries entry hold).1
        · cases List.mem_singleton.1 hnew
          rfl

theorem publish (h : Drifts before after) {change : Change}
    (hbegins : Entry.begins (.published change) = false) :
    Drifts before (after.record (.published change)) :=
  h.record hbegins nofun

theorem confirm (commons : Commons) : Drifts commons commons.confirm := by
  by_cases hdone : ∀ cycle, commons.cycle = some cycle → cycle.confirmed
  · rw [confirm_eq_self hdone]
    exact refl commons
  · simp only [Classical.not_forall, Bool.not_eq_true] at hdone
    obtain ⟨cycle, hcycle, hconfirmed⟩ := hdone
    rw [confirm_of_unconfirmed hcycle hconfirmed]
    have hreset : Drifts commons { commons with
        counter := commons.counter.reset
        cycle := some { cycle with confirmed := true } } := of_eq rfl id
    exact (hreset.publish rfl).log _

theorem perform (deed : Deed) (commons : Commons) : Drifts commons (deed.perform commons) := by
  cases deed with
  | close disconnect status => exact close commons disconnect status
  | confirm => exact confirm commons
  | note made => exact (refl commons).record rfl nofun
  | cancel => exact of_eq rfl fun _ => rfl
  | advanceCounter | resetCounter | countElsewhere => exact of_eq rfl id

theorem edits {allowed : Entry → Prop}
    (hallowed : ∀ entry, allowed entry → entry.begins = false ∧ entry.stops = false)
    (h : Edits allowed before after) : Drifts before after := by
  refine h.invariant (Drifts before) (fun hedit hleft => ?_) (refl before)
  cases hedit with
  | deed deed => exact hleft.trans (perform deed _)
  | entry hentry =>
      obtain ⟨hbegins, hstops⟩ := hallowed _ hentry
      exact hleft.record hbegins fun hstopped => absurd hstopped (Bool.eq_false_iff.1 hstops)
  | count => exact hleft.trans (of_eq rfl id)

/-- A connector is confined to deeds. -/
theorem poll {Result : Type} (routine : Routine Result) (commons : Commons) :
    Drifts commons (routine.poll commons).1 :=
  edits (fun _ hnever => hnever.elim) (routine.poll_edits (fun _ => False) commons)

/-- Carrying a retry on begins nothing. -/
theorem serve {signal : Signal} (h : Edits (Entry.Serves signal) before after) :
    Drifts before after := by
  refine edits (fun entry hserves => ?_) h
  cases entry with
  | published | closing | decided | cycleStarted | noted => exact hserves.elim
  | logged | hookStarted | hookEnded | delayAsked => exact ⟨rfl, rfl⟩

theorem history_prefix (h : Drifts before after) : before.history <+: after.history := by
  obtain ⟨added, hadded, -⟩ := h.added
  exact ⟨added, hadded.symm⟩

theorem each {law : List Entry → Entry → Prop} (h : Drifts before after)
    (hlaw : ∀ earlier entry, entry.begins = false → law earlier entry)
    (hbefore : Entry.Each law before.history) : Entry.Each law after.history := by
  obtain ⟨added, hadded, hentries⟩ := h.added
  rw [hadded]
  exact hbefore.append fun earlier entry hmem => hlaw earlier entry (hentries entry hmem).1

end Drifts

/-- The answer to a failure has been announced, if it is a retry. -/
def answered (commons : Commons) : Except RetryError Signal → Commons
  | .ok signal => commons.announced signal
  | .error _ => commons

/-! What the beginnings put into the journal. -/

theorem history_opened (commons : Commons) (cycle : Cycle) :
    ∃ entry, (commons.opened cycle).history = commons.history ++
      [.published .connecting, .logged entry, .cycleStarted cycle commons.now] := by
  refine ⟨⟨.debug, "starting gateway connection cycle",
    [("mode", cycle.mode.text), ("attempt", toString cycle.attempt.toNat)]⟩, ?_⟩
  simp only [opened, log, history_record, List.append_assoc]
  rfl

theorem history_announced (commons : Commons) (signal : Signal) :
    (commons.announced signal).history = commons.history ++
      [.hookStarted .announcer signal commons.now, .published (.retrying signal),
        .hookEnded .announcer (.ok ())] := by
  simp only [announced, history_record, List.append_assoc]
  rfl

theorem history_prefix_answered (commons : Commons) (outcome : Except RetryError Signal) :
    commons.history <+: (commons.answered outcome).history := by
  cases outcome with
  | error => exact List.prefix_rfl
  | ok signal => exact ⟨_, (commons.history_announced signal).symm⟩

end Commons

namespace Engine

theorem history_decide (engine : Engine) (failure : Option Failure) (commons : Commons) :
    ∃ entries : List LogEntry, (engine.decide failure commons).1.history =
      commons.history ++ entries.map .logged ++
        [.decided failure (engine.decide failure commons).2] := by
  refine ⟨(engine.policy.decide commons.counter (commons.draws commons.drawn) failure).log, ?_⟩
  rw [decide_fst_eq, Commons.history_record, Commons.logAll_eq]
  simp only [Commons.history, List.reverse_append, List.map_reverse, List.reverse_reverse]

/-- All that a failure begins is its decision and the announcement of its retry. -/
theorem start_drifts {engine : Engine} (hannounces : engine.Announces) {commons : Commons}
    (hopen : commons.cancelled = false) (failure : Option Failure) :
    ((engine.decide failure commons).1.answered (engine.decide failure commons).2).Drifts
      (engine.start failure commons).1 := by
  cases hdecide : (engine.decide failure commons).2 with
  | error error =>
      rw [start_of_refused hopen hdecide]
      exact .refl _
  | ok signal => exact .serve (start_announced hannounces hopen hdecide).1

end Engine

namespace Session

variable {session next : Session} {before commons after : Commons}

/-! ### Steps -/

/-- What a move puts into the journal. -/
inductive Grows (session : Session) (commons : Commons) : Commons → Prop where
  | drifts {after : Commons} (h : commons.Drifts after) : Grows session commons after
  | begins {mode : Mode} {after : Commons} (hphase : session.phase = .starting mode)
      (hopen : commons.cancelled = false)
      (h : (commons.opened (session.nextCycle mode commons)).Drifts after) :
      Grows session commons after
  | decides {failure : Option Failure} {after : Commons}
      (hinbox : session.pipeline.inbox = some failure) (hopen : commons.cancelled = false)
      (h : ((session.pipeline.engine.decide failure commons).1.answered
        (session.pipeline.engine.decide failure commons).2).Drifts after) :
      Grows session commons after

theorem drifts_left (h : before.Drifts commons) : before.Drifts { commons with cycle := none } :=
  h.trans (.of_eq rfl id)

theorem drifts_fail (h : before.Drifts commons) (failure : Failure) :
    before.Drifts (session.fail failure commons).2 := (drifts_left h).log _

theorem drifts_afterCycle {result : Commons × RoutineProgress (Except Failure Unit)}
    (h : before.Drifts result.1) : before.Drifts (session.afterCycle result).2 := by
  obtain ⟨commons, progress⟩ := result
  rcases progress with (failure | ⟨⟨⟩⟩) | message | current
  · exact drifts_fail h failure
  · exact (drifts_left h).log _
  · exact drifts_left h
  · exact h

theorem drifts_abandon : commons.Drifts (session.abandon commons).2 := by
  have htaken : commons.Drifts commons.takeClose := .of_eq rfl id
  rw [abandon]
  split
  · exact drifts_fail htaken _
  · exact .of_eq rfl id

theorem Informs.drifts (h : Informs commons after) : commons.Drifts after := by
  cases h with
  | unchanged => exact .refl commons
  | counted => exact .of_eq rfl id
  | announced tally entry =>
      have hcounted : commons.Drifts { commons with metrics := commons.metrics.count tally } :=
        .of_eq rfl id
      exact (hcounted.log entry).publish rfl

/-- The run begins nothing but cycles. -/
theorem drifts_of_step (hstep : session.step commons = some (next, after)) :
    commons.Drifts after ∨ ∃ mode, session.phase = .starting mode ∧ commons.cancelled = false ∧
      (commons.opened (session.nextCycle mode commons)).Drifts after := by
  cases stepped_of_step hstep with
  | refused => exact .inl (.refl commons)
  | @began mode hphase hopen =>
      rw [beginCycle_eq]
      exact .inr ⟨mode, hphase, hopen, drifts_afterCycle (.poll _ _)⟩
  | abandoned => exact .inl drifts_abandon
  | polled => exact .inl (drifts_afterCycle (.poll _ _))
  | called _ hcalled => exact .inl hcalled.informs.drifts

theorem Stands.grows_task (h : Stands session commons) {pipeline : Pipeline}
    (hstep : session.pipeline.Stepped commons pipeline after) : Grows session commons after := by
  cases hstep with
  | cancelled | closed | placed => exact .drifts (.refl commons)
  | dropped => exact .drifts ((Commons.Drifts.refl commons).log _)
  | took hidle hopen hinbox =>
      exact .decides hinbox hopen (Engine.start_drifts (h.announces hidle) hopen _)
  | resumed htask =>
      exact .drifts (.serve (session.pipeline.engine.resume_sound (fun _ => id) rfl
        (h.permitted htask) commons).1)

theorem Stands.grows (h : Stands session commons) {move : Move} {course : Session × Commons}
    (hmove : Session.move (session, commons) move = some course) :
    Grows session commons course.2 := by
  cases move with
  | run =>
      rcases drifts_of_step hmove with hdrifts | ⟨mode, hphase, hopen, hdrifts⟩
      · exact .drifts hdrifts
      · exact .begins hphase hopen hdrifts
  | task =>
      obtain ⟨⟨pipeline, after⟩, hstep, rfl⟩ := Option.map_eq_some_iff.1 hmove
      exact h.grows_task (Pipeline.stepped_of_step hstep)
  | others deed =>
      cases hmove
      exact .drifts (.perform deed commons)
  | wait millis =>
      cases hmove
      exact .drifts (.of_eq rfl id)

/-- Nothing is ever lost from the journal. -/
theorem Grows.history_prefix (h : Grows session commons after) :
    commons.history <+: after.history := by
  cases h with
  | drifts hdrifts => exact hdrifts.history_prefix
  | @begins mode _ _ _ hdrifts =>
      obtain ⟨logged, hopened⟩ := commons.history_opened (session.nextCycle mode commons)
      exact List.IsPrefix.trans ⟨_, hopened.symm⟩ hdrifts.history_prefix
  | @decides failure _ _ _ hdrifts =>
      obtain ⟨entries, hdecided⟩ := session.pipeline.engine.history_decide failure commons
      rw [List.append_assoc] at hdecided
      have hanswered := (session.pipeline.engine.decide failure commons).1.history_prefix_answered
        (session.pipeline.engine.decide failure commons).2
      exact (List.IsPrefix.trans ⟨_, hdecided.symm⟩ hanswered).trans hdrifts.history_prefix

/-! ### Closed for good -/

/-- What is begun is begun before any close for good. -/
def Unstopped (earlier : List Entry) (entry : Entry) : Prop :=
  entry.begins → ∀ former ∈ earlier, former.stops = false

/-- Nothing was begun after a close for good, and the token is still cancelled by it. -/
structure Heeds (commons : Commons) : Prop where
  cancelled : ∀ entry ∈ commons.history, entry.stops → commons.cancelled
  unstopped : Entry.Each Unstopped commons.history

theorem heeds_of_stops (h : ∀ entry ∈ commons.history, entry.stops = false) : Heeds commons := by
  refine ⟨fun entry hmem hstops => absurd hstops (Bool.eq_false_iff.1 (h entry hmem)), ?_⟩
  intro earlier entry hentry _ former hmem
  exact h former (hentry.subset (List.mem_append_left _ hmem))

theorem Heeds.stops_eq_false (h : Heeds commons) (hopen : commons.cancelled = false) :
    ∀ entry ∈ commons.history, entry.stops = false :=
  fun entry hmem => Bool.eq_false_iff.2 fun hstops =>
    Bool.eq_false_iff.1 hopen (h.cancelled entry hmem hstops)

theorem Heeds.drifts (h : Heeds commons) (hdrifts : commons.Drifts after) : Heeds after := by
  have hlaw : ∀ earlier entry, entry.begins = false → Unstopped earlier entry :=
    fun _ _ hquiet hbegins => absurd hbegins (Bool.eq_false_iff.1 hquiet)
  refine ⟨fun entry hmem hstops => ?_, hdrifts.each hlaw h.unstopped⟩
  obtain ⟨added, hadded, hentries⟩ := hdrifts.added
  rw [hadded] at hmem
  rcases List.mem_append.1 hmem with hold | hnew
  · exact hdrifts.cancelled (h.cancelled entry hold hstops)
  · exact (hentries entry hnew).2 hstops

/-- As long as the session is open, whatever it begins leaves it unstopped. -/
theorem Heeds.begun (h : Heeds commons) (hopen : commons.cancelled = false) {begun : Commons}
    (hbegun : ∃ added, begun.history = commons.history ++ added ∧
      ∀ entry ∈ added, entry.stops = false) : Heeds begun := by
  obtain ⟨added, hadded, hentries⟩ := hbegun
  refine heeds_of_stops fun entry hmem => ?_
  rw [hadded] at hmem
  exact (List.mem_append.1 hmem).elim (h.stops_eq_false hopen entry) (hentries entry)

theorem Heeds.opened (h : Heeds commons) (hopen : commons.cancelled = false) (cycle : Cycle) :
    Heeds (commons.opened cycle) := by
  obtain ⟨logged, hhistory⟩ := commons.history_opened cycle
  refine h.begun hopen ⟨_, hhistory, ?_⟩
  simp [Entry.stops]

theorem Heeds.decided (h : Heeds commons) (hopen : commons.cancelled = false) (engine : Engine)
    (failure : Option Failure) :
    Heeds ((engine.decide failure commons).1.answered (engine.decide failure commons).2) := by
  obtain ⟨entries, hdecided⟩ := engine.history_decide failure commons
  have hdecision : Heeds (engine.decide failure commons).1 := by
    refine h.begun hopen ⟨_, hdecided.trans (List.append_assoc _ _ _), fun entry hmem => ?_⟩
    rcases List.mem_append.1 hmem with hlogged | hlast
    · obtain ⟨logged, -, rfl⟩ := List.mem_map.1 hlogged
      rfl
    · cases List.mem_singleton.1 hlast
      rfl
  cases hdecide : (engine.decide failure commons).2 with
  | error => exact hdecision
  | ok signal =>
      refine hdecision.begun ((engine.cancelled_decide failure commons).trans hopen)
        ⟨_, Commons.history_announced _ signal, ?_⟩
      simp [Entry.stops]

theorem Heeds.grows (h : Heeds commons) (hgrows : Grows session commons after) : Heeds after := by
  cases hgrows with
  | drifts hdrifts => exact h.drifts hdrifts
  | begins _ hopen hdrifts => exact (h.opened hopen _).drifts hdrifts
  | decides _ hopen hdrifts => exact (h.decided hopen _ _).drifts hdrifts

/-- A session whose token is cancelled can only drift. -/
theorem Grows.drifts_of_cancelled (h : Grows session commons after)
    (hcancelled : commons.cancelled) : commons.Drifts after := by
  have hnot : commons.cancelled ≠ false := Bool.ne_false_iff.2 hcancelled
  cases h with
  | drifts hdrifts => exact hdrifts
  | begins _ hopen => exact absurd hopen hnot
  | decides _ hopen => exact absurd hopen hnot

theorem Leads.heeds {course last : Session × Commons} (h : Leads course last)
    (hstands : Stands course.1 course.2) (hheeds : Heeds course.2) : Heeds last.2 :=
  h.invariant hstands (fun point => Heeds point.2)
    (fun hpoint hmove hbefore => hbefore.grows (hpoint.grows hmove)) hheeds

theorem Leads.drifts {course last : Session × Commons} (h : Leads course last)
    (hstands : Stands course.1 course.2) (hcancelled : course.2.cancelled) :
    course.2.Drifts last.2 := by
  refine h.invariant hstands (fun point => course.2.Drifts point.2) ?_ (.refl _)
  intro before after move hpoint hmove hbefore
  have hgrows := hpoint.grows hmove
  exact hbefore.trans (hgrows.drifts_of_cancelled (hbefore.cancelled hcancelled))

/-! ### The connector of a closed session -/

/-- A cycle that is suspended where it is, exchanged for another one. -/
def Phase.recast (current : Suspended (Except Failure Unit)) : Phase → Phase
  | .cycling _ => .cycling current
  | phase => phase

/-- The session with another connector, and with another cycle suspended if one is. -/
def recast (session : Session) (connector : Cycle → Routine (Except Failure Unit))
    (current : Suspended (Except Failure Unit)) : Session :=
  { session with connector, phase := session.phase.recast current }

section Recast

variable (connector : Cycle → Routine (Except Failure Unit))
  (current : Suspended (Except Failure Unit))

theorem recast_afterReply (session : Session) (commons : Commons) (reply : Reply) :
    (session.recast connector current).afterReply commons reply =
      ((session.afterReply commons reply).1.recast connector current,
        (session.afterReply commons reply).2) := by
  cases reply with
  | retried result =>
      cases result with
      | ok signal => rfl
      | error error =>
          simp only [afterReply, stopWith]
          split <;> rfl
  | accepted | proceeded | joined | panicked => rfl

/-- With the token cancelled no step of the run looks at the connector. -/
theorem step_recast (hcancelled : commons.cancelled) :
    (session.recast connector current).step commons =
      (session.step commons).map fun course => (course.1.recast connector current, course.2) := by
  have habandoned := Commons.abandoned_of_cancelled hcancelled
  obtain ⟨own, pipeline, phase, cycles⟩ := session
  cases phase with
  | starting mode =>
      simp only [recast, Phase.recast, step, if_pos hcancelled, Option.map_some]
      rfl
  | cycling suspended =>
      simp only [recast, Phase.recast, step, if_pos habandoned, Option.map_some, abandon]
      split <;> rfl
  | retrying call =>
      cases hcall : call.step pipeline with
      | none => simp only [recast, Phase.recast, step, hcall, Option.map_none]
      | some result =>
          obtain ⟨pipeline, later | reply⟩ := result
          · simp only [recast, Phase.recast, step, hcall, Option.map_some]
          · have hreplied := recast_afterReply connector current
              ⟨own, pipeline, .retrying call, cycles⟩ commons reply
            simp only [recast, Phase.recast, step, hcall, Option.map_some] at hreplied ⊢
            rw [hreplied]
  | ended | panicked => rfl

theorem move_recast (hcancelled : commons.cancelled) (move : Move) :
    Session.move (session.recast connector current, commons) move =
      (Session.move (session, commons) move).map fun course =>
        (course.1.recast connector current, course.2) := by
  cases move with
  | run => exact step_recast connector current hcancelled
  | task =>
      rw [Session.move, Session.move, Option.map_map]
      rfl
  | others | wait => rfl

theorem follow_recast (hcancelled : commons.cancelled) (moves : List Move) :
    follow (session.recast connector current, commons) moves =
      (follow (session, commons) moves).map fun course =>
        (course.1.recast connector current, course.2) := by
  induction moves generalizing session commons with
  | nil => rfl
  | cons move moves ih =>
      rw [follow_cons, follow_cons, move_recast connector current hcancelled]
      cases hmove : Session.move (session, commons) move with
      | none => rfl
      | some course => exact ih (Leads.cancelled (.single ⟨move, hmove⟩) hcancelled)

end Recast

/-! ### The counter of a closed session -/

theorem counter_of_step (hcancelled : commons.cancelled)
    (hstep : session.step commons = some (next, after)) : after.counter = commons.counter := by
  cases closes_of_step hcancelled hstep with
  | ended => rfl
  | abandoned =>
      rw [abandon]
      split <;> rfl
  | called _ hcalled => cases hcalled.informs <;> rfl

theorem counter_of_move (hcancelled : commons.cancelled) {move : Move}
    {course : Session × Commons} (hmove : Session.move (session, commons) move = some course)
    (hown : ∀ deed, move ≠ .others deed) : course.2.counter = commons.counter := by
  cases move with
  | run => exact counter_of_step hcancelled hmove
  | task =>
      obtain ⟨⟨pipeline, after⟩, hstep, rfl⟩ := Option.map_eq_some_iff.1 hmove
      obtain ⟨-, rfl⟩ := (Pipeline.stepped_of_step hstep).of_cancelled hcancelled
      rfl
  | others deed => exact absurd rfl (hown deed)
  | wait millis =>
      cases hmove
      rfl

/-- **Nothing begins after a close for good.** From the moment of a close for good on, no cycle, no
decision and no retry is begun, whoever closed the session and wherever it was. No move of its own
touches the counter any more, and neither its connector nor the cycle that is suspended is looked at
again: with any others in their place everything goes the same way. -/
theorem Leads.begins_nothing_once_stopped {policy : Policy} {hooks : List Hook}
    {connector : Cycle → Routine (Except Failure Unit)} (hhooks : .announcer ∉ hooks)
    (h : Leads (initial policy hooks connector, fresh before) (session, commons)) :
    (∀ earlier stop later, commons.history = earlier ++ stop :: later → stop.stops →
      commons.cancelled ∧ ∀ entry ∈ later, entry.begins = false) ∧
    (commons.cancelled →
      (∀ last, Leads (session, commons) last → ∃ later,
        last.2.history = commons.history ++ later ∧ ∀ entry ∈ later, entry.begins = false) ∧
      (∀ move course, Session.move (session, commons) move = some course →
        (∀ deed, move ≠ .others deed) → course.2.counter = commons.counter) ∧
      ∀ other current moves, follow (session.recast other current, commons) moves =
        (follow (session, commons) moves).map fun course =>
          (course.1.recast other current, course.2)) := by
  have hinitial := stands_initial policy hhooks connector before
  have hheeds := h.heeds hinitial (heeds_of_stops (List.forall_mem_nil _))
  refine ⟨fun earlier stop later hhistory hstops => ⟨?_, fun entry hmem => ?_⟩,
    fun hcancelled => ⟨fun last hlast => ?_, ?_, ?_⟩⟩
  · refine hheeds.cancelled stop ?_ hstops
    rw [hhistory]
    exact List.mem_append_right _ List.mem_cons_self
  · obtain ⟨between, rest, rfl⟩ := List.append_of_mem hmem
    refine Bool.eq_false_iff.2 fun hbegins => Bool.eq_false_iff.1 ?_ hstops
    refine hheeds.unstopped (earlier ++ stop :: between) entry ⟨rest, ?_⟩ hbegins stop
      (List.mem_append_right _ List.mem_cons_self)
    rw [hhistory, List.append_assoc, List.append_assoc]
    rfl
  · obtain ⟨later, hlater, hentries⟩ := (hlast.drifts (h.stands hinitial) hcancelled).added
    exact ⟨later, hlater, fun entry hmem => (hentries entry hmem).1⟩
  · exact fun move course => counter_of_move hcancelled
  · exact fun other current moves => follow_recast other current hcancelled moves

/-- A hook closes the session for good, just after the retry was announced, and is heeded although
the delay is still to come. -/
theorem begins_nothing_once_stopped_by_hook :
    ∃ session after, Leads (initial .prompt
        [.custom "closes" fun _ => .act (.close .stop .normal) (.done (.ok ()))] faltering,
        fresh .initial) (session, after) ∧
      after.history.any Entry.stops ∧ after.counter.attempts = 2 ∧ after.cancelled ∧
      ∀ last, Leads (session, after) last → ∃ later,
        last.2.history = after.history ++ later ∧ ∀ entry ∈ later, entry.begins = false := by
  have hmoves : (follow (initial .prompt
        [.custom "closes" fun _ => .act (.close .stop .normal) (.done (.ok ()))] faltering,
        fresh .initial) [.run, .run, .task]).map (fun course => decide (
          course.2.history.any Entry.stops ∧ course.2.counter.attempts = 2 ∧
          course.2.cancelled)) = some true := by
    decide +kernel
  obtain ⟨⟨session, after⟩, hfollow, hview⟩ := Option.map_eq_some_iff.1 hmoves
  obtain ⟨hstops, hattempts, hcancelled⟩ := of_decide_eq_true hview
  have hhooks : Hook.announcer ∉
      [.custom "closes" fun _ => .act (.close .stop .normal) (.done (.ok ()))] := by
    simp
  have hleads := leads_of_follow hfollow
  exact ⟨session, after, hleads, hstops, hattempts, hcancelled,
    ((hleads.begins_nothing_once_stopped hhooks).2 hcancelled).1⟩

end Session

end Rejoin
