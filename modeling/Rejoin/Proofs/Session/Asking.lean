import Rejoin.Proofs.Session.Beginnings
import Rejoin.Proofs.Task.Cancellation

/-! What becomes of a close that keeps the session. The run looks at such closes only when it finds
the cycle abandoned, and not when the connector comes to its end: a cycle that is suspended gives way
to the last close made in it, with the status of that close for its failure, but closes made in the
very poll in which the connector ends are lost, and the connector's own outcome stands. -/

namespace Rejoin

open Commons (Edit Edits)

namespace Entry

/-- What an entry makes of the last close of the cycle that keeps the session. -/
def asks (asked : Option CloseStatus) : Entry → Option CloseStatus
  | .closing change => if change.stage = .suspended then change.closing.map Prod.snd else asked
  | .cycleStarted _ _ => none
  | _ => asked

/-- The status of the last close that keeps the session, out of those made since the last cycle
started. -/
def lastAsked (history : List Entry) : Option CloseStatus := history.foldl asks none

theorem lastAsked_concat (history : List Entry) (entry : Entry) :
    lastAsked (history ++ [entry]) = entry.asks (lastAsked history) := by
  rw [lastAsked, List.foldl_append]
  rfl

theorem asks_closing (asked : Option CloseStatus) (disconnect : Disconnect) (status : CloseStatus) :
    asks asked (.closing (.ofDisconnect disconnect status)) =
      if disconnect.action.keepsSession then some status else asked := by
  rw [Change.ofDisconnect]
  cases disconnect.action.keepsSession <;> rfl

end Entry

/-- The slot with the close that was made last, if one was made. -/
def Cycle.Slot.holding (close : Option CloseStatus) : Slot := ⟨close.isSome, close⟩

namespace Commons

/-- While a cycle is running, the slot holds the last close that was made in it and keeps the
session. -/
def Minds (commons : Commons) : Prop :=
  commons.cycle.isSome → commons.slot = .holding (Entry.lastAsked commons.history)

variable {commons after : Commons}

theorem minds_of_none (h : commons.cycle = none) : commons.Minds := by
  intro hcycle
  rw [h] at hcycle
  cases hcycle

theorem Minds.of_eq (h : commons.Minds) (hcycle : after.cycle = commons.cycle)
    (hslot : after.slot = commons.slot) (hjournal : after.journal = commons.journal) :
    after.Minds := by
  rw [Minds, hcycle, hslot, history, hjournal]
  exact h

theorem Minds.record (h : commons.Minds) {entry : Entry}
    (hasks : ∀ asked, entry.asks asked = asked) : (commons.record entry).Minds := by
  intro hcycle
  rw [history_record, Entry.lastAsked_concat, hasks]
  exact h hcycle

theorem Minds.log (h : commons.Minds) (entry : LogEntry) : (commons.log entry).Minds :=
  h.record fun _ => rfl

theorem Minds.publish (h : commons.Minds) (change : Change) :
    (commons.record (.published change)).Minds := h.record fun _ => rfl

theorem Minds.close (h : commons.Minds) (disconnect : Disconnect) (status : CloseStatus) :
    (commons.close disconnect status).Minds := by
  have hasked : ∀ entry : LogEntry, Entry.lastAsked
      ((commons.log entry).record (.closing (.ofDisconnect disconnect status))).history =
        if disconnect.action.keepsSession then some status else Entry.lastAsked commons.history := by
    intro entry
    rw [history_record, Entry.lastAsked_concat, Entry.asks_closing, Commons.log, history_record,
      Entry.lastAsked_concat]
    rfl
  intro hcycle
  rw [Commons.close] at hcycle ⊢
  split at hcycle
  case isTrue hkeeps =>
      rw [if_pos hkeeps]
      exact congrArg Cycle.Slot.holding ((hasked _).trans (if_pos hkeeps)).symm
  case isFalse hstops =>
      rw [if_neg hstops]
      exact (h hcycle).trans (congrArg Cycle.Slot.holding ((hasked _).trans (if_neg hstops)).symm)

theorem Minds.confirm (h : commons.Minds) : commons.confirm.Minds := by
  by_cases hdone : ∀ cycle, commons.cycle = some cycle → cycle.confirmed
  · rw [confirm_eq_self hdone]
    exact h
  · simp only [Classical.not_forall, Bool.not_eq_true] at hdone
    obtain ⟨cycle, hcycle, hconfirmed⟩ := hdone
    rw [confirm_of_unconfirmed hcycle hconfirmed]
    have hreset : Minds { commons with
        counter := commons.counter.reset
        cycle := some { cycle with confirmed := true } } :=
      fun _ => h (hcycle ▸ rfl)
    exact (hreset.publish _).log _

theorem Minds.perform (h : commons.Minds) (deed : Deed) : (deed.perform commons).Minds := by
  cases deed with
  | close disconnect status => exact h.close disconnect status
  | confirm => exact h.confirm
  | note made => exact h.record fun _ => rfl
  | advanceCounter | resetCounter | cancel | countElsewhere => exact h.of_eq rfl rfl rfl

theorem Minds.poll {Result : Type} (h : commons.Minds) (routine : Routine Result) :
    (routine.poll commons).1.Minds :=
  routine.poll_of_deed Minds (fun deed hbefore => hbefore.perform deed) h

theorem lastAsked_opened (commons : Commons) (cycle : Cycle) :
    Entry.lastAsked (commons.opened cycle).history = none := by
  rw [opened, history_record, Entry.lastAsked_concat]
  rfl

/-- A cycle begins with an empty slot, whatever was left in it. -/
theorem minds_opened (commons : Commons) (cycle : Cycle) : (commons.opened cycle).Minds :=
  fun _ => congrArg Cycle.Slot.holding (commons.lastAsked_opened cycle).symm

end Commons

namespace Session

variable {session next : Session} {before commons after : Commons}

/-! ### Cycles -/

theorem minds_afterCycle (session : Session)
    {result : Commons × RoutineProgress (Except Failure Unit)} (h : result.1.Minds) :
    (session.afterCycle result).2.Minds := by
  obtain ⟨commons, (failure | ⟨⟨⟩⟩) | message | current⟩ := result
  · exact Commons.minds_of_none rfl
  · exact Commons.minds_of_none rfl
  · exact Commons.minds_of_none rfl
  · exact h

theorem Informs.minds (h : Informs commons after) (hminds : commons.Minds) : after.Minds := by
  cases h with
  | unchanged => exact hminds
  | counted => exact hminds.of_eq rfl rfl rfl
  | announced tally entry =>
      have hcounted : Commons.Minds { commons with metrics := commons.metrics.count tally } :=
        hminds.of_eq rfl rfl rfl
      exact (hcounted.log entry).publish _

theorem minds_of_step (h : commons.Minds) (hstep : session.step commons = some (next, after)) :
    after.Minds := by
  cases stepped_of_step hstep with
  | refused => exact h
  | began =>
      rw [beginCycle_eq]
      exact minds_afterCycle _ ((commons.minds_opened _).poll _)
  | abandoned =>
      rw [abandon]
      split <;> exact Commons.minds_of_none rfl
  | polled => exact minds_afterCycle _ (h.poll _)
  | called _ hcalled => exact hcalled.informs.minds h

theorem Stands.minds_of_move (h : Stands session commons) (hminds : commons.Minds) {move : Move}
    {course : Session × Commons} (hmove : Session.move (session, commons) move = some course) :
    course.2.Minds := by
  cases move with
  | run => exact minds_of_step hminds hmove
  | task =>
      obtain ⟨⟨pipeline, after⟩, hstep, rfl⟩ := Option.map_eq_some_iff.1 hmove
      have hstepped := Pipeline.stepped_of_step hstep
      by_cases hcycling : ∃ current, session.phase = .cycling current
      · obtain ⟨current, hphase⟩ := hcycling
        obtain ⟨-, rfl⟩ := atRest_stepped (h.atRest_in_cycle hphase).1 hstepped
        exact hminds
      · exact Commons.minds_of_none
          ((h.task hstepped).cycle_eq_none fun current hphase => hcycling ⟨current, hphase⟩)
  | others deed =>
      cases hmove
      exact hminds.perform deed
  | wait millis =>
      cases hmove
      exact hminds.of_eq rfl rfl rfl

theorem Leads.minds {course last : Session × Commons} (h : Leads course last)
    (hstands : Stands course.1 course.2) (hminds : course.2.Minds) : last.2.Minds :=
  h.invariant hstands (fun point => point.2.Minds)
    (fun hpoint hmove hbefore => hpoint.minds_of_move hbefore hmove) hminds

/-! ### The end of a cycle -/

/-- What the run is at once its connector got so far. -/
def Phase.ofProgress : RoutineProgress (Except Failure Unit) → Phase
  | .finished (.ok ()) => .ended (.ok ())
  | .finished (.error failure) => .retrying (.retry (some failure))
  | .panicked message => .panicked message
  | .waiting current => .cycling current

theorem phase_afterCycle (session : Session)
    (result : Commons × RoutineProgress (Except Failure Unit)) :
    (session.afterCycle result).1.phase = .ofProgress result.2 := by
  obtain ⟨commons, (failure | ⟨⟨⟩⟩) | message | current⟩ := result <;> rfl

/-- The cycle that is suspended could be carried on. -/
def Phase.isDue (phase : Phase) (commons : Commons) : Bool :=
  match phase with
  | .cycling current => current.wake.isDue commons
  | .starting _ | .retrying _ | .ended _ | .panicked _ => false

/-- What of the connector is polled in the next step of the run, if anything is, and at which
point. -/
def polled? (session : Session) (commons : Commons) :
    Option (Routine (Except Failure Unit) × Commons) :=
  match session.phase with
  | .starting mode =>
    if commons.cancelled then none
    else
      let cycle := session.nextCycle mode commons
      some (session.connector cycle, commons.opened cycle)
  | .cycling current =>
    if ¬ commons.abandoned ∧ current.wake.isDue commons then some (current.next, commons) else none
  | .retrying _ | .ended _ | .panicked _ => none

variable {routine : Routine (Except Failure Unit)} {point : Commons}

/-- What is polled is the beginning of the next cycle, or what a suspended one goes on with. -/
inductive Polled (session : Session) (commons : Commons) :
    Routine (Except Failure Unit) → Commons → Prop where
  | began {mode : Mode} (hphase : session.phase = .starting mode)
      (hopen : commons.cancelled = false) :
      Polled session commons (session.connector (session.nextCycle mode commons))
        (commons.opened (session.nextCycle mode commons))
  | resumed {current : Suspended (Except Failure Unit)} (hphase : session.phase = .cycling current)
      (hkept : commons.abandoned = false) (hdue : current.wake.isDue commons) :
      Polled session commons current.next commons

theorem polled_of_eq_some (h : session.polled? commons = some (routine, point)) :
    Polled session commons routine point := by
  rw [polled?] at h
  split at h
  case h_1 mode hphase =>
      split at h
      case isTrue => cases h
      case isFalse hopen =>
          cases h
          exact .began hphase (Bool.eq_false_iff.2 hopen)
  case h_2 current hphase =>
      split at h
      case isTrue hdue =>
          cases h
          exact .resumed hphase (Bool.eq_false_iff.2 hdue.1) hdue.2
      case isFalse => cases h
  all_goals cases h

/-- What the connector comes to in a poll is what the run goes by. -/
theorem step_of_polled (hpolled : session.polled? commons = some (routine, point)) :
    ∃ current : Session, session.step commons = some (current.afterCycle (routine.poll point)) := by
  cases polled_of_eq_some hpolled with
  | began hphase hopen =>
      refine ⟨{ session with cycles := session.cycles + 1 }, ?_⟩
      rw [step, hphase]
      exact if_neg (Bool.eq_false_iff.1 hopen)
  | resumed hphase hkept hdue =>
      refine ⟨session, ?_⟩
      rw [step, hphase]
      exact (if_neg (Bool.eq_false_iff.1 hkept)).trans (if_pos hdue)

/-- Nothing has been asked of a cycle that is polled. -/
theorem Stands.lastAsked_of_polled (h : Stands session commons) (hminds : commons.Minds)
    (hpolled : session.polled? commons = some (routine, point)) :
    Entry.lastAsked point.history = none := by
  cases polled_of_eq_some hpolled with
  | began => exact commons.lastAsked_opened _
  | resumed hphase hkept =>
      obtain ⟨-, cycle, hcycle⟩ := h.atRest_in_cycle hphase
      have hslot := hminds (hcycle ▸ rfl)
      rw [Commons.abandoned, hcycle, hslot, Bool.or_eq_false_iff] at hkept
      exact Option.not_isSome_iff_eq_none.1 (Bool.eq_false_iff.1 hkept.2)

/-- A suspended cycle gives way to the last close made in it that keeps the session, whatever the
connector would have come to, and whether or not the session was closed for good. -/
theorem Stands.step_of_asked (h : Stands session commons) (hminds : commons.Minds)
    {current : Suspended (Except Failure Unit)} (hphase : session.phase = .cycling current)
    {status : CloseStatus} (hasked : Entry.lastAsked commons.history = some status) :
    session.step commons = some (session.fail (.closed status) commons.takeClose) := by
  obtain ⟨-, cycle, hcycle⟩ := h.atRest_in_cycle hphase
  have hslot : commons.slot = .holding (some status) := hasked ▸ hminds (hcycle ▸ rfl)
  have habandoned : commons.abandoned := by
    rw [Commons.abandoned, hcycle, hslot]
    exact Bool.or_true _
  rw [step, hphase]
  dsimp only
  rw [if_pos habandoned, abandon, hslot]
  rfl

theorem lastAsked_abandon (session : Session) (commons : Commons) :
    Entry.lastAsked (session.abandon commons).2.history = Entry.lastAsked commons.history := by
  rw [abandon]
  split
  · rw [fail, Commons.log, Commons.history_record, Entry.lastAsked_concat]
    rfl
  · rfl

/-! ### The failure of a cycle -/

/-- A failure is on its way to its decision: the run is about to hand it in, or has handed it in and
waits; or it is decided on; or the session was closed for good. -/
inductive Pending (failure : Failure) (before : Commons) (session : Session) (commons : Commons) :
    Prop where
  | asking (hphase : session.phase = .retrying (.retry (some failure)))
      (hdecisions : commons.decisions = before.decisions)
  | handed (hphase : session.phase = .retrying .awaitSignal)
      (hinbox : session.pipeline.inbox = some (some failure))
      (hidle : session.pipeline.task = .idle) (hdecisions : commons.decisions = before.decisions)
  | decided {outcome : Except RetryError Signal}
      (hdecisions : before.decisions ++ [(some failure, outcome)] <+: commons.decisions)
  | closed (hcancelled : commons.cancelled)

section Pending

variable {failure : Failure}

/-- What is decided stays decided. -/
theorem Grows.decisions_grow (h : Grows session commons after) :
    commons.decisions <+: after.decisions :=
  h.history_prefix.filterMap Entry.decision?

theorem Pending.run (h : Pending failure before session commons) (hstands : Stands session commons)
    (hsettled : session.Settled commons) (hstep : session.step commons = some (next, after)) :
    Pending failure before next after := by
  cases h with
  | asking hphase hdecisions =>
      have hpipeline := hstands.atRest_of_retry hphase
      cases called_of_step hphase hstep with
      | told hcall => cases hcall
      | waited hcall =>
          cases hcall with
          | retryRefused hclosed =>
              refine .closed (hsettled (hpipeline.task.resolve_left fun hidle => ?_))
              rcases hclosed with hclosed | hover
              · cases hpipeline.accepting.symm.trans hclosed
              · rw [hidle] at hover
                cases hover
          | retryAccepted _ hrunning =>
              refine .handed rfl rfl (hpipeline.task.resolve_right fun hended => ?_) hdecisions
              rw [hended] at hrunning
              cases hrunning
  | handed hphase hinbox hidle hdecisions =>
      obtain ⟨houtbox, -⟩ := hstands.outbox_eq_none hidle hinbox
      cases called_of_step hphase hstep with
      | told hcall =>
          cases hcall with
          | retried htaken => cases houtbox.symm.trans htaken
      | waited hcall =>
          cases hcall with
          | missed _ hover =>
              rw [hidle] at hover
              cases hover
  | decided hdecisions =>
      have hmove : Session.move (session, commons) .run = some (next, after) := hstep
      exact .decided (hdecisions.trans (hstands.grows hmove).decisions_grow)
  | closed hcancelled => exact .closed (cancelled_of_step hcancelled hstep)

theorem Pending.task (h : Pending failure before session commons) (hstands : Stands session commons)
    {pipeline : Pipeline} (hstep : session.pipeline.Stepped commons pipeline after) :
    Pending failure before { session with pipeline } after := by
  cases h with
  | asking hphase hdecisions =>
      obtain ⟨-, rfl⟩ := atRest_stepped (hstands.atRest_of_retry hphase) hstep
      exact .asking hphase hdecisions
  | handed hphase hinbox hidle hdecisions =>
      cases hstep with
      | cancelled _ hcancelled => exact .closed hcancelled
      | took _ hopen htaken =>
          cases hinbox.symm.trans htaken
          obtain ⟨begun, hconveys⟩ := Pipeline.Stepped.conveys_of_took hidle hopen hinbox
          have hdecided := hconveys.decisions
          rw [hdecisions] at hdecided
          exact .decided ⟨[], (List.append_nil _).trans hdecided.symm⟩
      | closed _ _ hempty => cases hinbox.symm.trans hempty
      | resumed hbusy | dropped hbusy | placed hbusy => cases hidle.symm.trans hbusy
  | decided hdecisions =>
      exact .decided (hdecisions.trans (hstands.grows_task hstep).decisions_grow)
  | closed hcancelled =>
      obtain ⟨-, rfl⟩ := hstep.of_cancelled hcancelled
      exact .closed hcancelled

theorem Pending.moved {course last : Session × Commons} {move : Move}
    (h : Pending failure before course.1 course.2) (hstands : Stands course.1 course.2)
    (hsettled : course.1.Settled course.2) (hmove : Session.move course move = some last) :
    Pending failure before last.1 last.2 := by
  cases move with
  | run => exact h.run hstands hsettled hmove
  | task =>
      obtain ⟨⟨pipeline, after⟩, hstep, rfl⟩ := Option.map_eq_some_iff.1 hmove
      exact h.task hstands (Pipeline.stepped_of_step hstep)
  | others deed =>
      cases hmove
      have hsame := Commons.read_perform skipsDeeds_decision deed course.2
      cases h with
      | asking hphase hdecisions => exact .asking hphase (hsame.trans hdecisions)
      | handed hphase hinbox hidle hdecisions =>
          exact .handed hphase hinbox hidle (hsame.trans hdecisions)
      | decided hdecisions =>
          exact .decided (hdecisions.trans ⟨[], (List.append_nil _).trans hsame.symm⟩)
      | closed hcancelled => exact .closed (Commons.cancelled_perform deed _ hcancelled)
  | wait millis =>
      cases hmove
      cases h with
      | asking hphase hdecisions => exact .asking hphase hdecisions
      | handed hphase hinbox hidle hdecisions => exact .handed hphase hinbox hidle hdecisions
      | decided hdecisions => exact .decided hdecisions
      | closed hcancelled => exact .closed hcancelled

theorem Leads.pending {course last : Session × Commons} (h : Leads course last)
    (hstands : Stands course.1 course.2) (hsettled : course.1.Settled course.2)
    (hpending : Pending failure before course.1 course.2) :
    Pending failure before last.1 last.2 := by
  have hboth := h.invariant hstands
    (fun point => Pending failure before point.1 point.2 ∧ point.1.Settled point.2)
    (fun hpoint hmove hbefore =>
      ⟨hbefore.1.moved hpoint hbefore.2 hmove, hbefore.2.moved hmove⟩) ⟨hpending, hsettled⟩
  exact hboth.1

/-- Two steps decide on a failure that is about to be handed in. -/
theorem Stands.exists_decided (h : Stands session commons) (hsettled : session.Settled commons)
    (hphase : session.phase = .retrying (.retry (some failure)))
    (hopen : commons.cancelled = false) :
    ∃ last outcome, follow (session, commons) [.run, .task] = some last ∧
      last.2.decisions = commons.decisions ++ [(some failure, outcome)] := by
  have hpipeline := h.atRest_of_retry hphase
  have hidle : session.pipeline.task = .idle :=
    hpipeline.task.resolve_right fun hended => Bool.eq_false_iff.1 hopen (hsettled hended)
  have hopened : ¬ (¬ session.pipeline.accepting ∨ session.pipeline.task.isOver) := by
    rw [hpipeline.accepting, hidle]
    decide
  obtain ⟨handed, hhanded⟩ : ∃ handed, handed =
      { session.pipeline with inbox := some (some failure) } := ⟨_, rfl⟩
  have hinbox : handed.inbox = some (some failure) := by rw [hhanded]
  have htask : handed.task = .idle := by
    rw [hhanded]
    exact hidle
  have hcall : (Call.retry (some failure)).step session.pipeline =
      some (handed, .inl .awaitSignal) := by
    rw [Call.step, Call.handIn, if_neg hopened, hpipeline.inbox, hhanded]
    rfl
  have hhand : Session.move (session, commons) .run =
      some ({ session with pipeline := handed, phase := .retrying .awaitSignal }, commons) :=
    step_of_called hphase hcall
  have htook := Pipeline.step_of_took htask hopen hinbox
  obtain ⟨begun, hconveys⟩ := Pipeline.Stepped.conveys_of_took htask hopen hinbox
  have htake : Session.move
      ({ session with pipeline := handed, phase := .retrying .awaitSignal }, commons) .task =
        some ({ session with
          pipeline := { handed with
            inbox := none
            task := .ofProgress (handed.engine.start (some failure) commons).2 }
          phase := .retrying .awaitSignal }, (handed.engine.start (some failure) commons).1) :=
    Option.map_eq_some_iff.2 ⟨_, htook, rfl⟩
  exact ⟨_, _, follow_of_move hhand (follow_of_move htake rfl), hconveys.decisions⟩

end Pending

/-! ### What becomes of a close -/

/-- A cycle that is not polled when the run looks at it is abandoned. -/
theorem abandoned_of_polled (hphase : ∃ current, session.phase = .cycling current)
    (hpolled : session.polled? commons = none)
    (hstep : session.step commons = some (next, after)) :
    after = (session.abandon commons).2 := by
  obtain ⟨current, hphase⟩ := hphase
  cases stepped_of_step hstep with
  | abandoned => rfl
  | polled hcycling hkept hdue =>
      rw [polled?, hcycling] at hpolled
      dsimp only at hpolled
      rw [if_pos ⟨Bool.eq_false_iff.1 hkept, hdue⟩] at hpolled
      cases hpolled
  | refused hother | began hother | called hother => cases hother.symm.trans hphase

theorem Phase.ofProgress_eq_retry_iff {progress : RoutineProgress (Except Failure Unit)}
    {failure : Failure} : Phase.ofProgress progress = .retrying (.retry (some failure)) ↔
      progress = .finished (.error failure) := by
  rcases progress with (other | ⟨⟨⟩⟩) | message | current
  · rw [ofProgress]
    constructor
    · rintro ⟨⟩
      rfl
    · rintro ⟨⟩
      rfl
  · exact ⟨nofun, nofun⟩
  · exact ⟨nofun, nofun⟩
  · exact ⟨nofun, nofun⟩

/-- **What becomes of a close that keeps the session.** After a step in a cycle in which such a close
was made, the status of the last such close is the failure of the cycle if and only if the connector
was not polled in that step, or has itself failed with that very close. If it was polled, nothing had
been asked of the cycle before that poll, and the run goes by what the connector came to in it.
Whatever failure a cycle has, it is the next to be decided on, unless the session is closed for good
before that. -/
theorem Leads.asked_iff {policy : Policy} {hooks : List Hook}
    {connector : Cycle → Routine (Except Failure Unit)} (hhooks : .announcer ∉ hooks)
    (h : Leads (initial policy hooks connector, fresh before) (session, commons))
    (hstep : session.step commons = some (next, after))
    (hcycle : commons.cycle.isSome ∨ (session.polled? commons).isSome)
    {status : CloseStatus} (hasked : Entry.lastAsked after.history = some status) :
    (next.phase = .retrying (.retry (some (.closed status))) ↔
      session.polled? commons = none ∨ ∃ routine point,
        session.polled? commons = some (routine, point) ∧
          (routine.poll point).2 = .finished (.error (.closed status))) ∧
    (∀ routine point, session.polled? commons = some (routine, point) →
      Entry.lastAsked point.history = none ∧ next.phase = .ofProgress (routine.poll point).2) ∧
    ∀ failure, next.phase = .retrying (.retry (some failure)) →
      (∀ last, Leads (next, after) last → Pending failure after last.1 last.2) ∧
      (after.cancelled = false → ∃ last outcome, follow (next, after) [.run, .task] = some last ∧
        last.2.decisions = after.decisions ++ [(some failure, outcome)]) := by
  have hinitial := stands_initial policy hhooks connector before
  have hstands := h.stands hinitial
  have hminds := h.minds hinitial (Commons.minds_of_none rfl)
  have hmoved : Leads (initial policy hooks connector, fresh before) (next, after) :=
    h.tail ⟨.run, hstep⟩
  have hpolled : ∀ routine point, session.polled? commons = some (routine, point) →
      Entry.lastAsked point.history = none ∧ next.phase = .ofProgress (routine.poll point).2 := by
    intro routine point hpolled
    refine ⟨hstands.lastAsked_of_polled hminds hpolled, ?_⟩
    obtain ⟨current, hcurrent⟩ := step_of_polled hpolled
    rw [← phase_afterCycle current, ← Option.some.inj (hstep.symm.trans hcurrent)]
  refine ⟨?_, hpolled, fun failure hphase => ⟨fun last hlast => ?_, ?_⟩⟩
  · cases hsession : session.polled? commons with
    | none =>
        refine ⟨fun _ => .inl rfl, fun _ => ?_⟩
        have hcycling : ∃ current, session.phase = .cycling current := by
          rw [hsession] at hcycle
          have hsome := hcycle.resolve_right nofun
          refine Classical.byContradiction fun hnot => ?_
          rw [hstands.cycle_eq_none fun current hphase => hnot ⟨current, hphase⟩] at hsome
          cases hsome
        have hsame := abandoned_of_polled hcycling hsession hstep
        rw [hsame, lastAsked_abandon] at hasked
        obtain ⟨current, hphase⟩ := hcycling
        cases hstep.symm.trans (hstands.step_of_asked hminds hphase hasked)
        rfl
    | some polled =>
        obtain ⟨routine, point⟩ := polled
        rw [(hpolled routine point hsession).2, Phase.ofProgress_eq_retry_iff]
        constructor
        · exact fun hfailed => .inr ⟨routine, point, rfl, hfailed⟩
        · rintro (hnone | ⟨_, _, hsame, hfailed⟩)
          · cases hnone
          · cases hsame
            exact hfailed
  · exact hlast.pending (hmoved.stands hinitial) (hmoved.settled nofun) (.asking hphase rfl)
  · exact (hmoved.stands hinitial).exists_decided (hmoved.settled nofun) hphase

/-- Others close a suspended cycle twice, and when the run looks at it again, its connector could have
come to its end by then. -/
theorem asked_iff_when_slow : ∃ session commons next after,
    Leads (initial .prompt [] fun _ => .sleep 5 (.done (.ok ())), fresh .initial)
        (session, commons) ∧ session.step commons = some (next, after) ∧
      session.phase.isDue commons ∧ Entry.lastAsked after.history = some ⟨4001, none⟩ ∧
      next.phase = .retrying (.retry (some (.closed ⟨4001, none⟩))) := by
  have hmoves : (follow (initial .prompt [] fun _ => .sleep 5 (.done (.ok ())), fresh .initial)
      [.run, .others (.close (.retry "again") ⟨4000, none⟩),
        .others (.close (.retryAbruptly "now") ⟨4001, none⟩), .wait 5]).bind (fun course =>
          (course.1.step course.2).map fun last => decide (course.1.phase.isDue course.2 ∧
            course.2.cycle.isSome ∧ (course.1.polled? course.2).isNone ∧
            Entry.lastAsked last.2.history = some ⟨4001, none⟩)) = some true := by
    decide +kernel
  obtain ⟨⟨session, commons⟩, hfollow, hrest⟩ := Option.bind_eq_some_iff.1 hmoves
  obtain ⟨⟨next, after⟩, hstep, hview⟩ := Option.map_eq_some_iff.1 hrest
  obtain ⟨hdue, hcycle, hpolled, hasked⟩ := of_decide_eq_true hview
  have hleads := leads_of_follow hfollow
  have hiff := (hleads.asked_iff List.not_mem_nil hstep (.inl hcycle) hasked).1
  exact ⟨session, commons, next, after, hleads, hstep, hdue, hasked,
    hiff.2 (.inl (Option.isNone_iff_eq_none.1 hpolled))⟩

/-- A connector that closes its own cycle so that the session is kept, and comes to its end in the
same poll. -/
def hasty (_ : Cycle) : Routine (Except Failure Unit) :=
  .act (.close (.retry "again") ⟨4000, none⟩) (.done (.ok ()))

/-- The close is lost: the run is over, and nothing was decided. -/
theorem exists_lost_close :
    ∃ session after, Leads (initial .prompt [] hasty, fresh .initial) (session, after) ∧
      Entry.lastAsked after.history = some ⟨4000, none⟩ ∧
      session.result?.map Except.toBool = some true ∧ after.decisions.isEmpty := by
  have hmoves : (follow (initial .prompt [] hasty, fresh .initial) [.run]).map
      (fun course => decide (Entry.lastAsked course.2.history = some ⟨4000, none⟩ ∧
        course.1.result?.map Except.toBool = some true ∧ course.2.decisions.isEmpty)) =
      some true := by
    decide +kernel
  obtain ⟨⟨session, after⟩, hfollow, hview⟩ := Option.map_eq_some_iff.1 hmoves
  obtain ⟨hasked, hresult, hnone⟩ := of_decide_eq_true hview
  exact ⟨session, after, leads_of_follow hfollow, hasked, hresult, hnone⟩

end Session

end Rejoin
