import Rejoin.Proofs.Session.Asking

/-! Where the failures come from that are decided on. A cycle fails with what its connector returns, or
with the last close made in it that keeps the session; that failure alone is handed in, and it is
decided on once at most, before the next cycle starts. What was asked of one cycle is never taken for
the failure of another. -/

namespace Rejoin

namespace Entry

theorem Each.imp {law law' : List Entry → Entry → Prop} {history : List Entry}
    (h : Each law history) (himp : ∀ earlier entry, law earlier entry → law' earlier entry) :
    Each law' history :=
  fun earlier entry hprefix => himp earlier entry (h earlier entry hprefix)

theorem lastAwaits_append {history added : List Entry}
    (h : ∀ entry ∈ added, entry.begins = false) :
    lastAwaits (history ++ added) = lastAwaits history := by
  induction added generalizing history with
  | nil => rw [List.append_nil]
  | cons entry added ih =>
      obtain ⟨hbegins, hrest⟩ := List.forall_mem_cons.1 h
      rw [List.append_cons, ih hrest, lastAwaits_concat]
      cases entry with
      | decided | cycleStarted => cases hbegins
      | logged | published | closing | hookStarted | hookEnded | delayAsked | noted => rfl

theorem mode?_eq_none {entry : Entry} (h : entry.begins = false) : entry.mode? = none := by
  cases entry with
  | cycleStarted => cases h
  | _ => rfl

end Entry

namespace Commons

variable {before after : Commons}

/-- What neither begins nor decides anything leaves the last cycle as it is. -/
theorem Drifts.lastAwaits_eq (h : Drifts before after) :
    Entry.lastAwaits after.history = Entry.lastAwaits before.history := by
  obtain ⟨added, hadded, hentries⟩ := h.added
  rw [hadded]
  exact Entry.lastAwaits_append fun entry hmem => (hentries entry hmem).1

theorem Drifts.modes_eq (h : Drifts before after) : after.modes = before.modes := by
  obtain ⟨added, hadded, hentries⟩ := h.added
  have hnone : added.filterMap Entry.mode? = [] :=
    List.filterMap_eq_nil_iff.2 fun entry hmem => Entry.mode?_eq_none (hentries entry hmem).1
  rw [modes, read, hadded, List.filterMap_append, hnone, List.append_nil]
  rfl

end Commons

namespace Session

variable {first : Session × Commons} {session next : Session} {before commons after : Commons}
  {failure : Failure}

/-- What the last cycle fails with in the next step of the run: what its connector returns in it, or
the last close made in the cycle that keeps the session, if the connector is not polled. -/
inductive Fails (session : Session) (commons : Commons) : Failure → Prop where
  | returned {routine : Routine (Except Failure Unit)} {point : Commons} {failure : Failure}
      (hpolled : session.polled? commons = some (routine, point))
      (hfailed : (routine.poll point).2 = .finished (.error failure)) :
      Fails session commons failure
  | asked {status : CloseStatus} (hcycle : commons.cycle.isSome)
      (hpolled : session.polled? commons = none)
      (hasked : Entry.lastAsked commons.history = some status) :
      Fails session commons (.closed status)

/-- On the way to a point, the last cycle of a history has failed. -/
def Lost (first last : Session × Commons) (failure : Failure) (history : List Entry) : Prop :=
  ∃ lost next, Leads first lost ∧ lost.1.Fails lost.2 failure ∧
    lost.1.step lost.2 = some next ∧ Leads next last ∧ next.2.history <+: history ∧
    history.filterMap Entry.mode? = next.2.modes

theorem Lost.tail {last later : Session × Commons} {history : List Entry} {move : Move}
    (h : Lost first last failure history) (hmove : Session.move last move = some later) :
    Lost first later failure history := by
  obtain ⟨lost, next, hfirst, hfails, hstep, hlast, hprefix, hmodes⟩ := h
  exact ⟨lost, next, hfirst, hfails, hstep, hlast.tail ⟨move, hmove⟩, hprefix, hmodes⟩

/-- As long as no cycle starts, the last cycle stays the same. -/
theorem Lost.append {last : Session × Commons} {history added : List Entry}
    (h : Lost first last failure history) (hadded : ∀ entry ∈ added, entry.mode? = none) :
    Lost first last failure (history ++ added) := by
  obtain ⟨lost, next, hfirst, hfails, hstep, hlast, hprefix, hmodes⟩ := h
  refine ⟨lost, next, hfirst, hfails, hstep, hlast, hprefix.trans (List.prefix_append _ _), ?_⟩
  rw [List.filterMap_append, List.filterMap_eq_nil_iff.2 hadded, List.append_nil]
  exact hmodes

theorem Lost.drifts {last : Session × Commons} (h : Lost first last failure commons.history)
    (hdrifts : commons.Drifts after) : Lost first last failure after.history := by
  obtain ⟨added, hadded, hentries⟩ := hdrifts.added
  rw [hadded]
  exact h.append fun entry hmem => Entry.mode?_eq_none (hentries entry hmem).1

/-- A decision is the first one about the last cycle, and about what that cycle has failed with. -/
def Traced (first last : Session × Commons) (earlier : List Entry) (entry : Entry) : Prop :=
  ∀ cause outcome, entry = .decided cause outcome →
    Entry.lastAwaits earlier ∧ ∃ failure, cause = some failure ∧ Lost first last failure earlier

/-- The failure that the run is about to hand in, or has handed in and nobody has taken. -/
inductive Brings (session : Session) (failure : Failure) : Prop where
  | asking (hphase : session.phase = .retrying (.retry (some failure)))
  | handed (hphase : session.phase = .retrying .awaitSignal) (hidle : session.pipeline.task = .idle)
      (hinbox : session.pipeline.inbox = some (some failure))

/-- Every decision is about its own cycle, and a failure on its way to its decision is that of the
last cycle, which nothing was decided on. -/
structure Trail (first : Session × Commons) (session : Session) (commons : Commons) : Prop where
  each : Entry.Each (Traced first (session, commons)) commons.history
  awaits : ∀ current, session.phase = .cycling current → Entry.lastAwaits commons.history
  brings : ∀ failure, session.Brings failure →
    Entry.lastAwaits commons.history ∧ Lost first (session, commons) failure commons.history

theorem quiet_decides_nothing (last : Session × Commons) (earlier : List Entry) (entry : Entry)
    (h : entry.begins = false) : Traced first last earlier entry := by
  rintro cause outcome rfl
  cases h

/-! ### Steps of the run -/

/-- Of all phases, those of a call that goes on neither run a cycle nor hand a failure in. -/
def Phase.Idles (phase : Phase) : Prop :=
  (∀ current, phase ≠ .cycling current) ∧ ∀ cause, phase ≠ .retrying (.retry cause)

theorem Phase.idles_of_isOver {phase : Phase} (h : phase.isOver) : phase.Idles := by
  constructor
  · rintro current rfl
    cases h
  · rintro cause rfl
    cases h

theorem Called.idles {call : Call} (h : Called session commons call next after) :
    next.phase.Idles := by
  have hwaiting : ∀ {later : Call}, (∀ cause, later ≠ .retry cause) →
      Phase.Idles (.retrying later) := by
    intro later hlater
    constructor
    · rintro current ⟨⟩
    · rintro cause ⟨⟩
      exact hlater cause rfl
  cases h with
  | waited hcall =>
      refine hwaiting ?_
      rintro cause rfl
      cases hcall
  | told hcall hafter =>
      cases told_of_afterReply hafter with
      | signalled =>
          constructor
          · rintro current ⟨⟩
          · rintro cause ⟨⟩
      | cancelled | failed | panicked => exact Phase.idles_of_isOver rfl
      | accepted | proceeded | joined =>
          refine hwaiting ?_
          rintro cause rfl
          cases hcall

/-- A cycle that fails in a step is about to hand its failure in. -/
theorem Stands.fails_of_step (h : Stands session commons) (hminds : commons.Minds)
    (hstep : session.step commons = some (next, after))
    (hphase : next.phase = .retrying (.retry (some failure))) : session.Fails commons failure := by
  cases hpolled : session.polled? commons with
  | some polled =>
      obtain ⟨current, hcurrent⟩ := step_of_polled hpolled
      have hnext := congrArg (fun course => course.1.phase)
        (Option.some.inj (hstep.symm.trans hcurrent))
      dsimp only at hnext
      rw [hphase, phase_afterCycle] at hnext
      exact .returned hpolled (Phase.ofProgress_eq_retry_iff.1 hnext.symm)
  | none =>
      cases stepped_of_step hstep with
      | refused => cases hphase
      | began hstarting hopen =>
          rw [polled?, hstarting] at hpolled
          dsimp only at hpolled
          rw [if_neg (Bool.eq_false_iff.1 hopen)] at hpolled
          cases hpolled
      | abandoned hcycling =>
          obtain ⟨-, cycle, hcycle⟩ := h.atRest_in_cycle hcycling
          have hsome : commons.cycle.isSome := by rw [hcycle]; rfl
          rw [abandon, hminds hsome] at hphase
          cases hasked : Entry.lastAsked commons.history with
          | none =>
              rw [hasked] at hphase
              cases hphase
          | some status =>
              rw [hasked] at hphase
              cases hphase
              exact .asked hsome hpolled hasked
      | polled hcycling hkept hdue =>
          rw [polled?, hcycling] at hpolled
          dsimp only at hpolled
          rw [if_pos ⟨Bool.eq_false_iff.1 hkept, hdue⟩] at hpolled
          cases hpolled
      | called _ hcalled => exact absurd hphase (hcalled.idles.2 _)

theorem lastAwaits_opened (commons : Commons) (cycle : Cycle) :
    Entry.lastAwaits (commons.opened cycle).history := by
  rw [Commons.opened, Commons.history_record, Entry.lastAwaits_concat]
  rfl

/-- A cycle that is running or has just failed is still to be decided on. -/
theorem Trail.awaits_of_step (h : Trail first session commons)
    (hstep : session.step commons = some (next, after))
    (hphase : (∃ current, next.phase = .cycling current) ∨
      ∃ cause, next.phase = .retrying (.retry cause)) : Entry.lastAwaits after.history := by
  cases stepped_of_step hstep with
  | refused => rcases hphase with ⟨_, hphase⟩ | ⟨_, hphase⟩ <;> cases hphase
  | began =>
      rw [beginCycle_eq, (drifts_afterCycle (.poll _ _)).lastAwaits_eq]
      exact lastAwaits_opened commons _
  | abandoned hcycling =>
      rw [drifts_abandon.lastAwaits_eq]
      exact h.awaits _ hcycling
  | polled hcycling =>
      rw [(drifts_afterCycle (.poll _ _)).lastAwaits_eq]
      exact h.awaits _ hcycling
  | called _ hcalled =>
      rcases hphase with ⟨current, hphase⟩ | ⟨cause, hphase⟩
      · exact absurd hphase (hcalled.idles.1 current)
      · exact absurd hphase (hcalled.idles.2 cause)

theorem Trail.each_tail (h : Trail first session commons) {move : Move} {last : Session × Commons}
    (hmove : Session.move (session, commons) move = some last) :
    Entry.Each (Traced first last) commons.history := by
  refine h.each.imp fun earlier entry htraced cause outcome hentry => ?_
  obtain ⟨hawaits, failure, hcause, hlost⟩ := htraced cause outcome hentry
  exact ⟨hawaits, failure, hcause, hlost.tail hmove⟩

theorem each_opened {last : Session × Commons} (h : Entry.Each (Traced first last) commons.history)
    (cycle : Cycle) : Entry.Each (Traced first last) (commons.opened cycle).history := by
  obtain ⟨logged, hhistory⟩ := commons.history_opened cycle
  rw [hhistory]
  refine h.append ?_
  rintro earlier entry hmem cause outcome rfl
  simp at hmem

theorem Trail.run (h : Trail first session commons) (hfirst : Leads first (session, commons))
    (hstands : Stands session commons) (hminds : commons.Minds)
    (hstep : session.step commons = some (next, after)) : Trail first next after := by
  have hmove : Session.move (session, commons) .run = some (next, after) := hstep
  refine ⟨?_, fun current hphase => h.awaits_of_step hstep (.inl ⟨current, hphase⟩),
    fun failure hbrings => ?_⟩
  · have hbefore := h.each_tail hmove
    rcases drifts_of_step hstep with hdrifts | ⟨mode, -, -, hdrifts⟩
    · exact hdrifts.each (quiet_decides_nothing _) hbefore
    · exact hdrifts.each (quiet_decides_nothing _) (each_opened hbefore _)
  · cases hbrings with
    | asking hphase =>
        have hfails := hstands.fails_of_step hminds hstep hphase
        exact ⟨h.awaits_of_step hstep (.inr ⟨_, hphase⟩), (session, commons), (next, after), hfirst,
          hfails, hstep, .refl, List.prefix_rfl, rfl⟩
    | handed hphase _ hinbox =>
        obtain ⟨cause, hasking, hhanded, rfl⟩ := handed_of_step hstep hphase
        cases hhanded.symm.trans hinbox
        obtain ⟨hawaits, hlost⟩ := h.brings failure (.asking hasking)
        exact ⟨hawaits, hlost.tail hmove⟩

/-! ### Steps of the task -/

/-- A step that decides nothing and hands nothing in. -/
theorem Trail.drifts {last : Session × Commons} {move : Move} (h : Trail first session commons)
    (hmove : Session.move (session, commons) move = some last) (hdrifts : commons.Drifts last.2)
    (hphase : last.1.phase = session.phase)
    (hbrings : ∀ failure, last.1.Brings failure → session.Brings failure) :
    Trail first last.1 last.2 := by
  refine ⟨hdrifts.each (quiet_decides_nothing _) (h.each_tail hmove), fun current hcycling => ?_,
    fun failure hlast => ?_⟩
  · rw [hdrifts.lastAwaits_eq]
    exact h.awaits current (hphase.symm.trans hcycling)
  · obtain ⟨hawaits, hlost⟩ := h.brings failure (hbrings failure hlast)
    rw [hdrifts.lastAwaits_eq]
    exact ⟨hawaits, (hlost.tail hmove).drifts hdrifts⟩

/-- The task takes a failure only after the run has handed it in. -/
theorem Stands.brings_of_inbox (h : Stands session commons) {cause : Option Failure}
    (hidle : session.pipeline.task = .idle) (hinbox : session.pipeline.inbox = some cause) :
    ∃ failure, cause = some failure ∧ session.Brings failure := by
  cases h with
  | starting _ _ hpipeline | cycling _ _ hpipeline | failed _ _ hpipeline
  | placed _ _ hpipeline => cases hpipeline.inbox.symm.trans hinbox
  | @submitted _ _ _ _ failure _ hphase _ hsubmitted =>
      cases hsubmitted.symm.trans hinbox
      exact ⟨failure, rfl, .handed hphase hidle hsubmitted⟩
  | carried _ _ _ _ hempty => cases hempty.symm.trans hinbox
  | stopping _ _ _ _ hstops =>
      rw [hidle] at hstops
      cases hstops
  | finished _ _ htask =>
      rw [hidle] at htask
      cases htask

/-- The failure that is taken is decided on in its own cycle's place. -/
theorem Trail.took (h : Trail first session commons) (hstands : Stands session commons)
    (hidle : session.pipeline.task = .idle) (hopen : commons.cancelled = false)
    {cause : Option Failure} (hinbox : session.pipeline.inbox = some cause)
    {last : Session × Commons} (hmove : Session.move (session, commons) .task = some last)
    (hlast : last.2 = (session.pipeline.engine.start cause commons).1) :
    Entry.Each (Traced first last) last.2.history := by
  obtain ⟨failure, rfl, hbrings⟩ := hstands.brings_of_inbox hidle hinbox
  obtain ⟨hawaits, hlost⟩ := h.brings failure hbrings
  obtain ⟨entries, hhistory⟩ := session.pipeline.engine.history_decide (some failure) commons
  have hquiet : ∀ entry ∈ entries.map Entry.logged, entry.begins = false := by
    intro entry hmem
    obtain ⟨logged, -, rfl⟩ := List.mem_map.1 hmem
    rfl
  have hlogged : Entry.Each (Traced first last) (commons.history ++ entries.map .logged) :=
    (h.each_tail hmove).append fun earlier entry hmem =>
      quiet_decides_nothing last earlier entry (hquiet entry hmem)
  have hdecided : Entry.Each (Traced first last)
      (session.pipeline.engine.decide (some failure) commons).1.history := by
    rw [hhistory]
    refine hlogged.concat fun cause outcome hentry => ?_
    cases hentry
    exact ⟨(Entry.lastAwaits_append hquiet).trans hawaits, failure, rfl,
      (hlost.tail hmove).append fun entry hmem => Entry.mode?_eq_none (hquiet entry hmem)⟩
  rw [hlast]
  refine (Engine.start_drifts (hstands.announces hidle) hopen (some failure)).each
    (quiet_decides_nothing last) ?_
  cases (session.pipeline.engine.decide (some failure) commons).2 with
  | error => exact hdecided
  | ok signal =>
      rw [Commons.answered, Commons.history_announced]
      refine hdecided.append ?_
      rintro earlier entry hmem cause outcome rfl
      simp at hmem

theorem Trail.task (h : Trail first session commons) (hstands : Stands session commons)
    {pipeline : Pipeline} (hstep : session.pipeline.Stepped commons pipeline after)
    (hmove : Session.move (session, commons) .task = some ({ session with pipeline }, after)) :
    Trail first { session with pipeline } after := by
  have hdrifts : pipeline.task ≠ .idle → commons.Drifts after →
      Trail first { session with pipeline } after := by
    intro htask hdrifts
    refine h.drifts hmove hdrifts rfl fun failure hbrings => ?_
    cases hbrings with
    | asking hphase => exact .asking hphase
    | handed _ hidle => exact absurd hidle htask
  cases hstep with
  | cancelled | closed => exact hdrifts nofun (.refl commons)
  | dropped => exact hdrifts nofun ((Commons.Drifts.refl commons).log _)
  | @took hidle hopen cause hinbox =>
      have hphase := (hstands.outbox_eq_none hidle hinbox).2
      refine ⟨h.took hstands hidle hopen hinbox hmove rfl, fun current hcycling => ?_,
        fun failure hbrings => ?_⟩
      · cases hphase.symm.trans hcycling
      · cases hbrings with
        | asking hasking => cases hphase.symm.trans hasking
        | handed _ _ hempty => cases hempty
  | resumed htask =>
      have hsound := session.pipeline.engine.resume_sound (fun _ => id) rfl
        (hstands.permitted htask) commons
      exact hdrifts (Pipeline.Task.ofProgress_ne_idle _) (.serve hsound.1)
  | placed htask =>
      refine h.drifts hmove (.refl commons) rfl fun failure hbrings => ?_
      cases hbrings with
      | asking hphase => exact .asking hphase
      | handed _ _ hinbox =>
          have hlast := (hstands.moved hmove).outbox_eq_none rfl hinbox
          cases hlast.1

/-! ### The whole course -/

theorem Trail.moved {course last : Session × Commons} {move : Move}
    (h : Trail first course.1 course.2) (hfirst : Leads first course)
    (hstands : Stands course.1 course.2) (hminds : course.2.Minds)
    (hmove : Session.move course move = some last) : Trail first last.1 last.2 := by
  cases move with
  | run => exact h.run hfirst hstands hminds hmove
  | task =>
      obtain ⟨⟨pipeline, after⟩, hstep, rfl⟩ := Option.map_eq_some_iff.1 hmove
      exact h.task hstands (Pipeline.stepped_of_step hstep) hmove
  | others deed =>
      have hsame := hmove
      cases hsame
      exact h.drifts hmove (.perform deed _) rfl fun _ => id
  | wait millis =>
      have hsame := hmove
      cases hsame
      exact h.drifts hmove (.of_eq rfl id) rfl fun _ => id

theorem Leads.trail {last : Session × Commons} (h : Leads first last)
    (hstands : Stands first.1 first.2) (hminds : first.2.Minds)
    (htrail : Trail first first.1 first.2) : Trail first last.1 last.2 := by
  induction h with
  | refl => exact htrail
  | tail hbefore hlast ih =>
      obtain ⟨move, hmove⟩ := hlast
      have hbetween : Leads first _ := hbefore
      exact ih.moved hbetween (hbetween.stands hstands) (hbetween.minds hstands hminds) hmove

theorem trail_initial (policy : Policy) (hooks : List Hook)
    (connector : Cycle → Routine (Except Failure Unit)) (commons : Commons) :
    Trail (initial policy hooks connector, fresh commons) (initial policy hooks connector)
      (fresh commons) := by
  refine ⟨Entry.each_nil, nofun, fun failure hbrings => ?_⟩
  cases hbrings with
  | asking hphase => cases hphase
  | handed hphase => cases hphase

end Session

end Rejoin
