import Rejoin.Proofs.Session.Beginnings

/-! Which cycles resume the session. The mode of a cycle goes by the last failure that was retried and
by nothing before it: neither a session that was lost in the meantime nor one that was never
established makes a difference. A cycle can therefore set out to resume a session that was invalidated
with no handshake since. -/

namespace Rejoin

namespace Entry

/-- The failure that an entry tells is retried. -/
def retried? : Entry → Option Failure
  | .decided (some failure) (.ok _) => some failure
  | _ => none

/-- The last failure of a history that is retried. -/
def lastRetried (history : List Entry) : Option Failure := (history.filterMap retried?).getLast?

theorem lastRetried_append (earlier later : List Entry) :
    lastRetried (earlier ++ later) = (lastRetried later).or (lastRetried earlier) := by
  rw [lastRetried, List.filterMap_append, List.getLast?_append]
  rfl

theorem lastRetried_append_of_none (earlier : List Entry) {later : List Entry}
    (h : ∀ entry ∈ later, entry.retried? = none) :
    lastRetried (earlier ++ later) = lastRetried earlier := by
  have hnone : later.filterMap retried? = [] := List.filterMap_eq_nil_iff.2 h
  rw [lastRetried_append, lastRetried, hnone]
  rfl

theorem retried?_eq_none {entry : Entry} (h : entry.begins = false) : entry.retried? = none := by
  cases entry with
  | decided => cases h
  | logged | published | closing | hookStarted | hookEnded | delayAsked | cycleStarted | noted =>
      rfl

end Entry

/-- The mode of a cycle, by the last failure that was retried before it. -/
def Mode.following : Option Failure → Mode
  | some failure => if failure.canResume then .resume else .identify
  | none => .identify

theorem Mode.following_eq_resume_iff (failure : Option Failure) :
    Mode.following failure = .resume ↔ ∃ last, failure = some last ∧ last.canResume := by
  cases failure with
  | none => exact ⟨nofun, fun ⟨_, heq, _⟩ => by cases heq⟩
  | some last =>
      rw [following]
      cases hresume : last.canResume with
      | true => exact ⟨fun _ => ⟨last, rfl, hresume⟩, fun _ => rfl⟩
      | false =>
          refine ⟨nofun, ?_⟩
          rintro ⟨_, ⟨⟩, hcan⟩
          cases hresume.symm.trans hcan

/-- The signal leads to a cycle in the mode that follows its failure. -/
theorem Mode.after_nextStage (failure : Failure) :
    Mode.after (Policy.nextStage failure) = .following (some failure) := by
  rw [Policy.nextStage, following]
  split <;> rfl

namespace Commons

variable {before after : Commons}

theorem Drifts.lastRetried_eq (h : Drifts before after) :
    Entry.lastRetried after.history = Entry.lastRetried before.history := by
  obtain ⟨added, hadded, hentries⟩ := h.added
  rw [hadded]
  exact Entry.lastRetried_append_of_none _ fun entry hmem =>
    Entry.retried?_eq_none (hentries entry hmem).1

end Commons

namespace Session

variable {session next : Session} {before commons after : Commons}

/-- A cycle is started in the mode that follows the last retried failure. -/
def StartsFollowing (earlier : List Entry) (entry : Entry) : Prop :=
  ∀ cycle time, entry = .cycleStarted cycle time → cycle.mode = .following (Entry.lastRetried earlier)

/-- The cycles so far were started in the modes that the failures before them call for, and what is on
its way to the next one is about the last retried failure. -/
structure Follows (session : Session) (commons : Commons) : Prop where
  started : Entry.Each StartsFollowing commons.history
  starting : ∀ mode, session.phase = .starting mode →
    mode = .following (Entry.lastRetried commons.history)
  coming : ∀ signal ∈ session.pipeline.coming,
    Entry.lastRetried commons.history = some signal.failure ∧
      signal.stage = Policy.nextStage signal.failure

/-! ### Steps of the run -/

theorem quiet_starts_nothing (earlier : List Entry) (entry : Entry) (h : entry.begins = false) :
    StartsFollowing earlier entry := by
  rintro cycle time rfl
  cases h

/-- Nothing begins, nothing else is on its way than before, and if a cycle is to begin next, it was to
begin before or begins from a signal that was on its way. -/
theorem Follows.drifts (h : Follows session commons)
    (hcoming : next.pipeline.coming ⊆ session.pipeline.coming)
    (hstarting : ∀ mode, next.phase = .starting mode → session.phase = .starting mode ∨
      ∃ signal ∈ session.pipeline.coming, mode = .after signal.stage)
    (hdrifts : commons.Drifts after) : Follows next after := by
  have hlast := hdrifts.lastRetried_eq
  refine ⟨hdrifts.each quiet_starts_nothing h.started, fun mode hmode => ?_,
    fun signal hsignal => ?_⟩
  · rw [hlast]
    rcases hstarting mode hmode with hsame | ⟨signal, hsignal, rfl⟩
    · exact h.starting mode hsame
    · obtain ⟨hretried, hstage⟩ := h.coming signal hsignal
      rw [hretried, hstage, Mode.after_nextStage]
  · rw [hlast]
    exact h.coming signal (hcoming hsignal)

theorem Follows.opened (h : Follows session commons) {mode : Mode}
    (hphase : session.phase = .starting mode) :
    Follows session (commons.opened (session.nextCycle mode commons)) := by
  obtain ⟨logged, hhistory⟩ := commons.history_opened (session.nextCycle mode commons)
  have hlast : Entry.lastRetried (commons.opened (session.nextCycle mode commons)).history =
      Entry.lastRetried commons.history := by
    rw [hhistory]
    refine Entry.lastRetried_append_of_none _ ?_
    simp [Entry.retried?]
  refine ⟨?_, fun mode hmode => ?_, fun signal hsignal => ?_⟩
  · have hconnecting : Entry.Each StartsFollowing
        (commons.history ++ [.published .connecting, .logged logged]) := by
      refine h.started.append fun earlier entry hmem cycle time hentry => ?_
      rw [hentry] at hmem
      simp at hmem
    have hstarted : Entry.Each StartsFollowing
        (commons.history ++ [.published .connecting, .logged logged] ++
          [.cycleStarted (session.nextCycle mode commons) commons.now]) := by
      refine hconnecting.concat fun cycle time hentry => ?_
      cases hentry
      rw [Entry.lastRetried_append_of_none _ (by simp [Entry.retried?])]
      exact h.starting mode hphase
    rw [List.append_assoc] at hstarted
    rw [hhistory]
    exact hstarted
  · rw [hlast]
    exact h.starting mode hmode
  · rw [hlast]
    exact h.coming signal hsignal

theorem Follows.run (h : Follows session commons)
    (hstep : session.step commons = some (next, after)) : Follows next after := by
  obtain ⟨hcoming, hstarting, -⟩ := hands_of_step hstep
  rcases drifts_of_step hstep with hdrifts | ⟨mode, hphase, -, hdrifts⟩
  · exact h.drifts hcoming hstarting hdrifts
  · exact (h.opened hphase).drifts hcoming hstarting hdrifts

/-! ### Steps of the task -/

/-- No cycle is started by a decision. -/
theorem started_decide (engine : Engine) (failure : Option Failure)
    (h : Entry.Each StartsFollowing commons.history) :
    Entry.Each StartsFollowing (engine.decide failure commons).1.history := by
  obtain ⟨entries, hhistory⟩ := engine.history_decide failure commons
  rw [hhistory, List.append_assoc]
  refine h.append ?_
  rintro earlier entry hmem cycle time rfl
  simp at hmem

theorem lastRetried_decide {engine : Engine} {failure : Option Failure} {signal : Signal}
    (hdecide : (engine.decide failure commons).2 = .ok signal) :
    Entry.lastRetried (engine.decide failure commons).1.history = some signal.failure := by
  obtain ⟨entries, hhistory⟩ := engine.history_decide failure commons
  obtain ⟨rfl, -⟩ := Engine.failure_of_decide_ok hdecide
  rw [hhistory, Entry.lastRetried_append, hdecide]
  rfl

theorem Follows.took (h : Follows session commons) (hstands : Stands session commons)
    (hidle : session.pipeline.task = .idle) (hopen : commons.cancelled = false)
    {failure : Option Failure} (hinbox : session.pipeline.inbox = some failure) :
    Follows { session with pipeline := { session.pipeline with
      inbox := none
      task := .ofProgress (session.pipeline.engine.start failure commons).2 } }
        (session.pipeline.engine.start failure commons).1 := by
  obtain ⟨houtbox, hphase⟩ := hstands.outbox_eq_none hidle hinbox
  have hstarted := started_decide session.pipeline.engine failure h.started
  have hstarting : ∀ mode, session.phase ≠ .starting mode := by
    intro mode hmode
    cases hphase.symm.trans hmode
  cases hdecide : (session.pipeline.engine.decide failure commons).2 with
  | error error =>
      rw [Engine.start_of_refused hopen hdecide]
      refine ⟨hstarted, fun mode hmode => absurd hmode (hstarting mode), ?_⟩
      rw [Pipeline.coming, houtbox]
      intro signal hmem
      cases hmem
  | ok signal =>
      obtain ⟨hedits, hcarries⟩ :=
        Engine.start_announced (hstands.announces hidle) hopen hdecide
      have hdrifts := Commons.Drifts.serve hedits
      have hannounced := Commons.history_announced
        (session.pipeline.engine.decide failure commons).1 signal
      refine ⟨hdrifts.each quiet_starts_nothing ?_, fun mode hmode => absurd hmode (hstarting mode),
        fun other hother => ?_⟩
      · rw [hannounced]
        refine hstarted.append ?_
        rintro earlier entry hmem cycle time rfl
        simp at hmem
      · rw [Pipeline.coming, houtbox] at hother
        cases List.mem_singleton.1 (Pipeline.Task.signals_subset hcarries hother)
        refine ⟨?_, (Engine.failure_of_decide_ok hdecide).2⟩
        rw [hdrifts.lastRetried_eq, hannounced, Entry.lastRetried_append_of_none,
          lastRetried_decide hdecide]
        simp [Entry.retried?]

theorem Follows.task (h : Follows session commons) (hstands : Stands session commons)
    {pipeline : Pipeline} (hstep : session.pipeline.Stepped commons pipeline after) :
    Follows { session with pipeline } after := by
  have hdrifts : pipeline.coming ⊆ session.pipeline.coming → commons.Drifts after →
      Follows { session with pipeline } after :=
    fun hcoming => h.drifts hcoming fun _ => .inl
  have hended : session.pipeline.outbox.toList ++ [] ⊆ session.pipeline.coming :=
    List.append_subset.2 ⟨List.subset_append_left _ _, List.nil_subset _⟩
  cases hstep with
  | cancelled | closed => exact hdrifts hended (.refl commons)
  | dropped => exact hdrifts hended ((Commons.Drifts.refl commons).log _)
  | took hidle hopen hinbox => exact h.took hstands hidle hopen hinbox
  | @resumed handling htask =>
      obtain ⟨hedits, hcarries⟩ := session.pipeline.engine.resume_sound (fun _ => id) rfl
        (hstands.permitted htask) commons
      refine hdrifts ?_ (.serve hedits)
      rw [Pipeline.coming, Pipeline.coming, htask]
      exact List.append_subset.2 ⟨List.subset_append_left _ _,
        List.Subset.trans (Pipeline.Task.signals_subset hcarries) (List.subset_append_right _ _)⟩
  | placed htask _ _ houtbox =>
      refine hdrifts ?_ (.refl commons)
      rw [Pipeline.coming, Pipeline.coming, htask, houtbox]
      exact List.Subset.refl _

/-! ### The whole course -/

theorem Follows.moved {course last : Session × Commons} {move : Move}
    (h : Follows course.1 course.2) (hstands : Stands course.1 course.2)
    (hmove : Session.move course move = some last) : Follows last.1 last.2 := by
  cases move with
  | run => exact h.run hmove
  | task =>
      obtain ⟨⟨pipeline, after⟩, hstep, rfl⟩ := Option.map_eq_some_iff.1 hmove
      exact h.task hstands (Pipeline.stepped_of_step hstep)
  | others deed =>
      cases hmove
      exact h.drifts (List.Subset.refl _) (fun _ => .inl) (.perform deed _)
  | wait millis =>
      cases hmove
      exact h.drifts (List.Subset.refl _) (fun _ => .inl) (.of_eq rfl id)

theorem Leads.follows {course last : Session × Commons} (h : Leads course last)
    (hstands : Stands course.1 course.2) (hfollows : Follows course.1 course.2) :
    Follows last.1 last.2 :=
  h.invariant hstands (fun point => Follows point.1 point.2)
    (fun hpoint hmove hbefore => hbefore.moved hpoint hmove) hfollows

theorem follows_initial (policy : Policy) (hooks : List Hook)
    (connector : Cycle → Routine (Except Failure Unit)) (commons : Commons) :
    Follows (initial policy hooks connector) (fresh commons) := by
  refine ⟨Entry.each_nil, ?_, nofun⟩
  rintro mode ⟨⟩
  rfl

/-- **Which cycles resume.** The mode of a cycle goes by the last failure retried before it: the cycle
resumes if and only if there is one and it leaves its session to be resumed. So after a session was
invalidated, a cycle sets out to resume it if and only if some failure was retried since, and the last
of them leaves its session to be resumed; whether any cycle was confirmed since makes no difference. -/
theorem Leads.resumes_last_retried {policy : Policy} {hooks : List Hook}
    {connector : Cycle → Routine (Except Failure Unit)} (hhooks : .announcer ∉ hooks)
    (h : Leads (initial policy hooks connector, fresh before) (session, commons)) :
    (∀ earlier cycle time, earlier ++ [.cycleStarted cycle time] <+: commons.history →
      cycle.mode = .following (Entry.lastRetried earlier) ∧
      (cycle.mode = .resume ↔
        ∃ failure, Entry.lastRetried earlier = some failure ∧ failure.canResume)) ∧
    ∀ earlier signal between cycle time,
      earlier ++ .decided (some .invalidSession) (.ok signal) :: between ++
        [.cycleStarted cycle time] <+: commons.history →
      (cycle.mode = .resume ↔
        ∃ failure, Entry.lastRetried between = some failure ∧ failure.canResume) := by
  have hfollows := h.follows (stands_initial policy hhooks connector before)
    (follows_initial policy hooks connector before)
  have hmode : ∀ earlier cycle time,
      earlier ++ [.cycleStarted cycle time] <+: commons.history →
      cycle.mode = .following (Entry.lastRetried earlier) :=
    fun earlier cycle time hprefix => hfollows.started earlier _ hprefix cycle time rfl
  refine ⟨fun earlier cycle time hprefix => ?_, fun earlier signal between cycle time hprefix => ?_⟩
  · refine ⟨hmode earlier cycle time hprefix, ?_⟩
    rw [hmode earlier cycle time hprefix, Mode.following_eq_resume_iff]
  · have hinvalid : Entry.lastRetried (earlier ++ [.decided (some .invalidSession) (.ok signal)]) =
        some .invalidSession := by
      rw [Entry.lastRetried_append]
      rfl
    rw [hmode _ cycle time hprefix, Mode.following_eq_resume_iff, List.append_cons,
      Entry.lastRetried_append, hinvalid]
    cases Entry.lastRetried between with
    | none =>
        refine ⟨?_, nofun⟩
        rintro ⟨_, ⟨⟩, hresume⟩
        cases hresume
    | some failure => exact Iff.rfl

/-- The session is invalidated in the first cycle, and the second is lost before its session is
established. -/
def losing (cycle : Cycle) : Routine (Except Failure Unit) :=
  match cycle.number with
  | 0 => .done (.error .invalidSession)
  | 1 => .done (.error (.closed ⟨1006, none⟩))
  | _ => .done (.ok ())

theorem resumes_last_retried_when_losing :
    ∃ session after, Leads (initial .prompt [] losing, fresh .initial) (session, after) ∧
      after.modes = [.identify, .identify, .resume] ∧
      ∀ earlier cycle time, earlier ++ [.cycleStarted cycle time] <+: after.history →
        cycle.mode = .following (Entry.lastRetried earlier) ∧
        (cycle.mode = .resume ↔
          ∃ failure, Entry.lastRetried earlier = some failure ∧ failure.canResume) := by
  have hmoves : (follow (initial .prompt [] losing, fresh .initial)
      [.run, .run, .task, .task, .run, .run, .run, .task, .task, .run, .run]).map
        (fun course => decide (course.2.modes = [.identify, .identify, .resume])) =
      some true := by
    decide +kernel
  obtain ⟨⟨session, after⟩, hfollow, hview⟩ := Option.map_eq_some_iff.1 hmoves
  have hleads := leads_of_follow hfollow
  exact ⟨session, after, hleads, of_decide_eq_true hview,
    (hleads.resumes_last_retried List.not_mem_nil).1⟩

/-- The third cycle sets out to resume a session that was invalidated before the second one, and no
session was ever established. -/
theorem exists_resumed_after_invalidation :
    ∃ session after, Leads (initial .prompt [] losing, fresh .initial) (session, after) ∧
      after.read Entry.retried? = [.invalidSession, .closed ⟨1006, none⟩] ∧
      after.modes = [.identify, .identify, .resume] ∧ .connected ∉ after.published := by
  have hmoves : (follow (initial .prompt [] losing, fresh .initial)
      [.run, .run, .task, .task, .run, .run, .run, .task, .task, .run, .run]).map
        (fun course => decide (
          course.2.read Entry.retried? = [.invalidSession, .closed ⟨1006, none⟩] ∧
          course.2.modes = [.identify, .identify, .resume] ∧
          .connected ∉ course.2.published)) = some true := by
    decide +kernel
  obtain ⟨⟨session, after⟩, hfollow, hview⟩ := Option.map_eq_some_iff.1 hmoves
  obtain ⟨hretried, hmodes, hpublished⟩ := of_decide_eq_true hview
  exact ⟨session, after, leads_of_follow hfollow, hretried, hmodes, hpublished⟩

end Session

end Rejoin
