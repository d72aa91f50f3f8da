import Rejoin.Proofs.Session.Trails
import Rejoin.Proofs.Task.Charts

/-! Where the error of a run comes from. A run that fails was refused a retry for the failure of its
last cycle, or a hook failed while that failure was being retried; the error carries that failure, or
that of the hook, and is the last thing that the run publishes. -/

namespace Rejoin

/-- The decisions, and the hooks that have come to their ends. -/
def Entry.handled? : Entry → Option Entry
  | .decided cause outcome => some (.decided cause outcome)
  | .hookEnded hook result => some (.hookEnded hook result)
  | _ => none

namespace Commons

/-- The decisions made and the hooks that have come to their ends so far, oldest first. -/
def handled (commons : Commons) : List Entry := commons.read Entry.handled?

/-- After other decisions, a failure was decided as a signal, and some hooks are done with it. -/
def Serving (earlier : List Entry) (failure : Failure) (signal : Signal) (done : List Hook)
    (commons : Commons) : Prop :=
  commons.handled = earlier ++ .decided (some failure) (.ok signal) ::
    done.map fun hook => .hookEnded hook.label (.ok ())

theorem handled_perform (deed : Deed) (commons : Commons) :
    (deed.perform commons).handled = commons.handled :=
  read_perform ⟨fun _ => rfl, fun _ => rfl, rfl, fun _ _ => rfl⟩ deed commons

theorem handled_log (commons : Commons) (entry : LogEntry) :
    (commons.log entry).handled = commons.handled :=
  read_log (fun _ => rfl) commons entry

theorem Serving.perform {earlier : List Entry} {failure : Failure} {signal : Signal}
    {done : List Hook} {commons : Commons} (h : Serving earlier failure signal done commons)
    (deed : Deed) : Serving earlier failure signal done (deed.perform commons) :=
  (handled_perform deed commons).trans h

end Commons

/-- No hook ends but in its own place. -/
theorem Hook.chart_serving (earlier : List Entry) (failure : Failure) (signal : Signal) :
    Hook.Chart (fun _ => True) signal (Commons.Serving earlier failure signal) where
  deed deed h := h.perform deed
  waited _ h := h
  start := by
    intro done commons hook _ h
    have hstarted : Commons.Serving earlier failure signal done
        (commons.record (.hookStarted hook.label signal commons.now)) :=
      (Commons.read_record_of_none rfl commons).trans h
    cases hook with
    | announcer => exact (Commons.read_record_of_none rfl _).trans hstarted
    | meter own => cases own <;> exact hstarted
    | custom name run =>
        exact (run signal).poll_of_deed (Commons.Serving earlier failure signal done)
          (fun deed h => h.perform deed) hstarted
  ended := by
    intro done commons hook h
    rw [Commons.Serving, Commons.handled, Commons.read_record, ← Commons.handled, h, List.map_append,
      List.append_assoc]
    rfl
  asked h := (Commons.read_record_of_none rfl _).trans h

/-- How an error comes of a failure, by the decisions and the hooks: the failure was refused a retry,
or a hook of the engine failed, after all those before it were done. -/
inductive Engine.Accounts (engine : Engine) (failure : Failure) (handled : List Entry) :
    RetryError → Prop where
  | refused {earlier : List Entry} {error : RetryError}
      (herror : error = .terminal failure ∨
        ∃ attempts, error = .exhausted attempts engine.policy.maxRetries failure)
      (hhandled : handled = earlier ++ [.decided (some failure) (.error error)]) :
      Accounts engine failure handled error
  | hook {earlier : List Entry} {signal : Signal} {done rest : List Hook} {hook : Hook}
      {error : HookError} (hhooks : engine.hooks = done ++ hook :: rest)
      (hhandled : handled = earlier ++ .decided (some failure) (.ok signal) ::
        (done.map fun hook => .hookEnded hook.label (.ok ())) ++
          [.hookEnded hook.label (.error error)]) :
      Accounts engine failure handled (.hook error)

theorem Engine.handled_decide (engine : Engine) (cause : Option Failure) (commons : Commons) :
    (engine.decide cause commons).1.handled =
      commons.handled ++ [.decided cause (engine.decide cause commons).2] :=
  engine.read_decide cause commons fun _ => rfl

/-- An error that a call is told of, cancellations apart, is what the task has ended with. -/
theorem Call.Stepped.task_of_error {pipeline next : Pipeline} {call : Call} {error : RetryError}
    (h : Call.Stepped pipeline call next (.inr (.retried (.error error))))
    (herror : ¬ error.isCancelled) : pipeline.task = .ended (.error error) := by
  generalize hresult : (Sum.inr (Reply.retried (.error error)) : Call ⊕ Reply) = result at h
  cases h with
  | @toldEnd retrying ended _ htask =>
      cases retrying <;> rcases ended with own | ⟨⟨⟩⟩ <;> cases hresult
      · exact htask
      · exact absurd rfl herror
  | @toldBefore retrying =>
      cases retrying <;> cases hresult
      exact absurd rfl herror
  | @toldAborted retrying =>
      cases retrying <;> cases hresult
      exact absurd rfl herror
  | refused | accepted | retryRefused | retryAccepted | proceeded | proceededNone | retried | missed
  | joined | toldPanic => cases hresult

namespace Session

variable {first : Session × Commons} {session next : Session} {before commons after : Commons}
  {failure : Failure} {engine : Engine}

/-! ### Steps of the run -/

theorem Informs.handled_eq (h : Informs commons after) : after.handled = commons.handled := by
  cases h with
  | unchanged | counted => rfl
  | announced =>
      refine (Commons.read_record_of_none ?_ _).trans (Commons.handled_log _ _)
      rfl

/-- An error that ends the run is what the task of its pipeline has ended with. -/
theorem task_of_ended {error : RetryError} (herror : ¬ error.isCancelled)
    (hstep : session.step commons = some (next, after))
    (hphase : next.phase = .ended (.error (.retry error))) :
    session.pipeline.task = .ended (.error error) := by
  have hafter : ∀ {current : Session} {result : Commons × RoutineProgress (Except Failure Unit)},
      (current.afterCycle result).1.phase ≠ .ended (.error (.retry error)) := by
    intro current result heq
    rw [phase_afterCycle] at heq
    obtain ⟨commons, (failure | ⟨⟨⟩⟩) | message | waiting⟩ := result <;> cases heq
  cases stepped_of_step hstep with
  | refused => cases hphase
  | began =>
      rw [beginCycle_eq] at hphase
      exact absurd hphase hafter
  | abandoned =>
      rw [abandon] at hphase
      split at hphase <;> cases hphase
  | polled => exact absurd hphase hafter
  | called _ hcalled =>
      cases hcalled with
      | waited => cases hphase
      | told hcall hafter =>
          cases told_of_afterReply hafter with
          | failed =>
              cases hphase
              exact hcall.task_of_error herror
          | signalled | cancelled | panicked | accepted | proceeded | joined => cases hphase

/-- A run that is to learn of an error, or has learnt of it, was to learn of it before. -/
theorem Stands.doomed_of_step (h : Stands session commons) {error : RetryError}
    (herror : ¬ error.isCancelled) (hstep : session.step commons = some (next, after))
    (hdoomed : Doomed error next) : Doomed error session ∧ Informs commons after := by
  have hrunning := isOver_of_step hstep
  have htask : session.pipeline.task = .ended (.error error) := by
    cases hdoomed with
    | waiting _ _ _ htask => exact (hands_of_step hstep).ended error htask
    | ended hphase => exact task_of_ended herror hstep hphase
  -- A run that is doomed waits for its pipeline, so the step was that of a call.
  have hbefore := h.doomed hrunning htask herror
  refine ⟨hbefore, ?_⟩
  cases hbefore with
  | waiting hphase => rcases hphase with hphase | hphase <;> exact (called_of_step hphase hstep).informs
  | ended hphase =>
      rw [hphase] at hrunning
      cases hrunning

/-! ### What an error comes of -/

/-- A retry under way is that of the last cycle's failure, and so is an error, or comes of it. -/
structure Blames (engine : Engine) (first : Session × Commons) (session : Session)
    (commons : Commons) : Prop where
  engine_eq : session.pipeline.engine = engine
  handling : ∀ handling, session.pipeline.task = .handling handling → ∃ failure earlier,
    Lost first (session, commons) failure commons.history ∧
      handling.Charted (fun _ => True) (Commons.Serving earlier failure handling.signal) engine.hooks
        handling.signal commons
  doomed : ∀ error : RetryError, ¬ error.isCancelled → Doomed error session → ∃ failure,
    Lost first (session, commons) failure commons.history ∧
      engine.Accounts failure commons.handled error

theorem Blames.run (h : Blames engine first session commons) (hstands : Stands session commons)
    (hstep : session.step commons = some (next, after)) : Blames engine first next after := by
  have hmove : Session.move (session, commons) .run = some (next, after) := hstep
  refine ⟨(engine_of_step hstep).trans h.engine_eq, fun handling htask => ?_,
    fun error herror hdoomed => ?_⟩
  · exact absurd htask (hstands.task_ne_handling hstep handling)
  · obtain ⟨hbefore, hinforms⟩ := hstands.doomed_of_step herror hstep hdoomed
    obtain ⟨failure, hlost, haccounts⟩ := h.doomed error herror hbefore
    rw [hinforms.handled_eq]
    exact ⟨failure, (hlost.tail hmove).drifts hinforms.drifts, haccounts⟩

/-- Wherever a failure got to that was decided as a signal. -/
theorem blames_of_charted {pipeline : Pipeline} {progress : HandlingProgress} {signal : Signal}
    {earlier : List Entry} (hengine : pipeline.engine = engine)
    (hrunning : session.phase.isOver = false) (htask : pipeline.task = .ofProgress progress)
    (hlost : Lost first ({ session with pipeline }, after) failure after.history)
    (h : Engine.Charted (fun _ => True) (Commons.Serving earlier failure signal) engine.hooks signal
      (after, progress)) : Blames engine first { session with pipeline } after := by
  have hdoomed : ∀ {error : RetryError}, Doomed error { session with pipeline } →
      pipeline.task = .ended (.error error) := by
    intro error hdoomed
    cases hdoomed with
    | waiting _ _ _ hended => exact hended
    | ended hphase =>
        change session.phase = _ at hphase
        rw [hphase] at hrunning
        cases hrunning
  refine ⟨hengine, fun handling hhandling => ?_, fun error herror hlearns => ?_⟩
  · cases Pipeline.Task.eq_waiting_of_ofProgress (htask.symm.trans hhandling)
    cases h with
    | waiting hcharted =>
        rw [hcharted.signal_eq]
        exact ⟨failure, earlier, hlost, hcharted⟩
  · have hended := htask.symm.trans (hdoomed hlearns)
    refine ⟨failure, hlost, ?_⟩
    cases h with
    | finished => cases hended
    | cancelled =>
        cases hended
        exact absurd rfl herror
    | panicked => cases hended
    | waiting => cases hended
    | @failed done _ hook point own _ hhooks hserving =>
        cases hended
        have hhandled : (point.record (.hookEnded hook.label (.error own))).handled =
            earlier ++ .decided (some failure) (.ok signal) ::
              (done.map fun hook => .hookEnded hook.label (.ok ())) ++
                [.hookEnded hook.label (.error own)] := by
          rw [Commons.handled, Commons.read_record, ← Commons.handled, hserving]
          rfl
        exact .hook hhooks ((Commons.handled_log _ _).trans hhandled)

theorem Lost.grown {last : Session × Commons} (h : Lost first last failure commons.history)
    (hgrown : commons.history <+: after.history) (hmodes : after.modes = commons.modes) :
    Lost first last failure after.history := by
  obtain ⟨lost, next, hfirst, hfails, hstep, hlast, hprefix, hsame⟩ := h
  exact ⟨lost, next, hfirst, hfails, hstep, hlast, hprefix.trans hgrown, hmodes.trans hsame⟩

/-- A failure that is taken up starts no cycle. -/
theorem modes_start (hannounces : engine.Announces) (hopen : commons.cancelled = false)
    (cause : Option Failure) : (engine.start cause commons).1.modes = commons.modes := by
  have hdecide : (engine.decide cause commons).1.modes = commons.modes :=
    engine.read_decide_of_none cause commons (fun _ => rfl) fun _ _ => rfl
  rw [(Engine.start_drifts hannounces hopen cause).modes_eq, ← hdecide]
  cases (engine.decide cause commons).2 with
  | error => rfl
  | ok signal =>
      rw [Commons.answered, Commons.modes, Commons.read, Commons.history_announced,
        List.filterMap_append]
      exact List.append_nil _

theorem Blames.took (h : Blames engine first session commons) (hstands : Stands session commons)
    (htrail : Trail first session commons) (hidle : session.pipeline.task = .idle)
    (hopen : commons.cancelled = false) {cause : Option Failure}
    (hinbox : session.pipeline.inbox = some cause) {pipeline : Pipeline}
    (hpipeline : pipeline = { session.pipeline with
      inbox := none
      task := .ofProgress (session.pipeline.engine.start cause commons).2 })
    (hmove : Session.move (session, commons) .task =
      some ({ session with pipeline }, (session.pipeline.engine.start cause commons).1)) :
    Blames engine first { session with pipeline }
      (session.pipeline.engine.start cause commons).1 := by
  obtain ⟨failure, rfl, hbrings⟩ := hstands.brings_of_inbox hidle hinbox
  obtain ⟨houtbox, hphase⟩ := hstands.outbox_eq_none hidle hinbox
  have hstepped : session.pipeline.Stepped commons pipeline
      (session.pipeline.engine.start (some failure) commons).1 :=
    hpipeline ▸ .took hidle hopen hinbox
  have hlost := ((htrail.brings failure hbrings).2.tail hmove).grown
    (Grows.history_prefix (hstands.grows_task hstepped))
    (modes_start (hstands.announces hidle) hopen (some failure))
  have hengine : pipeline.engine = engine := hpipeline ▸ h.engine_eq
  have hrunning : session.phase.isOver = false := by rw [hphase]; rfl
  have htask : pipeline.task =
      .ofProgress (session.pipeline.engine.start (some failure) commons).2 := by rw [hpipeline]
  cases hdecide : (session.pipeline.engine.decide (some failure) commons).2 with
  | error error =>
      rw [Engine.start_of_refused hopen hdecide] at hlost htask ⊢
      refine ⟨hengine, fun handling hhandling => ?_, fun other _ hdoomed => ?_⟩
      · cases htask.symm.trans hhandling
      · cases hdoomed with
        | ended hended => cases hphase.symm.trans hended
        | waiting _ _ _ hended =>
            cases htask.symm.trans hended
            have herror := session.pipeline.engine.policy.decide_outcome_error commons.counter
              (commons.draws commons.drawn) hdecide
            rw [h.engine_eq] at herror hlost hdecide ⊢
            refine ⟨failure, hlost, .refused ?_ (hdecide ▸ engine.handled_decide _ commons)⟩
            rcases herror with ⟨hnone, -⟩ | ⟨_, hsame, hrefused⟩
            · cases hnone
            · cases hsame
              exact hrefused
  | ok signal =>
      have hserving : Commons.Serving commons.handled failure signal []
          (session.pipeline.engine.decide (some failure) commons).1 := by
        rw [Commons.Serving, Engine.handled_decide, hdecide]
        rfl
      have hcharted := Engine.start_charted (Hook.chart_serving commons.handled failure signal)
        (fun _ _ => trivial) hopen hdecide hserving
      rw [h.engine_eq] at hcharted hlost htask ⊢
      exact blames_of_charted hengine hrunning htask hlost hcharted

theorem Blames.task (h : Blames engine first session commons) (hstands : Stands session commons)
    (htrail : Trail first session commons) {pipeline : Pipeline}
    (hstep : session.pipeline.Stepped commons pipeline after)
    (hmove : Session.move (session, commons) .task = some ({ session with pipeline }, after)) :
    Blames engine first { session with pipeline } after := by
  have hrunning := hstands.isOver_of_stepped hstep
  have hquiet : pipeline.engine = session.pipeline.engine →
      (∀ handling, pipeline.task ≠ .handling handling) →
      (∀ error : RetryError, pipeline.task = .ended (.error error) → error.isCancelled) →
      Blames engine first { session with pipeline } after := by
    intro hengine hhandling hended
    refine ⟨hengine.trans h.engine_eq, fun handling htask => absurd htask (hhandling handling),
      fun error herror hdoomed => ?_⟩
    cases hdoomed with
    | waiting _ _ _ htask => exact absurd (hended error htask) herror
    | ended hphase =>
        change session.phase = _ at hphase
        rw [hphase] at hrunning
        cases hrunning
  cases hstep with
  | cancelled =>
      refine hquiet rfl (by rintro handling ⟨⟩) ?_
      rintro error ⟨⟩
      rfl
  | closed | dropped | placed =>
      exact hquiet rfl (by rintro handling ⟨⟩) (by rintro error ⟨⟩)
  | took hidle hopen hinbox => exact h.took hstands htrail hidle hopen hinbox rfl hmove
  | @resumed handling htask hdue =>
      obtain ⟨failure, earlier, hlost, hcharted⟩ := h.handling handling htask
      have hsound := session.pipeline.engine.resume_sound (fun _ => id) rfl
        (hstands.permitted htask) commons
      have hresumed := session.pipeline.engine.resume_charted
        (Hook.chart_serving earlier failure handling.signal) hcharted
      exact blames_of_charted h.engine_eq hrunning rfl
        ((hlost.tail hmove).drifts (.serve hsound.1)) hresumed

theorem Blames.moved {course last : Session × Commons} {move : Move}
    (h : Blames engine first course.1 course.2) (hstands : Stands course.1 course.2)
    (htrail : Trail first course.1 course.2) (hmove : Session.move course move = some last) :
    Blames engine first last.1 last.2 := by
  have hothers : last.1 = course.1 → course.2.Drifts last.2 →
      last.2.handled = course.2.handled →
      (∀ {earlier failure signal done}, Commons.Serving earlier failure signal done course.2 →
        Commons.Serving earlier failure signal done last.2) →
      Blames engine first last.1 last.2 := by
    intro hsame hdrifts hhandled hserving
    refine ⟨hsame ▸ h.engine_eq, fun handling htask => ?_, fun error herror hdoomed => ?_⟩
    · obtain ⟨failure, earlier, hlost, hcharted⟩ := h.handling handling (hsame ▸ htask)
      exact ⟨failure, earlier, (hlost.tail hmove).drifts hdrifts, hcharted.of_commons hserving⟩
    · obtain ⟨failure, hlost, haccounts⟩ := h.doomed error herror (hsame ▸ hdoomed)
      exact ⟨failure, (hlost.tail hmove).drifts hdrifts, hhandled ▸ haccounts⟩
  cases move with
  | run => exact h.run hstands hmove
  | task =>
      obtain ⟨⟨pipeline, after⟩, hstep, rfl⟩ := Option.map_eq_some_iff.1 hmove
      exact h.task hstands htrail (Pipeline.stepped_of_step hstep) hmove
  | others deed =>
      have hperformed := Option.some.inj hmove
      cases hperformed
      exact hothers rfl (.perform deed _) (Commons.handled_perform deed _) fun h => h.perform deed
  | wait millis =>
      have hwaited := Option.some.inj hmove
      cases hwaited
      exact hothers rfl (.of_eq rfl id) rfl fun h => h

/-! ### The whole course -/

theorem Leads.blames {last : Session × Commons} (h : Leads first last)
    (hstands : Stands first.1 first.2) (hminds : first.2.Minds)
    (htrail : Trail first first.1 first.2) (hblames : Blames engine first first.1 first.2) :
    Blames engine first last.1 last.2 := by
  induction h with
  | refl => exact hblames
  | tail hbefore hlast ih =>
      obtain ⟨move, hmove⟩ := hlast
      have hbetween : Leads first _ := hbefore
      exact ih.moved (hbetween.stands hstands) (hbetween.trail hstands hminds htrail) hmove

theorem blames_initial (policy : Policy) (hooks : List Hook)
    (connector : Cycle → Routine (Except Failure Unit)) (commons : Commons) :
    Blames (Session.engine policy hooks) (initial policy hooks connector, fresh commons)
      (initial policy hooks connector) (fresh commons) := by
  refine ⟨rfl, by rintro handling ⟨⟩, fun error herror hdoomed => ?_⟩
  cases hdoomed with
  | waiting _ _ _ htask => cases htask
  | ended hphase => cases hphase

/-- A run that has ended with an error has published its final disconnect last. -/
theorem Stands.final_of_error (h : Stands session commons) {error : SessionError}
    (herror : session.phase.error? = some error) :
    ∃ inner : RetryError, error = .retry inner ∧ ¬ inner.isCancelled ∧
      commons.published.getLast? =
        some (.disconnected (.stopAbruptly inner.text) (finalStatus inner)) := by
  obtain ⟨changes, started, mode, last, final, -, hpublished, -, hending⟩ := h.in_laps
  rw [herror] at hending
  cases hending with
  | @refused inner hinner hlast =>
      refine ⟨inner, rfl, fun hcancelled => ?_, ?_⟩
      · cases inner with
        | cancelled => rcases hinner with hinner | hinner <;> cases hinner
        | terminal | exhausted | hook | missingCause => cases hcancelled
      · rw [hpublished]
        exact List.getLast?_concat
  | hook own =>
      refine ⟨.hook own, rfl, nofun, ?_⟩
      rw [hpublished]
      exact List.getLast?_concat

theorem finalStatus_closed {error : RetryError} {status : CloseStatus}
    (h : error = .terminal (.closed status) ∨
      ∃ attempts limit, error = .exhausted attempts limit (.closed status)) :
    finalStatus error = status := by
  rcases h with rfl | ⟨_, _, rfl⟩ <;> rfl

theorem finalStatus_of_ne_closed {error : RetryError} {failure : Failure}
    (h : error = .terminal failure ∨ ∃ attempts limit, error = .exhausted attempts limit failure)
    (hother : ∀ status, failure ≠ .closed status) : finalStatus error = .abnormal := by
  cases failure with
  | closed status => exact absurd rfl (hother status)
  | invalidSession | partialDisconnect | fault => rcases h with rfl | ⟨_, _, rfl⟩ <;> rfl

/-- **Where an error comes from.** A run that ends with an error has lost its last cycle to a failure,
and the error is that of retrying this failure: it was refused a retry as final or as one too many, and
is carried by the error unchanged, or a hook failed while it was being retried, after all hooks before
it had come to their ends. The last change that the run publishes is the final disconnect. Its status is
that of the failure carried if it is a close of the connection, and that of an abnormal close for every
other failure and for the error of a hook. -/
theorem Leads.error_of_lost {policy : Policy} {hooks : List Hook}
    {connector : Cycle → Routine (Except Failure Unit)} (hhooks : .announcer ∉ hooks)
    (h : Leads (initial policy hooks connector, fresh before) (session, commons))
    {error : SessionError} (herror : session.result? = some (.error error)) :
    ∃ inner failure lost next earlier status, error = .retry inner ∧
      (Leads (initial policy hooks connector, fresh before) lost ∧ lost.1.Fails lost.2 failure ∧
        lost.1.step lost.2 = some next ∧ Leads next (session, commons) ∧
        commons.modes = next.2.modes) ∧
      commons.published.getLast? = some (.disconnected (.stopAbruptly inner.text) status) ∧
      ((inner = .terminal failure ∨
          ∃ attempts, inner = .exhausted attempts policy.maxRetries failure) ∧
        commons.handled = earlier ++ [.decided (some failure) (.error inner)] ∧
        (∀ closed, failure = .closed closed → status = closed) ∧
        ((∀ closed, failure ≠ .closed closed) → status = .abnormal) ∨
      ∃ signal done hook rest own, inner = .hook own ∧
        (Session.engine policy hooks).hooks = done ++ hook :: rest ∧
        commons.handled = earlier ++ .decided (some failure) (.ok signal) ::
          (done.map fun hook => .hookEnded hook.label (.ok ())) ++
            [.hookEnded hook.label (.error own)] ∧
        status = .abnormal) := by
  have hinitial := stands_initial policy hhooks connector before
  have hminds : (fresh before).Minds := Commons.minds_of_none rfl
  have hphase := result?_eq_some_iff.1 herror
  obtain ⟨inner, rfl, hopen, hlast⟩ := (h.stands hinitial).final_of_error
    (congrArg Phase.error? hphase)
  obtain ⟨failure, ⟨lost, next, hfirst, hfails, hstep, hnext, -, hmodes⟩, haccounts⟩ :=
    (h.blames hinitial hminds (trail_initial policy hooks connector before)
      (blames_initial policy hooks connector before)).doomed inner hopen (.ended hphase)
  cases haccounts with
  | @refused earlier _ hrefused hhandled =>
      have hcarried : inner = .terminal failure ∨
          ∃ attempts limit, inner = .exhausted attempts limit failure :=
        hrefused.imp_right fun ⟨attempts, hexhausted⟩ => ⟨attempts, _, hexhausted⟩
      refine ⟨inner, failure, lost, next, earlier, _, rfl, ⟨hfirst, hfails, hstep, hnext, hmodes⟩,
        hlast, .inl ⟨hrefused, hhandled, ?_, finalStatus_of_ne_closed hcarried⟩⟩
      rintro closed rfl
      exact finalStatus_closed hcarried
  | @hook earlier signal done rest hook own hhooks hhandled =>
      exact ⟨.hook own, failure, lost, next, earlier, _, rfl, ⟨hfirst, hfails, hstep, hnext, hmodes⟩,
        hlast, .inr ⟨signal, done, hook, rest, own, rfl, hhooks, hhandled, rfl⟩⟩

/-- Others close a suspended cycle so that the session is kept, and the budget does not allow for
another. -/
theorem error_of_lost_when_asked : ∃ session commons inner failure,
    Leads (initial { Policy.prompt with maxRetries := 1 } []
        fun _ => .sleep 5 (.done (.ok ())), fresh .initial) (session, commons) ∧
      session.result? = some (.error (.retry inner)) ∧
      inner = .exhausted 1 1 failure ∧ failure = .closed ⟨4000, none⟩ ∧
      commons.published.getLast? =
        some (.disconnected (.stopAbruptly inner.text) ⟨4000, none⟩) := by
  have hmoves : (follow (initial { Policy.prompt with maxRetries := 1 } []
      fun _ => .sleep 5 (.done (.ok ())), fresh .initial)
      [.run, .others (.close (.retry "again") ⟨4000, none⟩), .run, .run, .task, .run, .run]).map
        (fun course => course.1.phase.error?) =
          some (some (.retry (.exhausted 1 1 (.closed ⟨4000, none⟩)))) := by
    decide +kernel
  obtain ⟨⟨session, commons⟩, hfollow, herror⟩ := Option.map_eq_some_iff.1 hmoves
  have hresult : session.result? =
      some (.error (.retry (.exhausted 1 1 (.closed ⟨4000, none⟩)))) :=
    result?_eq_some_iff.2 (Phase.error?_eq_some_iff.1 herror)
  have hleads := leads_of_follow hfollow
  obtain ⟨inner, failure, lost, next, earlier, status, hinner, -, hlast, hcomes⟩ :=
    hleads.error_of_lost List.not_mem_nil hresult
  cases hinner
  rcases hcomes with ⟨hcarried, -, hclosed, -⟩ | ⟨_, _, _, _, _, hhook, -⟩
  · rcases hcarried with hterminal | ⟨_, hexhausted⟩
    · cases hterminal
    · cases hexhausted
      cases hclosed _ rfl
      exact ⟨session, commons, _, _, hleads, hresult, rfl, rfl, hlast⟩
  · cases hhook

end Session

end Rejoin
