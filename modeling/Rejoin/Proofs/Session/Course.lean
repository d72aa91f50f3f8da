import Rejoin.Proofs.Session.Laps
import Rejoin.Proofs.Task.Steps
import Rejoin.Session.Run

/-! The course of a session. The run and the task of its pipeline take their steps in any order, and
in between others close the session or do anything else that they can do, and time passes. Wherever
this leads, the session is at one of a few points of a lap, or at its end, and what it has published
is a row of laps up to that point. -/

namespace Rejoin

/-! ### The pipeline of a session -/

namespace Pipeline

/-- Fit for another failure, as far as the owner is concerned. -/
structure Attends (pipeline : Pipeline) : Prop where
  announces : pipeline.engine.Announces
  accepting : pipeline.accepting
  receiving : pipeline.receiving
  reported : pipeline.reported = false

/-- What is on its way makes no difference to that. -/
theorem Attends.carrying {pipeline : Pipeline} (h : pipeline.Attends)
    (inbox : Option (Option Failure)) (outbox : Option Signal) (task : Task) :
    Attends { pipeline with inbox, outbox, task } :=
  ⟨h.announces, h.accepting, h.receiving, h.reported⟩

/-- Nothing is on its way, and the outbox is as it is. -/
structure AtRest (outbox : Option Signal) (pipeline : Pipeline) : Prop extends Attends pipeline where
  inbox : pipeline.inbox = none
  outbox : pipeline.outbox = outbox
  task : pipeline.task = .idle ∨ pipeline.task = .ended (.error .cancelled)

/-- How the task can come to its end, with the last cycle followed by a retry or not. -/
inductive Task.Stops (changes : List Change) (last : Option Bool) : Task → Prop where
  | cancelled : Stops changes last (.ended (.error .cancelled))
  | panicked (message : String) : Stops changes last (.panicked message)
  | refused {error : RetryError} (herror : error.isTerminal ∨ error.isExhausted)
      (hlast : last.isSome) : Stops changes last (.ended (.error error))
  | hook (error : HookError) (hlast : last = none) (hchanges : changes ≠ []) :
      Stops changes last (.ended (.error (.hook error)))

theorem Task.Stops.isOver {changes : List Change} {last : Option Bool} {task : Task}
    (h : task.Stops changes last) : task.isOver := by
  cases h <;> rfl

end Pipeline

namespace Session

def Phase.isOver : Phase → Bool
  | .ended _ | .panicked _ => true
  | .starting _ | .cycling _ | .retrying _ => false

/-- The error that the run has ended with. -/
def Phase.error? : Phase → Option SessionError
  | .ended (.error error) => some error
  | _ => none

/-- How the published changes end: with a final disconnect if the run ends with an error, which
follows the last cycle if it was refused a retry, and its retry if a hook failed. -/
inductive Ending (changes : List Change) (last : Option Bool) :
    Option SessionError → Option Change → Prop where
  | quiet : Ending changes last none none
  | refused {error : RetryError} (herror : error.isTerminal ∨ error.isExhausted)
      (hlast : last.isSome) :
      Ending changes last (some (.retry error))
        (some (.disconnected (.stopAbruptly error.text) (finalStatus error)))
  | hook (error : HookError) (hlast : last = none) (hchanges : changes ≠ []) :
      Ending changes last (some (.retry (.hook error)))
        (some (.disconnected (.stopAbruptly (RetryError.hook error).text)
          (finalStatus (.hook error))))

/-- The points of a lap, and the end. -/
inductive Stands (session : Session) (commons : Commons) : Prop where
  | starting {changes : List Change} {started : List Mode} {mode : Mode}
      (hlaps : Laps changes started mode) (hphase : session.phase = .starting mode)
      (hpipeline : session.pipeline.AtRest none) (hcommons : commons.Rests changes started)
  | cycling {changes : List Change} {started : List Mode} {mode : Mode}
      {current : Suspended (Except Failure Unit)}
      (hlaps : Laps changes started mode) (hphase : session.phase = .cycling current)
      (hpipeline : session.pipeline.AtRest none) (hcommons : commons.Runs changes started mode)
  /-- The failure of a cycle is about to be handed in. -/
  | failed {changes : List Change} {started : List Mode} {mode : Mode} {confirmed : Bool}
      {failure : Failure} (hlaps : Laps changes started mode)
      (hphase : session.phase = .retrying (.retry (some failure)))
      (hpipeline : session.pipeline.AtRest none)
      (hcommons : commons.Rests (Laps.told changes (some confirmed))
        (Laps.begun started mode (some confirmed)))
  | submitted {changes : List Change} {started : List Mode} {mode : Mode} {confirmed : Bool}
      {failure : Failure} (hlaps : Laps changes started mode)
      (hphase : session.phase = .retrying .awaitSignal) (hattends : session.pipeline.Attends)
      (hinbox : session.pipeline.inbox = some (some failure))
      (houtbox : session.pipeline.outbox = none) (htask : session.pipeline.task = .idle)
      (hcommons : commons.Rests (Laps.told changes (some confirmed))
        (Laps.begun started mode (some confirmed)))
  /-- The retry is announced and not taken up yet. -/
  | carried {changes : List Change} {started : List Mode} {signal : Signal}
      {progress : HandlingProgress} (hlaps : Laps changes started (.after signal.stage))
      (hchanges : changes ≠ []) (hphase : session.phase = .retrying .awaitSignal)
      (hattends : session.pipeline.Attends) (hinbox : session.pipeline.inbox = none)
      (houtbox : session.pipeline.outbox = none)
      (htask : session.pipeline.task = .ofProgress progress)
      (hcarries : Engine.Carries (Entry.Serves signal) signal progress)
      (hcommons : commons.Rests changes started)
  | placed {changes : List Change} {started : List Mode} {signal : Signal}
      (hlaps : Laps changes started (.after signal.stage))
      (hphase : session.phase = .retrying .awaitSignal)
      (hpipeline : session.pipeline.AtRest (some signal))
      (hcommons : commons.Rests changes started)
  /-- The run is about to learn how the task ended. -/
  | stopping {changes : List Change} {started : List Mode} {mode : Mode} {last : Option Bool}
      (hlaps : Laps changes started mode)
      (hphase : session.phase = .retrying .awaitSignal ∨
        session.phase = .retrying (.awaitEnd true))
      (hreported : session.pipeline.reported = false) (houtbox : session.pipeline.outbox = none)
      (hstops : session.pipeline.task.Stops changes last)
      (hcommons : commons.Rests (Laps.told changes last) (Laps.begun started mode last))
  | finished {changes : List Change} {started : List Mode} {mode : Mode} {last : Option Bool}
      {final : Option Change} (hlaps : Laps changes started mode)
      (hphase : session.phase.isOver) (htask : session.pipeline.task.isOver)
      (hending : Ending changes last session.phase.error? final)
      (hcommons : commons.Rests (Laps.told changes last ++ final.toList) (Laps.begun started mode last))

/-! ### Steps of the run -/

variable {session next : Session} {commons after : Commons} {changes : List Change}
  {started : List Mode} {mode : Mode}

theorem holds_of_eq {holds : Session → Commons → Prop} {result : Session × Commons}
    (h : result = (next, after)) (hresult : holds result.1 result.2) : holds next after := by
  rw [h] at hresult
  exact hresult

theorem isOver_finish (session : Session) (phase : Phase) :
    (session.finish phase).pipeline.task.isOver := by
  rw [finish, Pipeline.abort]
  cases htask : session.pipeline.task <;> rfl

/-- A run that ends without an error publishes nothing more. -/
theorem stands_finish (hlaps : Laps changes started mode) (last : Option Bool)
    (hcommons : commons.Rests (Laps.told changes last) (Laps.begun started mode last))
    {phase : Phase} (hover : phase.isOver) (herror : phase.error? = none) :
    Stands (session.finish phase) commons := by
  rw [← List.append_nil (Laps.told changes last)] at hcommons
  have hending : Ending changes last phase.error? none := herror ▸ .quiet
  exact .finished hlaps hover (isOver_finish session phase) hending hcommons

theorem stands_fail (hlaps : Laps changes started mode) (hpipeline : session.pipeline.AtRest none)
    (hcommons : commons.Runs changes started mode) (failure : Failure) :
    Stands (session.fail failure commons).1 (session.fail failure commons).2 := by
  obtain ⟨confirmed, hrests⟩ := hcommons.rests
  exact .failed hlaps rfl hpipeline (hrests.log _)

theorem stands_afterCycle (hlaps : Laps changes started mode)
    (hpipeline : session.pipeline.AtRest none)
    {result : Commons × RoutineProgress (Except Failure Unit)}
    (hcommons : result.1.Runs changes started mode) :
    Stands (session.afterCycle result).1 (session.afterCycle result).2 := by
  obtain ⟨commons, progress⟩ := result
  rcases progress with (failure | ⟨⟨⟩⟩) | message | current
  · exact stands_fail hlaps hpipeline hcommons failure
  · obtain ⟨confirmed, hrests⟩ := hcommons.rests
    exact stands_finish hlaps (some confirmed) (hrests.log _) rfl rfl
  · obtain ⟨confirmed, hrests⟩ := hcommons.rests
    exact stands_finish hlaps (some confirmed) hrests rfl rfl
  · exact .cycling hlaps rfl hpipeline hcommons

/-- The cycle that the run begins next. -/
def nextCycle (session : Session) (mode : Mode) (commons : Commons) : Cycle :=
  { number := session.cycles, mode, attempt := commons.counter.attempts }

theorem beginCycle_eq (session : Session) (mode : Mode) (commons : Commons) :
    session.beginCycle mode commons =
      { session with cycles := session.cycles + 1 }.afterCycle
        ((session.connector (session.nextCycle mode commons)).poll
          (commons.opened (session.nextCycle mode commons))) := rfl

theorem stands_beginCycle (hlaps : Laps changes started mode)
    (hpipeline : session.pipeline.AtRest none) (hcommons : commons.Rests changes started) :
    Stands (session.beginCycle mode commons).1 (session.beginCycle mode commons).2 := by
  rw [beginCycle_eq]
  refine stands_afterCycle hlaps ?_
    (Commons.Runs.poll (hcommons.begins (session.nextCycle mode commons) rfl) _)
  exact hpipeline

theorem stands_abandon (hlaps : Laps changes started mode)
    (hpipeline : session.pipeline.AtRest none) (hcommons : commons.Runs changes started mode) :
    Stands (session.abandon commons).1 (session.abandon commons).2 := by
  have htaken : commons.takeClose.Runs changes started mode := ⟨hcommons.cycle, hcommons.modes⟩
  rw [abandon]
  split
  · exact stands_fail hlaps hpipeline htaken _
  · obtain ⟨confirmed, hrests⟩ := hcommons.rests
    exact stands_finish hlaps (some confirmed) hrests rfl rfl

/-- The error that a task stopped with ends the run, unless it is a cancellation. -/
theorem stands_stopWith (hlaps : Laps changes started mode) {last : Option Bool}
    {error : RetryError} (hstops : Pipeline.Task.Stops changes last (.ended (.error error)))
    (hcommons : commons.Rests (Laps.told changes last) (Laps.begun started mode last)) :
    Stands (session.stopWith error commons).1 (session.stopWith error commons).2 := by
  have hcounted : Commons.Rests (Laps.told changes last) (Laps.begun started mode last)
      { commons with metrics := commons.metrics.count (.ofError error) } :=
    ⟨hcommons.cycle, hcommons.published, hcommons.modes⟩
  rw [stopWith]
  cases hstops with
  | cancelled => exact stands_finish hlaps last hcounted rfl rfl
  | refused herror hlast =>
      have hother : error.isCancelled = false := by
        cases error with
        | cancelled => simp [RetryError.isTerminal, RetryError.isExhausted] at herror
        | terminal | exhausted | hook | missingCause => rfl
      dsimp only
      rw [if_neg (Bool.eq_false_iff.1 hother)]
      exact .finished hlaps rfl (isOver_finish _ _) (.refused herror hlast)
        ((hcounted.log _).publish _)
  | hook error hlast hchanges =>
      exact .finished hlaps rfl (isOver_finish _ _) (.hook error hlast hchanges)
        ((hcounted.log _).publish _)

theorem stops_of_carries {signal : Signal} {progress : HandlingProgress} {allowed : Entry → Prop}
    (hcarries : Engine.Carries allowed signal progress)
    (hover : (Pipeline.Task.ofProgress progress).isOver) (hchanges : changes ≠ []) :
    (Pipeline.Task.ofProgress progress).Stops changes none := by
  rcases progress with (error | finished) | message | handling
  · rcases hcarries with rfl | ⟨inner, rfl⟩
    · exact .cancelled
    · exact .hook inner rfl hchanges
  · cases hover
  · exact .panicked message
  · cases hover

/-- The steps of a run that waits for its pipeline are those of its pending call. -/
inductive Called (session : Session) (commons : Commons) (call : Call) :
    Session → Commons → Prop where
  | waited {later : Call} {pipeline : Pipeline}
      (hcall : Call.Stepped session.pipeline call pipeline (.inl later)) :
      Called session commons call { session with pipeline, phase := .retrying later } commons
  | told {reply : Reply} {pipeline : Pipeline} {next : Session} {after : Commons}
      (hcall : Call.Stepped session.pipeline call pipeline (.inr reply))
      (hafter : { session with pipeline, phase := .retrying call }.afterReply commons reply =
        (next, after)) :
      Called session commons call next after

theorem called_of_step {call : Call} (hphase : session.phase = .retrying call)
    (hstep : session.step commons = some (next, after)) :
    Called session commons call next after := by
  rw [step, hphase] at hstep
  obtain ⟨⟨pipeline, result⟩, hcall, heq⟩ := Option.map_eq_some_iff.1 hstep
  cases result with
  | inl later =>
      cases heq
      exact .waited (Call.stepped_of_step hcall)
  | inr reply => exact .told (Call.stepped_of_step hcall) heq

/-- What a reply makes of a session that is told of it, and of what is shared. -/
inductive Told (session : Session) (commons : Commons) : Reply → Session → Commons → Prop where
  | signalled (signal : Signal) :
      Told session commons (.retried (.ok signal))
        { session with phase := .starting (.after signal.stage) } commons
  | cancelled {error : RetryError} (hcancelled : error.isCancelled) :
      Told session commons (.retried (.error error)) (session.finish (.ended (.ok ())))
        { commons with metrics := commons.metrics.count (.ofError error) }
  | failed {error : RetryError} (hother : ¬ error.isCancelled) :
      Told session commons (.retried (.error error))
        (session.finish (.ended (.error (.retry error))))
        (({ commons with metrics := commons.metrics.count (.ofError error) }.log
          (.ofRetryError error)).record
            (.published (.disconnected (.stopAbruptly error.text) (finalStatus error))))
  | panicked (message : String) :
      Told session commons (.panicked message) (session.finish (.panicked message)) commons
  | accepted (accepted : Bool) : Told session commons (.accepted accepted) session commons
  | proceeded (signal : Option Signal) : Told session commons (.proceeded signal) session commons
  | joined (result : Except RetryError Unit) : Told session commons (.joined result) session commons

theorem told_of_afterReply {reply : Reply}
    (h : session.afterReply commons reply = (next, after)) : Told session commons reply next after := by
  cases reply with
  | retried result =>
      cases result with
      | ok signal =>
          cases h
          exact .signalled signal
      | error error =>
          rw [afterReply, stopWith] at h
          dsimp only at h
          split at h
          case isTrue hcancelled =>
              cases h
              exact .cancelled hcancelled
          case isFalse hother =>
              cases h
              exact .failed hother
  | panicked message =>
      cases h
      exact .panicked message
  | accepted accepted =>
      cases h
      exact .accepted accepted
  | proceeded signal =>
      cases h
      exact .proceeded signal
  | joined result =>
      cases h
      exact .joined result

/-- What a call leaves of what is shared: nothing has changed, or the error that the run ends with was
counted, and announced unless it is the cancellation. -/
inductive Informs (commons : Commons) : Commons → Prop where
  | unchanged : Informs commons commons
  | counted (tally : Tally) :
      Informs commons { commons with metrics := commons.metrics.count tally }
  | announced (tally : Tally) (entry : LogEntry) (disconnect : Disconnect) (status : CloseStatus) :
      Informs commons
        (({ commons with metrics := commons.metrics.count tally }.log entry).record
          (.published (.disconnected disconnect status)))

theorem Called.informs {call : Call} (h : Called session commons call next after) :
    Informs commons after := by
  cases h with
  | waited => exact .unchanged
  | told _ hafter =>
      cases told_of_afterReply hafter with
      | cancelled => exact .counted _
      | failed => exact .announced _ _ _ _
      | signalled | panicked | accepted | proceeded | joined => exact .unchanged

theorem step_of_isOver (hphase : session.phase.isOver) : session.step commons = none := by
  rw [step]
  cases hat : session.phase with
  | ended | panicked => rfl
  | starting | cycling | retrying =>
      rw [hat] at hphase
      cases hphase

/-- The steps of the run. -/
inductive Stepped (session : Session) (commons : Commons) : Session → Commons → Prop where
  | refused {mode : Mode} (hphase : session.phase = .starting mode)
      (hcancelled : commons.cancelled) :
      Stepped session commons (session.finish (.ended (.ok ()))) commons
  | began {mode : Mode} (hphase : session.phase = .starting mode)
      (hopen : commons.cancelled = false) :
      Stepped session commons (session.beginCycle mode commons).1 (session.beginCycle mode commons).2
  | abandoned {current : Suspended (Except Failure Unit)} (hphase : session.phase = .cycling current)
      (habandoned : commons.abandoned) :
      Stepped session commons (session.abandon commons).1 (session.abandon commons).2
  | polled {current : Suspended (Except Failure Unit)} (hphase : session.phase = .cycling current)
      (hkept : commons.abandoned = false) (hdue : current.wake.isDue commons) :
      Stepped session commons (session.afterCycle (current.next.poll commons)).1
        (session.afterCycle (current.next.poll commons)).2
  | called {call : Call} {next : Session} {after : Commons} (hphase : session.phase = .retrying call)
      (hcalled : Called session commons call next after) : Stepped session commons next after

theorem stepped_of_step (hstep : session.step commons = some (next, after)) :
    Stepped session commons next after := by
  cases hphase : session.phase with
  | starting mode =>
      rw [step, hphase] at hstep
      dsimp only at hstep
      split at hstep
      case isTrue hcancelled =>
          cases hstep
          exact .refused hphase hcancelled
      case isFalse hopen =>
          exact holds_of_eq (Option.some.inj hstep) (.began hphase (Bool.eq_false_iff.2 hopen))
  | cycling current =>
      rw [step, hphase] at hstep
      dsimp only at hstep
      split at hstep
      case isTrue habandoned =>
          exact holds_of_eq (Option.some.inj hstep) (.abandoned hphase habandoned)
      case isFalse hkept =>
          split at hstep
          case isTrue hdue =>
              exact holds_of_eq (Option.some.inj hstep)
                (.polled hphase (Bool.eq_false_iff.2 hkept) hdue)
          case isFalse => cases hstep
  | retrying call => exact .called hphase (called_of_step hphase hstep)
  | ended | panicked =>
      have hover : session.phase.isOver := by rw [hphase]; rfl
      cases (step_of_isOver hover).symm.trans hstep

/-- A failure is refused only by a pipeline that was cancelled. -/
theorem run_of_failed {confirmed : Bool} {failure : Failure} (hlaps : Laps changes started mode)
    (hphase : session.phase = .retrying (.retry (some failure)))
    (hpipeline : session.pipeline.AtRest none)
    (hcommons : commons.Rests (Laps.told changes (some confirmed))
      (Laps.begun started mode (some confirmed)))
    (hstep : session.step commons = some (next, after)) : Stands next after := by
  cases called_of_step hphase hstep with
  | told hcall => cases hcall
  | waited hcall =>
      cases hcall with
      | retryRefused hclosed =>
          have hended : session.pipeline.task = .ended (.error .cancelled) := by
            apply hpipeline.task.resolve_left
            intro hidle
            rcases hclosed with hclosed | hover
            · cases hpipeline.accepting.symm.trans hclosed
            · rw [hidle] at hover
              cases hover
          refine .stopping hlaps (.inr rfl) hpipeline.reported rfl ?_ hcommons
          rw [Pipeline.shut, hended]
          exact .cancelled
      | retryAccepted hopen hrunning hinbox =>
          have hidle : session.pipeline.task = .idle := by
            apply hpipeline.task.resolve_right
            intro hended
            rw [hended] at hrunning
            cases hrunning
          exact .submitted hlaps rfl (hpipeline.carrying _ _ _) rfl hpipeline.outbox hidle hcommons

/-- A signal that was handed out makes the run begin its next cycle. -/
theorem run_of_placed {signal : Signal} (hlaps : Laps changes started (.after signal.stage))
    (hphase : session.phase = .retrying .awaitSignal)
    (hpipeline : session.pipeline.AtRest (some signal))
    (hcommons : commons.Rests changes started)
    (hstep : session.step commons = some (next, after)) : Stands next after := by
  obtain ⟨hattends, hinbox, houtbox, htask⟩ := hpipeline
  cases called_of_step hphase hstep with
  | waited hcall =>
      cases hcall with
      | missed hempty => cases houtbox.symm.trans hempty
  | told hcall hafter =>
      cases hcall with
      | retried htaken =>
          cases houtbox.symm.trans htaken
          cases hafter
          exact .starting hlaps rfl ⟨hattends.carrying _ _ _, hinbox, rfl, htask⟩ hcommons

/-- Without a signal the run waits for the task to end. -/
theorem run_of_missed {last : Option Bool} (hlaps : Laps changes started mode)
    (hphase : session.phase = .retrying .awaitSignal)
    (hreported : session.pipeline.reported = false) (houtbox : session.pipeline.outbox = none)
    (hstops : session.pipeline.task.isOver → session.pipeline.task.Stops changes last)
    (hcommons : commons.Rests (Laps.told changes last) (Laps.begun started mode last))
    (hstep : session.step commons = some (next, after)) : Stands next after := by
  cases called_of_step hphase hstep with
  | waited hcall =>
      cases hcall with
      | missed _ hover =>
          exact .stopping hlaps (.inr rfl) hreported rfl (hstops hover) hcommons
  | told hcall =>
      cases hcall with
      | retried htaken => cases houtbox.symm.trans htaken

/-- The end of the task is the end of the run. -/
theorem run_of_told {last : Option Bool} (hlaps : Laps changes started mode)
    (hphase : session.phase = .retrying (.awaitEnd true))
    (hreported : session.pipeline.reported = false)
    (hstops : session.pipeline.task.Stops changes last)
    (hcommons : commons.Rests (Laps.told changes last) (Laps.begun started mode last))
    (hstep : session.step commons = some (next, after)) : Stands next after := by
  cases called_of_step hphase hstep with
  | waited hcall => cases hcall
  | told hcall hafter =>
      cases hcall with
      | toldBefore htold => cases hreported.symm.trans htold
      | @toldEnd _ result _ htask =>
          rw [htask] at hstops
          cases result with
          | ok value => cases hstops
          | error error => exact holds_of_eq hafter (stands_stopWith hlaps hstops hcommons)
      | toldPanic =>
          cases hafter
          exact stands_finish hlaps last hcommons rfl rfl
      | toldAborted _ htask =>
          rw [htask] at hstops
          cases hstops

theorem Stands.run (h : Stands session commons)
    (hstep : session.step commons = some (next, after)) : Stands next after := by
  cases h with
  | starting hlaps hphase hpipeline hcommons =>
      rw [step, hphase] at hstep
      dsimp only at hstep
      split at hstep
      · cases hstep
        exact stands_finish hlaps none (hcommons.whole _) rfl rfl
      · exact holds_of_eq (Option.some.inj hstep) (stands_beginCycle hlaps hpipeline hcommons)
  | cycling hlaps hphase hpipeline hcommons =>
      rw [step, hphase] at hstep
      dsimp only at hstep
      split at hstep
      · exact holds_of_eq (Option.some.inj hstep) (stands_abandon hlaps hpipeline hcommons)
      · split at hstep
        · exact holds_of_eq (Option.some.inj hstep)
            (stands_afterCycle hlaps hpipeline (hcommons.poll _))
        · cases hstep
  | failed hlaps hphase hpipeline hcommons =>
      exact run_of_failed hlaps hphase hpipeline hcommons hstep
  | submitted hlaps hphase hattends _ houtbox htask hcommons =>
      refine run_of_missed hlaps hphase hattends.reported houtbox ?_ hcommons hstep
      intro hover
      rw [htask] at hover
      cases hover
  | carried hlaps hchanges hphase hattends _ houtbox htask hcarries hcommons =>
      refine run_of_missed hlaps hphase hattends.reported houtbox ?_ (hcommons.whole _) hstep
      intro hover
      rw [htask] at hover ⊢
      exact stops_of_carries hcarries hover hchanges
  | placed hlaps hphase hpipeline hcommons =>
      exact run_of_placed hlaps hphase hpipeline hcommons hstep
  | stopping hlaps hphase hreported houtbox hstops hcommons =>
      rcases hphase with hphase | hphase
      · exact run_of_missed hlaps hphase hreported houtbox (fun _ => hstops) hcommons hstep
      · exact run_of_told hlaps hphase hreported hstops hcommons hstep
  | finished _ hphase => cases (step_of_isOver hphase).symm.trans hstep

/-! ### Steps of the task -/

/-- Left to itself, a pipeline at rest can only notice a cancellation. -/
theorem atRest_stepped {outbox : Option Signal} {pipeline next : Pipeline}
    (hpipeline : pipeline.AtRest outbox) (h : pipeline.Stepped commons next after) :
    next.AtRest outbox ∧ after = commons := by
  obtain ⟨hattends, hinbox, houtbox, htask⟩ := hpipeline
  cases h with
  | cancelled => exact ⟨⟨hattends.carrying _ _ _, hinbox, houtbox, .inr rfl⟩, rfl⟩
  | took _ _ htaken => cases hinbox.symm.trans htaken
  | closed _ _ _ hclosed => cases hattends.accepting.symm.trans hclosed
  | resumed hbusy | dropped hbusy | placed hbusy =>
      rcases htask with hidle | hended
      · cases hidle.symm.trans hbusy
      · cases hended.symm.trans hbusy

/-- A failure that is taken up is refused a retry, or its retry is announced. -/
theorem task_of_submitted {pipeline : Pipeline} {confirmed : Bool} {failure : Failure}
    (hlaps : Laps changes started mode) (hphase : session.phase = .retrying .awaitSignal)
    (hattends : session.pipeline.Attends)
    (hinbox : session.pipeline.inbox = some (some failure))
    (houtbox : session.pipeline.outbox = none) (hidle : session.pipeline.task = .idle)
    (hcommons : commons.Rests (Laps.told changes (some confirmed))
      (Laps.begun started mode (some confirmed)))
    (h : session.pipeline.Stepped commons pipeline after) :
    Stands { session with pipeline } after := by
  cases h with
  | cancelled => exact .stopping hlaps (.inl hphase) hattends.reported houtbox .cancelled hcommons
  | took _ hopen htaken =>
      cases hinbox.symm.trans htaken
      cases hdecide : (session.pipeline.engine.decide (some failure) commons).2 with
      | error error =>
          rw [Engine.start_of_refused hopen hdecide]
          refine .stopping hlaps (.inl hphase) hattends.reported houtbox (.refused ?_ rfl)
            (hcommons.decide _ _)
          exact Engine.isTerminal_or_isExhausted_of_decide hdecide
      | ok signal =>
          obtain ⟨hrests, hcarries⟩ :=
            Engine.start_rests hattends.announces hcommons hopen hdecide
          have hstage := Engine.isRetrying_of_decide hdecide
          exact .carried (hlaps.lap confirmed hstage) (List.append_ne_nil_of_right_ne_nil _ nofun)
            hphase (hattends.carrying _ _ _) rfl houtbox rfl hcarries hrests
  | closed _ _ hempty => cases hinbox.symm.trans hempty
  | resumed hbusy | dropped hbusy | placed hbusy => cases hidle.symm.trans hbusy

/-- A retry that is announced is waited out and handed out, or comes to nothing. -/
theorem task_of_carried {pipeline : Pipeline} {signal : Signal} {progress : HandlingProgress}
    (hlaps : Laps changes started (.after signal.stage)) (hchanges : changes ≠ [])
    (hphase : session.phase = .retrying .awaitSignal) (hattends : session.pipeline.Attends)
    (hinbox : session.pipeline.inbox = none) (houtbox : session.pipeline.outbox = none)
    (htask : session.pipeline.task = .ofProgress progress)
    (hcarries : Engine.Carries (Entry.Serves signal) signal progress)
    (hcommons : commons.Rests changes started)
    (h : session.pipeline.Stepped commons pipeline after) :
    Stands { session with pipeline } after := by
  cases h with
  | cancelled =>
      exact .stopping hlaps (.inl hphase) hattends.reported houtbox .cancelled (hcommons.whole _)
  | took hidle | closed hidle =>
      exact absurd (htask.symm.trans hidle) (Pipeline.Task.ofProgress_ne_idle _)
  | resumed hhandling =>
      cases Pipeline.Task.eq_waiting_of_ofProgress (htask.symm.trans hhandling)
      obtain ⟨hrests, hlater⟩ := session.pipeline.engine.resume_rests hcarries.1 hcarries.2 hcommons
      exact .carried hlaps hchanges hphase (hattends.carrying _ _ _) hinbox houtbox rfl hlater
        hrests
  | dropped _ _ hleft => cases hattends.receiving.symm.trans hleft
  | placed hoffering =>
      cases Pipeline.Task.eq_finished_of_ofProgress (htask.symm.trans hoffering)
      cases hcarries
      exact .placed hlaps hphase ⟨hattends.carrying _ _ _, hinbox, rfl, .inl rfl⟩ hcommons

theorem Stands.task {pipeline : Pipeline} (h : Stands session commons)
    (hstep : session.pipeline.Stepped commons pipeline after) :
    Stands { session with pipeline } after := by
  have hrunning := Bool.eq_false_iff.1 hstep.isOver_eq_false
  cases h with
  | starting hlaps hphase hpipeline hcommons =>
      obtain ⟨hrest, rfl⟩ := atRest_stepped hpipeline hstep
      exact .starting hlaps hphase hrest hcommons
  | cycling hlaps hphase hpipeline hcommons =>
      obtain ⟨hrest, rfl⟩ := atRest_stepped hpipeline hstep
      exact .cycling hlaps hphase hrest hcommons
  | failed hlaps hphase hpipeline hcommons =>
      obtain ⟨hrest, rfl⟩ := atRest_stepped hpipeline hstep
      exact .failed hlaps hphase hrest hcommons
  | submitted hlaps hphase hattends hinbox houtbox htask hcommons =>
      exact task_of_submitted hlaps hphase hattends hinbox houtbox htask hcommons hstep
  | carried hlaps hchanges hphase hattends hinbox houtbox htask hcarries hcommons =>
      exact task_of_carried hlaps hchanges hphase hattends hinbox houtbox htask hcarries hcommons
        hstep
  | placed hlaps hphase hpipeline hcommons =>
      obtain ⟨hrest, rfl⟩ := atRest_stepped hpipeline hstep
      exact .placed hlaps hphase hrest hcommons
  | stopping _ _ _ _ hstops => exact absurd hstops.isOver hrunning
  | finished _ _ htask => exact absurd htask hrunning

/-! ### What others do -/

theorem Stands.of_commons (h : Stands session commons)
    (hrests : ∀ {changes started}, commons.Rests changes started → after.Rests changes started)
    (hruns : ∀ {changes started mode}, commons.Runs changes started mode →
      after.Runs changes started mode) : Stands session after := by
  cases h with
  | starting hlaps hphase hpipeline hcommons =>
      exact .starting hlaps hphase hpipeline (hrests hcommons)
  | cycling hlaps hphase hpipeline hcommons =>
      exact .cycling hlaps hphase hpipeline (hruns hcommons)
  | failed hlaps hphase hpipeline hcommons =>
      exact .failed hlaps hphase hpipeline (hrests hcommons)
  | submitted hlaps hphase hattends hinbox houtbox htask hcommons =>
      exact .submitted hlaps hphase hattends hinbox houtbox htask (hrests hcommons)
  | carried hlaps hchanges hphase hattends hinbox houtbox htask hcarries hcommons =>
      exact .carried hlaps hchanges hphase hattends hinbox houtbox htask hcarries
        (hrests hcommons)
  | placed hlaps hphase hpipeline hcommons =>
      exact .placed hlaps hphase hpipeline (hrests hcommons)
  | stopping hlaps hphase hreported houtbox hstops hcommons =>
      exact .stopping hlaps hphase hreported houtbox hstops (hrests hcommons)
  | finished hlaps hphase htask hending hcommons =>
      exact .finished hlaps hphase htask hending (hrests hcommons)

/-! ### The whole course -/

/-- The shared state when a session begins: no cycle is running, and the journal begins with it. -/
def fresh (commons : Commons) : Commons := { commons with cycle := none, journal := [] }

inductive Move where
  /-- The run takes a step. -/
  | run
  /-- The task of the pipeline takes a step. -/
  | task
  /-- Somebody else closes the session, or does what a hook or a connector can do. -/
  | others (deed : Deed)
  | wait (millis : Nat)

def move (course : Session × Commons) : Move → Option (Session × Commons)
  | .run => course.1.step course.2
  | .task => (course.1.pipeline.step course.2).map fun (pipeline, commons) =>
    ({ course.1 with pipeline }, commons)
  | .others deed => some (course.1, deed.perform course.2)
  | .wait millis => some (course.1, { course.2 with now := course.2.now + millis })

/-- One point of a course can be followed by another. -/
def Leads : Session × Commons → Session × Commons → Prop :=
  Relation.ReflTransGen fun before after => ∃ next, move before next = some after

/-- What every move preserves, a course preserves. -/
theorem Leads.keeps {course last : Session × Commons} (h : Leads course last)
    (holds : Session × Commons → Prop)
    (hmoved : ∀ {before after : Session × Commons} {next : Move},
      move before next = some after → holds before → holds after)
    (hcourse : holds course) : holds last := by
  induction h with
  | refl => exact hcourse
  | tail _ hlast ih =>
      obtain ⟨next, hmove⟩ := hlast
      exact hmoved hmove ih

/-- Moves in a row, if all of them are possible. -/
def follow (course : Session × Commons) (moves : List Move) : Option (Session × Commons) :=
  moves.foldlM move course

theorem follow_cons (course : Session × Commons) (next : Move) (moves : List Move) :
    follow course (next :: moves) = (move course next).bind fun after => follow after moves := rfl

theorem follow_of_move {course between last : Session × Commons} {next : Move} {moves : List Move}
    (hmove : move course next = some between) (hrest : follow between moves = some last) :
    follow course (next :: moves) = some last := by
  rw [follow_cons, hmove]
  exact hrest

theorem leads_of_follow {course last : Session × Commons} {moves : List Move}
    (h : follow course moves = some last) : Leads course last := reflTransGen_of_foldlM h

/-- A course that is followed to one point and from there to another, seen at both. -/
theorem leads_of_follow_follow {course : Session × Commons} {moves further : List Move}
    {view : Session × Commons → Session × Commons → Bool}
    (h : ((follow course moves).bind fun between =>
      (follow between further).map (view between)) = some true) :
    ∃ between last, Leads course between ∧ Leads between last ∧ view between last := by
  obtain ⟨between, hbetween, hmap⟩ := Option.bind_eq_some_iff.1 h
  obtain ⟨last, hlast, hview⟩ := Option.map_eq_some_iff.1 hmap
  exact ⟨between, last, leads_of_follow hbetween, leads_of_follow hlast, hview⟩

theorem leads_of_advance {steps : Nat} {course last : Session × Commons}
    (h : course.1.advance course.2 steps = last) : Leads course last := by
  induction steps generalizing course with
  | zero =>
      cases h
      exact .refl
  | succ steps ih =>
      rw [advance] at h
      split at h
      case h_1 next after hstep =>
          split at h
          · cases h
            exact .single ⟨.run, hstep⟩
          · exact .head ⟨.run, hstep⟩ (@ih (next, after) h)
      case h_2 =>
          cases h
          exact .refl

/-- The turns of the run are made of moves, and so are those of the task. -/
theorem leads_of_turn (session : Session) (commons : Commons) :
    Leads (session, commons) (session.turn commons) :=
  leads_of_advance rfl

theorem leads_of_goes {last : Pipeline × Commons}
    (h : Pipeline.Goes (session.pipeline, commons) last) :
    Leads (session, commons) ({ session with pipeline := last.1 }, last.2) := by
  induction h with
  | refl => exact .refl
  | tail _ hstep ih => exact ih.tail ⟨.task, Option.map_eq_some_iff.2 ⟨_, hstep, rfl⟩⟩

theorem leads_of_turnTask {last : Session × Commons}
    (h : session.turnTask commons = some last) : Leads (session, commons) last := by
  obtain ⟨after, hturn, rfl⟩ := Option.map_eq_some_iff.1 h
  exact leads_of_goes (Pipeline.goes_of_turn hturn)

theorem Stands.moved {course last : Session × Commons} {next : Move}
    (hmove : move course next = some last) (h : Stands course.1 course.2) :
    Stands last.1 last.2 := by
  cases next with
  | run => exact h.run hmove
  | task =>
      obtain ⟨⟨pipeline, commons⟩, hstep, rfl⟩ := Option.map_eq_some_iff.1 hmove
      exact h.task (Pipeline.stepped_of_step hstep)
  | others deed =>
      cases hmove
      exact h.of_commons (·.perform deed) (·.perform deed)
  | wait millis =>
      cases hmove
      exact h.of_commons (fun h => ⟨h.cycle, h.published, h.modes⟩) fun h => ⟨h.cycle, h.modes⟩

theorem Leads.stands {course last : Session × Commons} (h : Leads course last)
    (hstands : Stands course.1 course.2) : Stands last.1 last.2 := by
  refine h.keeps (fun point => Stands point.1 point.2) ?_ hstands
  intro before after move hmove hbefore
  exact hbefore.moved hmove

/-- What every move from a point of a course preserves, the course preserves. -/
theorem Leads.invariant {course last : Session × Commons} (h : Leads course last)
    (hstands : Stands course.1 course.2) (holds : Session × Commons → Prop)
    (hmoved : ∀ {before after : Session × Commons} {move : Move}, Stands before.1 before.2 →
      Session.move before move = some after → holds before → holds after)
    (hcourse : holds course) : holds last := by
  have hboth : Stands last.1 last.2 ∧ holds last := by
    refine h.keeps (fun point => Stands point.1 point.2 ∧ holds point) ?_ ⟨hstands, hcourse⟩
    rintro before after move hmove ⟨hbefore, hholds⟩
    exact ⟨hbefore.moved hmove, hmoved hbefore hmove hholds⟩
  exact hboth.2

theorem stands_initial (policy : Policy) {hooks : List Hook} (hhooks : .announcer ∉ hooks)
    (connector : Cycle → Routine (Except Failure Unit)) (commons : Commons) :
    Stands (initial policy hooks connector) (fresh commons) :=
  .starting .nil rfl ⟨⟨⟨_, rfl, by simpa using hhooks⟩, rfl, rfl, rfl⟩, rfl, rfl, .inl rfl⟩
    ⟨rfl, rfl, rfl⟩

/-- Published are whole laps, then at most one cycle without a retry after it, and a final disconnect
if the run has ended with an error; the modes of the cycles are those that the laps call for. -/
def Chronicled (session : Session) (commons : Commons) : Prop :=
  ∃ changes started mode last final, Laps changes started mode ∧
    commons.published = Laps.told changes last ++ final.toList ∧
    commons.modes = Laps.begun started mode last ∧
    Ending changes last session.phase.error? final

theorem chronicled_of_error (hlaps : Laps changes started mode) {last : Option Bool}
    (hpublished : commons.published = Laps.told changes last)
    (hmodes : commons.modes = Laps.begun started mode last)
    (herror : session.phase.error? = none) : Chronicled session commons :=
  ⟨changes, started, mode, last, none, hlaps, hpublished.trans (List.append_nil _).symm, hmodes,
    herror ▸ .quiet⟩

theorem Stands.in_laps (h : Stands session commons) : Chronicled session commons := by
  cases h with
  | starting hlaps hphase _ hcommons | carried hlaps _ hphase _ _ _ _ _ hcommons
  | placed hlaps hphase _ hcommons =>
      have hwhole := hcommons.whole .identify
      refine chronicled_of_error hlaps hwhole.published ?_ (hphase ▸ rfl)
      exact hcommons.modes.trans (List.append_nil _).symm
  | cycling hlaps hphase _ hcommons =>
      obtain ⟨confirmed, hrests⟩ := hcommons.rests
      exact chronicled_of_error hlaps hrests.published hrests.modes (hphase ▸ rfl)
  | failed hlaps hphase _ hcommons | submitted hlaps hphase _ _ _ _ hcommons =>
      exact chronicled_of_error hlaps hcommons.published hcommons.modes (hphase ▸ rfl)
  | stopping hlaps hphase _ _ _ hcommons =>
      refine chronicled_of_error hlaps hcommons.published hcommons.modes ?_
      rcases hphase with hphase | hphase <;> rw [hphase] <;> rfl
  | finished hlaps _ _ hending hcommons =>
      exact ⟨_, _, _, _, _, hlaps, hcommons.published, hcommons.modes, hending⟩

/-- The changes that a session publishes itself come in laps, whatever its connector, its hooks and
others do, and in whichever order steps are taken. -/
theorem Leads.chronicled {policy : Policy} {hooks : List Hook}
    {connector : Cycle → Routine (Except Failure Unit)} (hhooks : .announcer ∉ hooks)
    (h : Leads (initial policy hooks connector, fresh commons) (session, after)) :
    Chronicled session after :=
  (h.stands (stands_initial policy hhooks connector commons)).in_laps

/-- The first cycle is confirmed and then lost, the second is closed by the gateway, and the third
must not be followed by another. -/
def faltering (cycle : Cycle) : Routine (Except Failure Unit) :=
  match cycle.number with
  | 0 => .act .confirm (.done (.error (.ofMessage "lost")))
  | 1 => .done (.error (.closed ⟨4000, none⟩))
  | _ => .done (.error .partialDisconnect)

theorem chronicled_when_faltering :
    ∃ session after, Leads (initial .prompt [] faltering, fresh .initial) (session, after) ∧
      after.published.map Change.stage = [.connecting, .connected, .resuming, .connecting,
        .reconnecting, .connecting, .disconnected] ∧
      after.modes = [.identify, .resume, .identify] ∧
      session.phase.error? = some (.retry (.terminal .partialDisconnect)) ∧
      Chronicled session after := by
  have hmoves : (follow (initial .prompt [] faltering, fresh .initial)
      [.run, .run, .task, .task, .run, .run, .run, .task, .task, .run, .run, .run, .task, .run,
        .run]).map (fun course => decide (
          course.2.published.map Change.stage = [.connecting, .connected, .resuming, .connecting,
            .reconnecting, .connecting, .disconnected] ∧
          course.2.modes = [.identify, .resume, .identify] ∧
          course.1.phase.error? = some (.retry (.terminal .partialDisconnect)))) =
      some true := by
    decide +kernel
  obtain ⟨⟨session, after⟩, hfollow, hview⟩ := Option.map_eq_some_iff.1 hmoves
  obtain ⟨hpublished, hmodes, herror⟩ := of_decide_eq_true hview
  have hleads := leads_of_follow hfollow
  exact ⟨session, after, hleads, hpublished, hmodes, herror, hleads.chronicled List.not_mem_nil⟩

end Session

end Rejoin
