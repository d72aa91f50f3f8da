import Rejoin.Rehearsal.Chain
import Rejoin.Session.Run
import Rejoin.Session.Subscription

/-! A session of scripted hooks and a scripted connector, run in virtual time with deliberate closes
at given times. -/

namespace Rejoin

namespace Rehearsal

/-- A deliberate close and its time. -/
structure TimedClose where
  time : Nat
  disconnect : Disconnect
  status : CloseStatus

inductive SessionReply where
  | ended (result : Except SessionError Unit)
  | panicked (message : String)
  | timeout
  | stuck

structure SessionRun where
  session : Session
  commons : Commons := {}
  closes : List TimedClose

namespace SessionRun

/-- Makes the closes that are due, in order. -/
def makeCloses (run : SessionRun) : SessionRun :=
  let (due, later) := run.closes.partition fun close => close.time ≤ run.commons.now
  { run with
    closes := later
    commons := due.foldl (fun commons close => commons.close close.disconnect close.status)
      run.commons }

/-- What the others do while the run waits, if there is anything to do: closes come first, and then
the pipeline's task has its turn. -/
def turnOthers (run : SessionRun) : Option SessionRun :=
  let closed := run.makeCloses
  match closed.session.turnTask closed.commons with
  | some (session, commons) => some { closed with session, commons }
  | none => if closed.closes.length < run.closes.length then some closed else none

/-- The next time at which anything goes on by itself. -/
def nextTime (run : SessionRun) (deadline : Nat) : Nat :=
  let times := run.session.wakeTime?.toList ++ run.closes.map TimedClose.time
  (times.min?.map (min deadline)).getD deadline

/-- Carries the session on to its end. The run and the others take turns; the clock moves once
nobody can go on. -/
def runTo (run : SessionRun) (deadline : Nat) : Nat → SessionRun × SessionReply
  | 0 => (run, .stuck)
  | turns + 1 =>
    let (session, commons) := run.session.turn run.commons
    let run := { run with session, commons }
    match session.phase with
    | .ended result => (run, .ended result)
    | .panicked message => (run, .panicked message)
    | _ =>
      if deadline ≤ commons.now then (run, .timeout)
      else
        match run.turnOthers with
        | some run => run.runTo deadline turns
        | none =>
          if session.canGoOn commons then run.runTo deadline turns
          else { run with commons := commons.wakeAt (run.nextTime deadline) }.runTo deadline turns

end SessionRun

structure SessionPlan where
  script : List (List Cue)
  policy : Policy
  hooks : List PlannedHook
  before : List (Disconnect × CloseStatus)
  closes : List TimedClose
  within : Nat

namespace SessionPlan

def session (plan : SessionPlan) : Session :=
  .initial plan.policy (plan.hooks.map (PlannedHook.hook .session)) (connector plan.script)

/-- What is shared once the closes before the run are made. -/
def commons (plan : SessionPlan) : Commons :=
  plan.before.foldl (fun commons (disconnect, status) => commons.close disconnect status) {}

/-- The turns that are enough: every cue, close and wait takes a bounded number of them. -/
def turns (plan : SessionPlan) : Nat :=
  let cues := plan.script.foldl (fun count cues => count + cues.length) 0
  64 + 4 * (cues + plan.closes.length + (plan.script.length + 2) * (plan.hooks.length + 12))

/-- Plays a session through, beginning after the closes before it. Closes that are due when it is
over are still made. -/
def play (plan : SessionPlan) : SessionRun × SessionReply :=
  let start : SessionRun := ⟨plan.session, plan.commons, plan.closes⟩
  let (run, reply) := start.runTo (plan.commons.after plan.within) plan.turns
  (run.makeCloses, reply)

/-- What was published after the closes before the run. -/
def lateChanges (plan : SessionPlan) (run : SessionRun) : List Change :=
  run.commons.changes.drop plan.commons.changes.length

end SessionPlan

/-! ### What a journal shows -/

/-- A cycle that was started, and the notes its connector made. -/
structure CycleReport where
  cycle : Cycle
  time : Nat
  trace : List (String × Bool × Bool × Bool × Nat) := []

/-- The cycles of a history with what was noted in each. -/
def cycleReports (history : List Entry) : List CycleReport :=
  let reports := history.foldl (fun reports entry =>
    match entry, reports with
    | .cycleStarted cycle time, _ => { cycle, time : CycleReport } :: reports
    | .noted (.stepped step confirmed abandoned closed) time, last :: earlier =>
      { last with trace := (step, confirmed, abandoned, closed, time) :: last.trace } :: earlier
    | _, _ => reports) []
  (reports.map fun report => { report with trace := report.trace.reverse }).reverse

inductive HookReport where
  | started (hook : String) (signal : Signal) (time : Nat)
  | woke (hook : String) (time : Nat)

/-- What named hooks did in a history. -/
def hookReports (history : List Entry) : List HookReport :=
  history.filterMap fun
    | .hookStarted (.named hook) signal time => some (.started hook signal time)
    | .noted (.woke hook) time => some (.woke hook time)
    | _ => none

/-- The delays that a scheduler recorded. -/
def recordedDelays (scheduler : Scheduler) (history : List Entry) : List Duration :=
  if scheduler.isRecording then
    history.filterMap fun
      | .delayAsked delay => some delay
      | _ => none
  else []

end Rehearsal

end Rejoin
