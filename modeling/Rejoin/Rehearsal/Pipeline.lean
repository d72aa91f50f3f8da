import Rejoin.Rehearsal.Engine
import Rejoin.Task.Pipeline

/-! A pipeline of scripted hooks and its owner, run in virtual time. -/

namespace Rejoin

namespace Rehearsal

inductive PipelineStep where
  /-- A call that is given up after so many milliseconds. -/
  | call (call : Call) (within : Nat)
  | advance (millis : Nat)
  | cancel
  | reset
  | look
  | drop

inductive PipelineReply where
  | none
  | replied (reply : Reply)
  | timeout
  | stuck

structure PipelineRun where
  pipeline : Pipeline
  commons : Commons := {}
  /-- Whether the owner has given the pipeline away. -/
  gone : Bool := false

namespace PipelineRun

/-- A turn of the task. -/
def turnTask (run : PipelineRun) : Option PipelineRun :=
  (run.pipeline.turn run.commons).map fun (pipeline, commons) => { run with pipeline, commons }

def settled (run : PipelineRun) : PipelineRun := run.turnTask.getD run

/-- The turns that are enough for a call: each ends a wait of one of the failures on their way, or
is followed by one that does. -/
def callTurns (run : PipelineRun) : Nat := 8 * (run.pipeline.engine.hooks.length + 8)

/-- Gives a call up. A join takes the pipeline with it and leaves the task to itself. -/
def giveUp (run : PipelineRun) : Call → PipelineRun
  | .join | .awaitEnd false => { run with pipeline := run.pipeline.detach, gone := true }
  | _ => run

/-- Carries a call on to its reply. -/
def runCall (run : PipelineRun) (deadline : Nat) (call : Call) :
    Nat → PipelineRun × PipelineReply
  | 0 => (run, .stuck)
  | turns + 1 =>
    match call.step run.pipeline with
    | some (pipeline, .inr reply) => ({ run with pipeline }, .replied reply)
    | some (pipeline, .inl call) => { run with pipeline }.runCall deadline call turns
    | none =>
      if deadline ≤ run.commons.now then (run.giveUp call, .timeout)
      else
        match run.turnTask with
        | some run => run.runCall deadline call turns
        | none =>
          let time := min deadline (run.pipeline.wakeTime?.getD deadline)
          { run with commons := run.commons.wakeAt time }.runCall deadline call turns

/-- Lets time pass. -/
def sleep (run : PipelineRun) (target : Nat) : Nat → PipelineRun
  | 0 => run
  | turns + 1 =>
    let run := run.settled
    match run.pipeline.wakeTime? with
    | some time =>
      if time ≤ target then { run with commons := run.commons.wakeAt time }.sleep target turns
      else { run with commons := run.commons.wakeAt target }
    | none => { run with commons := run.commons.wakeAt target }

def step (run : PipelineRun) : PipelineStep → PipelineRun × PipelineReply
  | .call call within =>
    let (run, reply) := run.runCall (run.commons.after within) call run.callTurns
    match call with
    | .join => ({ run with gone := true }, reply)
    | _ => (run, reply)
  | .advance millis => (run.sleep (run.commons.after millis) run.callTurns, .none)
  | .cancel => ({ run with commons.cancelled := true }, .none)
  | .reset => ({ run with commons.counter := run.commons.counter.reset }, .none)
  | .look => (run, .none)
  | .drop => ({ run with pipeline := run.pipeline.abort, gone := true }, .none)

/-- The outcome of a step, with what shows after it once everybody waits. -/
structure Report where
  reply : PipelineReply
  attempts : UInt64
  finished : Option Bool
  time : Nat

def steps (run : PipelineRun) : List PipelineStep → PipelineRun × List Report
  | [] => (run, [])
  | step :: steps =>
    let (run, reply) := run.step step
    let run := run.settled
    let finished := if run.gone then none else some run.pipeline.isFinished
    let (last, reports) := run.steps steps
    (last, ⟨reply, run.commons.counter.attempts, finished, run.commons.now⟩ :: reports)

end PipelineRun

end Rehearsal

end Rejoin
