import Rejoin.Task.Routine

/-! Schedulers: what waits out the delay between a decision and the next attempt. -/

namespace Rejoin

structure Scheduler where
  name : String
  sleep : Duration → Routine Unit

namespace Scheduler

/-- Waits on the clock, in whole milliseconds and never too short. -/
def timer : Scheduler where
  name := "TokioScheduler"
  sleep delay := .sleep delay.millisUp (.done ())

/-- Never waits; what it was asked for is in the journal. -/
def recording : Scheduler where
  name := "RecordingScheduler"
  sleep _ := .done ()

def isRecording (scheduler : Scheduler) : Bool := scheduler.name = recording.name

end Scheduler

end Rejoin
