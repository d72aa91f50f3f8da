import Mathlib.Data.List.Forall2
import Rejoin.Proofs.Task.Steps

/-! Two tasks side by side, the second of which sees closes that keep the session while no cycle is
running, made by its own hooks or by others. Such closes show in the journal and in the slot, and
nowhere else: as long as hooks, delays and connectors do not look there, the two tasks take the same
steps. -/

namespace Rejoin

/-- The second list is the first with further items of some kind strewn in. -/
inductive Strewn {Item : Type} (extra : Item → Prop) : List Item → List Item → Prop where
  | nil : Strewn extra [] []
  | same {left right : List Item} (item : Item) (h : Strewn extra left right) :
      Strewn extra (item :: left) (item :: right)
  | more {left right : List Item} {item : Item} (hextra : extra item)
      (h : Strewn extra left right) : Strewn extra left (item :: right)

namespace Strewn

variable {Item Image : Type} {extra : Item → Prop} {left right left' right' : List Item}

theorem append (h : Strewn extra left right) (h' : Strewn extra left' right') :
    Strewn extra (left ++ left') (right ++ right') := by
  induction h with
  | nil => exact h'
  | same item _ ih => exact ih.same item
  | more hextra _ ih => exact ih.more hextra

theorem reverse (h : Strewn extra left right) : Strewn extra left.reverse right.reverse := by
  induction h with
  | nil => exact .nil
  | same item _ ih =>
      rw [List.reverse_cons, List.reverse_cons]
      exact ih.append (.same item .nil)
  | @more left _ _ hextra _ ih =>
      rw [List.reverse_cons, ← List.append_nil left.reverse]
      exact ih.append (.more hextra .nil)

/-- What a reader makes of the further items is strewn in with what it makes of the others. -/
theorem filterMap (h : Strewn extra left right) {reader : Item → Option Image}
    {strange : Image → Prop}
    (hreader : ∀ item image, extra item → reader item = some image → strange image) :
    Strewn strange (left.filterMap reader) (right.filterMap reader) := by
  induction h with
  | nil => exact .nil
  | same item _ ih =>
      rw [List.filterMap_cons, List.filterMap_cons]
      cases reader item with
      | none => exact ih
      | some image => exact ih.same image
  | @more _ _ item hextra _ ih =>
      rw [List.filterMap_cons]
      cases hitem : reader item with
      | none => exact ih
      | some image => exact ih.more (hreader item image hextra hitem)

theorem eq_of_not (h : Strewn extra left right) (hnone : ∀ item, ¬ extra item) : right = left := by
  induction h with
  | nil => rfl
  | same item _ ih => rw [ih]
  | more hextra => exact absurd hextra (hnone _)

end Strewn

theorem rel_map {Left Right Image Image' : Type} {related : Left → Right → Prop}
    {related' : Image → Image' → Prop} {left : Option Left} {right : Option Right}
    (h : Option.Rel related left right) {image : Left → Image} {image' : Right → Image'}
    (himage : ∀ left right, related left right → related' (image left) (image' right)) :
    Option.Rel related' (left.map image) (right.map image') := by
  cases h with
  | some h => exact .some (himage _ _ h)
  | none => exact .none

/-! ### What is shared -/

/-- The entries of a close that keeps the session. -/
inductive Entry.Keeps : Entry → Prop where
  | logged (disconnect : Disconnect) (status : CloseStatus) :
      Keeps (.logged ⟨.info, "closing gateway connection",
        [("behavior", disconnect.text), ("status", status.text)]⟩)
  | closing (disconnect : Disconnect) (status : CloseStatus) :
      Keeps (.closing (.suspended disconnect status))

namespace Commons

theorem close_of_keeps (commons : Commons) {disconnect : Disconnect}
    (hkeeps : disconnect.action.keepsSession) (status : CloseStatus) :
    commons.close disconnect status =
      { (commons.log ⟨.info, "closing gateway connection",
          [("behavior", disconnect.text), ("status", status.text)]⟩).record
            (.closing (.suspended disconnect status)) with
        slot := { cancelled := true, close := some status } } := by
  have hchange : Change.ofDisconnect disconnect status = .suspended disconnect status :=
    if_pos hkeeps
  rw [close, hchange]
  exact if_pos hkeeps

theorem close_of_ends (commons : Commons) {disconnect : Disconnect}
    (hends : disconnect.action.keepsSession = false) (status : CloseStatus) :
    commons.close disconnect status =
      { (commons.log ⟨.info, "closing gateway connection",
          [("behavior", disconnect.text), ("status", status.text)]⟩).record
            (.closing (.disconnected disconnect status)) with
        cancelled := true } := by
  have hchange : Change.ofDisconnect disconnect status = .disconnected disconnect status :=
    if_neg (Bool.eq_false_iff.1 hends)
  rw [close, hchange]
  exact if_neg (Bool.eq_false_iff.1 hends)

/-- The same shared state, but for closes that keep the session in the journal, and for the slot while
no cycle is running. If it is idle, none is running. -/
inductive Matches (idle : Bool) (commons : Commons) : Commons → Prop where
  | intro (slot : Cycle.Slot) (journal : List Entry) (hidle : idle → commons.cycle = none)
      (hslot : commons.cycle.isSome → slot = commons.slot)
      (hjournal : Strewn Entry.Keeps commons.journal journal) :
      Matches idle commons { commons with slot, journal }

namespace Matches

variable {idle : Bool} {commons seen : Commons}

theorem idles (h : commons.Matches idle seen) (hcycle : commons.cycle = none) :
    commons.Matches true seen := by
  obtain ⟨slot, journal, -, hslot, hjournal⟩ := h
  exact .intro slot journal (fun _ => hcycle) hslot hjournal

theorem forget (h : commons.Matches idle seen) : commons.Matches false seen := by
  obtain ⟨slot, journal, -, hslot, hjournal⟩ := h
  exact .intro slot journal nofun hslot hjournal

theorem record (h : commons.Matches idle seen) (entry : Entry) :
    (commons.record entry).Matches idle (seen.record entry) := by
  obtain ⟨slot, journal, hidle, hslot, hjournal⟩ := h
  exact .intro slot (entry :: journal) hidle hslot (hjournal.same entry)

theorem log (h : commons.Matches idle seen) (entry : LogEntry) :
    (commons.log entry).Matches idle (seen.log entry) := h.record (.logged entry)

theorem logAll (h : commons.Matches idle seen) (entries : List LogEntry) :
    (commons.logAll entries).Matches idle (seen.logAll entries) := by
  rw [Commons.logAll, Commons.logAll]
  induction entries generalizing commons seen with
  | nil => exact h
  | cons entry entries ih => exact ih (h.log entry)

/-- While no cycle is running, a close that keeps the session makes no difference. -/
theorem close_right (h : commons.Matches true seen) {disconnect : Disconnect}
    (hkeeps : disconnect.action.keepsSession) (status : CloseStatus) :
    commons.Matches true (seen.close disconnect status) := by
  obtain ⟨slot, journal, hidle, hslot, hjournal⟩ := h
  rw [close_of_keeps _ hkeeps]
  refine .intro _ _ hidle (fun hcycle => ?_)
    ((hjournal.more (.logged disconnect status)).more (.closing disconnect status))
  rw [hidle rfl] at hcycle
  cases hcycle

theorem close (h : commons.Matches idle seen) (disconnect : Disconnect) (status : CloseStatus) :
    (commons.close disconnect status).Matches idle (seen.close disconnect status) := by
  cases hkeeps : disconnect.action.keepsSession with
  | true =>
      rw [close_of_keeps _ hkeeps, close_of_keeps _ hkeeps]
      obtain ⟨slot, journal, hidle, -, hjournal⟩ := h
      exact .intro _ _ hidle (fun _ => rfl) ((hjournal.same _).same _)
  | false =>
      rw [close_of_ends _ hkeeps, close_of_ends _ hkeeps]
      obtain ⟨slot, journal, hidle, hslot, hjournal⟩ := h
      exact .intro slot _ hidle hslot ((hjournal.same _).same _)

theorem confirm (h : commons.Matches idle seen) : commons.confirm.Matches idle seen.confirm := by
  obtain ⟨slot, journal, hidle, hslot, hjournal⟩ := h
  rw [Commons.confirm, Commons.confirm]
  dsimp only
  split
  case h_1 cycle hcycle =>
      split
      · exact .intro slot journal hidle hslot hjournal
      · refine .intro slot _ (fun hidles => ?_) (fun _ => hslot ?_) ((hjournal.same _).same _)
        · cases hcycle.symm.trans (hidle hidles)
        · rw [hcycle]
          rfl
  case h_2 => exact .intro slot journal hidle hslot hjournal

theorem perform (h : commons.Matches idle seen) (deed : Deed) :
    (deed.perform commons).Matches idle (deed.perform seen) := by
  cases deed with
  | close disconnect status => exact h.close disconnect status
  | confirm => exact h.confirm
  | note made =>
      obtain ⟨slot, journal, hidle, hslot, hjournal⟩ := h
      exact .intro slot _ hidle hslot (hjournal.same _)
  | advanceCounter | resetCounter | cancel | countElsewhere =>
      obtain ⟨slot, journal, hidle, hslot, hjournal⟩ := h
      exact .intro slot journal hidle hslot hjournal

theorem count (h : commons.Matches idle seen) (tally : Tally) :
    Matches idle { commons with metrics := commons.metrics.count tally }
      { seen with metrics := seen.metrics.count tally } := by
  obtain ⟨slot, journal, hidle, hslot, hjournal⟩ := h
  exact .intro slot journal hidle hslot hjournal

theorem now_eq (h : commons.Matches idle seen) : seen.now = commons.now := by
  cases h
  rfl

theorem cancelled_eq (h : commons.Matches idle seen) : seen.cancelled = commons.cancelled := by
  cases h
  rfl

theorem counter_eq (h : commons.Matches idle seen) : seen.counter = commons.counter := by
  cases h
  rfl

theorem metrics_eq (h : commons.Matches idle seen) : seen.metrics = commons.metrics := by
  cases h
  rfl

/-- The slot tells of no close but those of the cycle that is running. -/
theorem abandoned_eq (h : commons.Matches idle seen) : seen.abandoned = commons.abandoned := by
  obtain ⟨slot, journal, -, hslot, -⟩ := h
  rw [abandoned, abandoned]
  dsimp only
  cases hcycle : commons.cycle with
  | none => rfl
  | some cycle =>
      rw [hslot]
      rw [hcycle]
      rfl

theorem isDue_eq (h : commons.Matches idle seen) (wake : Wake) :
    wake.isDue seen = wake.isDue commons := by
  cases wake with
  | time due => rw [Wake.isDue, Wake.isDue, h.now_eq]
  | abandonment => exact h.abandoned_eq

theorem history (h : commons.Matches idle seen) :
    Strewn Entry.Keeps commons.history seen.history := by
  obtain ⟨slot, journal, -, -, hjournal⟩ := h
  exact hjournal.reverse

/-- Whoever skips closes that keep the session reads the same. -/
theorem read_eq (h : commons.Matches idle seen) {Item : Type} {reader : Entry → Option Item}
    (hskips : ∀ entry, entry.Keeps → reader entry = none) : seen.read reader = commons.read reader := by
  have hstrewn : Strewn (fun _ => False) (commons.read reader) (seen.read reader) :=
    h.history.filterMap fun entry item hkeeps hitem => by
      cases (hskips entry hkeeps).symm.trans hitem
  exact hstrewn.eq_of_not fun _ => id

end Matches

end Commons

/-! ### Routines -/

/-- Routines that do the same, except that the second, if it is idle, also closes and keeps the
session. What they observe they observe alike. -/
inductive Routine.Matches {Result : Type} (idle : Bool) : Routine Result → Routine Result → Prop where
  | done (result : Result) : Matches idle (.done result) (.done result)
  | panic (message : String) : Matches idle (.panic message) (.panic message)
  | act {left right : Routine Result} (deed : Deed) (h : Matches idle left right) :
      Matches idle (.act deed left) (.act deed right)
  | closing {left right : Routine Result} {disconnect : Disconnect} (hidle : idle)
      (hkeeps : disconnect.action.keepsSession) (status : CloseStatus)
      (h : Matches idle left right) : Matches idle left (.act (.close disconnect status) right)
  | observe {left right : Commons → Routine Result}
      (h : ∀ commons seen, commons.Matches idle seen → Matches idle (left commons) (right seen)) :
      Matches idle (.observe left) (.observe right)
  | sleep {left right : Routine Result} (millis : Nat) (h : Matches idle left right) :
      Matches idle (.sleep millis left) (.sleep millis right)
  | untilAbandoned {left right : Routine Result} (h : Matches idle left right) :
      Matches idle (.untilAbandoned left) (.untilAbandoned right)

/-- As far as each other. -/
inductive Progress.Matches {Waiting Result : Type} (waits : Waiting → Waiting → Prop) :
    Progress Waiting Result → Progress Waiting Result → Prop where
  | finished (result : Result) : Matches waits (.finished result) (.finished result)
  | panicked (message : String) : Matches waits (.panicked message) (.panicked message)
  | waiting {left right : Waiting} (h : waits left right) :
      Matches waits (.waiting left) (.waiting right)

/-- As far as each other, with the same shared state. -/
structure Progress.Agrees {Waiting Result : Type} (idle : Bool) (waits : Waiting → Waiting → Prop)
    (left right : Commons × Progress Waiting Result) : Prop where
  commons : left.1.Matches idle right.1
  progress : left.2.Matches waits right.2

inductive Suspended.Matches {Result : Type} (idle : Bool) (left : Suspended Result) :
    Suspended Result → Prop where
  | intro {next : Routine Result} (hnext : left.next.Matches idle next) :
      Matches idle left { left with next }

section Routine

variable {Result : Type} {idle : Bool} {commons seen : Commons}

theorem Routine.Matches.poll {left right : Routine Result} (h : left.Matches idle right)
    (hcommons : commons.Matches idle seen) :
    Progress.Agrees idle (Suspended.Matches idle) (left.poll commons) (right.poll seen) := by
  induction h generalizing commons seen with
  | done result => exact ⟨hcommons, .finished result⟩
  | panic message => exact ⟨hcommons, .panicked message⟩
  | act deed _ ih => exact ih (hcommons.perform deed)
  | closing hidle hkeeps status _ ih =>
      -- Only the second routine does something here.
      cases hidle
      exact ih (hcommons.close_right hkeeps status)
  | observe _ ih => exact ih _ _ hcommons hcommons
  | @sleep left right millis h ih =>
      by_cases hzero : millis = 0
      · rw [Routine.poll, if_pos hzero, Routine.poll, if_pos hzero]
        exact ih hcommons
      · rw [Routine.poll, if_neg hzero, Routine.poll, if_neg hzero, Commons.after, Commons.after,
          hcommons.now_eq]
        exact ⟨hcommons, .waiting (.intro h)⟩
  | @untilAbandoned left right h ih =>
      rw [Routine.poll, Routine.poll, hcommons.abandoned_eq]
      split
      · exact ih hcommons
      · exact ⟨hcommons, .waiting (.intro h)⟩

theorem Suspended.Matches.resume {left right : Suspended Result} (h : left.Matches idle right)
    (hcommons : commons.Matches idle seen) :
    Progress.Agrees idle (Suspended.Matches idle) (left.resume commons) (right.resume seen) := by
  rw [Suspended.resume, Suspended.resume, ← hcommons.isDue_eq]
  obtain ⟨hnext⟩ := h
  dsimp only
  split
  · exact hnext.poll hcommons
  · exact ⟨hcommons, .waiting (.intro hnext)⟩

end Routine

/-! ### Hooks -/

inductive Hook.Matches : Hook → Hook → Prop where
  | announcer : Matches .announcer .announcer
  | meter (own : Bool) : Matches (.meter own) (.meter own)
  | custom (name : String) {left right : Signal → Routine (Except HookError Unit)}
      (h : ∀ signal, (left signal).Matches true (right signal)) :
      Matches (.custom name left) (.custom name right)

inductive ChainWait.Matches (left : ChainWait) : ChainWait → Prop where
  | intro {current : Suspended (Except HookError Unit)} {remaining : List Hook}
      (hcurrent : left.current.Matches true current)
      (hremaining : List.Forall₂ Hook.Matches left.remaining remaining) :
      Matches left { left with current, remaining }

inductive Handling.Matches : Handling → Handling → Prop where
  | hooks (signal : Signal) {left right : ChainWait} (h : left.Matches right) :
      Matches (.hooks signal left) (.hooks signal right)
  | delay (signal : Signal) {left right : Suspended Unit} (h : left.Matches true right) :
      Matches (.delay signal left) (.delay signal right)

theorem Handling.Matches.isDue_eq {left right : Handling} (h : left.Matches right) {idle : Bool}
    {commons seen : Commons} (hcommons : commons.Matches idle seen) :
    right.isDue seen = left.isDue commons := by
  have hwake : right.wake = left.wake := by
    cases h with
    | hooks signal h =>
        obtain ⟨⟨-⟩, -⟩ := h
        rfl
    | delay signal h =>
        obtain ⟨-⟩ := h
        rfl
  rw [isDue, isDue, hcommons.cancelled_eq, hcommons.isDue_eq, hwake]

/-- Engines of the same policy with matching hooks, whose delays do not look at closes either. -/
inductive Engine.Matches (left : Engine) : Engine → Prop where
  | intro {hooks : List Hook}
      (hdelays : ∀ delay, (left.policy.scheduler.sleep delay).Matches true
        (left.policy.scheduler.sleep delay))
      (hhooks : List.Forall₂ Hook.Matches left.hooks hooks) : Matches left { left with hooks }

section Chain

variable {commons seen : Commons} {signal : Signal}

namespace Hook

theorem Matches.label_eq {left right : Hook} (h : left.Matches right) :
    right.label = left.label := by
  cases h <;> rfl

theorem Matches.start {left right : Hook} (h : left.Matches right)
    (hcommons : commons.Matches true seen) :
    Progress.Agrees true (Suspended.Matches true) (left.start signal commons)
      (right.start signal seen) := by
  cases h with
  | announcer => exact ⟨hcommons.record _, .finished _⟩
  | meter own =>
      cases own with
      | true => exact ⟨hcommons.count _, .finished _⟩
      | false => exact ⟨hcommons.perform (.countElsewhere signal), .finished _⟩
  | custom name h => exact (h signal).poll hcommons

theorem proceed_agrees (label : Label) {remaining remaining' : List Hook}
    (hremaining : List.Forall₂ Matches remaining remaining')
    {further further' : Commons → Commons × ChainProgress}
    (hfurther : ∀ {commons seen}, Commons.Matches true commons seen →
      Progress.Agrees true ChainWait.Matches (further commons) (further' seen))
    {left right : Commons × RoutineProgress (Except HookError Unit)}
    (h : Progress.Agrees true (Suspended.Matches true) left right) :
    Progress.Agrees true ChainWait.Matches (proceed label remaining further left)
      (proceed label remaining' further' right) := by
  obtain ⟨commons, progress⟩ := left
  obtain ⟨seen, progress'⟩ := right
  obtain ⟨hcommons, hprogress⟩ := h
  cases hprogress with
  | finished result =>
      rcases result with error | ⟨⟨⟩⟩
      · exact ⟨hcommons.record _, .finished _⟩
      · exact hfurther (hcommons.record _)
  | panicked message => exact ⟨hcommons, .panicked message⟩
  | waiting hcurrent => exact ⟨hcommons, .waiting (.intro hcurrent hremaining)⟩

theorem runAll_agrees {left right : List Hook} (h : List.Forall₂ Matches left right)
    (hcommons : commons.Matches true seen) :
    Progress.Agrees true ChainWait.Matches (runAll signal left commons)
      (runAll signal right seen) := by
  induction h generalizing commons seen with
  | nil => exact ⟨hcommons, .finished _⟩
  | @cons hook hook' left right hhook hremaining ih =>
      rw [runAll, runAll, hhook.label_eq, hcommons.now_eq]
      exact proceed_agrees hook.label hremaining ih (hhook.start (hcommons.record _))

end Hook

theorem ChainWait.Matches.resume {left right : ChainWait} (h : left.Matches right)
    (hcommons : commons.Matches true seen) :
    Progress.Agrees true ChainWait.Matches (left.resume signal commons)
      (right.resume signal seen) := by
  obtain ⟨hcurrent, hremaining⟩ := h
  exact Hook.proceed_agrees left.hook hremaining (Hook.runAll_agrees hremaining)
    (hcurrent.resume hcommons)

end Chain

/-! ### The engine -/

namespace Engine.Matches

variable {left right : Engine} {commons seen : Commons} {signal : Signal}

theorem hooks (h : left.Matches right) : List.Forall₂ Hook.Matches left.hooks right.hooks := by
  obtain ⟨-, hhooks⟩ := h
  exact hhooks

theorem afterDelay {left right : Commons × RoutineProgress Unit}
    (h : Progress.Agrees true (Suspended.Matches true) left right) :
    Progress.Agrees true Handling.Matches (Engine.afterDelay signal left)
      (Engine.afterDelay signal right) := by
  obtain ⟨commons, progress⟩ := left
  obtain ⟨seen, progress'⟩ := right
  obtain ⟨hcommons, hprogress⟩ := h
  cases hprogress with
  | finished => exact ⟨hcommons, .finished _⟩
  | panicked message => exact ⟨hcommons, .panicked message⟩
  | waiting hcurrent => exact ⟨hcommons, .waiting (.delay signal hcurrent)⟩

theorem startDelay (h : left.Matches right) (hcommons : commons.Matches true seen) :
    Progress.Agrees true Handling.Matches (left.startDelay signal commons)
      (right.startDelay signal seen) := by
  obtain ⟨hdelays, -⟩ := h
  rw [Engine.startDelay, Engine.startDelay, hcommons.cancelled_eq]
  split
  · exact ⟨hcommons, .finished _⟩
  · exact afterDelay ((hdelays signal.backoff).poll (hcommons.record _))

theorem afterHooks (h : left.Matches right) {chained chained' : Commons × ChainProgress}
    (hchained : Progress.Agrees true ChainWait.Matches chained chained') :
    Progress.Agrees true Handling.Matches (left.afterHooks signal chained)
      (right.afterHooks signal chained') := by
  obtain ⟨commons, progress⟩ := chained
  obtain ⟨seen, progress'⟩ := chained'
  obtain ⟨hcommons, hprogress⟩ := hchained
  cases hprogress with
  | finished result =>
      rcases result with error | ⟨⟨⟩⟩
      · exact ⟨hcommons.log _, .finished _⟩
      · exact h.startDelay hcommons
  | panicked message => exact ⟨hcommons, .panicked message⟩
  | waiting hwait => exact ⟨hcommons, .waiting (.hooks signal hwait)⟩

theorem decide (h : left.Matches right) (hcommons : commons.Matches true seen)
    (cause : Option Failure) :
    (left.decide cause commons).1.Matches true (right.decide cause seen).1 ∧
      (right.decide cause seen).2 = (left.decide cause commons).2 := by
  obtain ⟨-, -⟩ := h
  obtain ⟨slot, journal, hidle, hslot, hjournal⟩ := hcommons
  refine ⟨?_, rfl⟩
  rw [decide_fst_eq, decide_fst_eq]
  refine Commons.Matches.record (Commons.Matches.logAll ?_ _) _
  exact .intro slot journal hidle hslot hjournal

theorem start (h : left.Matches right) (hcommons : commons.Matches true seen)
    (cause : Option Failure) :
    Progress.Agrees true Handling.Matches (left.start cause commons) (right.start cause seen) := by
  cases hcancelled : commons.cancelled with
  | true =>
      rw [start_of_cancelled hcancelled, start_of_cancelled (hcommons.cancelled_eq.trans hcancelled)]
      exact ⟨hcommons, .finished _⟩
  | false =>
      have hopen := hcommons.cancelled_eq.trans hcancelled
      obtain ⟨hdecided, houtcome⟩ := h.decide hcommons cause
      cases hdecide : (left.decide cause commons).2 with
      | error error =>
          rw [start_of_refused hcancelled hdecide, start_of_refused hopen (houtcome.trans hdecide)]
          exact ⟨hdecided, .finished _⟩
      | ok signal =>
          rw [start_of_scheduled hcancelled hdecide,
            start_of_scheduled hopen (houtcome.trans hdecide)]
          exact h.afterHooks (Hook.runAll_agrees h.hooks hdecided)

theorem resume (h : left.Matches right) {handling handling' : Handling}
    (hhandling : handling.Matches handling') (hcommons : commons.Matches true seen) :
    Progress.Agrees true Handling.Matches (left.resume handling commons)
      (right.resume handling' seen) := by
  rw [resume.eq_def, resume.eq_def, hcommons.cancelled_eq]
  split
  · exact ⟨hcommons, .finished _⟩
  · cases hhandling with
    | hooks signal hwait => exact h.afterHooks (hwait.resume hcommons)
    | delay signal hcurrent => exact afterDelay (hcurrent.resume hcommons)

end Engine.Matches

/-! ### The pipeline -/

inductive Pipeline.Task.Matches : Task → Task → Prop where
  | idle : Matches .idle .idle
  | handling {left right : Handling} (h : left.Matches right) :
      Matches (.handling left) (.handling right)
  | offering (signal : Signal) : Matches (.offering signal) (.offering signal)
  | ended (result : Except RetryError Unit) : Matches (.ended result) (.ended result)
  | panicked (message : String) : Matches (.panicked message) (.panicked message)
  | aborted : Matches .aborted .aborted

inductive Pipeline.Matches (left : Pipeline) : Pipeline → Prop where
  | intro {engine : Engine} {task : Task} (hengine : left.engine.Matches engine)
      (htask : left.task.Matches task) : Matches left { left with engine, task }

namespace Pipeline

variable {left right : Pipeline} {commons seen : Commons}

theorem Task.Matches.isOver_eq {left right : Task} (h : left.Matches right) :
    right.isOver = left.isOver := by
  cases h <;> rfl

theorem Task.ofProgress_matches {left right : HandlingProgress}
    (h : Progress.Matches Handling.Matches left right) :
    Task.Matches (.ofProgress left) (.ofProgress right) := by
  cases h with
  | finished result =>
      cases result with
      | error error => exact .ended _
      | ok signal => exact .offering signal
  | panicked message => exact .panicked message
  | waiting h => exact .handling h

theorem Matches.abort (h : left.Matches right) : left.abort.Matches right.abort := by
  obtain ⟨hengine, htask⟩ := h
  rw [Pipeline.abort, Pipeline.abort]
  dsimp only
  rw [htask.isOver_eq]
  split
  · exact .intro hengine htask
  · exact .intro hengine .aborted

/-- A step of a task is one of the other, if no cycle is running while the engine is at work. -/
theorem Matches.step (h : left.Matches right) (hcommons : commons.Matches false seen)
    (hidle : commons.cycle = none ∨
      left.inbox = none ∧ ∀ handling, left.task ≠ .handling handling) :
    Option.Rel (fun next next' => next.1.Matches next'.1 ∧ next.2.Matches false next'.2)
      (left.step commons) (right.step seen) := by
  obtain ⟨hengine, htask⟩ := h
  rw [Pipeline.step.eq_def, Pipeline.step.eq_def, hcommons.cancelled_eq]
  dsimp only
  generalize htasked : left.task = task at htask
  cases htask with
  | idle =>
      dsimp only
      split
      · exact .some ⟨.intro hengine (.ended _), hcommons⟩
      · cases hinbox : left.inbox with
        | none =>
            dsimp only
            split
            · exact .none
            · exact .some ⟨.intro hengine (.ended _), hcommons⟩
        | some cause =>
            -- The engine runs hooks, which may differ, so no cycle must be running.
            rcases hidle with hcycle | ⟨hnone, -⟩
            · obtain ⟨hafter, hprogress⟩ := hengine.start (hcommons.idles hcycle) cause
              exact .some ⟨.intro hengine (Task.ofProgress_matches hprogress), hafter.forget⟩
            · cases hinbox.symm.trans hnone
  | @handling handling handling' hhandling =>
      dsimp only
      rw [hhandling.isDue_eq hcommons]
      split
      · rcases hidle with hcycle | ⟨-, hnot⟩
        · obtain ⟨hafter, hprogress⟩ := hengine.resume hhandling (hcommons.idles hcycle)
          exact .some ⟨.intro hengine (Task.ofProgress_matches hprogress), hafter.forget⟩
        · exact absurd htasked (hnot handling)
      · exact .none
  | offering signal =>
      dsimp only
      split
      · exact .some ⟨.intro hengine (.ended _), hcommons⟩
      · split
        · exact .some ⟨.intro hengine (.ended _), hcommons.log _⟩
        · split
          · exact .some ⟨.intro hengine .idle, hcommons⟩
          · exact .none
  | ended | panicked | aborted => exact .none

end Pipeline

namespace Call

variable {left right : Pipeline}

/-- The same result, with pipelines that still match. -/
def Agree {Result : Type} (left right : Pipeline × Result) : Prop :=
  left.1.Matches right.1 ∧ right.2 = left.2

theorem handIn_agree (h : left.Matches right) (failure : Option Failure) :
    Option.Rel Agree (handIn failure left) (handIn failure right) := by
  obtain ⟨hengine, htask⟩ := h
  rw [handIn, handIn]
  dsimp only
  rw [htask.isOver_eq]
  split
  · exact .some ⟨.intro hengine htask, rfl⟩
  · split
    · exact .some ⟨.intro hengine htask, rfl⟩
    · exact .none

theorem takeOut_agree (h : left.Matches right) :
    Option.Rel Agree (takeOut left) (takeOut right) := by
  obtain ⟨hengine, htask⟩ := h
  rw [takeOut, takeOut]
  dsimp only
  rw [htask.isOver_eq]
  split
  · exact .some ⟨.intro hengine htask, rfl⟩
  · split
    · exact .some ⟨.intro hengine htask, rfl⟩
    · exact .none

theorem report_agree (h : left.Matches right) (retrying : Bool) :
    Option.Rel Agree (report retrying left) (report retrying right) := by
  obtain ⟨hengine, htask⟩ := h
  rw [report, report]
  dsimp only
  split
  · exact .some ⟨.intro hengine htask, rfl⟩
  · generalize left.task = task at htask
    cases htask with
    | idle | handling | offering => exact .none
    | ended result => exact .some ⟨.intro hengine (.ended result), rfl⟩
    | panicked message => exact .some ⟨.intro hengine (.panicked message), rfl⟩
    | aborted => exact .some ⟨.intro hengine .aborted, rfl⟩

/-- A step of a call is one of the other, with the same result. -/
theorem step_agree (h : left.Matches right) (call : Call) :
    Option.Rel Agree (call.step left) (call.step right) := by
  have hshut : ∀ {left right : Pipeline}, left.Matches right → left.shut.Matches right.shut := by
    rintro left _ ⟨hengine, htask⟩
    exact .intro hengine htask
  cases call with
  | submit failure =>
      refine rel_map (handIn_agree h failure) ?_
      rintro ⟨next, _⟩ ⟨next', accepted⟩ ⟨hnext, rfl⟩
      exact ⟨hnext, rfl⟩
  | proceed =>
      refine rel_map (takeOut_agree h) ?_
      rintro ⟨next, _⟩ ⟨next', signal⟩ ⟨hnext, rfl⟩
      exact ⟨hnext, rfl⟩
  | retry failure =>
      refine rel_map (handIn_agree h failure) ?_
      rintro ⟨next, _⟩ ⟨next', accepted⟩ ⟨hnext, rfl⟩
      cases accepted with
      | true => exact ⟨hnext, rfl⟩
      | false => exact ⟨hshut hnext, rfl⟩
  | awaitSignal =>
      refine rel_map (takeOut_agree h) ?_
      rintro ⟨next, _⟩ ⟨next', signal⟩ ⟨hnext, rfl⟩
      cases signal with
      | some signal => exact ⟨hnext, rfl⟩
      | none => exact ⟨hshut hnext, rfl⟩
  | join => exact .some ⟨hshut h, rfl⟩
  | awaitEnd retrying => exact report_agree h retrying

end Call

end Rejoin
