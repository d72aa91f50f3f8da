import Rejoin.Proofs.Session.Trails
import Rejoin.Proofs.Task.Strewn

/-! Cycles are kept apart: no close made in one is the failure of another, and closes that keep the
session while no cycle is running make no difference to anything that comes later. For the second,
two sessions take their steps side by side, and only the second of them sees such closes. -/

namespace Rejoin

/-- The cycle that an entry tells the start of, as it was then. -/
def Entry.started? : Entry → Option Cycle
  | .cycleStarted cycle _ => some cycle
  | _ => none

namespace Commons

/-- The cycles started so far, as they were at their start, oldest first. -/
def started (commons : Commons) : List Cycle := commons.read Entry.started?

namespace Matches

variable {idle : Bool} {commons seen : Commons}

/-- The slot tells the same of the cycle that is running. -/
theorem slot_eq (h : commons.Matches idle seen) (hcycle : commons.cycle.isSome) :
    seen.slot = commons.slot := by
  obtain ⟨slot, journal, -, hslot, -⟩ := h
  exact hslot hcycle

/-- Once a cycle is over, what the slot holds makes no difference. -/
theorem leave (h : commons.Matches idle seen) :
    Matches true { commons with cycle := none } { seen with cycle := none } := by
  obtain ⟨slot, journal, -, -, hjournal⟩ := h
  exact .intro slot journal (fun _ => rfl) nofun hjournal

/-- Whatever the slot held, a cycle begins with an empty one. -/
theorem opened (h : commons.Matches idle seen) (cycle : Cycle) :
    (commons.opened cycle).Matches false (seen.opened cycle) := by
  obtain ⟨slot, journal, -, -, hjournal⟩ := h
  have hbegun : Matches false { commons with cycle := some cycle, slot := {} }
      { commons with cycle := some cycle, slot := {}, journal } :=
    .intro {} journal nofun (fun _ => rfl) hjournal
  exact ((hbegun.record _).log _).record _

theorem takeClose (h : commons.Matches idle seen) (hcycle : commons.cycle.isSome) :
    commons.takeClose.Matches idle seen.takeClose := by
  obtain ⟨slot, journal, hidle, hslot, hjournal⟩ := h
  rw [Commons.takeClose, Commons.takeClose, hslot hcycle]
  exact .intro _ journal hidle (fun _ => rfl) hjournal

theorem wait (h : commons.Matches idle seen) (millis : Nat) :
    Matches idle { commons with now := commons.now + millis }
      { seen with now := seen.now + millis } := by
  obtain ⟨slot, journal, hidle, hslot, hjournal⟩ := h
  exact .intro slot journal hidle hslot hjournal

/-- All that closes which keep the session publish is that the session is suspended. -/
theorem changes (h : commons.Matches idle seen) :
    Strewn (fun change => change.stage = .suspended) commons.changes seen.changes := by
  refine h.history.filterMap fun entry change hkeeps hchange => ?_
  cases hkeeps with
  | logged => cases hchange
  | closing =>
      cases hchange
      rfl

end Matches

/-- A decision has its place in the history. -/
theorem exists_decided {commons : Commons} {cause : Option Failure}
    {outcome : Except RetryError Signal} (h : (cause, outcome) ∈ commons.decisions) :
    ∃ earlier, earlier ++ [.decided cause outcome] <+: commons.history := by
  obtain ⟨entry, hmem, hentry⟩ := List.mem_filterMap.1 h
  cases entry <;> cases hentry
  obtain ⟨earlier, later, hhistory⟩ := List.append_of_mem hmem
  exact ⟨earlier, later, by rw [hhistory, List.append_assoc, List.singleton_append]⟩

end Commons

namespace Session

inductive Phase.Matches : Phase → Phase → Prop where
  | starting (mode : Mode) : Matches (.starting mode) (.starting mode)
  | cycling {left right : Suspended (Except Failure Unit)} (h : left.Matches false right) :
      Matches (.cycling left) (.cycling right)
  | retrying (call : Call) : Matches (.retrying call) (.retrying call)
  | ended (result : Except SessionError Unit) : Matches (.ended result) (.ended result)
  | panicked (message : String) : Matches (.panicked message) (.panicked message)

/-- Sessions at the same point of their courses, of one connector, which does not look at closes
outside of its cycle. -/
inductive Matches (left : Session) : Session → Prop where
  | intro {pipeline : Pipeline} {phase : Phase}
      (hconnector : ∀ cycle, (left.connector cycle).Matches false (left.connector cycle))
      (hpipeline : left.pipeline.Matches pipeline) (hphase : left.phase.Matches phase) :
      Matches left { left with pipeline, phase }

/-- Two courses are at the same point. -/
structure Agree (left right : Session × Commons) : Prop where
  session : left.1.Matches right.1
  commons : left.2.Matches false right.2

variable {session left right : Session} {commons seen : Commons}

/-! ### Steps of the run -/

theorem Matches.turns (h : left.Matches right) {phase phase' : Phase}
    (hphase : phase.Matches phase') :
    Matches { left with phase } { right with phase := phase' } := by
  obtain ⟨hconnector, hpipeline, -⟩ := h
  exact .intro hconnector hpipeline hphase

theorem Matches.finish (h : left.Matches right) {phase phase' : Phase}
    (hphase : phase.Matches phase') : (left.finish phase).Matches (right.finish phase') := by
  obtain ⟨hconnector, hpipeline, -⟩ := h
  exact .intro hconnector hpipeline.abort hphase

theorem Matches.fail (h : left.Matches right) {idle : Bool} (hcommons : commons.Matches idle seen)
    (failure : Failure) : Agree (left.fail failure commons) (right.fail failure seen) :=
  ⟨h.turns (.retrying _), (hcommons.leave.log _).forget⟩

theorem Matches.afterCycle (h : left.Matches right)
    {polled polled' : Commons × RoutineProgress (Except Failure Unit)}
    (hpolled : Progress.Agrees false (Suspended.Matches false) polled polled') :
    Agree (left.afterCycle polled) (right.afterCycle polled') := by
  obtain ⟨commons, progress⟩ := polled
  obtain ⟨seen, progress'⟩ := polled'
  obtain ⟨hcommons, hprogress⟩ := hpolled
  cases hprogress with
  | finished result =>
      rcases result with failure | ⟨⟨⟩⟩
      · exact h.fail hcommons failure
      · exact ⟨h.finish (.ended _), (hcommons.leave.log _).forget⟩
  | panicked message => exact ⟨h.finish (.panicked message), hcommons.leave.forget⟩
  | waiting hcurrent => exact ⟨h.turns (.cycling hcurrent), hcommons⟩

/-- A cycle is abandoned for the closes made in it. -/
theorem Matches.abandon (h : left.Matches right) (hcommons : commons.Matches false seen)
    (hcycle : commons.cycle.isSome) : Agree (left.abandon commons) (right.abandon seen) := by
  rw [Session.abandon, Session.abandon, congrArg Cycle.Slot.close (hcommons.slot_eq hcycle)]
  split
  · exact h.fail (hcommons.takeClose hcycle) _
  · exact ⟨h.finish (.ended _), hcommons.leave.forget⟩

theorem Matches.beginCycle (h : left.Matches right) (hcommons : commons.Matches false seen)
    (mode : Mode) : Agree (left.beginCycle mode commons) (right.beginCycle mode seen) := by
  obtain ⟨hconnector, hpipeline, hphase⟩ := h
  have hbegun : Matches { left with cycles := left.cycles + 1 } { left with
      pipeline := _, phase := _, cycles := left.cycles + 1 } := .intro hconnector hpipeline hphase
  have hnext : left.nextCycle mode seen = left.nextCycle mode commons := by
    rw [nextCycle, nextCycle, hcommons.counter_eq]
  have hpolled := (hconnector (left.nextCycle mode commons)).poll
    (hcommons.opened (left.nextCycle mode commons))
  rw [beginCycle_eq, beginCycle_eq]
  exact hbegun.afterCycle (hnext ▸ hpolled)

theorem Matches.stopWith (h : left.Matches right) (hcommons : commons.Matches false seen)
    (error : RetryError) : Agree (left.stopWith error commons) (right.stopWith error seen) := by
  rw [Session.stopWith, Session.stopWith]
  dsimp only
  split
  · exact ⟨h.finish (.ended _), hcommons.count _⟩
  · exact ⟨h.finish (.ended _), ((hcommons.count _).log _).record _⟩

theorem Matches.afterReply (h : left.Matches right) (hcommons : commons.Matches false seen)
    (reply : Reply) : Agree (left.afterReply commons reply) (right.afterReply seen reply) := by
  cases reply with
  | retried result =>
      cases result with
      | ok signal => exact ⟨h.turns (.starting _), hcommons⟩
      | error error => exact h.stopWith hcommons error
  | panicked message => exact ⟨h.finish (.panicked message), hcommons⟩
  | accepted | proceeded | joined => exact ⟨h, hcommons⟩

/-- A step of one run is one of the other. -/
theorem Matches.step (h : left.Matches right) (hcommons : commons.Matches false seen)
    (hstands : Stands left commons) : Option.Rel Agree (left.step commons) (right.step seen) := by
  have hsame := h
  obtain ⟨hconnector, hpipeline, hphase⟩ := h
  rw [step.eq_def, step.eq_def, hcommons.cancelled_eq, hcommons.abandoned_eq]
  dsimp only
  generalize hat : left.phase = phase at hphase
  cases hphase with
  | starting mode =>
      dsimp only
      split
      · exact .some ⟨hsame.finish (.ended _), hcommons⟩
      · exact .some (hsame.beginCycle hcommons mode)
  | @cycling current current' hcurrent =>
      -- Here alone the slot is looked at, and while a cycle is running it is the same.
      have hcycle := (hstands.atRest_in_cycle hat).2
      obtain ⟨hnext⟩ := hcurrent
      dsimp only
      rw [hcommons.isDue_eq]
      split
      · refine .some (hsame.abandon hcommons ?_)
        obtain ⟨cycle, hcycle⟩ := hcycle
        rw [hcycle]
        rfl
      · split
        · exact .some (hsame.afterCycle (hnext.poll hcommons))
        · exact .none
  | retrying call =>
      refine rel_map (Call.step_agree hpipeline call) ?_
      rintro ⟨next, _⟩ ⟨next', result⟩ ⟨hnext, rfl⟩
      cases result with
      | inl later => exact ⟨.intro hconnector hnext (.retrying later), hcommons⟩
      | inr reply =>
          have hafter : Matches { left with pipeline := next, phase := .retrying call }
              { left with pipeline := next', phase := .retrying call } :=
            .intro hconnector hnext (.retrying call)
          exact hafter.afterReply hcommons reply
  | ended | panicked => exact .none

/-! ### The whole course -/

/-- While a cycle is running the engine is not at work. -/
theorem Stands.cycle_eq_none_or (h : Stands session commons) : commons.cycle = none ∨
    session.pipeline.inbox = none ∧ ∀ handling, session.pipeline.task ≠ .handling handling := by
  by_cases hcycling : ∃ current, session.phase = .cycling current
  · obtain ⟨current, hphase⟩ := hcycling
    have hpipeline := (h.atRest_in_cycle hphase).1
    refine .inr ⟨hpipeline.inbox, fun handling htask => ?_⟩
    cases hphase.symm.trans (h.of_handling htask).1
  · exact .inl (h.cycle_eq_none fun current hphase => hcycling ⟨current, hphase⟩)

/-- A move of one course is one of the other. -/
theorem Agree.move {left right : Session × Commons} (h : Agree left right)
    (hstands : Stands left.1 left.2) (move : Move) :
    Option.Rel Agree (Session.move left move) (Session.move right move) := by
  obtain ⟨left, commons⟩ := left
  obtain ⟨right, seen⟩ := right
  obtain ⟨hsession, hcommons⟩ := h
  cases move with
  | run => exact hsession.step hcommons hstands
  | task =>
      obtain ⟨hconnector, hpipeline, hphase⟩ := hsession
      refine rel_map (hpipeline.step hcommons hstands.cycle_eq_none_or) ?_
      rintro ⟨next, after⟩ ⟨next', after'⟩ ⟨hnext, hafter⟩
      exact ⟨.intro hconnector hnext hphase, hafter⟩
  | others deed => exact .some ⟨hsession, hcommons.perform deed⟩
  | wait millis => exact .some ⟨hsession, hcommons.wait millis⟩

/-- The second row of moves is the first, which leads on from a course, with closes that keep the
session strewn in while no cycle is running. -/
inductive Disturbed : Session × Commons → List Move → List Move → Prop where
  | nil (course : Session × Commons) : Disturbed course [] []
  | same {course next : Session × Commons} {move : Move} {moves moves' : List Move}
      (hmove : Session.move course move = some next) (h : Disturbed next moves moves') :
      Disturbed course (move :: moves) (move :: moves')
  | closing {course : Session × Commons} {moves moves' : List Move} {disconnect : Disconnect}
      (hcycle : course.2.cycle = none) (hkeeps : disconnect.action.keepsSession)
      (status : CloseStatus) (h : Disturbed course moves moves') :
      Disturbed course moves (.others (.close disconnect status) :: moves')

/-- Nothing needs to be strewn in. -/
theorem Disturbed.after {course last : Session × Commons} {first moves moves' : List Move}
    (hfollow : Session.follow course first = some last) (h : Disturbed last moves moves') :
    Disturbed course (first ++ moves) (first ++ moves') := by
  induction first generalizing course with
  | nil =>
      cases hfollow
      exact h
  | cons move first ih =>
      rw [follow_cons] at hfollow
      obtain ⟨next, hmove, hrest⟩ := Option.bind_eq_some_iff.1 hfollow
      exact .same hmove (ih hrest)

theorem Disturbed.follow {left right : Session × Commons} {moves moves' : List Move}
    (h : Disturbed left moves moves') (hagree : Agree left right)
    (hstands : Stands left.1 left.2) :
    ∃ last last', Session.follow left moves = some last ∧
      Session.follow right moves' = some last' ∧ Agree last last' := by
  -- At a close that is strewn in, the first course stays where it is.
  induction h generalizing right with
  | nil course => exact ⟨course, right, rfl, rfl, hagree⟩
  | @same course next move moves moves' hmove _ ih =>
      have hmoved := hagree.move hstands move
      rw [hmove] at hmoved
      cases hright : Session.move right move with
      | none =>
          rw [hright] at hmoved
          cases hmoved
      | some next' =>
          rw [hright] at hmoved
          obtain ⟨hnext⟩ := hmoved
          obtain ⟨last, last', hlast, hlast', hagreed⟩ := ih hnext (hstands.moved hmove)
          exact ⟨last, last', follow_of_move hmove hlast, follow_of_move hright hlast', hagreed⟩
  | closing hcycle hkeeps status _ ih =>
      have hclosed : Agree _ (right.1, right.2.close _ status) :=
        ⟨hagree.session, ((hagree.commons.idles hcycle).close_right hkeeps status).forget⟩
      obtain ⟨last, last', hlast, hlast', hagreed⟩ := ih hclosed hstands
      exact ⟨last, last', hlast, follow_of_move rfl hlast', hagreed⟩

/-- Two courses differ in closes that keep the session, and in nothing that they could make a
difference to. -/
structure DifferInCloses (left right : Session × Commons) : Prop where
  result : right.1.result? = left.1.result?
  /-- Every cycle has the same mode and the same attempt. -/
  started : right.2.started = left.2.started
  /-- Every failure comes to the same signal or to the same error. -/
  decisions : right.2.decisions = left.2.decisions
  published : right.2.published = left.2.published
  counter : right.2.counter = left.2.counter
  metrics : right.2.metrics = left.2.metrics
  changes : Strewn (fun change => change.stage = .suspended) left.2.changes right.2.changes
  history : Strewn Entry.Keeps left.2.history right.2.history

theorem Agree.differs {left right : Session × Commons} (h : Agree left right) :
    DifferInCloses left right := by
  obtain ⟨left, commons⟩ := left
  obtain ⟨right, seen⟩ := right
  obtain ⟨hsession, hcommons⟩ := h
  have hskips : ∀ {Item : Type} {reader : Entry → Option Item},
      (∀ entry, reader (.logged entry) = none) → (∀ change, reader (.closing change) = none) →
      seen.read reader = commons.read reader := by
    intro Item reader hlogged hclosing
    refine hcommons.read_eq fun entry hkeeps => ?_
    cases hkeeps with
    | logged => exact hlogged _
    | closing => exact hclosing _
  refine ⟨?_, hskips (fun _ => rfl) fun _ => rfl, hskips (fun _ => rfl) fun _ => rfl,
    hskips (fun _ => rfl) fun _ => rfl, hcommons.counter_eq, hcommons.metrics_eq, hcommons.changes,
    hcommons.history⟩
  obtain ⟨-, -, hphase⟩ := hsession
  rw [result?, result?]
  dsimp only
  generalize left.phase = phase at hphase
  cases hphase <;> rfl

/-- **Closes are kept to their cycles.** A failure that is decided on is the first one since the last
cycle started, and the one that this very cycle was lost with: what its connector returned, or the
status of the last close made in it. And whatever closes that keep the session are made while no cycle
is running, by others or by the hooks, they make no difference: as long as connector, hooks and delays
do not look at them, the moves remain possible, and lead to the same cycles, decisions, counts and
result. -/
theorem keeps_closes_apart (policy : Policy) {hooks : List Hook} (hhooks : .announcer ∉ hooks)
    (connector : Cycle → Routine (Except Failure Unit)) (before : Commons) :
    (∀ last, Leads (initial policy hooks connector, fresh before) last →
      ∀ earlier cause outcome, earlier ++ [.decided cause outcome] <+: last.2.history →
        Entry.lastAwaits earlier ∧ ∃ failure, cause = some failure ∧
          Lost (initial policy hooks connector, fresh before) last failure earlier) ∧
    ((∀ delay, (policy.scheduler.sleep delay).Matches true (policy.scheduler.sleep delay)) →
      (∀ cycle, (connector cycle).Matches false (connector cycle)) →
      ∀ hooks', List.Forall₂ Hook.Matches hooks hooks' →
      ∀ moves moves', Disturbed (initial policy hooks connector, fresh before) moves moves' →
        ∃ last last', follow (initial policy hooks connector, fresh before) moves = some last ∧
          follow (initial policy hooks' connector, fresh before) moves' = some last' ∧
          DifferInCloses last last') := by
  have hinitial := stands_initial policy hhooks connector before
  constructor
  · intro last hleads earlier cause outcome hprefix
    have htrail := hleads.trail hinitial (Commons.minds_of_none rfl)
      (trail_initial policy hooks connector before)
    exact htrail.each earlier _ hprefix cause outcome rfl
  · intro hdelays hconnector hooks' hmatches moves moves' hdisturbed
    have hengine : (engine policy hooks).Matches (engine policy hooks') :=
      .intro hdelays (.cons .announcer (.cons (.meter true) hmatches))
    have hagree : Agree (initial policy hooks connector, fresh before)
        (initial policy hooks' connector, fresh before) :=
      ⟨.intro hconnector (.intro hengine .idle) (.starting .identify),
        .intro _ _ nofun (fun _ => rfl) .nil⟩
    obtain ⟨last, last', hlast, hlast', hagreed⟩ := hdisturbed.follow hagree hinitial
    exact ⟨last, last', hlast, hlast', hagreed.differs⟩

/-- The first cycle lasts until it is abandoned, and the next one ends at once. -/
def lasting (cycle : Cycle) : Routine (Except Failure Unit) :=
  if cycle.number = 0 then .untilAbandoned (.done (.ok ())) else .done (.ok ())

/-- Every delay takes five milliseconds. -/
def lagging : Policy :=
  { Policy.prompt with scheduler := ⟨"lagging", fun _ => .sleep 5 (.done ())⟩ }

/-- A hook that takes its time, and before that does what it is given to do. -/
def dawdling (first : Routine (Except HookError Unit) → Routine (Except HookError Unit)) : Hook :=
  .custom "dawdling" fun _ => first (.sleep 5 (.done (.ok ())))

/-- Somebody closes the session so that it is kept. -/
def closing (code : UInt16) : Move := .others (.close (.retry "again") ⟨code, none⟩)

/-- From the start, through the first cycle, which is closed, to the wait of the hook. -/
def toHook : List Move := [.run, closing 4001, .run, .run, .task]

/-- From there to the delay. -/
def toDelay : List Move := [.wait 5, .task]

/-- And through the delay and the next cycle to the end. -/
def toEnd : List Move := [.wait 5, .task, .task, .run, .run]

theorem view_of_follow {View : Type} {course last : Session × Commons} {moves : List Move}
    (view : Session × Commons → View) (seen : View) (hfollow : follow course moves = some last)
    (hview : (follow course moves).map view = some seen) : view last = seen := by
  rw [hfollow] at hview
  exact Option.some.inj hview

theorem matches_lasting (cycle : Cycle) : (lasting cycle).Matches false (lasting cycle) := by
  rw [lasting]
  split
  · exact .untilAbandoned (.done _)
  · exact .done _

/-- The first cycle is abandoned with 4001. Further closes are made before it, by the hook, while the
hook and while the delay are waited for, and after the end; with or without them, 4001 is what is
decided on, and the next cycle ends the run. -/
theorem keeps_closes_apart_when_lasting : ∃ last last',
    Leads (initial lagging [dawdling id] lasting, fresh .initial) last ∧
      Leads (initial lagging [dawdling (.act (.close (.retry "mine") ⟨4002, none⟩))] lasting,
        fresh .initial) last' ∧
      DifferInCloses last last' ∧
      (∃ earlier, Lost (initial lagging [dawdling id] lasting, fresh .initial) last
        (.closed ⟨4001, none⟩) earlier) ∧
      last'.2.changes.map (fun change => change.closing.map fun closing => closing.2.code) =
        [some 4000, none, some 4001, none, some 4002, some 4003, some 4005, none, some 4006] := by
  have hbetween : (follow (initial lagging [dawdling id] lasting, fresh .initial) toHook).bind
      (fun hooked => (follow hooked toDelay).bind fun delayed =>
        (follow delayed toEnd).map fun ended =>
          decide (hooked.2.cycle = none ∧ delayed.2.cycle = none ∧ ended.2.cycle = none)) =
      some true := by
    decide +kernel
  obtain ⟨hooked, hhooked, hrest⟩ := Option.bind_eq_some_iff.1 hbetween
  obtain ⟨delayed, hdelayed, hrest⟩ := Option.bind_eq_some_iff.1 hrest
  obtain ⟨ended, hended, hview⟩ := Option.map_eq_some_iff.1 hrest
  obtain ⟨hhook, hdelay, hend⟩ := of_decide_eq_true hview
  have hdisturbed : Disturbed (initial lagging [dawdling id] lasting, fresh .initial)
      (toHook ++ (toDelay ++ (toEnd ++ [])))
      (closing 4000 :: (toHook ++ closing 4003 :: (toDelay ++
        closing 4005 :: (toEnd ++ [closing 4006])))) :=
    .closing rfl rfl _ (.after hhooked (.closing hhook rfl _ (.after hdelayed (.closing hdelay rfl _
      (.after hended (.closing hend rfl _ (.nil ended)))))))
  have hhooks : List.Forall₂ Hook.Matches [dawdling id]
      [dawdling (.act (.close (.retry "mine") ⟨4002, none⟩))] :=
    .cons (.custom _ fun _ => .closing rfl rfl _ (.sleep 5 (.done _))) .nil
  have hnone : .announcer ∉ [dawdling id] := by simp [dawdling]
  obtain ⟨hcycles, hcloses⟩ := keeps_closes_apart lagging hnone lasting .initial
  obtain ⟨last, last', hlast, hlast', hdiffer⟩ := hcloses (fun _ => .sleep 5 (.done ()))
    matches_lasting _ hhooks _ _ hdisturbed
  have hdecisions := view_of_follow (fun course => course.2.decisions.map Prod.fst)
    [some (.closed ⟨4001, none⟩)] hlast (by decide +kernel)
  have hchanges := view_of_follow
    (fun course => course.2.changes.map fun change => change.closing.map fun closing =>
      closing.2.code)
    [some 4000, none, some 4001, none, some 4002, some 4003, some 4005, none, some 4006] hlast'
    (by decide +kernel)
  have hdecided : some (.closed ⟨4001, none⟩) ∈ last.2.decisions.map Prod.fst := by
    rw [hdecisions]
    exact List.mem_singleton_self _
  obtain ⟨⟨_, outcome⟩, hmem, rfl⟩ := List.mem_map.1 hdecided
  obtain ⟨earlier, hprefix⟩ := Commons.exists_decided hmem
  obtain ⟨-, failure, hcause, hlost⟩ := hcycles last (leads_of_follow hlast) earlier _ _ hprefix
  cases hcause
  exact ⟨last, last', leads_of_follow hlast, leads_of_follow hlast', hdiffer, ⟨earlier, hlost⟩,
    hchanges⟩

end Session

end Rejoin
