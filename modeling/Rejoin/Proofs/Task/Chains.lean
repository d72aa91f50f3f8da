import Rejoin.Proofs.Task.Legs

/-! Chains of hooks by themselves, however they were put together. A chain is carried on by moves, and
whatever happens in between, it is its hooks one after the other: each begins where the one before it has
ended without an error, and the first that does not is where the chain stays. So a chain behind another one
begins where that one has ended without an error, wherever it was waiting before. -/

namespace Rejoin

open Engine (Move)

/-! ### Carrying on -/

namespace Progress

variable {Waiting Result : Type}

def Settled : Progress Waiting Result → Prop
  | .finished _ | .panicked _ => True
  | .waiting _ => False

/-- Something on its way, one move later. At its end it makes no more moves. -/
def move (resume : Waiting → Commons → Commons × Progress Waiting Result) :
    Commons × Progress Waiting Result → Move → Option (Commons × Progress Waiting Result)
  | (commons, .waiting wait), .others deed => some (deed.perform commons, .waiting wait)
  | (commons, .waiting wait), .wait millis =>
    some ({ commons with now := commons.now + millis }, .waiting wait)
  | (commons, .waiting wait), .wake => some (resume wait commons)
  | (_, .finished _), _ | (_, .panicked _), _ => none

/-- Something on its way, some moves later. -/
def carry (resume : Waiting → Commons → Commons × Progress Waiting Result)
    (start : Commons × Progress Waiting Result) (moves : List Move) :
    Option (Commons × Progress Waiting Result) :=
  moves.foldlM (move resume) start

variable {resume : Waiting → Commons → Commons × Progress Waiting Result}
  {start result : Commons × Progress Waiting Result} {moves more : List Move}

theorem carry_cons (move : Move) : carry resume start (move :: moves) =
    (Progress.move resume start move).bind fun next => carry resume next moves :=
  List.foldlM_cons

theorem carry_cons_of_move {move : Move} {next : Commons × Progress Waiting Result}
    (h : Progress.move resume start move = some next) :
    carry resume start (move :: moves) = carry resume next moves := by
  rw [carry_cons, h, Option.bind_some]

theorem carry_append : carry resume start (moves ++ more) =
    (carry resume start moves).bind fun point => carry resume point more :=
  List.foldlM_append

theorem carry_of_settled (h : start.2.Settled) :
    carry resume start moves = some result ↔ moves = [] ∧ start = result := by
  obtain ⟨commons, outcome | message | wait⟩ := start
  case waiting => exact h.elim
  all_goals
    cases moves with
    | nil => exact Option.some_inj.trans (and_iff_right rfl).symm
    | cons move moves => exact iff_of_false nofun nofun

/-- What waking keeps, and the deeds of others, and time, is kept. -/
theorem carry_keeps (holds : Commons → Prop)
    (hdeed : ∀ {commons} (deed : Deed), holds commons → holds (deed.perform commons))
    (hwait : ∀ {commons : Commons} (millis : Nat), holds commons →
      holds { commons with now := commons.now + millis })
    (hresume : ∀ {commons} (wait : Waiting), holds commons → holds (resume wait commons).1)
    (hstart : holds start.1) (h : carry resume start moves = some result) : holds result.1 := by
  induction moves generalizing start with
  | nil =>
      cases h
      exact hstart
  | cons move moves ih =>
      rw [carry_cons] at h
      obtain ⟨next, hmove, hnext⟩ := Option.bind_eq_some_iff.1 h
      refine ih ?_ hnext
      obtain ⟨commons, outcome | message | wait⟩ := start
      case finished | panicked => cases hmove
      cases move with
      | others deed =>
          cases hmove
          exact hdeed deed hstart
      | wait millis =>
          cases hmove
          exact hwait millis hstart
      | wake =>
          cases hmove
          exact hresume wait hstart

section Further

variable {Outer Outcome : Type} (resume) (start)
  (resumeOuter : Outer → Commons → Commons × Progress Outer Outcome)
  (further : Commons × Progress Waiting Result → Commons × Progress Outer Outcome)
  (outer : Waiting → Outer)

/-- How far something with a continuation gets: it waits where it waits by itself, and goes on from where
it is settled. -/
inductive Passes : List Move → Commons × Progress Outer Outcome → Prop where
  | waiting {moves : List Move} {commons : Commons} {wait : Waiting}
      (h : carry resume start moves = some (commons, .waiting wait)) :
      Passes moves (commons, .waiting (outer wait))
  | settled {earlier later : List Move} {point : Commons × Progress Waiting Result}
      {reached : Commons × Progress Outer Outcome} (h : carry resume start earlier = some point)
      (hsettled : point.2.Settled) (hlater : carry resumeOuter (further point) later = some reached) :
      Passes (earlier ++ later) reached

variable {resume start resumeOuter further outer} {reached : Commons × Progress Outer Outcome}

theorem carry_further_iff_of_settled (hstart : start.2.Settled) :
    carry resumeOuter (further start) moves = some reached ↔
      Passes resume start resumeOuter further outer moves reached := by
  constructor
  · intro h
    rw [← List.nil_append moves]
    exact .settled rfl hstart h
  · rintro (h | ⟨h, -, hlater⟩)
    · obtain ⟨-, rfl⟩ := (carry_of_settled hstart).1 h
      exact hstart.elim
    · obtain ⟨rfl, rfl⟩ := (carry_of_settled hstart).1 h
      exact hlater

section Waiting

variable {commons : Commons} {wait : Waiting}

theorem passes_nil_iff :
    Passes resume (commons, .waiting wait) resumeOuter further outer [] reached ↔
      (commons, .waiting (outer wait)) = reached := by
  constructor
  · generalize hmoves : ([] : List Move) = moves
    rintro (h | ⟨h, hsettled, -⟩)
    · cases hmoves
      cases h
      rfl
    · obtain ⟨rfl, rfl⟩ := List.append_eq_nil_iff.1 hmoves.symm
      cases h
      exact hsettled.elim
  · rintro rfl
    exact .waiting rfl

theorem passes_cons_iff {move : Move} {next : Commons × Progress Waiting Result}
    (hmove : Progress.move resume (commons, .waiting wait) move = some next) :
    Passes resume (commons, .waiting wait) resumeOuter further outer (move :: moves) reached ↔
      Passes resume next resumeOuter further outer moves reached := by
  constructor
  · generalize hmoves : move :: moves = whole
    rintro (h | @⟨earlier, later, point, _, h, hsettled, hlater⟩)
    · cases hmoves
      exact .waiting ((carry_cons_of_move hmove).symm.trans h)
    · cases earlier with
      | nil =>
          cases h
          exact hsettled.elim
      | cons first earlier =>
          obtain ⟨rfl, rfl⟩ := List.cons.inj hmoves
          exact .settled ((carry_cons_of_move hmove).symm.trans h) hsettled hlater
  · rintro (h | ⟨h, hsettled, hlater⟩)
    · exact .waiting ((carry_cons_of_move hmove).trans h)
    · rw [← List.cons_append]
      exact .settled ((carry_cons_of_move hmove).trans h) hsettled hlater

end Waiting

variable
  (hwaits : ∀ commons wait, further (commons, .waiting wait) = (commons, .waiting (outer wait)))
  (hresume : ∀ commons wait, resumeOuter (outer wait) commons = further (resume wait commons))

include hwaits hresume

theorem move_further (commons : Commons) (wait : Waiting) (move : Move) :
    ∃ next, Progress.move resume (commons, .waiting wait) move = some next ∧
      Progress.move resumeOuter (commons, .waiting (outer wait)) move = some (further next) := by
  cases move with
  | others deed | wait millis => exact ⟨_, rfl, congrArg some (hwaits _ wait).symm⟩
  | wake => exact ⟨_, rfl, congrArg some (hresume commons wait)⟩

theorem carry_further_iff : carry resumeOuter (further start) moves = some reached ↔
    Passes resume start resumeOuter further outer moves reached := by
  -- Moves are made from waits only, and there both make the same.
  induction moves generalizing start with
  | nil =>
      obtain ⟨commons, outcome | message | wait⟩ := start
      case finished | panicked => exact carry_further_iff_of_settled trivial
      rw [hwaits, passes_nil_iff]
      exact Option.some_inj
  | cons move moves ih =>
      obtain ⟨commons, outcome | message | wait⟩ := start
      case finished | panicked => exact carry_further_iff_of_settled trivial
      obtain ⟨next, hmove, houter⟩ := move_further hwaits hresume commons wait move
      rw [hwaits, carry_cons_of_move houter, ih, passes_cons_iff hmove]

end Further

end Progress

/-- Whether a hook of some label begins. -/
def Leg.begins (label : Hook.Label) : Leg → Bool
  | .begun hook _ => hook = label
  | _ => false

namespace Hook

open Progress (Passes carry)

/-! ### A chain is its hooks -/

/-- A hook by itself, some moves after it began. -/
def drive (signal : Signal) (hook : Hook) (before : Commons) (moves : List Move) :
    Option (Commons × RoutineProgress (Except HookError Unit)) :=
  carry Suspended.resume (hook.begin signal before) moves

/-- A chain by itself, some moves after it began. -/
def driveAll (signal : Signal) (hooks : List Hook) (before : Commons) (moves : List Move) :
    Option (Commons × ChainProgress) :=
  carry (ChainWait.resume signal) (runAll signal hooks before) moves

/-- Hooks one after the other. Each begins with the signal where the one before it has ended without an
error, and at the first that does not, it stays. -/
inductive Goes (signal : Signal) :
    List Hook → Commons → List Move → Commons × ChainProgress → Prop where
  | nil {before : Commons} : Goes signal [] before [] (before, .finished (.ok ()))
  | ended {hook : Hook} {rest : List Hook} {before after : Commons} {earlier later : List Move}
      {result : Commons × ChainProgress}
      (hhook : hook.drive signal before earlier = some (after, .finished (.ok ())))
      (hrest : Goes signal rest (after.record (.hookEnded hook.label (.ok ()))) later result) :
      Goes signal (hook :: rest) before (earlier ++ later) result
  | failed {hook : Hook} {rest : List Hook} {before after : Commons} {moves : List Move}
      {error : HookError}
      (hhook : hook.drive signal before moves = some (after, .finished (.error error))) :
      Goes signal (hook :: rest) before moves
        (after.record (.hookEnded hook.label (.error error)), .finished (.error error))
  | panicked {hook : Hook} {rest : List Hook} {before after : Commons} {moves : List Move}
      {message : String} (hhook : hook.drive signal before moves = some (after, .panicked message)) :
      Goes signal (hook :: rest) before moves (after, .panicked message)
  | waiting {hook : Hook} {rest : List Hook} {before after : Commons} {moves : List Move}
      {current : Suspended (Except HookError Unit)}
      (hhook : hook.drive signal before moves = some (after, .waiting current)) :
      Goes signal (hook :: rest) before moves (after, .waiting ⟨hook.label, current, rest⟩)

variable {signal : Signal} {hook : Hook} {hooks more rest : List Hook} {before : Commons}
  {moves : List Move} {result : Commons × ChainProgress}

theorem driveAll_nil_iff :
    driveAll signal [] before moves = some result ↔
      moves = [] ∧ (before, .finished (.ok ())) = result :=
  Progress.carry_of_settled trivial

theorem driveAll_cons_iff :
    driveAll signal (hook :: rest) before moves = some result ↔
      Passes Suspended.resume (hook.begin signal before) (ChainWait.resume signal)
        (proceed hook.label rest (runAll signal rest)) (⟨hook.label, ·, rest⟩) moves result :=
  Progress.carry_further_iff (fun _ _ => rfl) (fun _ _ => rfl)

theorem driveAll_iff_goes :
    driveAll signal hooks before moves = some result ↔ Goes signal hooks before moves result := by
  induction hooks generalizing before moves result with
  | nil =>
      rw [driveAll_nil_iff]
      constructor
      · rintro ⟨rfl, rfl⟩
        exact .nil
      · rintro ⟨⟩
        exact ⟨rfl, rfl⟩
  | cons hook rest ih =>
      rw [driveAll_cons_iff]
      constructor
      · rintro (h | @⟨earlier, later, point, _, h, hsettled, hlater⟩)
        · exact .waiting h
        · obtain ⟨after, (error | ⟨⟨⟩⟩) | message | current⟩ := point
          case waiting => exact hsettled.elim
          · obtain ⟨rfl, rfl⟩ := (Progress.carry_of_settled (by trivial)).1 hlater
            rw [List.append_nil]
            exact .failed h
          · exact .ended h (ih.1 hlater)
          · obtain ⟨rfl, rfl⟩ := (Progress.carry_of_settled (by trivial)).1 hlater
            rw [List.append_nil]
            exact .panicked h
      · rintro (_ | ⟨hhook, hrest⟩ | hhook | hhook | hhook)
        · exact .settled hhook trivial (ih.2 hrest)
        · rw [← List.append_nil moves]
          exact .settled hhook trivial rfl
        · rw [← List.append_nil moves]
          exact .settled hhook trivial rfl
        · exact .waiting hhook

/-! ### What a chain leaves behind -/

/-- What a chain leaves behind, and what it has come to. A hook begins, with the signal, once those before
it have ended without an error. -/
inductive Leaves (signal : Signal) (hooks : List Hook) : List Leg → ChainProgress → Prop where
  | done : Leaves signal hooks (legs signal hooks) (.finished (.ok ()))
  | failed {earlier later : List Hook} {hook : Hook} {error : HookError}
      (hhooks : hooks = earlier ++ hook :: later) :
      Leaves signal hooks
        (legs signal earlier ++ [.begun hook.label signal, .ended hook.label (.error error)])
        (.finished (.error error))
  | panicked {earlier later : List Hook} {hook : Hook} {message : String}
      (hhooks : hooks = earlier ++ hook :: later) :
      Leaves signal hooks (legs signal earlier ++ [.begun hook.label signal]) (.panicked message)
  | waiting {earlier later : List Hook} {hook : Hook} {current : Suspended (Except HookError Unit)}
      (hhooks : hooks = earlier ++ hook :: later) :
      Leaves signal hooks (legs signal earlier ++ [.begun hook.label signal])
        (.waiting ⟨hook.label, current, later⟩)

theorem Leaves.cons {left : List Leg} {progress : ChainProgress} (hook : Hook)
    (h : Leaves signal rest left progress) :
    Leaves signal (hook :: rest)
      (.begun hook.label signal :: .ended hook.label (.ok ()) :: left) progress := by
  have hcons : ∀ {earlier later : List Hook}, rest = earlier ++ later →
      hook :: rest = (hook :: earlier) ++ later := congrArg (hook :: ·)
  cases h with
  | done => exact .done
  | failed hhooks => exact .failed (hcons hhooks)
  | panicked hhooks => exact .panicked (hcons hhooks)
  | waiting hhooks => exact .waiting (hcons hhooks)

theorem legs_drive {point : Commons × RoutineProgress (Except HookError Unit)}
    (h : hook.drive signal before moves = some point) :
    point.1.legs = before.legs ++ [.begun hook.label signal] :=
  Progress.carry_keeps (fun after => after.legs = before.legs ++ [Leg.begun hook.label signal])
    (fun deed h => (Commons.legs_perform deed _).trans h) (fun _ h => h)
    (fun wait h => wait.resume_of_deed
      (fun after => after.legs = before.legs ++ [Leg.begun hook.label signal])
      (fun deed h => (Commons.legs_perform deed _).trans h) h)
    (legs_begin signal hook before) h

theorem Goes.leaves (h : Goes signal hooks before moves result) :
    ∃ left, result.1.legs = before.legs ++ left ∧ Leaves signal hooks left result.2 := by
  induction h with
  | nil => exact ⟨[], (List.append_nil _).symm, .done⟩
  | @ended hook rest before after earlier later result hhook _ ih =>
      obtain ⟨left, hlegs, hleaves⟩ := ih
      refine ⟨_, ?_, hleaves.cons hook⟩
      rw [hlegs, Commons.legs_record rfl, legs_drive hhook, List.append_assoc, List.append_assoc]
      rfl
  | failed hhook =>
      refine ⟨_, ?_, .failed (List.nil_append _).symm⟩
      rw [Commons.legs_record rfl, legs_drive hhook, List.append_assoc]
      rfl
  | panicked hhook => exact ⟨_, legs_drive hhook, .panicked (List.nil_append _).symm⟩
  | waiting hhook => exact ⟨_, legs_drive hhook, .waiting (List.nil_append _).symm⟩

theorem countP_legs (label : Label) :
    (legs signal hooks).countP (Leg.begins label) = hooks.countP fun hook => hook.label = label := by
  induction hooks with
  | nil => rfl
  | cons hook hooks ih =>
      have hlegs : legs signal (hook :: hooks) =
          .begun hook.label signal :: .ended hook.label (.ok ()) :: legs signal hooks := rfl
      rw [hlegs, List.countP_cons, List.countP_cons, List.countP_cons, ih]
      rfl

/-! ### Chains behind chains -/

/-- A chain, and behind it, only if it has ended without an error, another one. -/
inductive Follows (signal : Signal) (hooks more : List Hook) (before : Commons) :
    List Move → Commons × ChainProgress → Prop where
  | followed {earlier later : List Move} {point : Commons} {result : Commons × ChainProgress}
      (h : driveAll signal hooks before earlier = some (point, .finished (.ok ())))
      (hmore : driveAll signal more point later = some result) :
      Follows signal hooks more before (earlier ++ later) result
  | failed {moves : List Move} {last : Commons} {error : HookError}
      (h : driveAll signal hooks before moves = some (last, .finished (.error error))) :
      Follows signal hooks more before moves (last, .finished (.error error))
  | panicked {moves : List Move} {last : Commons} {message : String}
      (h : driveAll signal hooks before moves = some (last, .panicked message)) :
      Follows signal hooks more before moves (last, .panicked message)
  | waiting {moves : List Move} {last : Commons} {wait : ChainWait}
      (h : driveAll signal hooks before moves = some (last, .waiting wait)) :
      Follows signal hooks more before moves
        (last, .waiting { wait with remaining := wait.remaining ++ more })

/-- What follows once the chain in front got so far. -/
def handOver (signal : Signal) (more : List Hook) :
    Commons × ChainProgress → Commons × ChainProgress
  | (commons, .finished (.ok ())) => runAll signal more commons
  | (commons, .finished (.error error)) => (commons, .finished (.error error))
  | (commons, .panicked message) => (commons, .panicked message)
  | (commons, .waiting wait) =>
    (commons, .waiting { wait with remaining := wait.remaining ++ more })

theorem proceed_append (label : Label)
    (hrest : ∀ commons, runAll signal (rest ++ more) commons =
      handOver signal more (runAll signal rest commons))
    (point : Commons × RoutineProgress (Except HookError Unit)) :
    proceed label (rest ++ more) (runAll signal (rest ++ more)) point =
      handOver signal more (proceed label rest (runAll signal rest) point) := by
  obtain ⟨commons, (error | ⟨⟨⟩⟩) | message | current⟩ := point
  case finished.ok => exact hrest _
  all_goals rfl

theorem runAll_append (commons : Commons) :
    runAll signal (hooks ++ more) commons = handOver signal more (runAll signal hooks commons) := by
  induction hooks generalizing commons with
  | nil => rfl
  | cons hook rest ih => exact proceed_append hook.label ih _

theorem resume_append (commons : Commons) (wait : ChainWait) :
    ChainWait.resume signal { wait with remaining := wait.remaining ++ more } commons =
      handOver signal more (wait.resume signal commons) :=
  proceed_append wait.hook runAll_append _

theorem driveAll_append_iff :
    driveAll signal (hooks ++ more) before moves = some result ↔
      Follows signal hooks more before moves result := by
  rw [driveAll, runAll_append, Progress.carry_further_iff (fun _ _ => rfl) resume_append]
  constructor
  · rintro (h | @⟨earlier, later, point, _, h, hsettled, hlater⟩)
    · exact .waiting h
    · obtain ⟨after, (error | ⟨⟨⟩⟩) | message | current⟩ := point
      case waiting => exact hsettled.elim
      · obtain ⟨rfl, rfl⟩ := (Progress.carry_of_settled (by trivial)).1 hlater
        rw [List.append_nil]
        exact .failed h
      · exact .followed h hlater
      · obtain ⟨rfl, rfl⟩ := (Progress.carry_of_settled (by trivial)).1 hlater
        rw [List.append_nil]
        exact .panicked h
  · rintro (⟨h, hmore⟩ | h | h | h)
    · exact .settled h trivial hmore
    · rw [← List.append_nil moves]
      exact .settled h trivial rfl
    · rw [← List.append_nil moves]
      exact .settled h trivial rfl
    · exact .waiting h

end Hook

/-! ### Every chain can come to its end -/

namespace Suspended

variable {Result : Type}

/-- Whatever is waited for can come to pass. -/
theorem exists_woken (wait : Suspended Result) (commons : Commons) :
    ∃ moves later, ∀ more, Progress.carry resume (commons, .waiting wait) (moves ++ more) =
      Progress.carry resume (wait.next.poll later) more := by
  have hwake : ∀ {later : Commons}, wait.wake.isDue later → ∀ {more},
      Progress.carry resume (later, .waiting wait) (.wake :: more) =
        Progress.carry resume (wait.next.poll later) more := by
    intro later hdue more
    rw [Progress.carry_cons_of_move rfl, resume, if_pos hdue]
  obtain ⟨due | _, next⟩ := wait
  case time =>
      refine ⟨[.wait (due - commons.now), .wake],
        { commons with now := commons.now + (due - commons.now) }, fun more => ?_⟩
      exact hwake (decide_eq_true (Nat.sub_le_iff_le_add'.1 (Nat.le_refl _)))
  case abandonment =>
      exact ⟨[.others .cancel, .wake], Deed.cancel.perform commons, fun more => hwake rfl⟩

theorem exists_settled_of_next (wait : Suspended Result)
    (hnext : ∀ commons, ∃ moves point,
      Progress.carry resume (wait.next.poll commons) moves = some point ∧ point.2.Settled)
    (commons : Commons) :
    ∃ moves point,
      Progress.carry resume (commons, .waiting wait) moves = some point ∧ point.2.Settled := by
  obtain ⟨moves, later, hwoken⟩ := wait.exists_woken commons
  obtain ⟨more, point, hpoint, hsettled⟩ := hnext later
  exact ⟨moves ++ more, point, (hwoken more).trans hpoint, hsettled⟩

end Suspended

theorem Routine.exists_settled {Result : Type} (routine : Routine Result) (commons : Commons) :
    ∃ moves point,
      Progress.carry Suspended.resume (routine.poll commons) moves = some point ∧
        point.2.Settled := by
  induction routine generalizing commons with
  | done | panic => exact ⟨[], _, rfl, trivial⟩
  | act deed next ih => exact ih _
  | observe next ih => exact ih commons commons
  | sleep millis next ih | untilAbandoned next ih =>
      rw [poll]
      split
      · exact ih commons
      · exact Suspended.exists_settled_of_next _ ih commons

namespace Hook

variable {signal : Signal} {rest : List Hook}

theorem exists_settled (signal : Signal) (hook : Hook) (before : Commons) :
    ∃ moves point, hook.drive signal before moves = some point ∧ point.2.Settled := by
  cases hook with
  | announcer => exact ⟨[], _, rfl, trivial⟩
  | meter own => cases own <;> exact ⟨[], _, rfl, trivial⟩
  | custom name run => exact (run signal).exists_settled _

theorem exists_settled_proceed (label : Label)
    {start : Commons × RoutineProgress (Except HookError Unit)}
    (hhook : ∃ moves point,
      Progress.carry Suspended.resume start moves = some point ∧ point.2.Settled)
    (hrest : ∀ commons, ∃ moves result,
      driveAll signal rest commons moves = some result ∧ result.2.Settled) :
    ∃ moves result,
      Progress.carry (ChainWait.resume signal) (proceed label rest (runAll signal rest) start) moves =
        some result ∧ result.2.Settled := by
  obtain ⟨earlier, point, hpoint, hsettled⟩ := hhook
  have hwaits : ∀ commons current, proceed label rest (runAll signal rest) (commons, .waiting current) =
      (commons, .waiting ⟨label, current, rest⟩) := fun _ _ => rfl
  have hgoes : ∀ later result,
      Progress.carry (ChainWait.resume signal) (proceed label rest (runAll signal rest) point) later =
        some result →
      Progress.carry (ChainWait.resume signal) (proceed label rest (runAll signal rest) start)
        (earlier ++ later) = some result := fun _ _ hlater =>
    (Progress.carry_further_iff hwaits (fun _ _ => rfl)).2 (.settled hpoint hsettled hlater)
  obtain ⟨after, (error | ⟨⟨⟩⟩) | message | current⟩ := point
  case waiting => exact hsettled.elim
  · exact ⟨_, _, hgoes [] _ rfl, trivial⟩
  · obtain ⟨later, result, hlater, hend⟩ := hrest (after.record (.hookEnded label (.ok ())))
    exact ⟨_, _, hgoes later result hlater, hend⟩
  · exact ⟨_, _, hgoes [] _ rfl, trivial⟩

theorem exists_driveAll_settled (signal : Signal) (hooks : List Hook) (before : Commons) :
    ∃ moves result, driveAll signal hooks before moves = some result ∧ result.2.Settled := by
  induction hooks generalizing before with
  | nil => exact ⟨[], _, rfl, trivial⟩
  | cons hook rest ih => exact exists_settled_proceed hook.label (hook.exists_settled signal before) ih

/-- However far a chain got, there are moves that bring it to its end. -/
theorem exists_driveAll_append_settled {hooks : List Hook} {before : Commons} {moves : List Move}
    {result : Commons × ChainProgress} (h : driveAll signal hooks before moves = some result) :
    ∃ more last, driveAll signal hooks before (moves ++ more) = some last ∧ last.2.Settled := by
  have hmore : ∀ {more}, driveAll signal hooks before (moves ++ more) =
      Progress.carry (ChainWait.resume signal) result more := by
    intro more
    rw [driveAll, Progress.carry_append, ← driveAll, h, Option.bind_some]
  obtain ⟨commons, outcome | message | wait⟩ := result
  case finished | panicked => exact ⟨[], _, hmore, trivial⟩
  obtain ⟨more, last, hlast, hsettled⟩ := exists_settled_proceed wait.hook
    (wait.current.exists_settled_of_next wait.current.next.exists_settled commons)
    (exists_driveAll_settled signal wait.remaining)
  exact ⟨more, last, hmore.trans hlast, hsettled⟩

/-! ### Chains however they were put together -/

/-- How a chain is put together. -/
inductive Assembly where
  | empty
  /-- One hook more, which may be in other places as well. -/
  | add (chain : Assembly) (hook : Hook)
  /-- One hook more, added to an engine that has the chain. -/
  | register (chain : Assembly) (policy : Policy) (hook : Hook)
  | append (chain other : Assembly)

namespace Assembly

def hooks : Assembly → List Hook
  | .empty => []
  | .add chain hook => chain.hooks ++ [hook]
  | .register chain policy hook => (Engine.addHook ⟨policy, chain.hooks⟩ hook).hooks
  | .append chain other => chain.hooks ++ other.hooks

/-- **Chains in order.** However a chain was put together, and whatever happens while it is on its way, it
is its hooks one after the other: each begins with the same signal where the one before has ended without
an error, and the first one that does not end so is the last to begin, its error being that of the chain.
The journal tells of exactly these hooks, and in a chain that ends without an error every hook begins as
often as it was put there. However far a chain got, it can come to its end. A chain that is put behind
another one begins where that ends without an error, and not at all if that ends in any other way; so does
a hook that is added. It makes no difference in which order chains are put behind one another, nor whether
an empty one is among them. -/
theorem runs_in_order (chain other third : Assembly) (policy : Policy) (hook : Hook) (signal : Signal)
    (before : Commons) (moves : List Move) :
    (∀ result, driveAll signal chain.hooks before moves = some result ↔
      Goes signal chain.hooks before moves result) ∧
    (∀ last progress, driveAll signal chain.hooks before moves = some (last, progress) →
      (∃ left, last.legs = before.legs ++ left ∧ Leaves signal chain.hooks left progress) ∧
      (progress = .finished (.ok ()) → ∀ label, last.legs.countP (Leg.begins label) =
        before.legs.countP (Leg.begins label) + chain.hooks.countP fun hook => hook.label = label) ∧
      ∃ more result, driveAll signal chain.hooks before (moves ++ more) = some result ∧
        result.2.Settled) ∧
    (∀ result,
      (driveAll signal (chain.append other).hooks before moves = some result ↔
        Follows signal chain.hooks other.hooks before moves result) ∧
      (driveAll signal (chain.add hook).hooks before moves = some result ↔
        Follows signal chain.hooks [hook] before moves result) ∧
      (driveAll signal (chain.register policy hook).hooks before moves = some result ↔
        Follows signal chain.hooks [hook] before moves result)) ∧
    ((chain.append other).append third).hooks = (chain.append (other.append third)).hooks ∧
    (Assembly.empty.append chain).hooks = chain.hooks ∧
    (chain.append .empty).hooks = chain.hooks := by
  refine ⟨fun result => driveAll_iff_goes, fun last progress h => ?_,
    fun result => ⟨driveAll_append_iff, driveAll_append_iff, driveAll_append_iff⟩,
    List.append_assoc _ _ _, List.nil_append _, List.append_nil _⟩
  obtain ⟨left, hlegs, hleaves⟩ := (driveAll_iff_goes.1 h).leaves
  refine ⟨⟨left, hlegs, hleaves⟩, fun hdone label => ?_, exists_driveAll_append_settled h⟩
  cases hdone
  cases hleaves
  rw [hlegs, List.countP_append, countP_legs]

/-- A hook that takes its time. -/
def weary : Hook := .custom "weary" fun _ => .sleep 5 (.done (.ok ()))

def unwilling : Hook := .custom "unwilling" fun _ => .done (.error (.message "no"))

def prompted : Signal := ⟨.closed ⟨4000, none⟩, 1, .zero, .reconnecting⟩

/-- A chain that waits, and one behind it whose error is the last thing to happen; and a hook that is
twice in a chain. -/
theorem runs_in_order_when_weary :
    (∃ last left,
      driveAll prompted (((Assembly.empty.add weary).append (.add .empty unwilling)).add weary).hooks
        .initial [.wait 5, .wake] = some (last, .finished (.error (.message "no"))) ∧
      last.legs = Commons.initial.legs ++ left ∧
      Leaves prompted (((Assembly.empty.add weary).append (.add .empty unwilling)).add weary).hooks left
        (.finished (.error (.message "no")))) ∧
    ∃ last,
      driveAll prompted ((Assembly.empty.add weary).add weary).hooks .initial
        [.wait 5, .wake, .wait 5, .wake] = some (last, .finished (.ok ())) ∧
      last.legs.countP (Leg.begins (.named "weary")) = 2 := by
  constructor
  · obtain ⟨-, hleaves, -⟩ := runs_in_order
      (((Assembly.empty.add weary).append (.add .empty unwilling)).add weary) .empty .empty .prompt weary
      prompted .initial [.wait 5, .wake]
    obtain ⟨⟨left, hlegs, hleft⟩, -⟩ := hleaves _ (.finished (.error (.message "no"))) rfl
    exact ⟨_, left, rfl, hlegs, hleft⟩
  · obtain ⟨-, hleaves, -⟩ := runs_in_order ((Assembly.empty.add weary).add weary) .empty .empty .prompt
      weary prompted .initial [.wait 5, .wake, .wait 5, .wake]
    obtain ⟨-, hcount, -⟩ := hleaves _ (.finished (.ok ())) rfl
    exact ⟨_, rfl, (hcount rfl (.named "weary")).trans rfl⟩

end Assembly

end Hook

end Rejoin
