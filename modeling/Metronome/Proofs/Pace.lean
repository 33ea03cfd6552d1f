import Metronome.Proofs.Tickless

namespace Metronome

def Debug.Command.mode? : Debug.Command → Option Debug.StepMode
  | .resume => some .run
  | .stepIn => some .stepIn
  | .stepOver => some .stepOver
  | .stepOut => some .stepOut
  | _ => none

namespace Run

open Metronome.Debug (Breakpoints Command Controller StepMode)
open Metronome.Script (Accepted Loaded Machine)

def drives (command : Command) : Bool :=
  match command with
  | .toggleBreakpoint _ => true
  | .setBreakpoints _ => true
  | _ => command.mode?.isSome

namespace Scheduler

variable {φ : Type}

def SetsNoTimeout (s : Scheduler Machine φ) (operation : Operation Machine φ) : Prop :=
  ∀ live request, Bursts s operation live request →
    (live.burst s.breakpoints request s.settings.tickBudget).1.live.timers.nextNumber = 0

def isStill (s : Scheduler Machine φ) : Bool :=
  !s.isRunning || s.isAtRest

end Scheduler

inductive Drives {φ : Type} : Scheduler Machine φ → Scheduler Machine φ → Prop where
  | still {s : Scheduler Machine φ} (still : s.isStill = true) : Drives s s
  | tick {s t : Scheduler Machine φ} {tick : PendingTick} (began ended : Instant)
      (busy : s.isStill = false) (pending : s.pending = some tick)
      (unset : s.takePending.1.SetsNoTimeout (.tick tick began ended))
      (rest : Drives (s.takePending.1.onTick tick began ended) t) : Drives s t

/-- A session: a run is started and driven, and driven again after each command. -/
inductive Driven (loaded : Loaded) {φ : Type} (s₀ : Scheduler Machine φ) :
    List Command → Scheduler Machine φ → Prop where
  | start {s : Scheduler Machine φ} (began ended : Instant)
      (unset : s₀.SetsNoTimeout (.start loaded.machine loaded.text.lineMap began ended))
      (driven : Drives (s₀.start loaded.machine loaded.text.lineMap began ended) s) :
      Driven loaded s₀ [] s
  | command {s t : Scheduler Machine φ} {commands : List Command} {command : Command}
      (before : Driven loaded s₀ commands s) (allowed : drives command = true)
      (driven : Drives (s.apply command) t) : Driven loaded s₀ (commands ++ [command]) t

namespace Tickless

def resumed (steps : Nat) (controller : Controller) : Tickless :=
  ⟨steps, controller.beginTick.1, false, false⟩

variable (loaded : Loaded) (quits : Bool) (u : Tickless)

def outcome : Option Outcome :=
  match (Alone.after loaded u.steps).failure with
  | some (message, line) => some (.failed message line)
  | none =>
    if Interpreter.isComplete (u.program loaded) ||
        (quits && u.asked && !u.controller.isAtRest) then some .completed
    else none

def farewell : List HostEvent :=
  (match (Alone.after loaded u.steps).failure with
    | some (message, line) =>
      [.output (Scheduler.errorReport message line), .annotated line message]
    | none => stopEvents u.controller) ++
    ((u.outcome loaded quits).map HostEvent.finished).toList

end Tickless

def Told (loaded : Loaded) (start now : Nat) (before after : List HostEvent) : Prop :=
  ∃ lines, after = before ++ lines.map .output ∧
    (Alone.after loaded now).printed = (Alone.after loaded start).printed ++ lines

theorem Told.trans {loaded : Loaded} {start middle now : Nat} {first second third : List HostEvent}
    (left : Told loaded start middle first second) (right : Told loaded middle now second third) :
    Told loaded start now first third := by
  obtain ⟨lines, rfl, printed⟩ := left
  obtain ⟨more, rfl, printedMore⟩ := right
  refine ⟨lines ++ more, ?_, ?_⟩
  · rw [List.map_append, List.append_assoc]
  · rw [printedMore, printed, List.append_assoc]

theorem Told.unique {loaded : Loaded} {start now : Nat} {before left right : List HostEvent}
    (first : Told loaded start now before left) (second : Told loaded start now before right) :
    left = right := by
  obtain ⟨lines, rfl, printed⟩ := first
  obtain ⟨more, rfl, printedMore⟩ := second
  rw [printed] at printedMore
  rw [List.append_cancel_left printedMore]

/-- What a session keeps of a scheduler: its ticks are not counted, its rule ends at most an idle run,
and the tick that it has pending is one of its run. -/
structure Steady (breakpoints : Breakpoints) (quits : Bool) (s : Scheduler Machine Unit) :
    Prop where
  endless : s.settings.maxTicks = none
  rule : s.finish = if quits then some finishWhenIdle else none
  breakpoints : s.breakpoints = breakpoints
  current : ∀ tick, s.pending = some tick → tick.run = s.runNumber

structure Between (loaded : Loaded) (n : Nat) (live : Live Machine)
    (s : Scheduler Machine Unit) : Prop where
  here : s.live = some live
  follows : Follows loaded n live
  sound : live.program.Sound live.lines
  awake : live.controller.isAtRest = false
  reason : live.controller.stopReason = none
  incomplete : Interpreter.isComplete live.program = false
  outcome : s.outcome = none

inductive Lands (loaded : Loaded) (quits : Bool) (u : Tickless) (s : Scheduler Machine Unit) :
    Prop where
  | ended {outcome : Outcome} (finished : u.outcome loaded quits = some outcome)
      (gone : s.live = none) (outcome : s.outcome = some outcome)
  | resting {live : Live Machine} (goesOn : u.outcome loaded quits = none)
      (here : s.live = some live) (follows : Follows loaded u.steps live)
      (sound : live.program.Sound live.lines)
      (controller : live.controller = u.controller.takeStopReason.1)
      (rests : u.controller.isAtRest = true)
      (incomplete : Interpreter.isComplete live.program = false) (outcome : s.outcome = none)

theorem Lands.still {loaded : Loaded} {quits : Bool} {u : Tickless} {s : Scheduler Machine Unit}
    (lands : Lands loaded quits u s) : s.isStill = true := by
  cases lands with
  | ended finished gone outcome => simp [Scheduler.isStill, Scheduler.isRunning, gone]
  | resting goesOn here follows sound controller rests =>
    have resting : s.isAtRest = true := by
      rw [Scheduler.isAtRest, here, Option.any_some, controller]
      exact rests
    simp [Scheduler.isStill, resting]

theorem Between.busy {loaded : Loaded} {n : Nat} {live : Live Machine} {s : Scheduler Machine Unit}
    (between : Between loaded n live s) : s.isStill = false := by
  simp [Scheduler.isStill, Scheduler.isRunning, Scheduler.isAtRest, between.here, between.awake]

namespace Steady

variable {breakpoints : Breakpoints} {quits : Bool} {s : Scheduler Machine Unit}
  {live : Live Machine}

def isOver (quits : Bool) (live : Live Machine) : Bool :=
  Interpreter.isComplete live.program ||
    (quits && live.response.seenEmptyQueue && !live.controller.isAtRest)

theorem checkFinished (steady : Steady breakpoints quits s) (here : s.live = some live)
    (queue : live.queue = []) (timers : live.timers = .empty) :
    s.checkFinished = if isOver quits live then s.endRun .completed else s := by
  unfold Scheduler.checkFinished isOver
  rw [here, steady.endless]
  dsimp only
  cases Interpreter.isComplete live.program with
  | true => rfl
  | false =>
    unfold Scheduler.consult
    rw [steady.rule]
    cases quits with
    | false => rfl
    | true =>
      have idle : (Scheduler.statusOf live).idle = live.response.seenEmptyQueue := by
        simp [Scheduler.statusOf, queue, timers, Timers.empty]
      have paused : (Scheduler.statusOf live).paused = live.controller.isAtRest := rfl
      have same : { s with finish := some finishWhenIdle } = s := by
        rw [show some finishWhenIdle = s.finish from steady.rule.symm]
      simp only [if_true, finishWhenIdle, idle, paused, Bool.true_and, Bool.false_or,
        Option.any_none, Bool.false_eq_true, if_false] at same ⊢
      cases live.response.seenEmptyQueue && !live.controller.isAtRest with
      | true =>
        simp only [if_true]
        exact congrArg (Scheduler.endRun · .completed) same
      | false =>
        simp only [Bool.false_eq_true, if_false]
        exact same

structure Closed (breakpoints : Breakpoints) (quits : Bool) (s : Scheduler Machine Unit)
    (live : Live Machine) (t : Scheduler Machine Unit) : Prop where
  steady : Steady breakpoints quits t
  leaves : t.live = if isOver quits live then none
    else some { live with controller := live.controller.takeStopReason.1 }
  outcome : t.outcome = if isOver quits live then some .completed else s.outcome
  transcript : t.transcript = s.transcript ++ stopEvents live.controller ++
    if isOver quits live then [.finished .completed] else []

theorem closeTick (steady : Steady breakpoints quits s) (now : Instant) (queue : live.queue = [])
    (timers : live.timers = .empty) :
    Closed breakpoints quits s live (s.closeTick live now) := by
  have released : live.timers.release now live.queue = (.empty, []) := by
    rw [timers, queue, release_empty]
  have same : ({ live with timers := .empty, queue := [] } : Live Machine) = live := by
    rw [← timers, ← queue]
  unfold Scheduler.closeTick
  rw [released]
  dsimp only
  rw [same]
  have told := Scheduler.transcript_reportStop { s with live := some live }
  have here := Scheduler.reportStop_live { s with live := some live }
  obtain ⟨notices, reported, reports⟩ := Scheduler.reportStop_eq { s with live := some live }
  have kept : Steady breakpoints quits (Scheduler.reportStop { s with live := some live }) := by
    rw [reports]
    exact ⟨steady.endless, steady.rule, steady.breakpoints, steady.current⟩
  have outcome : (Scheduler.reportStop { s with live := some live }).outcome = s.outcome := by
    rw [reports]
  generalize Scheduler.reportStop { s with live := some live } = r at told here kept outcome ⊢
  have finished : isOver quits { live with controller := live.controller.takeStopReason.1 } =
      isOver quits live := rfl
  rw [kept.checkFinished here queue timers, finished]
  cases ends : isOver quits live with
  | false =>
    refine ⟨kept, ?_, ?_, ?_⟩
    · rw [ends]
      exact here
    · rw [ends]
      exact outcome
    · rw [ends]
      exact told.trans (List.append_nil _).symm
  | true =>
    have toldEnd := Scheduler.transcript_endRun r .completed
    rw [here, told] at toldEnd
    obtain ⟨notices, reported, ended⟩ := Scheduler.endRun_eq here .completed
    rw [if_pos rfl]
    refine ⟨?_, ?_, ?_, ?_⟩
    · rw [ended]
      exact ⟨kept.endless, kept.rule, kept.breakpoints, by simp⟩
    · rw [ended, ends]
      rfl
    · rw [ended, ends]
      rfl
    · rw [ends]
      exact toldEnd

theorem failRun (steady : Steady breakpoints quits s) (here : s.live = some live)
    (error : StepError) (line : Option Nat) : Steady breakpoints quits (s.failRun error line) := by
  unfold Scheduler.failRun
  rw [here]
  dsimp only
  obtain ⟨notices, reported, ended⟩ := Scheduler.endRun_eq (s := (s.tell _).tell _) here
    (.failed error.message (Scheduler.failureLine live error line))
  rw [Scheduler.failureLine] at ended
  rw [ended]
  exact ⟨steady.endless, steady.rule, steady.breakpoints, by simp⟩

end Steady

inductive Ticked (loaded : Loaded) (breakpoints : Breakpoints) (quits : Bool) (t : Tickless)
    (before : List HostEvent) (s : Scheduler Machine Unit) : Prop where
  | goes {m : Nat} {live : Live Machine} (between : Between loaded m live s)
      (leads : t.Leads loaded breakpoints quits (.resumed m live.controller))
      (told : Told loaded t.steps m before s.transcript)
  | lands {u : Tickless} {told : List HostEvent} (halts : t.Halts loaded breakpoints quits u)
      (lands : Lands loaded quits u s) (tells : Told loaded t.steps u.steps before told)
      (farewell : s.transcript = told ++ u.farewell loaded quits)

theorem Between.begin {loaded : Loaded} {n : Nat} {live : Live Machine}
    {s : Scheduler Machine Unit} (between : Between loaded n live s) :
    Progress.Matches loaded (.resumed n live.controller) (Progress.begin live.ticked) := by
  obtain ⟨steps, reason⟩ := beginTick_steps between.awake
  have ticked : Follows loaded n live.ticked := between.follows.relive rfl rfl rfl rfl rfl
  refine ⟨⟨ticked.program, ticked.lines, ticked.queue, ticked.timers, ticked.unasked,
    ticked.lastLine, ticked.fine⟩, between.sound, Progress.begin_guarded (beginTick_active steps),
    rfl, rfl, rfl, fun reached => ?_, fun unwinding => ?_, fun _ done => ?_,
    fun _ => reason.trans between.reason, Controller.primed_beginTick live.controller⟩
  · cases reached
  · cases unwinding
  · cases done

namespace Steady

variable {loaded : Loaded} {breakpoints : Breakpoints} {quits : Bool} {t u : Tickless}
  {s : Scheduler Machine Unit} {live : Live Machine} {p : Progress Machine} {ending : Ending}
  {before : List HostEvent}

theorem outcome_meets (meets : Progress.Meets loaded quits u live) :
    u.outcome loaded quits = if isOver quits live then some .completed else none := by
  unfold Tickless.outcome isOver Tickless.program
  rw [meets.follows.fine, ← meets.follows.program, meets.controller, meets.asked]

theorem closeTick_goes (steady : Steady breakpoints quits s) (now : Instant)
    (leads : t.Leads loaded breakpoints quits u) (meets : Progress.Meets loaded quits u live)
    (going : u.halted loaded quits = false) (unset : live.timers.nextNumber = 0)
    (running : s.outcome = none) (told : Told loaded t.steps u.steps before s.transcript) :
    Ticked loaded breakpoints quits t before (s.closeTick live now) := by
  have follows := meets.follows
  have empty := follows.timers unset
  have noHalt := going
  simp only [Tickless.halted, Tickless.program, ← follows.program, ← meets.controller,
    ← meets.asked, Bool.or_eq_false_iff] at noHalt
  obtain ⟨⟨⟨-, incomplete⟩, noRest⟩, noEnd⟩ := noHalt
  -- At rest and unwinding it would have found no callback, and so be at its halt.
  have awake : live.controller.isAtRest = false := by
    cases rests : live.controller.isAtRest with
    | false => rfl
    | true =>
      rw [rests, Bool.true_and, Bool.or_eq_false_iff, meets.asked] at noRest
      rw [meets.calm going noRest.2] at noRest
      cases noRest.1
  have finished : isOver quits live = false := by
    rw [isOver, incomplete, Bool.and_comm quits, noEnd]
    rfl
  have reason := meets.reason awake
  have taken : live.controller.takeStopReason.1 = live.controller := by
    rw [Controller.takeStopReason, ← reason]
  obtain ⟨-, leaves, outcome, transcript⟩ := steady.closeTick now follows.queue empty
  rw [finished, if_neg (by simp)] at leaves outcome transcript
  rw [taken] at leaves
  rw [stopEvents, reason, List.append_nil, List.append_nil] at transcript
  refine .goes ⟨leaves, follows, meets.sound, awake, reason, incomplete, outcome.trans running⟩
    (fun v halts => leads v ?_) (transcript ▸ told)
  rw [Tickless.resumed, meets.primed, meets.controller] at halts
  obtain ⟨steps, controller, unwinding, asked⟩ := u
  cases asked with
  | true =>
    refine .next going ?_
    rw [Tickless.next_asked rfl]
    exact halts
  | false =>
    cases meets.calm going rfl
    exact halts

theorem closeTick_lands (steady : Steady breakpoints quits s) (now : Instant)
    (leads : t.Leads loaded breakpoints quits u) (meets : Progress.Meets loaded quits u live)
    (halted : u.halted loaded quits = true) (unset : live.timers.nextNumber = 0)
    (running : s.outcome = none) (told : Told loaded t.steps u.steps before s.transcript) :
    Ticked loaded breakpoints quits t before (s.closeTick live now) := by
  have follows := meets.follows
  have empty := follows.timers unset
  have outcomeAlone := outcome_meets meets
  obtain ⟨-, leaves, outcome, transcript⟩ := steady.closeTick now follows.queue empty
  have farewell : (s.closeTick live now).transcript = s.transcript ++ u.farewell loaded quits := by
    rw [transcript, List.append_assoc, Tickless.farewell, follows.fine, ← meets.controller,
      outcomeAlone]
    cases isOver quits live <;> rfl
  refine .lands (leads u (.here halted)) ?_ told farewell
  cases finished : isOver quits live with
  | true =>
    rw [finished, if_pos rfl] at leaves outcome outcomeAlone
    exact .ended outcomeAlone leaves outcome
  | false =>
    rw [finished, if_neg (by simp)] at leaves outcome outcomeAlone
    rw [isOver, Bool.or_eq_false_iff] at finished
    have rests : u.controller.isAtRest = true := by
      cases awake : u.controller.isAtRest with
      | true => rfl
      | false =>
        rw [meets.controller, awake, meets.asked] at finished
        rw [Tickless.halted, Tickless.program, follows.fine, ← follows.program, finished.1, awake]
          at halted
        simp [Bool.and_comm] at halted finished
        simp [halted] at finished
    exact .resting outcomeAlone leaves (follows.relive rfl rfl rfl rfl rfl) meets.sound
      (congrArg (·.takeStopReason.1) meets.controller) rests finished.1 (outcome.trans running)

theorem settle (steady : Steady breakpoints quits s) (atMaxSpeed : Bool) (ended : Instant)
    (leads : t.Leads loaded breakpoints quits u)
    (closes : Progress.Closes loaded quits u p ending)
    (tells : TellsAlone loaded t.steps u.steps p.notices)
    (unset : p.live.timers.nextNumber = 0) (running : s.outcome = none) :
    Steady breakpoints quits (s.settle atMaxSpeed ended (p, ending)) ∧
      Ticked loaded breakpoints quits t s.transcript (s.settle atMaxSpeed ended (p, ending)) := by
  obtain ⟨lines, toldLines, printed⟩ := tells
  cases closes with
  | @failed error line failure =>
    have here : (s.afterBurst p).live = some p.live := rfl
    have kept : Steady breakpoints quits (s.afterBurst p) :=
      ⟨steady.endless, steady.rule, steady.breakpoints, steady.current⟩
    have outcome : u.outcome loaded quits =
        some (.failed error.message (Scheduler.failureLine p.live error line)) := by
      rw [Tickless.outcome, failure]
    have halted : u.halted loaded quits = true := by
      rw [Tickless.halted, failure]
      rfl
    have told : (s.afterBurst p).transcript = s.transcript ++ lines.map .output := by
      change transcript (s.notices ++ p.notices) = _
      rw [transcript_append, toldLines]
      rfl
    refine ⟨kept.failRun here error line, .lands (leads u (.here halted))
      (.ended outcome (Scheduler.failRun_live _ _ _) (Scheduler.failRun_outcome here error line))
      ⟨lines, rfl, printed⟩ ?_⟩
    rw [← told, Tickless.farewell, outcome, failure]
    exact Scheduler.transcript_failRun here error line
  | between fine meets =>
    obtain ⟨lastSelected, same⟩ := Scheduler.shown_live atMaxSpeed p
    have shown : Progress.Meets loaded quits u (Scheduler.shown atMaxSpeed p).1 := by
      rw [same]
      exact ⟨meets.follows.relive rfl rfl rfl rfl rfl, meets.sound, meets.controller, meets.asked,
        meets.reason, meets.primed, meets.calm⟩
    have unsetShown : (Scheduler.shown atMaxSpeed p).1.timers.nextNumber = 0 := by
      rw [same]
      exact unset
    have kept : Steady breakpoints quits { s with
        notices := s.notices ++ (Scheduler.shown atMaxSpeed p).2 } :=
      ⟨steady.endless, steady.rule, steady.breakpoints, steady.current⟩
    have told : Told loaded t.steps u.steps s.transcript (Scheduler.transcript { s with
        notices := s.notices ++ (Scheduler.shown atMaxSpeed p).2 }) := by
      refine ⟨lines, ?_, printed⟩
      change transcript (s.notices ++ _) = _
      rw [transcript_append, Scheduler.transcript_shown, toldLines]
      rfl
    rw [Scheduler.settle_closes s atMaxSpeed ended p fine]
    refine ⟨(kept.closeTick ended shown.follows.queue
      (shown.follows.timers unsetShown)).steady, ?_⟩
    cases halted : u.halted loaded quits with
    | false => exact kept.closeTick_goes ended leads shown halted unsetShown running told
    | true => exact kept.closeTick_lands ended leads shown halted unsetShown running told

end Steady

section

variable {loaded : Loaded} {breakpoints : Breakpoints} {quits : Bool}

/-- A tick brings a run that is not at rest further along the run without ticks. -/
theorem Between.tick {n : Nat} {live : Live Machine} {s : Scheduler Machine Unit}
    {tick : PendingTick} (between : Between loaded n live s) (steady : Steady breakpoints quits s)
    (began ended : Instant) (current : tick.run = s.runNumber)
    (unset : (live.ticked.burst s.breakpoints (s.tickRequest began)
      s.settings.tickBudget).1.live.timers.nextNumber = 0) :
    Steady breakpoints quits (s.onTick tick began ended) ∧
      Ticked loaded breakpoints quits (.resumed n live.controller) s.transcript
        (s.onTick tick began ended) := by
  have begins := between.begin
  have tells : TellsAlone loaded n n (Progress.begin live.ticked).notices := ⟨[], rfl, by simp⟩
  have ends := Progress.passes_end s.breakpoints begins.guarded begins.sound
    (Progress.reserve_begin live.ticked (s.tickRequest began) s.settings.tickBudget)
  rw [Scheduler.onTick_steps began ended between.here current
    (beginTick_steps between.awake).1]
  unfold Live.burst at unset ⊢
  generalize ran : (Progress.begin live.ticked).passes _ _ _ _ = result at ends unset ⊢
  obtain ⟨p, ending⟩ := result
  obtain ⟨u, leads, closes, told⟩ := begins.passes quits tells rfl ran ends
  have kept : Steady breakpoints quits s.scheduled := by
    refine ⟨steady.endless, steady.rule, steady.breakpoints, fun tick pending => ?_⟩
    cases pending
    rfl
  rw [steady.breakpoints] at leads
  exact kept.settle _ _ leads closes told unset between.outcome

structure Halted (loaded : Loaded) (breakpoints : Breakpoints) (quits : Bool) (t u : Tickless)
    (before : List HostEvent) (s : Scheduler Machine Unit) : Prop where
  halts : t.Halts loaded breakpoints quits u
  lands : Lands loaded quits u s
  told : ∃ told, Told loaded t.steps u.steps before told ∧
    s.transcript = told ++ u.farewell loaded quits

theorem Drives.halted {n : Nat} {live : Live Machine} {s t : Scheduler Machine Unit}
    (driven : Drives s t) (between : Between loaded n live s) (steady : Steady breakpoints quits s) :
    Steady breakpoints quits t ∧
      ∃ u, Halted loaded breakpoints quits (.resumed n live.controller) u s.transcript t := by
  induction driven generalizing n live with
  | still still =>
    rw [between.busy] at still
    cases still
  | @tick s t tick began ended busy pending unset rest ih =>
    have taken : Between loaded n live s.takePending.1 :=
      ⟨between.here, between.follows, between.sound, between.awake, between.reason,
        between.incomplete, between.outcome⟩
    have kept : Steady breakpoints quits s.takePending.1 :=
      ⟨steady.endless, steady.rule, steady.breakpoints, by simp [Scheduler.takePending]⟩
    have current : tick.run = s.takePending.1.runNumber := steady.current tick pending
    have none_set := unset live.ticked _
      (.tick taken.here current (beginTick_steps between.awake).1)
    obtain ⟨steadyThen, ticked⟩ := taken.tick kept began ended current none_set
    cases ticked with
    | goes between leads told =>
      obtain ⟨steadyEnd, u, halts, lands, more, toldMore, farewell⟩ := ih between steadyThen
      exact ⟨steadyEnd, u, leads u halts, lands, more, told.trans toldMore, farewell⟩
    | @lands u told halts lands tells farewell =>
      cases rest with
      | still => exact ⟨steadyThen, u, halts, lands, told, tells, farewell⟩
      | tick _ _ busy =>
        rw [lands.still] at busy
        cases busy

theorem Drives.eq_of_still {φ : Type} {s t : Scheduler Machine φ} (driven : Drives s t)
    (still : s.isStill = true) : t = s := by
  cases driven with
  | still => rfl
  | tick _ _ busy =>
    rw [still] at busy
    cases busy

structure Agree (loaded : Loaded) (breakpoints : Breakpoints) (quits : Bool)
    (s t : Scheduler Machine Unit) : Prop where
  lands : ∃ u, Lands loaded quits u s ∧ Lands loaded quits u t
  told : s.transcript = t.transcript
  left : Steady breakpoints quits s
  right : Steady breakpoints quits t

theorem Agree.outcome {s t : Scheduler Machine Unit} (agree : Agree loaded breakpoints quits s t) :
    s.outcome = t.outcome ∧ s.isRunning = t.isRunning := by
  obtain ⟨u, left, right⟩ := agree.lands
  cases left with
  | ended finished gone outcome =>
    cases right with
    | ended finished' gone' outcome' =>
      rw [finished] at finished'
      cases finished'
      simp [Scheduler.isRunning, gone, gone', outcome, outcome']
    | resting goesOn =>
      rw [finished] at goesOn
      cases goesOn
  | resting goesOn here follows sound controller rests incomplete outcome =>
    cases right with
    | ended finished' =>
      rw [goesOn] at finished'
      cases finished'
    | resting goesOn' here' follows' sound' controller' rests' incomplete' outcome' =>
      simp [Scheduler.isRunning, here, here', outcome, outcome']

theorem Agree.driven {n : Nat} {left right : Live Machine} {s s' t t' : Scheduler Machine Unit}
    (drivenLeft : Drives s s') (drivenRight : Drives t t') (goesLeft : Between loaded n left s)
    (goesRight : Between loaded n right t) (same : left.controller = right.controller)
    (told : s.transcript = t.transcript) (steadyLeft : Steady breakpoints quits s)
    (steadyRight : Steady breakpoints quits t) : Agree loaded breakpoints quits s' t' := by
  obtain ⟨keptLeft, u, halts, lands, all, tells, farewell⟩ := drivenLeft.halted goesLeft steadyLeft
  obtain ⟨keptRight, v, halts', lands', all', tells', farewell'⟩ :=
    drivenRight.halted goesRight steadyRight
  rw [same] at halts tells
  rw [told] at tells
  cases halts.unique halts'
  cases tells.unique tells'
  exact ⟨⟨u, lands, lands'⟩, farewell.trans farewell'.symm, keptLeft, keptRight⟩

theorem step_goes (c : Controller) (mode : StepMode) :
    (c.step mode).isAtRest = false ∧ (c.step mode).stopReason = none := by
  unfold Controller.step
  split
  · exact ⟨rfl, rfl⟩
  · rename_i other
    refine ⟨?_, rfl⟩
    cases mode with
    | run => exact absurd rfl other
    | _ => rfl

theorem apply_mode {s : Scheduler Machine Unit} {command : Command} {mode : StepMode}
    (goesOn : command.mode? = some mode) {live : Live Machine} (here : s.live = some live)
    (paused : live.controller.isPaused = true) :
    s.apply command = Scheduler.reportPauseState
      { s with live := some { live with controller := live.controller.step mode } } := by
  have stepped : s.beginStep mode = Scheduler.reportPauseState
      { s with live := some { live with controller := live.controller.step mode } } := by
    unfold Scheduler.beginStep
    rw [here]
  cases command with
  | resume =>
    cases goesOn
    simp only [Scheduler.apply, Scheduler.resume]
    rw [here]
    simp only [paused, if_true]
    rfl
  | stepIn | stepOver =>
    cases goesOn
    exact stepped
  | stepOut =>
    cases goesOn
    simp only [Scheduler.apply, Scheduler.stepOut, here, Option.any_some, paused, if_true]
    exact stepped
  | _ => cases goesOn

theorem apply_ended {s : Scheduler Machine Unit} {command : Command}
    (goesOn : command.mode?.isSome = true) (gone : s.live = none) : s.apply command = s := by
  have stepped : ∀ mode, s.beginStep mode = s := by
    intro mode
    unfold Scheduler.beginStep
    rw [gone]
  cases command with
  | resume =>
    simp only [Scheduler.apply, Scheduler.resume]
    rw [gone]
  | stepIn => exact stepped _
  | stepOver => exact stepped _
  | stepOut => simp [Scheduler.apply, Scheduler.stepOut, gone]
  | _ => cases goesOn

theorem Lands.goes {u : Tickless} {s : Scheduler Machine Unit} {command : Command}
    {mode : StepMode} (steady : Steady breakpoints quits s) (goesOn : command.mode? = some mode)
    {live : Live Machine} (here : s.live = some live) (follows : Follows loaded u.steps live)
    (sound : live.program.Sound live.lines) (rests : live.controller.isAtRest = true)
    (incomplete : Interpreter.isComplete live.program = false) (outcome : s.outcome = none) :
    Between loaded u.steps { live with controller := live.controller.step mode }
        (s.apply command) ∧
      Steady breakpoints quits (s.apply command) ∧
      (s.apply command).transcript = s.transcript := by
  have paused : live.controller.isPaused = true := by
    have state : live.controller.state = .paused .run := eq_of_beq rests
    rw [Controller.isPaused, state]
  obtain ⟨awake, reason⟩ := step_goes live.controller mode
  rw [apply_mode goesOn here paused, Scheduler.transcript_reportPauseState]
  obtain ⟨notices, reported, same⟩ := Scheduler.reportPauseState_eq
    { s with live := some { live with controller := live.controller.step mode } }
  rw [same]
  exact ⟨⟨rfl, follows.relive rfl rfl rfl rfl rfl, sound, awake, reason, incomplete, outcome⟩,
    ⟨steady.endless, steady.rule, steady.breakpoints, steady.current⟩, rfl⟩

theorem Agree.goes {command : Command} {mode : StepMode} {s s' t t' : Scheduler Machine Unit}
    (agree : Agree loaded breakpoints quits s t) (goesOn : command.mode? = some mode)
    (left : Drives (s.apply command) s') (right : Drives (t.apply command) t') :
    Agree loaded breakpoints quits s' t' := by
  obtain ⟨⟨u, landsLeft, landsRight⟩, told, steadyLeft, steadyRight⟩ := agree
  have some_mode : command.mode?.isSome = true := by rw [goesOn]; rfl
  cases landsLeft with
  | ended finished gone outcome =>
    cases landsRight with
    | ended finished' gone' outcome' =>
      rw [apply_ended some_mode gone] at left
      rw [apply_ended some_mode gone'] at right
      have first : Lands loaded quits u s := .ended finished gone outcome
      have second : Lands loaded quits u t := .ended finished' gone' outcome'
      rw [left.eq_of_still first.still, right.eq_of_still second.still]
      exact ⟨⟨u, first, second⟩, told, steadyLeft, steadyRight⟩
    | resting open' =>
      rw [finished] at open'
      cases open'
  | resting goes here follows sound controller rests incomplete outcome =>
    cases landsRight with
    | ended finished' =>
      rw [goes] at finished'
      cases finished'
    | resting goes' here' follows' sound' controller' rests' incomplete' outcome' =>
      obtain ⟨betweenLeft, keptLeft, toldLeft⟩ := Lands.goes steadyLeft goesOn here follows sound
        (controller ▸ rests) incomplete outcome
      obtain ⟨betweenRight, keptRight, toldRight⟩ := Lands.goes steadyRight goesOn here' follows'
        sound' (controller' ▸ rests') incomplete' outcome'
      exact Agree.driven left right betweenLeft betweenRight
        (by simp [controller, controller']) (toldLeft.trans (told.trans toldRight.symm)) keptLeft
        keptRight

theorem Lands.repointed {u : Tickless} {s : Scheduler Machine Unit} (other : Breakpoints)
    (lands : Lands loaded quits u s) : Lands loaded quits u { s with breakpoints := other } := by
  cases lands with
  | ended finished gone outcome => exact .ended finished gone outcome
  | resting goes here follows sound controller rests incomplete outcome =>
    exact .resting goes here follows sound controller rests incomplete outcome

theorem Agree.repointed {s s' t t' : Scheduler Machine Unit} {other : Breakpoints}
    (agree : Agree loaded breakpoints quits s t)
    (left : Drives { s with breakpoints := other } s')
    (right : Drives { t with breakpoints := other } t') : Agree loaded other quits s' t' := by
  obtain ⟨⟨u, landsLeft, landsRight⟩, told, steadyLeft, steadyRight⟩ := agree
  have first := landsLeft.repointed other
  have second := landsRight.repointed other
  rw [left.eq_of_still first.still, right.eq_of_still second.still]
  exact ⟨⟨u, first, second⟩, told,
    ⟨steadyLeft.endless, steadyLeft.rule, rfl, steadyLeft.current⟩,
    ⟨steadyRight.endless, steadyRight.rule, rfl, steadyRight.current⟩⟩

theorem Agree.command {command : Command} {s s' t t' : Scheduler Machine Unit}
    (agree : Agree loaded breakpoints quits s t) (allowed : drives command = true)
    (left : Drives (s.apply command) s') (right : Drives (t.apply command) t') :
    ∃ other, Agree loaded other quits s' t' := by
  cases goesOn : command.mode? with
  | some mode => exact ⟨breakpoints, agree.goes goesOn left right⟩
  | none =>
    cases command with
    | toggleBreakpoint line =>
      have same : s.breakpoints = t.breakpoints :=
        agree.left.breakpoints.trans agree.right.breakpoints.symm
      refine ⟨s.breakpoints.toggle line, agree.repointed left ?_⟩
      rw [same]
      exact right
    | setBreakpoints lines => exact ⟨.ofList lines, agree.repointed left right⟩
    | pause => cases allowed
    | setSpeed => cases allowed
    | stop => cases allowed
    | _ => cases goesOn

def Scheduler.ready (settings : Settings) (finish : Option (FinishRule Unit))
    (points : List Nat) : Scheduler Machine Unit :=
  (Scheduler.new settings finish).setBreakpoints points

theorem Scheduler.ready_opened (settings : Settings) (finish : Option (FinishRule Unit))
    (points : List Nat) (program : Machine) (lines : LineMap) :
    ∃ notices reported,
      (Scheduler.ready settings finish points).opened program lines =
          { Scheduler.ready settings finish points with
            runNumber := 1
            outcome := none
            live := some (Live.start program lines settings.pauseOnEntry)
            notices
            reported } ∧
        Run.transcript notices = [] := by
  let begun : Scheduler Machine Unit :=
    { Scheduler.ready settings finish points with
      runNumber := 1
      outcome := none
      live := some (Live.start program lines settings.pauseOnEntry) }
  obtain ⟨notices, reported, same⟩ := Scheduler.reportPauseState_eq begun
  have silent := Scheduler.transcript_reportPauseState begun
  rw [same] at silent
  exact ⟨notices, reported, same, silent⟩

theorem Drives.started {settings : Settings} {finish : Option (FinishRule Unit)}
    {points : List Nat} {began ended : Instant} {s : Scheduler Machine Unit}
    (accepted : Accepted loaded) (endless : settings.maxTicks = none)
    (rule : finish = if quits then some finishWhenIdle else none)
    (unset : (Scheduler.ready settings finish points).SetsNoTimeout
      (.start loaded.machine loaded.text.lineMap began ended))
    (driven : Drives ((Scheduler.ready settings finish points).start loaded.machine
      loaded.text.lineMap began ended) s) :
    ∃ t live, Drives t s ∧ Between loaded 0 live t ∧ Steady (.ofList points) quits t ∧
      live.controller = .start settings.pauseOnEntry ∧ t.transcript = [] := by
  obtain ⟨notices, reported, opens, silent⟩ := Scheduler.ready_opened settings finish points
    loaded.machine loaded.text.lineMap
  rw [Scheduler.start_opened, opens] at driven
  obtain ⟨program, machine, -, -⟩ := accepted.program
  have incomplete : Interpreter.isComplete loaded.machine = false := by
    rw [machine]
    rfl
  have awake : (Controller.start settings.pauseOnEntry).isAtRest = false ∧
      (Controller.start settings.pauseOnEntry).stopReason = none := by
    cases settings.pauseOnEntry <;> exact ⟨rfl, rfl⟩
  have goes : ∀ t : Scheduler Machine Unit,
      t.live = some (Live.start loaded.machine loaded.text.lineMap settings.pauseOnEntry) →
      t.outcome = none → Between loaded 0
        (Live.start loaded.machine loaded.text.lineMap settings.pauseOnEntry) t :=
    fun t here running => ⟨here, .start accepted _, accepted.sound, awake.1, awake.2, incomplete,
      running⟩
  split at driven
  · refine ⟨_, _, driven, goes _ rfl rfl, ⟨endless, rule, rfl, fun tick pending => ?_⟩, rfl, silent⟩
    cases pending
    rfl
  · rename_i running
    let opened : Scheduler Machine Unit :=
      { Scheduler.ready settings finish points with
        runNumber := 1
        outcome := none
        live := some (Live.start loaded.machine loaded.text.lineMap settings.pauseOnEntry)
        notices
        reported }
    let waiting : Scheduler Machine Unit := { opened with pending := some ⟨1, 0⟩ }
    have between : Between loaded 0 _ waiting := goes waiting rfl rfl
    have entry : settings.pauseOnEntry = false := Bool.eq_false_iff.mpr running
    have first : waiting.takePending.1.SetsNoTimeout (.tick ⟨1, 0⟩ began ended) := by
      intro live request runs
      cases runs with
      | tick here =>
        cases here
        rw [entry]
        exact unset _ _ (.start entry)
    refine ⟨waiting, _, .tick began ended between.busy rfl first driven, between,
      ⟨endless, rule, rfl, fun tick pending => ?_⟩, rfl, silent⟩
    cases pending
    rfl

end

/-- Two sessions of one accepted source whose settings differ in the budget and the speed only, with
the same commands: when both have come to rest or ended after each of them, they have told the same
stops and the same output in the same order, and have ended alike. -/
theorem pace_irrelevant {loaded : Loaded} {fast slow : Settings}
    {finish : Option (FinishRule Unit)} {points : List Nat} {commands : List Command}
    {s t : Scheduler Machine Unit} (accepted : Accepted loaded)
    (same : slow = { fast with speed := slow.speed, tickBudget := slow.tickBudget })
    (endless : fast.maxTicks = none) (rule : finish = none ∨ finish = some finishWhenIdle)
    (left : Driven loaded ((Scheduler.new fast finish).setBreakpoints points) commands s)
    (right : Driven loaded ((Scheduler.new slow finish).setBreakpoints points) commands t) :
    s.transcript = t.transcript ∧ s.outcome = t.outcome ∧ s.isRunning = t.isRunning := by
  suffices agree : ∃ breakpoints quits, Agree loaded breakpoints quits s t by
    obtain ⟨breakpoints, quits, agree⟩ := agree
    exact ⟨agree.told, agree.outcome⟩
  obtain ⟨quits, rules⟩ : ∃ quits : Bool, finish = if quits then some finishWhenIdle else none := by
    rcases rule with none_set | idle
    · exact ⟨false, none_set⟩
    · exact ⟨true, idle⟩
  have entry : slow.pauseOnEntry = fast.pauseOnEntry := by rw [same]
  have endlessToo : slow.maxTicks = none := by rw [same]; exact endless
  induction left generalizing t with
  | start began ended unset driven =>
    generalize given : ([] : List Command) = commands at right
    cases right with
    | command => simp at given
    | start began' ended' unset' driven' =>
      obtain ⟨s', live, drives, between, steady, controller, silent⟩ :=
        driven.started accepted endless rules unset
      obtain ⟨t', live', drives', between', steady', controller', silent'⟩ :=
        driven'.started accepted endlessToo rules unset'
      refine ⟨_, quits, Agree.driven drives drives' between between' ?_
        (silent.trans silent'.symm) steady steady'⟩
      rw [controller, controller', entry]
  | @command s s' commands command before allowed driven ih =>
    generalize given : commands ++ [command] = all at right
    cases right with
    | start => simp at given
    | @command t t' others other before' allowed' driven' =>
      obtain ⟨rfl, last⟩ := List.append_inj' given rfl
      cases last
      obtain ⟨breakpoints, quits, agree⟩ := ih before'
      obtain ⟨changed, again⟩ := agree.command allowed driven driven'
      exact ⟨changed, quits, again⟩

def Scheduler.drive {φ : Type} : Nat → Scheduler Machine φ → Option (Scheduler Machine φ)
  | 0, s => if s.isStill then some s else none
  | fuel + 1, s =>
    if s.isStill then some s
    else
      match s.live, s.pending with
      | some live, some tick =>
        if (live.ticked.burst s.breakpoints (s.tickRequest 0)
            s.settings.tickBudget).1.live.timers.nextNumber = 0 then
          drive fuel (s.takePending.1.onTick tick 0 0)
        else none
      | _, _ => none

theorem Scheduler.drive_drives {φ : Type} {fuel : Nat} {s t : Scheduler Machine φ}
    (driven : s.drive fuel = some t) : Drives s t := by
  induction fuel generalizing s with
  | zero =>
    unfold drive at driven
    split at driven
    · cases driven
      exact .still ‹_›
    · cases driven
  | succ fuel ih =>
    unfold drive at driven
    split at driven
    · cases driven
      exact .still ‹_›
    · rename_i busy
      split at driven
      · rename_i live tick here pending
        split at driven
        · rename_i unset
          refine .tick 0 0 (by simpa using busy) pending ?_ (ih driven)
          intro other request runs
          cases runs with
          | tick there =>
            rw [show s.takePending.1.live = s.live from rfl, here] at there
            cases there
            exact unset
        · cases driven
      · cases driven

def greetingSession (settings : Settings) (loaded : Loaded) : Option (Scheduler Machine Unit) := do
  let entered ← (((Scheduler.new settings (some finishWhenIdle)).setBreakpoints []).start
    loaded.machine loaded.text.lineMap 0 0).drive 50
  let stepped ← (entered.apply .stepOver).drive 50
  (stepped.apply .resume).drive 50

def brisk : Settings :=
  { Settings.default with pauseOnEntry := true }

def sluggish : Settings :=
  { brisk with speed := 0.5, tickBudget := 1 }

theorem greetingSession_driven {settings : Settings} {loaded : Loaded}
    {s : Scheduler Machine Unit} (entry : settings.pauseOnEntry = true)
    (ran : greetingSession settings loaded = some s) :
    Driven loaded ((Scheduler.new settings (some finishWhenIdle)).setBreakpoints [])
      [.stepOver, .resume] s := by
  obtain ⟨entered, first, rest⟩ := Option.bind_eq_some_iff.mp ran
  obtain ⟨stepped, second, third⟩ := Option.bind_eq_some_iff.mp rest
  have begins := Scheduler.drive_drives first
  refine .command (.command 
    (.start 0 0 (fun live request runs => ?_) begins) rfl (Scheduler.drive_drives second)) rfl
    (Scheduler.drive_drives third)
  cases runs with
  | start steps =>
    have running : settings.pauseOnEntry = false := steps
    rw [entry] at running
    cases running

theorem load_greetingSession : ∃ loaded, Script.load greeting = .ok loaded ∧
    (greetingSession brisk loaded).isSome ∧ (greetingSession sluggish loaded).isSome := by
  have read : (match Script.load greeting with
    | .ok loaded =>
      (greetingSession brisk loaded).isSome && (greetingSession sluggish loaded).isSome
    | .error _ => false) = true := by decide +kernel
  cases same : Script.load greeting with
  | ok loaded =>
    rw [same] at read
    exact ⟨loaded, rfl, Bool.and_eq_true_iff.mp read⟩
  | error problem =>
    rw [same] at read
    cases read

/-- One session in ticks without a limit to speak of, and one in ticks of a step. -/
theorem greeting_pace_irrelevant : ∃ (loaded : Loaded) (s t : Scheduler Machine Unit),
    Script.load greeting = .ok loaded ∧
      Driven loaded ((Scheduler.new brisk (some finishWhenIdle)).setBreakpoints [])
        [.stepOver, .resume] s ∧
      Driven loaded ((Scheduler.new sluggish (some finishWhenIdle)).setBreakpoints [])
        [.stepOver, .resume] t ∧
      s.transcript = t.transcript ∧ s.outcome = t.outcome ∧ s.isRunning = t.isRunning := by
  obtain ⟨loaded, read, fast, slow⟩ := load_greetingSession
  obtain ⟨s, left⟩ := Option.isSome_iff_exists.mp fast
  obtain ⟨t, right⟩ := Option.isSome_iff_exists.mp slow
  have drivenLeft := greetingSession_driven rfl left
  have drivenRight := greetingSession_driven rfl right
  exact ⟨loaded, s, t, read, drivenLeft, drivenRight,
    pace_irrelevant (.polling read) rfl rfl (.inr rfl) drivenLeft drivenRight⟩

end Run

end Metronome
