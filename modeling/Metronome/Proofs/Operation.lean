import Metronome.Proofs.Pass
import Metronome.Run.Scheduler
import Metronome.Script.Machine

namespace Metronome.Run

open Metronome.Debug (Breakpoints Command Controller ExecState StepMode)

/-- What a host can do with a scheduler. -/
inductive Operation (σ φ : Type) where
  | install (rule : FinishRule φ)
  | start (program : σ) (lines : LineMap) (began ended : Instant)
  | take
  | tick (tick : PendingTick) (began ended : Instant)
  | dispatch (callback : Callback) (now : Instant)
  | command (command : Command)
  | reset

variable {σ φ : Type} [Interpreter σ]

namespace Scheduler

def perform (s : Scheduler σ φ) : Operation σ φ → Scheduler σ φ
  | .install rule => { s with finish := some rule }
  | .start program lines began ended => s.start program lines began ended
  | .take => s.takePending.1
  | .tick tick began ended => s.onTick tick began ended
  | .dispatch callback now => (s.dispatch callback now).1
  | .command command => s.apply command
  | .reset => s.reset

def performAll (s : Scheduler σ φ) (operations : List (Operation σ φ)) : Scheduler σ φ :=
  operations.foldl perform s

theorem performAll_append (s : Scheduler σ φ) (before after : List (Operation σ φ)) :
    s.performAll (before ++ after) = (s.performAll before).performAll after :=
  List.foldl_append

theorem performAll_concat (s : Scheduler σ φ) (before : List (Operation σ φ))
    (operation : Operation σ φ) :
    s.performAll (before ++ [operation]) = (s.performAll before).perform operation :=
  performAll_append s before [operation]

end Scheduler

def Live.ticked (live : Live σ) : Live σ :=
  { live with ticks := live.ticks + 1, controller := live.controller.beginTick.1 }

def Live.called (live : Live σ) (callback : Callback) : Live σ :=
  { live with
    queue := live.queue ++ [callback]
    response := { live.response with lastReturn := none } }

/-- A live run that nothing happened to, but that the host may have taken the reason for a stop. -/
structure Live.Idled (live next : Live σ) : Prop where
  program : next.program = live.program
  lines : next.lines = live.lines
  controller : next.controller = live.controller ∨
    next.controller = live.controller.takeStopReason.1

theorem beginTick_eq (c : Controller) :
    ∃ stepOutDepth, c.beginTick.1 = { c with stepOutDepth } := by
  unfold Controller.beginTick
  split
  · exact ⟨_, rfl⟩
  · dsimp only
    split <;> exact ⟨_, rfl⟩
  · exact ⟨_, rfl⟩

theorem Live.Idled.silent {σ : Type} {live next : Live σ} (idled : live.Idled next)
    (silent : live.controller.stopReason = none) : next.controller.stopReason = none := by
  rcases idled.controller with same | taken
  · rw [same, silent]
  · rw [taken]
    rfl

theorem beginTick_rests {c : Controller} (rests : c.beginTick.2 = false) : c.beginTick.1 = c := by
  obtain ⟨state, stopPoint, depths, first, out, entry, reason⟩ := c
  cases state with
  | running => rfl
  | paused mode =>
    cases mode with
    | stepOut => cases out <;> cases rests
    | _ => rfl

inductive Minds {σ φ : Type} (operation : Operation σ φ) (c : Controller) : Controller → Prop where
  | same : Minds operation c c
  | told : Minds operation c c.takeStopReason.1
  | paused (pauses : operation = .command .pause) : Minds operation c c.pause.1.takeStopReason.1
  | enters (state : ExecState) (active : state ≠ .paused .run) : Minds operation c (c.enterState state)

theorem Minds.silent {σ φ : Type} {operation : Operation σ φ} {c next : Controller}
    (minds : Minds operation c next) (silent : c.stopReason = none) : next.stopReason = none := by
  cases minds with
  | same => exact silent
  | _ => rfl

theorem step_enters (c : Controller) (mode : StepMode) :
    ∃ state, state ≠ .paused .run ∧ c.step mode = c.enterState state := by
  unfold Controller.step
  split
  · exact ⟨.running, by simp, rfl⟩
  · rename_i steps
    exact ⟨.paused mode, by simpa using steps, rfl⟩

/-- The burst that an operation runs: the live run that it begins with, and what is asked of it. -/
inductive Bursts (s : Scheduler σ φ) : Operation σ φ → Live σ → Request → Prop where
  | tick {live : Live σ} {tick : PendingTick} {began ended : Instant} (here : s.live = some live)
      (current : tick.run = s.runNumber) (steps : live.controller.beginTick.2 = true) :
      Bursts s (.tick tick began ended) live.ticked (s.tickRequest began)
  | dispatch {live : Live σ} {callback : Callback} {now : Instant} (here : s.live = some live)
      (running : live.controller.isPaused = false) :
      Bursts s (.dispatch callback now) (live.called callback) (s.dispatchRequest now)
  | start {program : σ} {lines : LineMap} {began ended : Instant}
      (steps : s.settings.pauseOnEntry = false) :
      Bursts s (.start program lines began ended) (Live.start program lines false).ticked
        (s.tickRequest began)

def Scheduler.burstOf (s : Scheduler σ φ) : Operation σ φ → Option (Live σ × Request)
  | .tick tick began _ => s.live.bind fun live =>
    if tick.run = s.runNumber ∧ live.controller.beginTick.2 = true then
      some (live.ticked, s.tickRequest began)
    else none
  | .dispatch callback now => s.live.bind fun live =>
    if live.controller.isPaused then none
    else some (live.called callback, s.dispatchRequest now)
  | .start program lines began _ =>
    if s.settings.pauseOnEntry then none
    else some ((Live.start program lines false).ticked, s.tickRequest began)
  | _ => none

omit [Interpreter σ] in
theorem bursts_iff {s : Scheduler σ φ} {operation : Operation σ φ} {live : Live σ}
    {request : Request} :
    Bursts s operation live request ↔ s.burstOf operation = some (live, request) := by
  constructor
  · intro runs
    cases runs with
    | tick here current steps => simp [Scheduler.burstOf, here, current, steps]
    | dispatch here running => simp [Scheduler.burstOf, here, running]
    | start steps => simp [Scheduler.burstOf, steps]
  · intro found
    unfold Scheduler.burstOf at found
    split at found
    · obtain ⟨first, here, same⟩ := Option.bind_eq_some_iff.mp found
      split at same
      · rename_i current
        cases same
        exact .tick here current.1 current.2
      · cases same
    · obtain ⟨first, here, same⟩ := Option.bind_eq_some_iff.mp found
      split at same
      · cases same
      · rename_i running
        cases same
        exact .dispatch here (by simpa using running)
    · split at found
      · cases found
      · rename_i steps
        cases found
        exact .start (by simpa using steps)
    · cases found

omit [Interpreter σ] in
theorem Bursts.speed {s : Scheduler σ φ} {operation : Operation σ φ} {live : Live σ}
    {request : Request} (runs : Bursts s operation live request) :
    request.atMaxSpeed = s.clock.atMaxSpeed := by
  cases runs <;> rfl

namespace Scheduler

theorem reportPauseState_eq {σ φ : Type} (s : Scheduler σ φ) :
    ∃ notices reported, s.reportPauseState = { s with notices, reported } := by
  unfold reportPauseState
  split <;> exact ⟨_, _, rfl⟩

@[simp] theorem reportPauseState_live {σ φ : Type} (s : Scheduler σ φ) :
    s.reportPauseState.live = s.live := by
  obtain ⟨notices, reported, same⟩ := s.reportPauseState_eq
  rw [same]

theorem reportStop_eq {σ φ : Type} (s : Scheduler σ φ) :
    ∃ notices reported, s.reportStop = { s with
      live := s.live.map fun live => { live with controller := live.controller.takeStopReason.1 }
      notices
      reported } := by
  unfold reportStop
  split
  · rename_i gone
    obtain ⟨settings, clock, breakpoints, live, _⟩ := s
    cases gone
    exact ⟨_, _, rfl⟩
  · rename_i live here
    rw [here]
    dsimp only
    split
    · obtain ⟨notices, reported, same⟩ := reportPauseState_eq
        (tell { s with live := some { live with controller := live.controller.takeStopReason.1 } }
          _)
      exact ⟨notices, reported, same⟩
    · exact reportPauseState_eq _

theorem reportStop_live {σ φ : Type} (s : Scheduler σ φ) :
    s.reportStop.live =
      s.live.map fun live => { live with controller := live.controller.takeStopReason.1 } := by
  obtain ⟨notices, reported, same⟩ := s.reportStop_eq
  rw [same]

theorem endRun_eq {σ φ : Type} {s : Scheduler σ φ} {live : Live σ} (here : s.live = some live)
    (outcome : Outcome) : ∃ notices reported, s.endRun outcome =
      { s with live := none, pending := none, outcome := some outcome, notices, reported } := by
  unfold endRun
  rw [here]
  exact reportPauseState_eq _

@[simp] theorem endRun_live {σ φ : Type} (s : Scheduler σ φ) (outcome : Outcome) :
    (s.endRun outcome).live = none := by
  unfold endRun
  split
  · assumption
  · simp [tell]

@[simp] theorem failRun_live {σ φ : Type} (s : Scheduler σ φ) (error : StepError)
    (line : Option Nat) :
    (s.failRun error line).live = none := by
  unfold failRun
  split
  · assumption
  · simp

theorem checkFinished_live (s : Scheduler σ φ) :
    s.checkFinished.live = none ∨ s.checkFinished.live = s.live := by
  unfold checkFinished
  split
  · exact .inr rfl
  · split
    · exact .inl (by simp)
    · split
      · exact .inl (by simp)
      · unfold consult
        split
        · exact .inr rfl
        · dsimp only
          split
          · exact .inl (by simp)
          · exact .inr rfl

theorem select_live {σ : Type} [Interpreter σ] (live : Live σ) (force : Bool) (notices : Array Notice) :
    ∃ lastSelected, (live.select force notices).1 = { live with lastSelected } := by
  unfold Live.select
  split
  · exact ⟨_, rfl⟩
  · split <;> exact ⟨_, rfl⟩

theorem shown_live (atMaxSpeed : Bool) (p : Progress σ) :
    ∃ lastSelected, (shown atMaxSpeed p).1 = { p.live with lastSelected } := by
  unfold shown
  split
  · exact select_live _ _ _
  · exact ⟨_, rfl⟩

theorem closeTick_live (s : Scheduler σ φ) (live : Live σ) (now : Instant) :
    (s.closeTick live now).live = none ∨
      (s.closeTick live now).live = some { live with
        timers := (live.timers.release now live.queue).1
        queue := (live.timers.release now live.queue).2
        controller := live.controller.takeStopReason.1 } := by
  unfold closeTick
  dsimp only
  rcases checkFinished_live (reportStop { s with live := some { live with
    timers := (live.timers.release now live.queue).1
    queue := (live.timers.release now live.queue).2 } }) with gone | kept
  · exact .inl gone
  · exact .inr (by rw [kept, reportStop_live]; rfl)

theorem reportPauseState_keeps {σ φ : Type} (s : Scheduler σ φ) :
    s.reportPauseState.settings = s.settings ∧ s.reportPauseState.clock = s.clock ∧
      s.reportPauseState.breakpoints = s.breakpoints ∧ s.reportPauseState.finish = s.finish := by
  obtain ⟨notices, reported, same⟩ := s.reportPauseState_eq
  rw [same]
  exact ⟨rfl, rfl, rfl, rfl⟩

theorem endRun_keeps {σ φ : Type} (s : Scheduler σ φ) (outcome : Outcome) :
    (s.endRun outcome).settings = s.settings ∧ (s.endRun outcome).clock = s.clock ∧
      (s.endRun outcome).breakpoints = s.breakpoints ∧
      (s.endRun outcome).finish = s.finish := by
  unfold endRun
  split
  · exact ⟨rfl, rfl, rfl, rfl⟩
  · exact reportPauseState_keeps _

def opened {σ φ : Type} (s : Scheduler σ φ) (program : σ) (lines : LineMap) : Scheduler σ φ :=
  reportPauseState { s.stop with
    runNumber := s.stop.runNumber + 1
    outcome := none
    live := some (Live.start program lines s.stop.settings.pauseOnEntry) }

theorem opened_keeps {σ φ : Type} (s : Scheduler σ φ) (program : σ) (lines : LineMap) :
    (s.opened program lines).settings = s.settings ∧ (s.opened program lines).clock = s.clock ∧
      (s.opened program lines).breakpoints = s.breakpoints ∧
      (s.opened program lines).finish = s.finish := by
  obtain ⟨settings, clock, breakpoints, finish⟩ := endRun_keeps s .stopped
  obtain ⟨settings', clock', breakpoints', finish'⟩ := reportPauseState_keeps { s.stop with
    runNumber := s.stop.runNumber + 1
    outcome := none
    live := some (Live.start program lines s.stop.settings.pauseOnEntry) }
  exact ⟨settings'.trans settings, clock'.trans clock, breakpoints'.trans breakpoints,
    finish'.trans finish⟩

theorem opened_live {σ φ : Type} (s : Scheduler σ φ) (program : σ) (lines : LineMap) :
    (s.opened program lines).live =
      some (Live.start program lines s.settings.pauseOnEntry) := by
  rw [opened, reportPauseState_live, stop, (endRun_keeps s .stopped).1]

theorem start_opened (s : Scheduler σ φ) (program : σ) (lines : LineMap) (began ended : Instant) :
    s.start program lines began ended =
      if s.settings.pauseOnEntry = true then
        { s.opened program lines with
          pending :=
            some ((s.opened program lines).clock.nextTick (s.opened program lines).runNumber) }
      else
        (s.opened program lines).onTick ⟨(s.opened program lines).runNumber, 0⟩ began ended := by
  rw [← (endRun_keeps s .stopped).1]
  rfl

structure Leaves (result : Progress σ × Ending) (after : Live σ) : Prop where
  fine : ∀ error line, result.2 ≠ .failed error line
  program : after.program = result.1.live.program
  lines : after.lines = result.1.live.lines
  controller : after.controller = result.1.live.controller.takeStopReason.1

theorem settle_closes (s : Scheduler σ φ) (atMaxSpeed : Bool) (ended : Instant) (p : Progress σ)
    {ending : Ending} (fine : ∀ error line, ending ≠ .failed error line) :
    s.settle atMaxSpeed ended (p, ending) =
      closeTick { s with notices := s.notices ++ (shown atMaxSpeed p).2 } (shown atMaxSpeed p).1
        ended := by
  cases ending with
  | failed error line => exact absurd rfl (fine error line)
  | _ => rfl

theorem closeTick_keeps {s : Scheduler σ φ} {live after : Live σ} {now : Instant}
    (here : (s.closeTick live now).live = some after) :
    after.program = live.program ∧ after.lines = live.lines ∧
      after.controller = live.controller.takeStopReason.1 := by
  rcases closeTick_live s live now with gone | kept
  · rw [gone] at here
    cases here
  · rw [kept] at here
    cases here
    exact ⟨rfl, rfl, rfl⟩

theorem settle_leaves {s : Scheduler σ φ} {atMaxSpeed : Bool} {ended : Instant}
    {result : Progress σ × Ending} {after : Live σ}
    (here : (s.settle atMaxSpeed ended result).live = some after) : Leaves result after := by
  obtain ⟨p, ending⟩ := result
  have fine : ∀ error line, ending ≠ .failed error line := by
    rintro error line rfl
    rw [show (s.settle atMaxSpeed ended (p, .failed error line)).live = none from
      failRun_live _ _ _] at here
    cases here
  rw [settle_closes s atMaxSpeed ended p fine] at here
  obtain ⟨program, lines, controller⟩ := closeTick_keeps here
  obtain ⟨lastSelected, same⟩ := shown_live atMaxSpeed p
  rw [same] at program lines controller
  exact ⟨fine, program, lines, controller⟩

theorem answer_leaves {σ φ : Type} {s : Scheduler σ φ} {result : Progress σ × Ending}
    {after : Live σ} (here : (s.answer result).1.live = some after) : Leaves result after := by
  obtain ⟨p, ending⟩ := result
  cases ending with
  | failed error line =>
    rw [show (s.answer (p, .failed error line)).1.live = none from failRun_live _ _ _] at here
    cases here
  | _ =>
    unfold answer at here
    rw [reportStop_live] at here
    cases here
    exact ⟨fun _ _ => by simp, rfl, rfl, rfl⟩

/-- Where the live run after an operation comes from. -/
inductive Carries (s : Scheduler σ φ) (operation : Operation σ φ) (after : Live σ) : Prop where
  | keeps {live : Live σ} (here : s.live = some live) (program : after.program = live.program)
      (lines : after.lines = live.lines)
      (silent : live.controller.stopReason = none → after.controller.stopReason = none)
  | starts {program : σ} {lines : LineMap} {began ended : Instant}
      (start : operation = .start program lines began ended) (same : after.program = program)
      (sameLines : after.lines = lines) (silent : after.controller.stopReason = none)
  | bursts {live : Live σ} {request : Request} (runs : Bursts s operation live request)
      (leaves : Leaves (live.burst s.breakpoints request s.settings.tickBudget) after)

inductive Hands (s : Scheduler σ φ) (operation : Operation σ φ) (next : Live σ) : Prop where
  | minds {live : Live σ} (here : s.live = some live) (program : next.program = live.program)
      (lines : next.lines = live.lines) (controller : Minds operation live.controller next.controller)
  | opens {program : σ} {lines : LineMap} {began ended : Instant}
      (starts : operation = .start program lines began ended)
      (entry : s.settings.pauseOnEntry = true) (same : next = Live.start program lines true)
  | bursts {live : Live σ} {request : Request} (runs : Bursts s operation live request)
      (leaves : Leaves (live.burst s.breakpoints request s.settings.tickBudget) next)

def scheduled {σ φ : Type} (s : Scheduler σ φ) : Scheduler σ φ :=
  { s with pending := some (s.clock.nextTick s.runNumber) }

theorem onTick_stale {s : Scheduler σ φ} {tick : PendingTick} (began ended : Instant)
    (stale : s.live = none ∨ tick.run ≠ s.runNumber) : s.onTick tick began ended = s := by
  unfold onTick
  split
  · rfl
  · rename_i live here
    rw [here] at stale
    rw [if_pos (stale.resolve_left (by simp))]

theorem onTick_current {s : Scheduler σ φ} {tick : PendingTick} {live : Live σ}
    (began ended : Instant) (here : s.live = some live) (current : tick.run = s.runNumber) :
    s.onTick tick began ended =
      if live.controller.beginTick.2 then s.scheduled.runBurst live.ticked began ended
      else s.scheduled.closeTick live.ticked ended := by
  unfold onTick
  split
  · rename_i gone
    rw [gone] at here
    cases here
  · rename_i other there
    rw [there] at here
    cases here
    split
    · rename_i stale
      exact absurd current stale
    · rfl

theorem runBurst_scheduled (s : Scheduler σ φ) (live : Live σ) (began ended : Instant) :
    s.scheduled.runBurst live began ended =
      s.scheduled.settle s.clock.atMaxSpeed ended
        (live.burst s.breakpoints (s.tickRequest began) s.settings.tickBudget) := by
  have request : s.scheduled.tickRequest began = s.tickRequest began := rfl
  unfold runBurst
  rw [request]
  rfl

theorem onTick_steps {s : Scheduler σ φ} {tick : PendingTick} {live : Live σ}
    (began ended : Instant) (here : s.live = some live) (current : tick.run = s.runNumber)
    (steps : live.controller.beginTick.2 = true) :
    s.onTick tick began ended =
      s.scheduled.settle s.clock.atMaxSpeed ended
        (live.ticked.burst s.breakpoints (s.tickRequest began) s.settings.tickBudget) := by
  rw [onTick_current began ended here current, if_pos steps, runBurst_scheduled]

theorem onTick_rests {s : Scheduler σ φ} {tick : PendingTick} {live : Live σ}
    (began ended : Instant) (here : s.live = some live) (current : tick.run = s.runNumber)
    (rests : live.controller.beginTick.2 = false) :
    s.onTick tick began ended = s.scheduled.closeTick live.ticked ended := by
  rw [onTick_current began ended here current, if_neg (by simp [rests])]

theorem onTick_live {s : Scheduler σ φ} {tick : PendingTick} {began ended : Instant}
    {next : Live σ} (there : (s.onTick tick began ended).live = some next) :
    ∃ live, s.live = some live ∧
      (live.Idled next ∨
        tick.run = s.runNumber ∧ live.controller.beginTick.2 = true ∧
          Leaves (live.ticked.burst s.breakpoints (s.tickRequest began) s.settings.tickBudget)
            next) := by
  cases here : s.live with
  | none =>
    rw [onTick_stale began ended (.inl here), here] at there
    cases there
  | some live =>
    refine ⟨live, rfl, ?_⟩
    by_cases current : tick.run = s.runNumber
    · cases steps : live.controller.beginTick.2 with
      | true =>
        rw [onTick_steps began ended here current steps] at there
        exact .inr ⟨current, rfl, settle_leaves there⟩
      | false =>
        rw [onTick_rests began ended here current steps] at there
        obtain ⟨program, lines, controller⟩ := closeTick_keeps there
        refine .inl ⟨program, lines, .inr ?_⟩
        rw [controller, Live.ticked, beginTick_rests steps]
    · rw [onTick_stale began ended (.inr current), here] at there
      cases there
      exact .inl ⟨rfl, rfl, .inl rfl⟩

theorem dispatch_answers {s : Scheduler σ φ} {live : Live σ} (callback : Callback) (now : Instant)
    (here : s.live = some live) (running : live.controller.isPaused = false) :
    s.dispatch callback now =
      s.answer ((live.called callback).burst s.breakpoints (s.dispatchRequest now)
        s.settings.tickBudget) := by
  unfold dispatch
  split
  · rename_i gone
    rw [gone] at here
    cases here
  · rename_i other there
    rw [there] at here
    cases here
    dsimp only
    split
    · rename_i paused
      rw [running] at paused
      cases paused
    · rfl

theorem apply_minds {σ φ : Type} {s : Scheduler σ φ} {command : Command} {next : Live σ}
    (there : (s.apply command).live = some next) :
    ∃ live controller, s.live = some live ∧ next = { live with controller } ∧
      Minds (.command command : Operation σ φ) live.controller controller := by
  have same : s.live = some next → ∃ live controller, s.live = some live ∧
      next = { live with controller } ∧
        Minds (.command command : Operation σ φ) live.controller controller :=
    fun here => ⟨next, next.controller, here, rfl, .same⟩
  have stepped : ∀ mode, (s.beginStep mode).live = some next → ∃ live controller,
      s.live = some live ∧ next = { live with controller } ∧
        Minds (.command command : Operation σ φ) live.controller controller := by
    intro mode there
    unfold beginStep at there
    split at there
    · exact same there
    · rename_i live here
      rw [reportPauseState_live] at there
      cases there
      obtain ⟨state, active, enters⟩ := step_enters live.controller mode
      exact ⟨live, _, here, rfl, enters ▸ .enters state active⟩
  cases command with
  | pause =>
    simp only [apply, pause] at there
    split at there
    · exact same there
    · rename_i live here
      split at there
      · rw [reportStop_live] at there
        cases there
        exact ⟨live, _, here, rfl, .paused rfl⟩
      · exact same there
  | resume =>
    simp only [apply, resume] at there
    split at there
    · exact same there
    · rename_i live here
      split at there
      · rw [reportPauseState_live] at there
        cases there
        exact ⟨live, _, here, rfl, .enters .running (by simp)⟩
      · exact same there
  | stepIn => exact stepped _ there
  | stepOver => exact stepped _ there
  | stepOut =>
    simp only [apply, stepOut] at there
    split at there
    · exact stepped _ there
    · exact same there
  | stop =>
    have gone : s.stop.live = none := endRun_live s .stopped
    rw [apply, gone] at there
    cases there
  | _ => exact same there

theorem Hands.of_idled {s : Scheduler σ φ} {operation : Operation σ φ} {live next : Live σ}
    (here : s.live = some live) (idled : live.Idled next) : s.Hands operation next := by
  refine .minds here idled.program idled.lines ?_
  rcases idled.controller with same | told
  · exact same ▸ .same
  · exact told ▸ .told

theorem dispatch_hands {s : Scheduler σ φ} {callback : Callback} {now : Instant} {next : Live σ}
    (there : (s.dispatch callback now).1.live = some next) :
    s.Hands (.dispatch callback now) next := by
  cases here : s.live with
  | none =>
    simp [dispatch, here] at there
  | some live =>
    cases paused : live.controller.isPaused with
    | true =>
      simp only [dispatch, here, paused, if_true, Option.some.injEq] at there
      subst there
      exact .minds here rfl rfl .same
    | false =>
      rw [dispatch_answers callback now here paused] at there
      exact .bursts (.dispatch here paused) (answer_leaves there)

theorem start_waits {s : Scheduler σ φ} (program : σ) (lines : LineMap) (began ended : Instant)
    (entry : s.settings.pauseOnEntry = true) :
    (s.start program lines began ended).live = some (Live.start program lines true) := by
  rw [start_opened, if_pos entry]
  change (s.opened program lines).live = some (Live.start program lines true)
  rw [opened_live, entry]

theorem start_steps {s : Scheduler σ φ} (program : σ) (lines : LineMap) (began ended : Instant)
    (steps : s.settings.pauseOnEntry = false) :
    s.start program lines began ended =
      (s.opened program lines).scheduled.settle s.clock.atMaxSpeed ended
        ((Live.start program lines false).ticked.burst s.breakpoints (s.tickRequest began)
          s.settings.tickBudget) := by
  have begins := opened_live s program lines
  rw [steps] at begins
  obtain ⟨settings, clock, breakpoints, -⟩ := opened_keeps s program lines
  rw [start_opened, if_neg (by simp [steps]), onTick_steps began ended begins rfl rfl, tickRequest,
    settings, clock, breakpoints]
  rfl

theorem perform_leaves {s : Scheduler σ φ} {operation : Operation σ φ} {live next : Live σ}
    {request : Request} (runs : Bursts s operation live request)
    (there : (s.perform operation).live = some next) :
    Leaves (live.burst s.breakpoints request s.settings.tickBudget) next := by
  cases runs with
  | tick here current steps =>
    rw [perform, onTick_steps _ _ here current steps] at there
    exact settle_leaves there
  | dispatch here running =>
    rw [perform, dispatch_answers _ _ here running] at there
    exact answer_leaves there
  | start steps =>
    rw [perform, start_steps _ _ _ _ steps] at there
    exact settle_leaves there

theorem start_hands {s : Scheduler σ φ} {program : σ} {lines : LineMap} {began ended : Instant}
    {next : Live σ} (there : (s.start program lines began ended).live = some next) :
    s.Hands (.start program lines began ended) next := by
  cases steps : s.settings.pauseOnEntry with
  | true =>
    rw [start_waits program lines began ended steps] at there
    cases there
    exact .opens rfl steps rfl
  | false => exact .bursts (.start steps) (perform_leaves (.start steps) there)

theorem perform_hands {s : Scheduler σ φ} {operation : Operation σ φ} {next : Live σ}
    (there : (s.perform operation).live = some next) : s.Hands operation next := by
  cases operation with
  | install rule => exact .minds there rfl rfl .same
  | start program lines began ended => exact start_hands there
  | take => exact .minds there rfl rfl .same
  | tick tick began ended =>
    obtain ⟨live, here, kept | ⟨current, steps, leaves⟩⟩ := onTick_live there
    · exact .of_idled here kept
    · exact .bursts (.tick here current steps) leaves
  | dispatch callback now => exact dispatch_hands there
  | command command =>
    obtain ⟨live, controller, here, rfl, minds⟩ := apply_minds there
    exact .minds here rfl rfl minds
  | reset =>
    have gone : s.reset.live = none := endRun_live s .stopped
    rw [perform, gone] at there
    cases there

def Silent {σ φ : Type} (s : Scheduler σ φ) : Prop :=
  ∀ live, s.live = some live → live.controller.stopReason = none

theorem perform_live {s : Scheduler σ φ} {operation : Operation σ φ} {next : Live σ}
    (there : (s.perform operation).live = some next) : s.Carries operation next := by
  cases perform_hands there with
  | minds here program lines controller => exact .keeps here program lines controller.silent
  | opens starts entry same =>
    subst same
    exact .starts starts rfl rfl rfl
  | bursts runs leaves => exact .bursts runs leaves

theorem Silent.perform {s : Scheduler σ φ} (silent : s.Silent) (operation : Operation σ φ) :
    (s.perform operation).Silent := by
  intro next there
  cases perform_live there with
  | keeps here program lines quiet => exact quiet (silent _ here)
  | starts start same sameLines quiet => exact quiet
  | bursts runs leaves =>
    rw [leaves.controller]
    rfl

theorem Silent.performAll {s : Scheduler σ φ} (silent : s.Silent)
    (operations : List (Operation σ φ)) : (s.performAll operations).Silent := by
  induction operations generalizing s with
  | nil => exact silent
  | cons operation operations ih => exact ih (silent.perform operation)

theorem start_silent (s : Scheduler σ φ) (program : σ) (lines : LineMap) (began ended : Instant) :
    (s.start program lines began ended).Silent := by
  intro next there
  cases steps : s.settings.pauseOnEntry with
  | true =>
    rw [start_waits program lines began ended steps] at there
    cases there
    rfl
  | false =>
    rw [(perform_leaves (.start steps) there).controller]
    rfl

end Scheduler

omit [Interpreter σ] in
theorem Bursts.silent {s : Scheduler σ φ} {operation : Operation σ φ} {live : Live σ}
    {request : Request} (silent : s.Silent) (runs : Bursts s operation live request) :
    live.controller.stopReason = none := by
  cases runs with
  | @tick live _ _ _ here =>
    obtain ⟨stepOutDepth, same⟩ := beginTick_eq live.controller
    rw [Live.ticked, same]
    exact silent live here
  | @dispatch live _ _ here => exact silent live here
  | start => rfl

end Metronome.Run
