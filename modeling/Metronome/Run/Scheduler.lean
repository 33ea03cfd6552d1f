import Metronome.Run.Burst
import Metronome.Run.Clock
import Metronome.Settings.Basic

namespace Metronome.Run

open Metronome.Debug (Breakpoints Command Controller PauseState StepMode)

/-- What a rule that ends runs sees after each tick. -/
structure RunStatus where
  ticks : Nat
  /-- The last burst found the queue empty, and no timer is pending. -/
  idle : Bool
  queued : Nat
  timers : Nat
  /-- At rest: a step operation in progress does not count. -/
  paused : Bool
  deriving DecidableEq, Repr

/-- A rule that may end a run after a tick, and what it remembers. -/
structure FinishRule (φ : Type) where
  memory : φ
  decide : φ → RunStatus → φ × Option Outcome

def finishWhenIdle : FinishRule Unit :=
  ⟨(), fun _ status => ((), if status.idle && !status.paused then some .completed else none)⟩

def maxIdleWait : Duration := 60 * Duration.perSecond

structure Scheduler (σ φ : Type) where
  settings : Settings
  clock : Clock
  breakpoints : Breakpoints
  live : Option (Live σ)
  /-- Counts the runs; the live run has the last number. -/
  runNumber : Nat
  pending : Option PendingTick
  outcome : Option Outcome
  finish : Option (FinishRule φ)
  /-- What the host was last told of the debugger. -/
  reported : PauseState
  notices : Array Notice

variable {σ φ : Type} [Interpreter σ]

namespace Scheduler

def new (settings : Settings) (finish : Option (FinishRule φ)) : Scheduler σ φ :=
  { settings
    clock := .ofSettings settings.speed settings.maxTickLength
    breakpoints := .empty
    live := none
    runNumber := 0
    pending := none
    outcome := none
    finish
    reported := .idle
    notices := #[] }

def isRunning (s : Scheduler σ φ) : Bool :=
  s.live.isSome

def tickCount (s : Scheduler σ φ) : Nat :=
  (s.live.map (·.ticks)).getD 0

def queueLength (s : Scheduler σ φ) : Nat :=
  (s.live.map (·.queue.length)).getD 0

def pauseState (s : Scheduler σ φ) : PauseState :=
  match s.live with
  | some live => live.controller.pauseState true
  | none => .idle

omit [Interpreter σ] in
theorem pauseState_live {s : Scheduler σ φ} {live : Live σ} (here : s.live = some live) :
    s.pauseState = ⟨true, live.controller.isPaused, live.controller.mode,
      live.controller.stopPoint.map (·.line), live.controller.stopPoint.map (·.depth)⟩ := by
  rw [pauseState, here]
  exact congrArg (fun paused => (⟨true, paused, _, _, _⟩ : PauseState)) (Bool.true_and _)

def isAtRest (s : Scheduler σ φ) : Bool :=
  s.live.any (·.controller.isAtRest)

/-- How long the program only waits for a timer, if it does. -/
def idleWait (s : Scheduler σ φ) (now : Instant) : Option Duration :=
  match s.live with
  | none => none
  | some live =>
    if live.response.seenEmptyQueue && live.queue.isEmpty then
      (live.timers.nextDueIn now).map (min · maxIdleWait)
    else none

/-- The user's line at which the run stopped, or the one that ran last. -/
def currentLine (s : Scheduler σ φ) : Option Nat :=
  s.live.bind fun live => (live.controller.stopPoint.map (·.line)).or live.lastLine

def tell (s : Scheduler σ φ) (event : HostEvent) : Scheduler σ φ :=
  { s with notices := s.notices.push (.told event) }

def reportPauseState (s : Scheduler σ φ) : Scheduler σ φ :=
  if s.pauseState = s.reported then s
  else { s.tell (.pauseChanged s.pauseState) with reported := s.pauseState }

def reportStop (s : Scheduler σ φ) : Scheduler σ φ :=
  match s.live with
  | none => s
  | some live =>
    let (controller, reason) := live.controller.takeStopReason
    let s := { s with live := some { live with controller } }
    match reason with
    | some reason => (s.tell (.stopped reason (controller.pauseState true))).reportPauseState
    | none => s.reportPauseState

def endRun (s : Scheduler σ φ) (outcome : Outcome) : Scheduler σ φ :=
  match s.live with
  | none => s
  | some _ =>
    let s := { s with live := none, pending := none }
    reportPauseState { s.tell (.finished outcome) with outcome := some outcome }

def failRun (s : Scheduler σ φ) (error : StepError) (line : Option Nat) : Scheduler σ φ :=
  match s.live with
  | none => s
  | some live =>
    let line := ((error.offset.bind live.lines.userLine).or line).or live.lastLine
    let place := match line with
      | some line => "Line " ++ toString line ++ ": "
      | none => ""
    let s := s.tell (.output ("ERROR: " ++ place ++ error.message))
    let s := s.tell (.annotated line error.message)
    s.endRun (.failed error.message line)

def statusOf (live : Live σ) : RunStatus where
  ticks := live.ticks
  idle := live.response.seenEmptyQueue && live.queue.isEmpty && live.timers.pending.isEmpty
  queued := live.queue.length
  timers := live.timers.pending.length
  paused := live.controller.isAtRest

def consult (s : Scheduler σ φ) (live : Live σ) : Scheduler σ φ :=
  match s.finish with
  | none => s
  | some rule =>
    let (memory, outcome) := rule.decide rule.memory (statusOf live)
    let s := { s with finish := some { rule with memory } }
    match outcome with
    | some outcome => s.endRun outcome
    | none => s

/-- Ends the run if its program is complete, if it has had all its ticks, or as the rule says. -/
def checkFinished (s : Scheduler σ φ) : Scheduler σ φ :=
  match s.live with
  | none => s
  | some live =>
    if Interpreter.isComplete live.program then s.endRun .completed
    else if s.settings.maxTicks.any (· ≤ live.ticks) then s.endRun (.timedOut live.ticks)
    else s.consult live

def afterBurst (s : Scheduler σ φ) (progress : Progress σ) : Scheduler σ φ :=
  { s with live := some progress.live, notices := s.notices ++ progress.notices }

/-- Moves due timers to the queue, tells the host of a stop, and ends the run if it is over. -/
def closeTick (s : Scheduler σ φ) (live : Live σ) (now : Instant) : Scheduler σ φ :=
  let (timers, queue) := live.timers.release now live.queue
  (reportStop { s with live := some { live with timers, queue } }).checkFinished

def tickRequest (s : Scheduler σ φ) (began : Instant) : Request :=
  ⟨false, s.clock.atMaxSpeed, s.settings.maxMarshalDepth, began⟩

/-- The live run that the burst of a tick leaves, and what the host is told of it: at full speed the
line of a stop is shown when the burst is over. -/
def shown (atMaxSpeed : Bool) (progress : Progress σ) : Live σ × Array Notice :=
  if progress.burst.reachedBreak && atMaxSpeed then progress.live.select true progress.notices
  else (progress.live, progress.notices)

def settle (s : Scheduler σ φ) (atMaxSpeed : Bool) (ended : Instant) :
    Progress σ × Ending → Scheduler σ φ
  | (progress, .failed error line) => (s.afterBurst progress).failRun error line
  | (progress, _) =>
    let (live, notices) := shown atMaxSpeed progress
    closeTick { s with notices := s.notices ++ notices } live ended

def runBurst (s : Scheduler σ φ) (live : Live σ) (began ended : Instant) : Scheduler σ φ :=
  s.settle s.clock.atMaxSpeed ended
    (live.burst s.breakpoints (s.tickRequest began) s.settings.tickBudget)

/-- Fires a tick that begins at one time and ends at another. A tick of another run has no
effect. -/
def onTick (s : Scheduler σ φ) (tick : PendingTick) (began ended : Instant) : Scheduler σ φ :=
  match s.live with
  | none => s
  | some live =>
    if tick.run ≠ s.runNumber then s
    else
      let s := { s with pending := some (s.clock.nextTick s.runNumber) }
      let (controller, steps) := live.controller.beginTick
      let live := { live with ticks := live.ticks + 1, controller }
      if steps then s.runBurst live began ended else s.closeTick live ended

/-- Hands the pending tick to the host's timer. -/
def takePending (s : Scheduler σ φ) : Scheduler σ φ × Option PendingTick :=
  ({ s with pending := none }, s.pending)

def dispatchRequest (s : Scheduler σ φ) (now : Instant) : Request :=
  ⟨true, s.clock.atMaxSpeed, s.settings.maxMarshalDepth, now⟩

def answer (s : Scheduler σ φ) : Progress σ × Ending → Scheduler σ φ × Option Value
  | (progress, .failed error line) => ((s.afterBurst progress).failRun error line, none)
  | (progress, _) =>
    let response := progress.live.response
    let live := { progress.live with response := { response with lastReturn := none } }
    ((s.afterBurst { progress with live }).reportStop, response.lastReturn)

/-- Queues a callback and runs until it has returned. There is no value if nothing runs, if the
run is paused, or if the callback does not return within the budget. -/
def dispatch (s : Scheduler σ φ) (callback : Callback) (now : Instant) :
    Scheduler σ φ × Option Value :=
  match s.live with
  | none => (s, none)
  | some live =>
    let live := { live with queue := live.queue ++ [callback] }
    if live.controller.isPaused then ({ s with live := some live }, none)
    else
      let live := { live with response := { live.response with lastReturn := none } }
      s.answer (live.burst s.breakpoints (s.dispatchRequest now) s.settings.tickBudget)

def stop (s : Scheduler σ φ) : Scheduler σ φ :=
  s.endRun .stopped

/-- Begins a run and its first tick, unless it stops at its entry. A run that is live ends
first. -/
def start (s : Scheduler σ φ) (program : σ) (lines : LineMap) (began ended : Instant) :
    Scheduler σ φ :=
  let s := s.stop
  let pauseOnEntry := s.settings.pauseOnEntry
  let s := reportPauseState { s with
    runNumber := s.runNumber + 1
    outcome := none
    live := some (Live.start program lines pauseOnEntry) }
  if pauseOnEntry then { s with pending := some (s.clock.nextTick s.runNumber) }
  else s.onTick ⟨s.runNumber, 0⟩ began ended

def reset (s : Scheduler σ φ) : Scheduler σ φ :=
  { s.stop with breakpoints := .empty, outcome := none, pending := none }

def pause (s : Scheduler σ φ) : Scheduler σ φ :=
  match s.live with
  | none => s
  | some live =>
    let (controller, paused) := live.controller.pause
    if paused then reportStop { s with live := some { live with controller } } else s

def resume (s : Scheduler σ φ) : Scheduler σ φ :=
  match s.live with
  | none => s
  | some live =>
    if live.controller.isPaused then
      reportPauseState { s with live := some { live with controller := live.controller.resume } }
    else s

/-- Begins a step operation, also in a run that is not paused. -/
def beginStep (s : Scheduler σ φ) (mode : StepMode) : Scheduler σ φ :=
  match s.live with
  | none => s
  | some live =>
    reportPauseState { s with live := some { live with controller := live.controller.step mode } }

def stepIn (s : Scheduler σ φ) : Scheduler σ φ :=
  s.beginStep .stepIn

def stepOver (s : Scheduler σ φ) : Scheduler σ φ :=
  s.beginStep .stepOver

def stepOut (s : Scheduler σ φ) : Scheduler σ φ :=
  if s.live.any (·.controller.isPaused) then s.beginStep .stepOut else s

def toggleBreakpoint (s : Scheduler σ φ) (line : Nat) : Scheduler σ φ :=
  { s with breakpoints := s.breakpoints.toggle line }

def setBreakpoints (s : Scheduler σ φ) (lines : List Nat) : Scheduler σ φ :=
  { s with breakpoints := .ofList lines }

def setSpeed (s : Scheduler σ φ) (speed : Float) : Scheduler σ φ :=
  { s with clock := s.clock.setSpeed speed }

def apply (s : Scheduler σ φ) : Command → Scheduler σ φ
  | .pause => s.pause
  | .resume => s.resume
  | .stepIn => s.stepIn
  | .stepOver => s.stepOver
  | .stepOut => s.stepOut
  | .toggleBreakpoint line => s.toggleBreakpoint line
  | .setBreakpoints lines => s.setBreakpoints lines
  | .setSpeed speed => s.setSpeed speed
  | .stop => s.stop

end Scheduler

end Metronome.Run
