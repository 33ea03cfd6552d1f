import Metronome.Debug.CallDepths
import Metronome.Debug.Cursor
import Metronome.Debug.Stepping

/-!
The controller of a debugger: it decides between the steps of a program when to come to rest. It
holds what outlives a burst of steps; the flags of the current burst are handed to it.
-/
namespace Metronome.Debug

inductive ExecState
  | running
  /-- Paused, perhaps with a step operation in progress. -/
  | paused (mode : StepMode)
  deriving DecidableEq, Repr

structure PauseState where
  running : Bool
  paused : Bool
  mode : StepMode
  line : Option Nat
  depth : Option Nat
  deriving DecidableEq, Repr

def PauseState.idle : PauseState := ⟨false, false, .run, none, none⟩

structure StopPoint where
  line : Nat
  depth : Nat
  deriving DecidableEq, Repr

structure Burst where
  /-- A stop was reached, and the burst goes on to the next clean boundary. -/
  unwinding : Bool
  reachedBreak : Bool
  doneUserLine : Bool
  deriving DecidableEq, Repr

def Burst.fresh : Burst := ⟨false, false, false⟩

structure Signals where
  seenEmptyQueue : Bool
  seenReturn : Bool
  untilReturn : Bool
  deriving DecidableEq, Repr

structure Controller where
  state : ExecState
  stopPoint : Option StopPoint
  depths : CallDepths
  /-- The depth of the first call since the step operation began. -/
  firstCallDepth : Option Nat
  stepOutDepth : Option Nat
  entryPending : Bool
  stopReason : Option StopReason
  deriving DecidableEq, Repr

namespace Controller

def fresh : Controller := ⟨.running, none, .empty, none, none, false, none⟩

def start (pauseOnEntry : Bool) : Controller :=
  if pauseOnEntry then { fresh with state := .paused .stepIn, entryPending := true } else fresh

def isPaused (c : Controller) : Bool :=
  match c.state with
  | .running => false
  | .paused _ => true

def mode (c : Controller) : StepMode :=
  match c.state with
  | .running => .run
  | .paused mode => mode

/-- Paused, and no step operation is in progress. -/
def isAtRest (c : Controller) : Bool :=
  c.state == .paused .run

def pauseState (c : Controller) (running : Bool) : PauseState where
  running
  paused := running && c.isPaused
  mode := c.mode
  line := c.stopPoint.map (·.line)
  depth := c.stopPoint.map (·.depth)

def clearStep (c : Controller) : Controller :=
  { c with firstCallDepth := none, stepOutDepth := none }

/-- Comes to rest and drops the step operation in progress; at rest there is nothing to do. -/
def pause (c : Controller) : Controller × Bool :=
  if c.isAtRest then (c, false)
  else
    ({ c.clearStep with
        state := .paused .run
        entryPending := false
        stopReason := some .pause }, true)

def enterState (c : Controller) (state : ExecState) : Controller :=
  { c.clearStep with state, stopReason := none }

/-- Leaves the paused state. The stop point stays, so that its breakpoint does not fire again at
once. -/
def resume (c : Controller) : Controller :=
  c.enterState .running

def step (c : Controller) (mode : StepMode) : Controller :=
  if mode = .run then c.resume else c.enterState (.paused mode)

def takeStopReason (c : Controller) : Controller × Option StopReason :=
  ({ c with stopReason := none }, c.stopReason)

/-- Begins a tick, and says whether it steps. Stepping out fixes its target in its first tick. -/
def beginTick (c : Controller) : Controller × Bool :=
  match c.state with
  | .paused .run => (c, false)
  | .paused .stepOut =>
    (if c.stepOutDepth.isNone then { c with stepOutDepth := some c.depths.stepOutTarget } else c,
      true)
  | _ => (c, true)

/-- Whether a burst ends before its next step. -/
def shouldStop (burst : Burst) (signals : Signals) (atMaxSpeed : Bool) : Bool :=
  (burst.reachedBreak && !burst.unwinding) ||
    (burst.doneUserLine && !burst.unwinding && !atMaxSpeed) ||
    signals.seenEmptyQueue ||
    (signals.untilReturn && signals.seenReturn)

def arriveAt (c : Controller) (burst : Burst) (line depth : Nat) (safe : Bool) :
    Controller × Burst :=
  let reason := if c.entryPending then .entry else .breakpoint
  ({ c.clearStep with
      entryPending := false
      state := .paused .run
      stopPoint := some ⟨line, depth⟩
      stopReason := some reason },
    { burst with reachedBreak := true, unwinding := safe })

/-- Looks for a stop before a step: the entry, or a breakpoint on a line other than the one of the
last stop. The third part says whether there was one. -/
def arrive (c : Controller) (burst : Burst) (cursor : Cursor) (isBreakpoint safe : Bool) :
    Controller × Burst × Bool :=
  match cursor.line with
  | none => (c, burst, false)
  | some line =>
    if burst.unwinding then (c, burst, false)
    else
      let leftStop := c.stopPoint.map (·.line) != some line
      if c.entryPending || (isBreakpoint && leftStop) then
        let (c, burst) := c.arriveAt burst line cursor.depth safe
        (c, burst, true)
      else (c, burst, false)

/-- Forgets the last stop once its line is left without going deeper, and moves it along while the
burst unwinds. -/
def refreshStopPoint (c : Controller) (burst : Burst) (cursor : Cursor) : Controller :=
  match cursor.line with
  | none => c
  | some line =>
    let left := c.stopPoint.any fun point => point.line != line && cursor.depth ≤ point.depth
    let c := if left then { c with stopPoint := none } else c
    if burst.unwinding then { c with stopPoint := some ⟨line, cursor.depth⟩ } else c

/-- Takes in the stack after a step, put down to the line on which the step began. -/
def observeStep (c : Controller) (burst : Burst) (after : Cursor) : Controller × Burst :=
  let user := after.inUserCode
  let burst := if user && after.isDone then { burst with doneUserLine := true } else burst
  let callHere := user && after.isKind .call
  let c := { c with depths := c.depths.record after.depth callHere }
  if !c.isPaused then (c, burst)
  else
    let c :=
      if callHere && c.firstCallDepth.isNone then { c with firstCallDepth := some after.depth }
      else c
    let burst := if user && after.isKind .block then { burst with doneUserLine := true } else burst
    let deeper := c.firstCallDepth.any (· < after.depth)
    let burst :=
      if !burst.doneUserLine && user && c.mode == .stepIn && deeper then
        { burst with reachedBreak := true }
      else burst
    (c, burst)

/-- Goes on unwinding while the next step is safe. The second part says whether unwinding just
ended. -/
def unwind (c : Controller) (burst : Burst) (safe : Bool) : Burst × Bool :=
  if !c.isPaused || !(burst.doneUserLine || burst.reachedBreak) then (burst, false)
  else ({ burst with unwinding := safe }, burst.unwinding && !safe)

/-- Unwinding never ends outside the user's code. -/
def reselected (burst : Burst) (line : Option Nat) : Burst :=
  if line.isNone then { burst with unwinding := true } else burst

/-- Whether the step operation has to go on to a shallower depth. -/
def staysDeep (c : Controller) (depth : Nat) : Bool :=
  match c.mode with
  | .stepOut => decide (c.stepOutDepth.getD 0 < depth)
  | .stepOver => c.firstCallDepth.any (· < depth)
  | _ => false

/-- Ends the step operation if its goal is reached. The second part says whether the debugger came
to rest. -/
def completeStep (c : Controller) (burst : Burst) (line : Option Nat) (depth : Nat) :
    Controller × Bool :=
  if !c.isPaused || !(burst.reachedBreak || burst.doneUserLine) || burst.unwinding then (c, false)
  else if c.staysDeep depth then (c, false)
  else
    let stopPoint := match line with
      | some line => some ⟨line, depth⟩
      | none => c.stopPoint
    ({ c.clearStep with
        state := .paused .run
        stopPoint
        stopReason := some (c.stopReason.getD .step) }, true)

end Controller

end Metronome.Debug
