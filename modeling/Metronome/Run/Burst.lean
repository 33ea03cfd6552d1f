import Metronome.Debug.Breakpoints
import Metronome.Run.Bridge

/-!
Bursts: the steps of one tick. A burst ends at a stop, when its budget is spent and it does not
unwind, or with the program. Unwinding is not bounded by the budget; the number of passes that a
burst may take leaves room for it to leave every frame of the stack and to empty the queue.
-/
namespace Metronome.Run

open Metronome.Debug (Breakpoints Controller Cursor)

/-- A run that has not ended. -/
structure Live (σ : Type) where
  program : σ
  lines : LineMap
  queue : Queue
  timers : Timers
  controller : Controller
  response : Response
  ticks : Nat
  lastLine : Option Nat
  lastSelected : Option Nat

structure Progress (σ : Type) where
  live : Live σ
  burst : Debug.Burst
  steps : Nat
  notices : Array Notice

inductive Ending where
  | stopped
  | exhausted
  | complete
  | rested
  | failed (error : StepError) (line : Option Nat)
  | cutOff
  deriving DecidableEq, Repr

variable {σ : Type} [Interpreter σ]

namespace Live

def start (program : σ) (lines : LineMap) (pauseOnEntry : Bool) : Live σ :=
  ⟨program, lines, [], .empty, .start pauseOnEntry, .fresh, 0, none, none⟩

/-- Shows the line on which the program stands, unless it is shown already or `force` is set. -/
def select (live : Live σ) (force : Bool) (notices : Array Notice) : Live σ × Array Notice :=
  match Cursor.lineOf live.program live.lines with
  | none => (live, notices)
  | some line =>
    if force || live.lastSelected != some line then
      ({ live with lastSelected := some line }, notices.push (.told (.selected line)))
    else (live, notices)

end Live

namespace Progress

/-- The passes after which a burst is cut off. A program at work has no such bound, and a burst of a
script ends before it. An interpreter that unwinds without end has only the burst that is cut off
here, so what holds for every interpreter holds of that one. -/
def limit (live : Live σ) (budget : Nat) : Nat :=
  budget + 16 * (Interpreter.depth live.program + budget + live.queue.length + 65536)

def begin (live : Live σ) : Progress σ :=
  { live := { live with
      response := { live.response with seenEmptyQueue := false, seenReturn := false } }
    burst := .fresh
    steps := 0
    notices := #[] }

def noteLine (p : Progress σ) (atMaxSpeed : Bool) (line : Option Nat) : Progress σ :=
  if line.isNone then p
  else
    let live := { p.live with lastLine := line }
    if live.controller.isPaused || !atMaxSpeed then
      let (live, notices) := live.select false p.notices
      { p with live, notices }
    else { p with live }

def stepProgram (p : Progress σ) (request : Request) : Progress σ × Option StepError :=
  let live := p.live
  let bridge : Bridge := ⟨request, live.queue, live.timers, live.response, p.notices⟩
  let (stepped, bridge) := (Interpreter.step live.program).run Bridge.natives bridge
  ({ p with
      live := { live with
        program := stepped.state
        queue := bridge.queue
        timers := bridge.timers
        response := bridge.response }
      notices := bridge.notices }, stepped.error)

/-- What the debugger makes of a step that began on a line. The second part says whether it came
to rest. -/
def afterStep (p : Progress σ) (line : Option Nat) : Progress σ × Bool :=
  let live := p.live
  let after := Cursor.withLine live.program line
  let (controller, burst) := live.controller.observeStep p.burst after
  let now := Cursor.lineOf live.program live.lines
  let (burst, ended) := controller.unwind burst (Interpreter.isSafe live.program)
  let burst := if ended then Controller.reselected burst now else burst
  let (controller, rested) := controller.completeStep burst now after.depth
  ({ p with live := { live with controller }, burst, steps := p.steps + 1 }, rested)

def step (p : Progress σ) (request : Request) (cursor : Cursor) : Progress σ × Option Ending :=
  let controller := p.live.controller.refreshStopPoint p.burst cursor
  let p := { p with live := { p.live with controller } }
  let (p, error) := p.stepProgram request
  match error with
  | some error => (p, some (.failed error cursor.line))
  | none =>
    let (p, rested) := p.afterStep cursor.line
    (p, if rested then some .rested else none)

/-- One pass of a burst: an arrival, a step, or the end. -/
def pass (breakpoints : Breakpoints) (request : Request) (budget : Nat) (p : Progress σ) :
    Progress σ × Option Ending :=
  let signals := p.live.response.signals request
  if Controller.shouldStop p.burst signals request.atMaxSpeed then (p, some .stopped)
  else if budget ≤ p.steps && !p.burst.unwinding then (p, some .exhausted)
  else if Interpreter.isComplete p.live.program then (p, some .complete)
  else
    let cursor := Cursor.capture p.live.program p.live.lines
    let p := p.noteLine request.atMaxSpeed cursor.line
    let isBreakpoint := cursor.line.any breakpoints.contains
    let safe := Interpreter.isSafe p.live.program
    let (controller, burst, arrived) := p.live.controller.arrive p.burst cursor isBreakpoint safe
    let p := { p with live := { p.live with controller }, burst }
    if arrived then (p, none) else p.step request cursor

def passes (breakpoints : Breakpoints) (request : Request) (budget : Nat) :
    Nat → Progress σ → Progress σ × Ending
  | 0, p => (p, .cutOff)
  | fuel + 1, p =>
    match p.pass breakpoints request budget with
    | (p, some ending) => (p, ending)
    | (p, none) => p.passes breakpoints request budget fuel

end Progress

@[irreducible] def Live.burst (live : Live σ) (breakpoints : Breakpoints) (request : Request) (budget : Nat) :
    Progress σ × Ending :=
  (Progress.begin live).passes breakpoints request budget (Progress.limit live budget)

end Metronome.Run
