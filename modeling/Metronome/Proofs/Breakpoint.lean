import Metronome.Proofs.Trail
import Metronome.Proofs.Transcript

/-!
Breakpoints during a step operation. A burst that unwinds notes each of the user's lines that it
comes to as the line of the last stop, and there a breakpoint does not fire: on a line that is
entered so, it is missed unless the operation ends there anyway.
-/
namespace Metronome

open Metronome.Debug (Breakpoints Burst Controller Cursor)

namespace Script

/-- A statement that has not begun, or a condition that has to be tested. -/
def Frame.evaluates : Frame → Bool
  | .action _ _ .ready => true
  | .poll _ .ready => true
  | .loop _ _ _ false => true
  | .branch _ _ _ .ready => true
  | _ => false

def Machine.evaluates (m : Machine) : Bool :=
  m.stack.head?.any Frame.evaluates

theorem Frame.evaluates_unsafe {frame : Frame} (evaluates : frame.evaluates = true) :
    frame.isDone = false ∧ frame.isBlock = false := by
  unfold Frame.evaluates at evaluates
  split at evaluates <;> simp_all [isDone, isBlock]

theorem Machine.evaluates_unsafe {m : Machine} (evaluates : m.evaluates = true) :
    Interpreter.isSafe m = false := by
  obtain ⟨functions, globals, locals, stack⟩ := m
  cases stack with
  | nil => cases evaluates
  | cons frame below =>
    obtain ⟨unfinished, noBlock⟩ := Frame.evaluates_unsafe evaluates
    exact Bool.or_eq_false_iff.mpr ⟨unfinished, noBlock⟩

theorem Frame.StandsOn.evaluates {frame below : Frame} (stands : frame.StandsOn below)
    (evaluates : below.evaluates = true) :
    ∃ rest origin, frame = .block rest origin ∧ origin = below.position := by
  cases stands with
  | loop => exact ⟨_, _, rfl, rfl⟩
  | _ => cases evaluates

theorem Shift.enters {functions : List Function} {stack after : List Frame} {answers : List Bool}
    (shift : Shift functions stack answers after) (stacked : Stacked stack)
    (evaluates : after.head?.any Frame.evaluates = true) :
    stack.head?.bind Frame.position = after.head?.bind Frame.position ∧
      stack.head?.any Frame.isBlock = true := by
  have under : ∀ {frame : Frame} {below : List Frame}, Stacked (frame :: below) →
      below.head?.any Frame.evaluates = true →
      ∃ rest origin, frame = .block rest origin ∧ origin = below.head?.bind Frame.position := by
    intro frame below stacked evaluates
    cases below with
    | nil => cases evaluates
    | cons under below => exact ((List.isChain_cons_cons.mp stacked).1).evaluates evaluates
  cases shift with
  | idle => cases evaluates
  | leave node finished =>
    obtain ⟨rest, origin, rfl, -⟩ := under stacked evaluates
    cases node
  | leaveBlock =>
    obtain ⟨rest, origin, same, place⟩ := under stacked evaluates
    cases same
    exact ⟨place, rfl⟩
  | drop =>
    obtain ⟨rest, origin, same, -⟩ := under stacked evaluates
    cases same
  | @enter node =>
    refine ⟨?_, rfl⟩
    cases node <;> rfl
  | _ => cases evaluates

end Script

namespace Run

open Metronome.Script (Loaded Machine Shift load_any)

namespace Bridge

theorem giveBack_request (value : Value) (bridge : Bridge) :
    (bridge.giveBack value).request = bridge.request := by
  obtain ⟨response, warnings, same, -⟩ := bridge.giveBack_eq value
  rw [same]

theorem run_blind {α : Type} (computation : Native α) {left right : Bridge}
    (request : left.request = right.request) (queue : left.queue = right.queue) :
    (computation.run natives left).1 = (computation.run natives right).1 := by
  induction computation generalizing left right with
  | done result => rfl
  | nextCallback resume ih =>
    cases waiting : right.queue with
    | nil =>
      rw [waiting] at queue
      simp only [Native.run, natives, nextCallback, waiting, queue]
      exact ih none request rfl
    | cons callback rest =>
      rw [waiting] at queue
      simp only [Native.run, natives, nextCallback, waiting, queue, request]
      exact ih _ rfl rfl
  | giveBack value rest ih =>
    refine ih ?_ ?_
    · exact ((giveBack_request value left).trans request).trans (giveBack_request value right).symm
    · exact ((giveBack_keeps value left).1.trans queue).trans (giveBack_keeps value right).1.symm
  | setTimeout callback delay rest ih => exact ih request queue
  | output line rest ih => exact ih request queue

end Bridge

namespace Progress

def Patient {σ : Type} (p : Progress σ) : Prop :=
  p.live.controller.entryPending = true →
    p.burst.doneUserLine = false ∧ p.burst.reachedBreak = false

theorem Patient.still {σ : Type} [Interpreter σ] {p : Progress σ} (patient : p.Patient)
    (guarded : p.Guarded) (entry : p.live.controller.entryPending = true) :
    p.burst.unwinding = false := by
  obtain ⟨done, reached⟩ := patient entry
  cases unwinding : p.burst.unwinding with
  | false => rfl
  | true =>
    have stopping := guarded.stopping unwinding
    simp [Controller.stopping, done, reached] at stopping

theorem Patient.flags {σ : Type} [Interpreter σ] {breakpoints : Breakpoints} {p : Progress σ}
    (patient : p.Patient) (guarded : p.Guarded) (entry : p.live.controller.entryPending = true)
    (passesBy : (p.arrival breakpoints).2.2 = false) (program : σ) :
    (p.flags program).doneUserLine = false ∧ (p.flags program).reachedBreak = false := by
  have outside := outside_of_pending entry (patient.still guarded entry) passesBy
  obtain ⟨done, reached⟩ := patient entry
  simp [Progress.flags, Burst.noted, seen, Cursor.withLine, Cursor.inUserCode, outside, done,
    reached]

theorem Patient.pass {σ : Type} [Interpreter σ] {breakpoints : Breakpoints} {request : Request}
    {budget : Nat} {p q : Progress σ} (patient : p.Patient) (guarded : p.Guarded)
    (goesOn : p.pass breakpoints request budget = (q, none)) : q.Patient := by
  obtain ⟨arrives, after⟩ | ⟨passesBy, fine, after, active⟩ := (pass_none goesOn).2
  · obtain ⟨line, -, -, -, reaches⟩ := arrival_arrives arrives
    intro entry
    rw [after.controller, reaches] at entry
    cases entry
  · intro entry
    rw [after.controller_active active] at entry
    have before : p.live.controller.entryPending = true :=
      p.refreshed_entryPending.symm.trans entry
    rw [after.burst_eq]
    exact patient.flags guarded before passesBy q.live.program

/-- A step operation reaches its goal with a step: a line is over, and the stack is not deeper than
it may be. -/
def goal (p : Progress Machine) (next : Machine) : Bool :=
  p.live.controller.stopping (p.flags next) &&
    !(p.refreshed.noted (p.seen next)).staysDeep (Interpreter.depth next)

/-- The debugger comes to rest on a line with nothing done but the step to it. -/
def Held (breakpoints : Breakpoints) (request : Request) (budget : Nat) (p : Progress Machine)
    (line : Nat) : Prop :=
  ∃ q, (∀ fuel, p.passes breakpoints request budget (fuel + 2) = (q, .rested)) ∧
    q.live.program = (p.stepped request).1.state ∧ q.line = some line ∧
    q.live.controller.isAtRest = true ∧
    q.live.controller.stopPoint = some ⟨line, Interpreter.depth q.live.program⟩

/-- The debugger does not come to rest with the step to a line, and whatever burst goes on from there
evaluates what stands on the line. -/
def Missed (breakpoints : Breakpoints) (request : Request) (budget : Nat) (p : Progress Machine) :
    Prop :=
  ∃ q, p.pass breakpoints request budget = (q, none) ∧
    q.live.program = (p.stepped request).1.state ∧ q.live.controller.isAtRest = false ∧
    ∀ (r : Progress Machine) (other : Request) (more : Nat), r.live.program = q.live.program →
      r.live.lines = q.live.lines →
      r.live.controller.stopPoint = q.live.controller.stopPoint →
      r.live.controller.entryPending = q.live.controller.entryPending → r.Proceeds other more →
        (r.pass breakpoints other more).1.live.program = (r.stepped other).1.state

/-- What lets a breakpoint be missed: the operation does not end on its line anyway, and the line was
come to unwinding or is the one of the last stop. -/
def PassesOver (p : Progress Machine) (request : Request) (line : Nat) : Prop :=
  p.goal (p.stepped request).1.state = false ∧
    (p.burst.unwinding = true ∨ p.live.controller.entryPending = false ∧
      p.live.controller.stopPoint.map (·.line) = some line)

instance {p : Progress Machine} {request : Request} {line : Nat} :
    Decidable (p.PassesOver request line) :=
  inferInstanceAs (Decidable (_ ∧ _))

theorem Judged.calm {request : Request} {p q : Progress Machine} {line : Nat}
    (after : Judged request p q) (guarded : p.Guarded)
    (evaluates : q.live.program.evaluates = true) (here : q.line = some line) :
    q.burst.unwinding = false := by
  rw [after.unwinding, Script.Machine.evaluates_unsafe evaluates, here]
  cases stopping : p.live.controller.stopping (p.flags q.live.program) with
  | true => simp
  | false =>
    cases unwinding : p.burst.unwinding with
    | false => rfl
    | true =>
      rw [guarded.stopping_flags unwinding] at stopping
      cases stopping

theorem Judged.rests_before {request : Request} {p q : Progress Machine} {line : Nat}
    (after : Judged request p q) (guarded : p.Guarded)
    (evaluates : q.live.program.evaluates = true) (here : q.line = some line) :
    (p.judged request).2.2 = p.goal q.live.program := by
  rw [after.rests_eq, after.calm guarded evaluates here, Bool.not_false, Bool.and_true]
  rfl

theorem Judged.rests_on {request : Request} {p q : Progress Machine} {line : Nat}
    (after : Judged request p q) (rests : (p.judged request).2.2 = true)
    (here : q.line = some line) :
    q.live.controller.isAtRest = true ∧
      q.live.controller.stopPoint = some ⟨line, Interpreter.depth q.live.program⟩ := by
  rw [after.controller_eq, rests, here]
  exact ⟨rfl, rfl⟩

theorem stepped_blind {request : Request} {p q : Progress Machine}
    (program : q.live.program = p.live.program) (queue : q.live.queue = p.live.queue) :
    (q.stepped request).1 = (p.stepped request).1 := by
  unfold stepped
  rw [program]
  exact Bridge.run_blind _ rfl queue

theorem Arrived.proceeds {breakpoints : Breakpoints} {request : Request} {budget : Nat}
    {p q : Progress Machine} (after : Arrived breakpoints request p q)
    (proceeds : p.Proceeds request budget) (unwinding : q.burst.unwinding = true) :
    q.Proceeds request budget := by
  refine ⟨?_, .inr unwinding, after.program ▸ proceeds.incomplete⟩
  have goesOn := proceeds.goesOn
  rw [Controller.shouldStop, after.response, unwinding]
  simp only [Controller.shouldStop, Bool.or_eq_false_iff] at goesOn
  simp [goesOn]

theorem held_arrived {breakpoints : Breakpoints} {request : Request} {budget : Nat}
    {p : Progress Machine} {line : Nat} (guarded : p.Guarded)
    (proceeds : p.Proceeds request budget) (arrives : (p.arrival breakpoints).2.2 = true)
    (fine : (p.stepped request).1.error = none)
    (evaluates : (p.stepped request).1.state.evaluates = true)
    (stands : Cursor.lineOf (p.stepped request).1.state p.live.lines = some line)
    (safe : Interpreter.isSafe p.live.program = true) :
    p.Held breakpoints request budget line := by
  obtain ⟨q, passed, after⟩ := pass_arrives proceeds arrives
  obtain ⟨place, -, -, -, reaches⟩ := arrival_arrives arrives
  have controller := after.controller
  have burst := after.burst
  rw [reaches] at controller burst
  rw [safe] at burst
  have unwinding : q.burst.unwinding = true := by rw [burst]
  have same : (q.stepped request).1 = (p.stepped request).1 :=
    stepped_blind after.program after.queue
  have passesBy : (q.arrival breakpoints).2.2 = false := by
    rw [arrival, Controller.arrive, unwinding]
    split <;> rfl
  obtain ⟨r, next, moved⟩ := pass_steps (after.proceeds proceeds unwinding) passesBy
    (same ▸ fine)
  have program : r.live.program = (p.stepped request).1.state := by rw [moved.program, same]
  have here : r.line = some line := by
    rw [Progress.line, program, moved.lines, after.lines]
    exact stands
  -- The arrival itself is the stop in reach, and at rest no depth has to be waited for.
  have goal : q.goal r.live.program = true := by
    have reached : (q.flags r.live.program).reachedBreak = true := by
      rw [flags, Burst.noted, burst]
      rfl
    have rests : q.refreshed.state = .paused .run := by
      rw [refreshed_state, controller]
      rfl
    have paused : q.live.controller.state = .paused .run := by
      rw [controller]
      rfl
    simp [goal, Controller.stopping, Controller.isPaused, paused, reached, Controller.staysDeep,
      Controller.mode, rests]
  have rests : (q.judged request).2.2 = true :=
    (moved.rests_before (guarded.pass passed) (program ▸ evaluates) here).trans goal
  rw [rests] at next
  obtain ⟨still, stop⟩ := moved.rests_on rests here
  refine ⟨r, fun fuel => ?_, program, here, still, stop⟩
  simp only [passes, passed, next, if_true]

theorem stepped_shift {request : Request} {p : Progress Machine}
    (fine : (p.stepped request).1.error = none) :
    ∃ answers, Shift p.live.program.functions p.live.program.stack answers
      (p.stepped request).1.state.stack := by
  obtain ⟨answers, yields, -⟩ := Bridge.run_yields p.live.program.step
    ⟨request, p.live.queue, p.live.timers, p.live.response,
      (p.noteLine request.atMaxSpeed p.line).notices⟩
  exact ⟨answers, (Machine.step_shift yields fine).1⟩

theorem entered_from {request : Request} {p : Progress Machine} {line : Nat}
    (sound : p.live.program.Sound p.live.lines) (fine : (p.stepped request).1.error = none)
    (evaluates : (p.stepped request).1.state.evaluates = true)
    (stands : Cursor.lineOf (p.stepped request).1.state p.live.lines = some line) :
    p.line = some line ∧ Interpreter.isSafe p.live.program = true := by
  obtain ⟨answers, shift⟩ := stepped_shift fine
  obtain ⟨place, block⟩ := shift.enters sound.stacked evaluates
  refine ⟨?_, ?_⟩
  · change (p.live.program.stack.head?.bind Script.Frame.position).bind _ = _
    rw [place]
    exact stands
  · rw [Script.Machine.isSafe_eq]
    cases stack : p.live.program.stack with
    | nil => rfl
    | cons frame below =>
      rw [stack] at block
      exact Bool.or_eq_true_iff.mpr (.inr block)

/-- The line of the last stop after a step that begins on a line: it is that line if the burst
unwinds, and stays so if it was. -/
theorem refreshed_stopPoint {p : Progress Machine} {line : Nat} (here : p.line = some line)
    (stays : p.burst.unwinding = true ∨ p.live.controller.stopPoint.map (·.line) = some line) :
    p.refreshed.stopPoint.map (·.line) = some line := by
  have same : p.cursor.line = some line := here
  unfold refreshed Controller.refreshStopPoint
  rw [same]
  dsimp only
  cases unwinding : p.burst.unwinding with
  | true => rfl
  | false =>
    have kept := stays.resolve_left (by simp [unwinding])
    obtain ⟨point, stop, rfl⟩ := Option.map_eq_some_iff.mp kept
    simp [stop]

theorem missed_on {breakpoints : Breakpoints} {request : Request} {budget : Nat}
    {p : Progress Machine} {line : Nat} (guarded : p.Guarded)
    (active : p.live.controller.isAtRest = false) (proceeds : p.Proceeds request budget)
    (fine : (p.stepped request).1.error = none)
    (evaluates : (p.stepped request).1.state.evaluates = true)
    (stands : Cursor.lineOf (p.stepped request).1.state p.live.lines = some line)
    (here : p.line = some line) (entry : p.live.controller.entryPending = false)
    (passesOver : p.PassesOver request line) : p.Missed breakpoints request budget := by
  obtain ⟨noGoal, why⟩ := passesOver
  have stays : p.burst.unwinding = true ∨
      p.live.controller.stopPoint.map (·.line) = some line := why.imp id And.right
  have passesBy : (p.arrival breakpoints).2.2 = false := by
    rw [Bool.eq_false_iff, Ne, arrival_iff here, entry]
    rintro ⟨still, impossible | ⟨-, left⟩⟩
    · cases impossible
    · exact left (stays.resolve_left (by simp [still]))
  obtain ⟨q, passed, after⟩ := pass_steps proceeds passesBy fine
  have program := after.program
  have hereNow : q.line = some line := by
    rw [Progress.line, program, after.lines]
    exact stands
  have goesOn : (p.judged request).2.2 = false :=
    (after.rests_before guarded (program ▸ evaluates) hereNow).trans (program ▸ noGoal)
  have controller := after.controller_active goesOn
  rw [goesOn] at passed
  refine ⟨q, passed, program, ?_, ?_⟩
  · exact (Controller.isAtRest_congr (after.state_active goesOn)).trans active
  · intro r other more sameProgram sameLines stop sameEntry goes
    have hereThen : r.line = some line := by
      rw [Progress.line, sameProgram, sameLines]
      exact hereNow
    have stopThere : r.live.controller.stopPoint.map (·.line) = some line := by
      rw [stop, controller]
      exact refreshed_stopPoint here stays
    have noEntry : r.live.controller.entryPending = false := by
      rw [sameEntry, controller]
      exact p.refreshed_entryPending.trans entry
    rcases pass_proceeds breakpoints goes with
      ⟨-, -, arrives, -⟩ | ⟨-, ⟨next, error, passed, -, after⟩ | ⟨next, passed, -, after⟩⟩
    · rw [arrival_iff hereThen, noEntry] at arrives
      rcases arrives.2 with impossible | ⟨-, left⟩
      · cases impossible
      · exact absurd stopThere left
    · rw [passed]
      exact after.program
    · rw [passed]
      exact after.program

/-- A step to a statement on a line with a breakpoint: the debugger comes to rest before it, unless
the line is passed over. -/
theorem missed_or_held {breakpoints : Breakpoints} {request : Request} {budget : Nat}
    {p : Progress Machine} {line : Nat} (guarded : p.Guarded) (patient : p.Patient)
    (sound : p.live.program.Sound p.live.lines) (active : p.live.controller.isAtRest = false)
    (proceeds : p.Proceeds request budget) (fine : (p.stepped request).1.error = none)
    (evaluates : (p.stepped request).1.state.evaluates = true)
    (stands : Cursor.lineOf (p.stepped request).1.state p.live.lines = some line)
    (breakpoint : breakpoints.contains line = true) :
    (p.PassesOver request line → p.Missed breakpoints request budget) ∧
      (¬ p.PassesOver request line → p.Held breakpoints request budget line) := by
  obtain ⟨here, safe⟩ := entered_from sound fine evaluates stands
  refine ⟨fun passesOver => ?_, fun notOver => ?_⟩
  · have entry : p.live.controller.entryPending = false := by
      rcases passesOver.2 with unwinding | ⟨entry, -⟩
      · rw [Bool.eq_false_iff]
        intro entry
        rw [patient.still guarded entry] at unwinding
        cases unwinding
      · exact entry
    exact missed_on guarded active proceeds fine evaluates stands here entry passesOver
  · cases arrives : (p.arrival breakpoints).2.2 with
    | true => exact held_arrived guarded proceeds arrives fine evaluates stands safe
    | false =>
      -- Without an arrival the step was taken while the burst unwound, or after a stop on the line.
      have why : p.burst.unwinding = true ∨ p.live.controller.entryPending = false ∧
          p.live.controller.stopPoint.map (·.line) = some line := by
        rw [Bool.eq_false_iff, Ne, arrival_iff here] at arrives
        simp only [breakpoint, true_and, not_and_or, not_or, Bool.not_eq_false,
          Bool.not_eq_true, not_not] at arrives
        exact arrives
      obtain ⟨q, passed, after⟩ := pass_steps proceeds arrives fine
      have hereNow : q.line = some line := by
        rw [Progress.line, after.program, after.lines]
        exact stands
      have rests : (p.judged request).2.2 = true := by
        rw [after.rests_before guarded (after.program ▸ evaluates) hereNow, after.program]
        by_contra noGoal
        exact notOver ⟨by simpa using noGoal, why⟩
      rw [rests] at passed
      obtain ⟨still, stop⟩ := after.rests_on rests hereNow
      refine ⟨q, fun fuel => ?_, after.program, hereNow, still, stop⟩
      simp only [passes, passed, if_true]

def momentBefore (request : Request) (line : Nat) (trail : List (Progress Machine)) :
    Option (Progress Machine) :=
  trail.find? fun p =>
    (p.stepped request).1.error.isNone && (p.stepped request).1.state.evaluates &&
      Cursor.lineOf (p.stepped request).1.state p.live.lines == some line

theorem momentBefore_spec {request : Request} {line : Nat} {trail : List (Progress Machine)}
    {p : Progress Machine} (found : momentBefore request line trail = some p) :
    p ∈ trail ∧ (p.stepped request).1.error = none ∧
      (p.stepped request).1.state.evaluates = true ∧
      Cursor.lineOf (p.stepped request).1.state p.live.lines = some line := by
  have comes := List.find?_some found
  simp only [Bool.and_eq_true, Option.isNone_iff_eq_none, beq_iff_eq] at comes
  exact ⟨List.mem_of_find?_eq_some found, comes.1.1, comes.1.2, comes.2⟩

structure Kept (p : Progress Machine) : Prop where
  guarded : p.Guarded
  patient : p.Patient
  sound : p.live.program.Sound p.live.lines

theorem Kept.pass {breakpoints : Breakpoints} {request : Request} {budget : Nat}
    {p q : Progress Machine} (kept : p.Kept)
    (goesOn : p.pass breakpoints request budget = (q, none)) : q.Kept :=
  ⟨kept.guarded.pass goesOn, kept.patient.pass kept.guarded goesOn,
    pass_sound goesOn (fun _ _ => by simp) kept.sound⟩

end Progress

open Progress

theorem Bursts.kept {φ : Type} {s : Scheduler Machine φ} {operation : Operation Machine φ}
    {live : Live Machine} {request : Request} {p : Progress Machine} (reachable : Reachable s)
    (given : operation.Given) (runs : Bursts s operation live request)
    (reaches : Reaches s.breakpoints request s.settings.tickBudget (begin live) p) : p.Kept := by
  have begins : live.program.Sound live.lines :=
    runs.sound (fun _ here => reachable.sound here) given
  exact reaches.keeps Kept ⟨begin_guarded runs.active, fun _ => ⟨rfl, rfl⟩, begins⟩
    fun _ _ kept passed => kept.pass passed

theorem ComesTo.kept {φ : Type} {s₀ s : Scheduler Machine φ} {trail : List (Progress Machine)}
    {request : Request} {p : Progress Machine} (comes : ComesTo s₀ trail s request p)
    (reachable : Reachable s₀) : p.Kept := by
  cases comes with
  | walks underway event runs walks =>
    exact runs.kept (underway.reachable reachable) (Operation.given_of_event event) walks.reaches

/-- A step to a user's statement or condition on a line with a breakpoint, in a run that is not at
rest: the debugger comes to rest on the line before it is evaluated, unless the burst comes to the
line unwinding, or the line is that of the last stop, and a step operation does not end there. Then
the statement is evaluated. -/
theorem breakpoint_missed_or_held {φ : Type} {s : Scheduler Machine φ}
    {operation : Operation Machine φ} {live : Live Machine} {request : Request}
    {p : Progress Machine} {line : Nat} (reachable : Reachable s) (given : operation.Given)
    (runs : Bursts s operation live request)
    (reaches : Reaches s.breakpoints request s.settings.tickBudget (begin live) p)
    (active : p.live.controller.isAtRest = false)
    (proceeds : p.Proceeds request s.settings.tickBudget)
    (fine : (p.stepped request).1.error = none)
    (evaluates : (p.stepped request).1.state.evaluates = true)
    (stands : Cursor.lineOf (p.stepped request).1.state p.live.lines = some line)
    (breakpoint : s.breakpoints.contains line = true) :
    (p.PassesOver request line → p.Missed s.breakpoints request s.settings.tickBudget) ∧
      (¬ p.PassesOver request line → p.Held s.breakpoints request s.settings.tickBudget line) := by
  have kept := runs.kept reachable given reaches
  exact missed_or_held kept.guarded kept.patient kept.sound active proceeds fine evaluates stands
    breakpoint

def calling : List Char := "func f\n  print \"inside\"\nend\ncall f\nprint \"after\"\n".toList

def entering : Scheduler Machine Unit :=
  .new { Settings.default with pauseOnEntry := true } none

def steppingOver (loaded : Loaded) : Scheduler Machine Unit :=
  entering.performAll
    [.command (.setBreakpoints [2]), .start loaded.machine loaded.text.lineMap 0 0,
      .tick ⟨1, 0⟩ 0 0, .command .stepOver]

theorem steppingOver_reachable {loaded : Loaded} (read : Script.load calling = .ok loaded) :
    Reachable (steppingOver loaded) := by
  apply Reachable.loading read (.new _ _)
  simp +contextual

/-- The step over the call evaluates the statement on the breakpoint's line, and comes to rest after
the call. -/
theorem steppingOver_passes_breakpoint : ∃ loaded, Script.load calling = .ok loaded ∧
    (steppingOver loaded).breakpoints.contains 2 = true ∧
    ((steppingOver loaded).perform (.tick ⟨1, 0⟩ 0 0)).transcript =
      [.stopped .entry ⟨true, true, .run, some 4, some 2⟩, .output "inside",
        .stopped .step ⟨true, true, .run, some 5, some 2⟩] := by
  have read : (Script.load calling).toOption.any (fun loaded =>
      (steppingOver loaded).breakpoints.contains 2 &&
        ((steppingOver loaded).perform (.tick ⟨1, 0⟩ 0 0)).transcript ==
          [.stopped .entry ⟨true, true, .run, some 4, some 2⟩, .output "inside",
            .stopped .step ⟨true, true, .run, some 5, some 2⟩]) = true := by
    decide +kernel
  obtain ⟨loaded, same, holds⟩ := load_any read
  rw [Bool.and_eq_true, beq_iff_eq] at holds
  exact ⟨loaded, same, holds⟩

def comesInside (loaded : Loaded) : Bool :=
  let s := steppingOver loaded
  s.live.any fun live =>
    s.runNumber == 1 && live.controller.beginTick.2 && s.breakpoints.contains 2 &&
      (momentBefore (s.tickRequest 0) 2
        (live.ticked.trail s.breakpoints (s.tickRequest 0) s.settings.tickBudget)).any fun p =>
          !p.live.controller.isAtRest && decide (p.PassesOver (s.tickRequest 0) 2)

theorem steppingOver_misses_breakpoint : ∃ (loaded : Loaded) (live : Live Machine)
    (p : Progress Machine), Script.load calling = .ok loaded ∧
      let s := steppingOver loaded
      let request := s.tickRequest 0
      Bursts s (.tick ⟨1, 0⟩ 0 0) live request ∧
        Reaches s.breakpoints request s.settings.tickBudget (begin live) p ∧
        p.PassesOver request 2 ∧ p.Missed s.breakpoints request s.settings.tickBudget := by
  have computed : (Script.load calling).toOption.any comesInside = true := by decide +kernel
  obtain ⟨loaded, read, inside⟩ := load_any computed
  have reachable := steppingOver_reachable read
  refine ⟨loaded, ?_⟩
  unfold comesInside at inside
  generalize steppingOver loaded = s at inside reachable ⊢
  obtain ⟨live, here, inside⟩ := (Option.any_eq_true _ _).mp inside
  simp only [Bool.and_eq_true, beq_iff_eq, Option.any_eq_true, Bool.not_eq_true',
    decide_eq_true_eq] at inside
  obtain ⟨⟨⟨current, steps⟩, breakpoint⟩, p, found, active, passesOver⟩ := inside
  obtain ⟨member, fine, evaluates, stands⟩ := momentBefore_spec found
  obtain ⟨before, after, split⟩ := List.append_of_mem member
  obtain ⟨walks, moves⟩ := walks_of_trail split
  have runs : Bursts s (.tick ⟨1, 0⟩ 0 0) live.ticked (s.tickRequest 0) :=
    .tick here current.symm steps
  have given : (Operation.tick ⟨1, 0⟩ 0 0 : Operation Machine Unit).Given :=
    Operation.given_of_event rfl
  have proceeds := (takesStep_iff.mp moves).1
  refine ⟨live.ticked, p, read, runs, walks.reaches, passesOver, ?_⟩
  exact (breakpoint_missed_or_held reachable given runs walks.reaches active proceeds fine evaluates
    stands breakpoint).1 passesOver

end Run

end Metronome
