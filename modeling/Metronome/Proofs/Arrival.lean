import Metronome.Proofs.Announcement
import Metronome.Proofs.Breakpoint

namespace Metronome

open Metronome.Debug (Breakpoints Controller Cursor)

namespace Script

/-- Something is left to evaluate where the stack stands: a statement that has not begun, the next
statement of a block, or the condition of the loop whose body has ended. -/
def Machine.isFresh (m : Machine) : Bool :=
  match m.stack with
  | .block (_ :: _) _ :: _ => true
  | .block [] _ :: .loop _ _ _ false :: _ => true
  | _ => m.evaluates

theorem Machine.safe_of_fresh {m : Machine} (fresh : m.isFresh = true)
    (begun : m.evaluates = false) : Interpreter.isSafe m = true := by
  unfold Machine.isFresh at fresh
  split at fresh
  · rename_i stack
    exact Machine.isSafe_cons stack
  · rename_i stack
    exact Machine.isSafe_cons stack
  · rw [begun] at fresh
    cases fresh

theorem Shift.freshens {m : Machine} {functions : List Function} {after : List Frame}
    {answers : List Bool} (shift : Shift functions m.stack answers after)
    (fresh : m.isFresh = true) (begun : m.evaluates = false) :
    after.head?.any Frame.evaluates = true := by
  unfold Machine.isFresh at fresh
  split at fresh
  · rename_i node rest origin below stack
    rw [stack] at shift
    cases shift with
    | leave isNode => cases isNode
    | enter => cases node <;> rfl
  · rename_i stack
    rw [stack] at shift
    cases shift with
    | leave isNode => cases isNode
    | leaveBlock => rfl
  · rw [begun] at fresh
    cases fresh

end Script

namespace Run

open Metronome.Script (Loaded Machine load_any)

namespace Progress

section

variable {σ : Type} [Interpreter σ] {breakpoints : Breakpoints} {request : Request} {budget : Nat}

theorem Reaches.passes {p q r : Progress σ} {ending : Ending} {fuel : Nat}
    (reaches : Reaches breakpoints request budget p r)
    (ends : p.passes breakpoints request budget fuel = (q, ending)) (uncut : ending ≠ .cutOff) :
    ∃ fuel, r.passes breakpoints request budget fuel = (q, ending) := by
  induction reaches with
  | here => exact ⟨fuel, ends⟩
  | pass _ goesOn ih =>
    obtain ⟨fuel, ends⟩ := ih
    cases fuel with
    | zero =>
      cases ends
      exact absurd rfl uncut
    | succ fuel =>
      rw [Progress.passes, goesOn] at ends
      exact ⟨fuel, ends⟩

structure ArrivesAt (breakpoints : Breakpoints) (p : Progress σ) (line : Nat) : Prop where
  here : p.line = some line
  breakpoint : breakpoints.contains line = true
  arrives : (p.arrival breakpoints).2.2 = true

def Accounted (breakpoints : Breakpoints) (request : Request) (budget : Nat) (p q : Progress σ) :
    Prop :=
  q.live.controller.stopReason = some .breakpoint →
    ∃ r line, Reaches breakpoints request budget p r ∧ r.Proceeds request budget ∧
      r.ArrivesAt breakpoints line

theorem Accounted.pass {p q r : Progress σ} (reaches : Reaches breakpoints request budget p q)
    (accounted : Accounted breakpoints request budget p q)
    (goesOn : q.pass breakpoints request budget = (r, none)) :
    Accounted breakpoints request budget p r := by
  intro reason
  obtain ⟨proceeds, ⟨arrives, after⟩ | ⟨-, -, after, active⟩⟩ := pass_none goesOn
  · obtain ⟨line, here, -, why, same⟩ := arrival_arrives arrives
    rw [after.controller, same] at reason
    by_cases entry : q.live.controller.entryPending = true
    · simp [Controller.arriveAt, entry] at reason
    · exact ⟨q, line, reaches, proceeds, here, (why.resolve_left entry).1, arrives⟩
  · refine accounted ?_
    rw [after.controller_active active] at reason
    obtain ⟨stopPoint, same⟩ := q.refreshed_eq
    rw [same] at reason
    exact reason

theorem Reaches.accounted {live : Live σ} {q : Progress σ} (silent : live.controller.stopReason = none)
    (reaches : Reaches breakpoints request budget (begin live) q) :
    Accounted breakpoints request budget (begin live) q := by
  induction reaches with
  | here =>
    intro reason
    rw [show (begin live).live.controller.stopReason = live.controller.stopReason from rfl, silent]
      at reason
    cases reason
  | pass before goesOn ih => exact ih.pass before goesOn

theorem passes_accounted {live : Live σ} {q : Progress σ} {ending : Ending} {fuel : Nat}
    (silent : live.controller.stopReason = none)
    (ends : (begin live).passes breakpoints request budget fuel = (q, ending))
    (fine : ∀ error line, ending ≠ .failed error line) :
    Accounted breakpoints request budget (begin live) q := by
  obtain ⟨r, reaches, ⟨-, rfl⟩ | last⟩ := passes_spec ends
  · exact reaches.accounted silent
  · have accounted := reaches.accounted silent
    rcases pass_some last with
      ⟨rfl, -, -⟩ | ⟨-, -, ⟨error, line, rfl⟩ | ⟨-, -, after, rests⟩⟩
    · exact accounted
    · exact absurd rfl (fine error line)
    · intro reason
      refine accounted ?_
      have controller := after.controller_eq
      rw [rests] at controller
      obtain ⟨stopPoint, same⟩ := r.refreshed_eq
      rw [controller, same] at reason
      cases before : r.live.controller.stopReason with
      | none => simp [Controller.rest, Controller.noted, before] at reason
      | some other => simpa [Controller.rest, Controller.noted, before] using reason

end

theorem stops_where_arrived {breakpoints : Breakpoints} {request : Request} {budget fuel : Nat}
    {p q : Progress Machine} {ending : Ending} {line : Nat} (proceeds : p.Proceeds request budget)
    (arrives : p.ArrivesAt breakpoints line) (evaluates : p.live.program.evaluates = true)
    (ends : p.passes breakpoints request budget (fuel + 2) = (q, ending)) :
    q.live.program.evaluates = true ∧ q.line = some line ∧ q.live.controller.isAtRest = true ∧
      q.live.controller.stopPoint = some ⟨line, Interpreter.depth q.live.program⟩ := by
  obtain ⟨r, passed, after⟩ := pass_arrives proceeds arrives.arrives
  obtain ⟨place, here, -, -, reaches⟩ := arrival_arrives arrives.arrives
  cases here.symm.trans arrives.here
  have controller := after.controller
  have burst := after.burst
  rw [reaches] at controller burst
  have stops : Controller.shouldStop r.burst (r.live.response.signals request)
      request.atMaxSpeed = true := by
    rw [burst, Script.Machine.evaluates_unsafe evaluates]
    rfl
  have still : r.pass breakpoints request budget = (r, some .stopped) := by
    rw [pass, if_pos stops]
  rw [passes, passed] at ends
  dsimp only at ends
  rw [passes, still] at ends
  cases ends
  rw [Progress.line, after.program, after.lines, controller]
  exact ⟨evaluates, arrives.here, rfl, rfl⟩

theorem rests_where_arrived {breakpoints : Breakpoints} {request : Request} {budget fuel : Nat}
    {p q : Progress Machine} {ending : Ending} {line : Nat} (guarded : p.Guarded)
    (sound : p.live.program.Sound p.live.lines) (proceeds : p.Proceeds request budget)
    (arrives : p.ArrivesAt breakpoints line) (fresh : p.live.program.isFresh = true)
    (begun : p.live.program.evaluates = false)
    (ends : p.passes breakpoints request budget (fuel + 2) = (q, ending))
    (fine : ∀ error line, ending ≠ .failed error line) :
    q.live.program.evaluates = true ∧ q.line = some line ∧ q.live.controller.isAtRest = true ∧
      q.live.controller.stopPoint = some ⟨line, Interpreter.depth q.live.program⟩ := by
  have safe := Script.Machine.safe_of_fresh fresh begun
  cases error : (p.stepped request).1.error with
  | none =>
    obtain ⟨answers, shift⟩ := stepped_shift error
    have evaluates := shift.freshens fresh begun
    obtain ⟨position, -⟩ := shift.enters sound.stacked evaluates
    have stands : Cursor.lineOf (p.stepped request).1.state p.live.lines = some line := by
      rw [← arrives.here]
      change ((p.stepped request).1.state.stack.head?.bind Script.Frame.position).bind _ = _
      rw [← position]
      rfl
    obtain ⟨held, rests, program, stays⟩ :=
      held_arrived guarded proceeds arrives.arrives error evaluates stands safe
    rw [rests fuel] at ends
    cases ends
    exact ⟨program ▸ evaluates, stays⟩
  | some problem =>
    obtain ⟨r, passed, after⟩ := pass_arrives proceeds arrives.arrives
    obtain ⟨place, -, -, -, reaches⟩ := arrival_arrives arrives.arrives
    have burst := after.burst
    rw [reaches] at burst
    have unwinding : r.burst.unwinding = true := by rw [burst, safe]
    have same : (r.stepped request).1 = (p.stepped request).1 :=
      stepped_blind after.program after.queue
    rcases pass_proceeds breakpoints (after.proceeds proceeds unwinding) with
      ⟨x, -, reached, -⟩ | ⟨-, ⟨x, problem, failed, -⟩ | ⟨x, -, unfailed, -⟩⟩
    · obtain ⟨-, -, still, -⟩ := arrival_arrives reached
      rw [unwinding] at still
      cases still
    · rw [passes, passed] at ends
      dsimp only at ends
      rw [passes, failed] at ends
      cases ends
      exact absurd rfl (fine problem _)
    · rw [same, error] at unfailed
      cases unfailed

end Progress

open Progress

theorem Bursts.arrived {φ : Type} {s : Scheduler Machine φ} {operation : Operation Machine φ}
    {live : Live Machine} {request : Request} {q : Progress Machine} {ending : Ending}
    (reachable : Reachable s) (given : operation.Given) (runs : Bursts s operation live request)
    (ends : live.burst s.breakpoints request s.settings.tickBudget = (q, ending))
    (fine : ∀ error line, ending ≠ .failed error line)
    (reason : q.live.controller.stopReason = some .breakpoint) :
    ∃ p line, Reaches s.breakpoints request s.settings.tickBudget (begin live) p ∧
      p.ArrivesAt s.breakpoints line ∧
      (p.live.program.isFresh = true →
        q.live.program.evaluates = true ∧ q.line = some line ∧
          q.live.controller.isAtRest = true ∧
          q.live.controller.stopPoint = some ⟨line, Interpreter.depth q.live.program⟩) := by
  have uncut := runs.uncut reachable given
  unfold Live.burst at ends
  rw [ends] at uncut
  obtain ⟨p, line, reaches, proceeds, arrives⟩ :=
    passes_accounted (runs.silent reachable.silent) ends fine reason
  refine ⟨p, line, reaches, arrives, fun fresh => ?_⟩
  have kept := runs.kept reachable given reaches
  obtain ⟨fuel, rest⟩ := reaches.passes ends uncut
  have enough := passes_more (fuel + 2) (by rw [rest]; exact uncut) (Nat.le_add_right fuel 2)
  rw [rest] at enough
  cases begun : p.live.program.evaluates with
  | true => exact stops_where_arrived proceeds arrives begun enough
  | false =>
    exact rests_where_arrived kept.guarded kept.sound proceeds arrives fresh begun enough fine

/-- When the host is told of a stop at a breakpoint, the run has arrived at a line with a breakpoint.
If something was left to evaluate there, the host is told of that line, and the program stands on it
before a statement or a condition. -/
theorem told_breakpoint_arrived {φ : Type} {s : Scheduler Machine φ}
    {operation : Operation Machine φ} (reachable : Reachable s) (given : operation.Given) :
    ∃ told, (s.perform operation).transcript = s.transcript ++ told ∧
      ∀ state, .stopped .breakpoint state ∈ told →
        ∃ (live : Live Machine) (request : Request) (p q : Progress Machine) (ending : Ending)
          (line : Nat), Bursts s operation live request ∧
            Reaches s.breakpoints request s.settings.tickBudget (begin live) p ∧
            p.ArrivesAt s.breakpoints line ∧
            live.burst s.breakpoints request s.settings.tickBudget = (q, ending) ∧
            (p.live.program.isFresh = true →
              state.line = some line ∧ state.depth = some (Interpreter.depth q.live.program) ∧
                q.line = some line ∧ q.live.program.evaluates = true) := by
  obtain ⟨told, same, tells⟩ :=
    Scheduler.perform_tells operation reachable.silent
  refine ⟨told, same, fun state member => ?_⟩
  cases tells _ member with
  | noStop stop => cases stop
  | burst runs ends fine reason =>
    obtain ⟨p, line, reaches, arrives, stands⟩ := runs.arrived reachable given ends fine reason
    refine ⟨_, _, p, _, _, line, runs, reaches, arrives, ends, ?_⟩
    intro fresh
    obtain ⟨evaluates, here, -, stop⟩ := stands fresh
    refine ⟨?_, ?_, here, evaluates⟩
    · simp [Controller.pauseState, stop]
    · simp [Controller.pauseState, stop]

def watching : Scheduler Machine Unit :=
  Scheduler.performAll (.new .default none) [.command (.setBreakpoints [2, 4])]

theorem watching_reachable : Reachable watching := .performAll (.new _ _) fun operation member => by
  cases List.mem_singleton.mp member
  rintro program lines began ended ⟨⟩

def goingOn (loaded : Loaded) : List (Operation Machine Unit) :=
  [.start loaded.machine loaded.text.lineMap 0 0, .command .resume, .tick ⟨1, 0⟩ 0 0,
    .command .resume]

/-- The third stop is told as one at a breakpoint, on a line without one. -/
theorem watching_stops_after_call : ∃ loaded, Script.load calling = .ok loaded ∧
    (watching.performAll (goingOn loaded)).breakpoints.contains 5 = false ∧
    ((watching.performAll (goingOn loaded)).perform (.tick ⟨1, 0⟩ 0 0)).transcript =
      [.stopped .breakpoint ⟨true, true, .run, some 4, some 2⟩,
        .stopped .breakpoint ⟨true, true, .run, some 2, some 5⟩, .output "inside",
        .stopped .breakpoint ⟨true, true, .run, some 5, some 2⟩] := by
  have computed : (Script.load calling).toOption.any (fun loaded =>
      !(watching.performAll (goingOn loaded)).breakpoints.contains 5 &&
        ((watching.performAll (goingOn loaded)).perform (.tick ⟨1, 0⟩ 0 0)).transcript ==
          [.stopped .breakpoint ⟨true, true, .run, some 4, some 2⟩,
            .stopped .breakpoint ⟨true, true, .run, some 2, some 5⟩, .output "inside",
            .stopped .breakpoint ⟨true, true, .run, some 5, some 2⟩]) = true := by
    decide +kernel
  obtain ⟨loaded, read, holds⟩ := load_any computed
  simp only [Bool.and_eq_true, beq_iff_eq, Bool.not_eq_true'] at holds
  exact ⟨loaded, read, holds⟩

theorem watching_stops_at_call : ∃ loaded, Script.load calling = .ok loaded ∧
    let starts : Operation Machine Unit := .start loaded.machine loaded.text.lineMap 0 0
    (watching.perform starts).transcript =
        [.stopped .breakpoint ⟨true, true, .run, some 4, some 2⟩] ∧
      ∃ (live : Live Machine) (request : Request) (p q : Progress Machine) (ending : Ending)
        (line : Nat), Bursts watching starts live request ∧
          Reaches watching.breakpoints request watching.settings.tickBudget (begin live) p ∧
          p.ArrivesAt watching.breakpoints line ∧
          live.burst watching.breakpoints request watching.settings.tickBudget = (q, ending) ∧
          (p.live.program.isFresh = true →
            line = 4 ∧ Interpreter.depth q.live.program = 2 ∧ q.line = some line ∧
              q.live.program.evaluates = true) := by
  have computed : (Script.load calling).toOption.any (fun loaded =>
      (watching.perform (.start loaded.machine loaded.text.lineMap 0 0)).transcript ==
        [.stopped .breakpoint ⟨true, true, .run, some 4, some 2⟩]) = true := by
    decide +kernel
  obtain ⟨loaded, read, holds⟩ := load_any computed
  have transcript := beq_iff_eq.mp holds
  have reachable : Reachable watching := .performAll (.new _ _) fun operation member => by
    cases List.mem_singleton.mp member
    rintro program lines began ended ⟨⟩
  have given : (Operation.start loaded.machine loaded.text.lineMap 0 0 :
      Operation Machine Unit).Given := by
    rintro program lines began ended ⟨⟩
    exact ⟨loaded, .polling read, rfl, rfl⟩
  obtain ⟨told, same, stands⟩ := told_breakpoint_arrived reachable given
  have silent : watching.transcript = [] := rfl
  rw [silent, List.nil_append] at same
  rw [transcript] at same
  obtain ⟨live, request, p, q, ending, line, runs, reaches, arrives, ends, fresh⟩ :=
    stands _ (same ▸ List.mem_singleton_self _)
  refine ⟨loaded, read, transcript, live, request, p, q, ending, line, runs, reaches, arrives, ends,
    fun begins => ?_⟩
  obtain ⟨there, depth, here, evaluates⟩ := fresh begins
  exact ⟨(Option.some.inj there).symm, (Option.some.inj depth).symm, here, evaluates⟩

end Run

end Metronome
