import Metronome.Proofs.Arrival
import Metronome.Proofs.Confinement
import Metronome.Proofs.Deeds
import Metronome.Proofs.StepIn

namespace Metronome

namespace Script

namespace Machine

/-- A step that only tidies up, with all that it asks of its host and leaves of its machine. -/
inductive Tidies (m : Machine) : Native Result → Prop where
  | pops {frame : Frame} {below : List Frame} (stack : m.stack = frame :: below)
      (finished : frame.isDone = true) : Tidies m (.done (succeed { m with stack := below }))
  | endsCall {origin offset : Option Nat} {name : String} {below : List Frame}
      (stack : m.stack = .block [] origin :: .call name offset .running :: below) :
      Tidies m (.done (succeed { m with
        stack := .call name offset (.returned .null) :: below, locals := m.locals.tail }))
  | completes {name : String} {offset : Option Nat} {value : Value} {place : Place}
      {action : Action} {below : List Frame}
      (stack : m.stack =
        .call name offset (.returned value) :: .action place action .waiting :: below) :
      Tidies m (complete { m with stack := below } place action value)
  | answers {name : String} {offset : Option Nat} {value : Value} {place : Place}
      {below : List Frame}
      (stack : m.stack = .call name offset (.returned value) :: .poll place .waiting :: below) :
      Tidies m (.giveBack value (.done (push { m with stack := below } (.poll place .done))))
  | enters {node : Node} {rest : List Node} {origin : Option Nat} {below : List Frame}
      (stack : m.stack = .block (node :: rest) origin :: below) :
      Tidies m (.done (push { m with stack := .block rest origin :: below } (.ofNode node)))

theorem finish_tidies {m : Machine} {frame : Frame} {below : List Frame}
    (stack : m.stack = frame :: below) (finished : frame.isDone = true) :
    m.Tidies (finish { m with stack := below } frame) := by
  cases frame with
  | call name offset state =>
    cases state with
    | returned value =>
      rw [finish, finishCall]
      split
      · rename_i place action rest waiting
        cases waiting
        exact .completes stack
      · rename_i place rest waiting
        cases waiting
        exact .answers stack
      · exact .pops stack finished
    | _ => cases finished
  | block rest origin =>
    rw [finish, finishBlock]
    split
    · rename_i name offset outer running
      cases running
      cases rest with
      | nil => exact .endsCall stack
      | cons => cases finished
    · exact .pops stack finished
  | _ => exact .pops stack finished

theorem step_tidies {m : Machine} (safe : Interpreter.isSafe m = true)
    (incomplete : Interpreter.isComplete m = false) : m.Tidies m.step := by
  cases stack : m.stack with
  | nil =>
    have empty : Interpreter.isComplete m = m.stack.isEmpty := rfl
    rw [empty, stack] at incomplete
    cases incomplete
  | cons frame below =>
    rw [step, stack]
    dsimp only
    by_cases finished : frame.isDone = true
    · rw [if_pos finished]
      exact finish_tidies stack finished
    · rw [if_neg finished]
      have unfinished : frame.isDone = false := Bool.eq_false_iff.mpr finished
      have block : frame.isBlock = true := by
        rw [isSafe_cons stack, unfinished, Bool.false_or] at safe
        exact safe
      cases frame with
      | block rest origin =>
        cases rest with
        | nil => exact absurd rfl finished
        | cons node rest => exact .enters stack
      | _ => cases block

theorem push_error {m : Machine} {frame : Frame} {error : StepError}
    (fails : (m.push frame).error = some error) : error.message = StepFault.stackFull.message := by
  rw [push] at fails
  split at fails
  · cases fails
    rfl
  · cases fails

theorem returnValue_fine {m : Machine} (value : Value) (offset : Nat)
    (inCall : toCall m.stack ≠ []) : (m.returnValue value offset).error = none := by
  obtain ⟨frame, below, found⟩ := List.exists_cons_of_ne_nil inCall
  have call : frame.kind = .call := by
    have top := List.head?_dropWhile_not (fun frame : Frame => frame.kind != .call) m.stack
    rw [← toCall, found] at top
    simpa using top
  unfold returnValue
  rw [← toCall, found]
  cases frame with
  | call => rfl
  | _ => cases call

variable {ν : Type} {natives : Natives ν} {host : ν} {m : Machine} {computation : Native Result}
  {error : StepError}

theorem complete_error {place : Place} {action : Action} {value : Value}
    (confined : action.isReturn = false ∨ toCall m.stack ≠ [])
    (fails : ((m.complete place action value).run natives host).1.error = some error) :
    error.message = StepFault.stackFull.message := by
  cases action with
  | ret result =>
    have inCall := confined.resolve_left (by simp [Action.isReturn])
    rw [complete, Native.run, returnValue_fine value _ inCall] at fails
    cases fails
  | _ => exact push_error fails

theorem Tidies.failure (tidies : m.Tidies computation) (confined : Confined m.stack)
    (fails : (computation.run natives host).1.error = some error) :
    error.message = StepFault.stackFull.message := by
  cases tidies with
  | pops | endsCall => cases fails
  | answers | enters => exact push_error fails
  | @completes _ _ _ _ action below stack =>
    rw [stack] at confined
    have inCall : action.isReturn = false ∨ toCall below ≠ [] := confined.2.1
    exact complete_error inCall fails

end Machine

end Script

namespace Run

open Metronome.Script (Confined Machine StepFault load_any)

namespace Progress

structure Tidied (p : Progress Machine) : Prop where
  evaluates : p.evaluates = false
  tidies : p.live.program.Tidies (Interpreter.step p.live.program)
  fails : ∀ request error, (p.stepped request).1.error = some error →
    error.message = StepFault.stackFull.message

theorem Warranted.tidied {p : Progress Machine} (warranted : p.Warranted)
    (confined : Confined p.live.program.stack)
    (incomplete : Interpreter.isComplete p.live.program = false)
    (unwinds : p.burst.unwinding = true) (user : p.line.isSome = true) : p.Tidied := by
  have safe : Interpreter.isSafe p.live.program = true := by
    apply (warranted.loose unwinds).resolve_right
    intro outside
    rw [outside] at user
    cases user
  have tidies := Machine.step_tidies safe incomplete
  exact ⟨warranted.quiet unwinds, tidies, fun _ _ fails => tidies.failure confined fails⟩

end Progress

/-- In a run of an accepted source, a step on a line of the user's that is taken while the burst
unwinds evaluates nothing: it takes a finished frame off the stack, completes the statement whose
call has returned, or enters the next statement of a block. It fails only with a full stack. Once the
burst has arrived at a breakpoint or the entry it takes no other steps until it is over. -/
theorem stopping_only_tidies {φ : Type} {s : Scheduler Machine φ} {operation : Operation Machine φ}
    (reachable : Reachable s) (given : operation.Given) :
    ∀ before p deed after, s.deeds operation = before ++ (p, deed) :: after →
      (deed ≠ .arrives → p.burst.unwinding = true → p.line.isSome = true → p.Tidied) ∧
      (deed = .arrives → ∀ q other, (q, other) ∈ after →
        other ≠ .arrives ∧ q.burst.unwinding = true ∧ q.evaluates = false) := by
  intro before p deed after same
  cases burst : s.burstOf operation with
  | none =>
    rw [Scheduler.deeds_quiet burst] at same
    exact absurd same.symm (by simp)
  | some found =>
    obtain ⟨live, request⟩ := found
    have runs := bursts_iff.mpr burst
    have confined : Confined live.program.stack :=
      confined_invariant.bursts (fun _ here => confined_invariant.reachable reachable here)
        given runs
    rw [Scheduler.deeds_burst runs] at same
    have guarded : (Progress.begin live).Guarded := Progress.begin_guarded runs.active
    have did : (p, deed) ∈ live.deeds s.breakpoints request s.settings.tickBudget := by
      rw [same]
      simp
    obtain ⟨reaches, proceeds, arrival⟩ := Progress.mem_deeds did
    have warranted := (guarded.reaches reaches).warranted
    refine ⟨fun _ unwinds user => ?_, fun arrived q other later => ?_⟩
    · exact warranted.tidied (confined_invariant.reaches reaches confined) proceeds.incomplete
        unwinds user
    · obtain ⟨next, passed, onward⟩ := Progress.deeds_later same later
      have later : (q, other) ∈ live.deeds s.breakpoints request s.settings.tickBudget := by
        rw [same]
        simp [later]
      obtain ⟨there, goesOn, stops⟩ := Progress.mem_deeds later
      -- Once a burst has arrived it goes on only to unwind, and does not arrive again.
      have reached : next.burst.reachedBreak = true := by
        obtain ⟨q, arrives, after⟩ := Progress.pass_arrives proceeds (arrival arrived)
        cases arrives.symm.trans passed
        obtain ⟨line, -, -, -, reaches⟩ := Progress.arrival_arrives (arrival arrived)
        rw [after.burst, reaches]
      have unwinds := goesOn.unwinds (onward.reached reached)
      refine ⟨fun arrives => ?_, unwinds, (guarded.reaches there).warranted.quiet unwinds⟩
      obtain ⟨line, -, still, -⟩ := Progress.arrival_arrives (stops arrives)
      rw [unwinds] at still
      cases still

/-- The burst that arrives at the call enters the statement of its line, and does nothing else. -/
theorem watching_only_tidies : ∃ (loaded : Script.Loaded) (p q : Progress Machine),
    Script.load calling = .ok loaded ∧
      watching.deeds (.start loaded.machine loaded.text.lineMap 0 0) =
        [(p, .arrives), (q, .steps)] ∧
      q.line = some 4 ∧ q.burst.unwinding = true ∧ q.Tidied := by
  have computed : (Script.load calling).toOption.any (fun loaded =>
      let done := watching.deeds (.start loaded.machine loaded.text.lineMap 0 0)
      done.map (·.2) == [.arrives, .steps] && done.all fun did => did.1.line == some 4) = true := by
    decide +kernel
  obtain ⟨loaded, read, holds⟩ := load_any computed
  simp only [Bool.and_eq_true, beq_iff_eq, List.all_eq_true] at holds
  obtain ⟨deeds, lines⟩ := holds
  have tidies := stopping_only_tidies watching_reachable (.load read 0 0)
  generalize same : watching.deeds (.start loaded.machine loaded.text.lineMap 0 0) = done
    at deeds lines tidies
  obtain ⟨⟨p, first⟩, rest, rfl, rfl, second⟩ := List.map_eq_cons_iff.mp deeds
  obtain ⟨⟨q, last⟩, none, rfl, rfl, nothing⟩ := List.map_eq_cons_iff.mp second
  cases List.map_eq_nil_iff.mp nothing
  have here : q.line = some 4 := lines (q, .steps) (by simp)
  obtain ⟨-, unwinds, -⟩ := (tidies [] p .arrives [(q, .steps)] rfl).2 rfl q .steps (by simp)
  have tidied := (tidies [(p, .arrives)] q .steps [] rfl).1 nofun unwinds (by simp [here])
  exact ⟨loaded, p, q, read, same, here, unwinds, tidied⟩

end Run

end Metronome
