import Metronome.Proofs.Breakpoint
import Metronome.Proofs.CallMarks
import Metronome.Proofs.Stepping

namespace Metronome.Run

open Metronome.Debug (Controller StepMode)
open Metronome.Script (Frame Loaded Machine Returns Runs started topLine load_any)

namespace Progress

variable {request : Request} {p q : Progress Machine}

theorem Judged.stepOutDepth_active (after : Judged request p q)
    (active : (p.judged request).2.2 = false) :
    q.live.controller.stepOutDepth = p.live.controller.stepOutDepth := by
  obtain ⟨stopPoint, same⟩ := p.refreshed_eq
  rw [after.controller_active active, same]
  rfl

theorem Judged.inside {target : Nat} (after : Judged request p q)
    (state : p.live.controller.state = .paused .stepOut)
    (out : p.live.controller.stepOutDepth = some target)
    (deeper : target < q.live.program.stack.length) : (p.judged request).2.2 = false := by
  obtain ⟨stopPoint, same⟩ := p.refreshed_eq
  have mode : (p.refreshed.noted (p.seen q.live.program)).mode = .stepOut := by
    rw [Controller.noted_mode, p.refreshed_mode, Controller.mode_of_state state]
  have depth : (p.refreshed.noted (p.seen q.live.program)).stepOutDepth = some target := by
    rw [same]
    exact out
  rw [after.rests_eq, Controller.staysDeep, mode]
  dsimp only
  rw [depth, Option.getD_some, decide_eq_true (show target < Interpreter.depth q.live.program from deeper)]
  simp

end Progress

def history (trail : List (Progress Machine)) : List (List Frame) :=
  trail.map (·.live.program.stack)

/-- A call runs all along a history, or returns in it. -/
def RunsOn (name : String) (offset : Option Nat) (lower : List Frame)
    (history : List (List Frame)) : Prop :=
  (∀ stack ∈ history, Runs name offset lower stack) ∨ Returns name offset lower history

section

variable {name : String} {offset : Option Nat} {lower : List Frame}

theorem RunsOn.step {trail : List (Progress Machine)} {request : Request} {p q : Progress Machine}
    (runs : RunsOn name offset lower (history (trail ++ [p])))
    (sound : p.live.program.Sound p.live.lines) (fine : (p.stepped request).1.error = none)
    (after : Progress.Judged request p q) :
    RunsOn name offset lower (history (trail ++ [p, q])) := by
  obtain ⟨answers, shift, -⟩ := after.toTook.shift fine
  rcases runs with running | returns
  · rw [history, List.map_append] at running ⊢
    exact shift.runs sound.stacked running
  · right
    rw [List.append_cons, history, List.map_append]
    exact returns.append _

theorem out_persists (name : String) (offset : Option Nat) (lower : List Frame) : Persists .stepOut
    (fun trail live => live.controller.beginTick.1.stepOutDepth = some (lower.length + 1) ∧
      RunsOn name offset lower (history (trail ++ [Progress.begin live])))
    (fun trail p => p.live.controller.stepOutDepth = some (lower.length + 1) ∧
      RunsOn name offset lower (history (trail ++ [p]))) where
  idles := by
    rintro trail live next ⟨target, runs⟩ program lines controller
    refine ⟨controller ▸ target, ?_⟩
    rw [history, List.map_append] at runs ⊢
    change RunsOn name offset lower (_ ++ [next.program.stack])
    rw [program]
    exact runs
  begins := by
    rintro trail live next ⟨target, runs⟩ operating program lines controller
    refine ⟨controller ▸ target, ?_⟩
    rw [history, List.map_append] at runs ⊢
    change RunsOn name offset lower (_ ++ [next.program.stack])
    rw [program]
    exact runs
  stepped := by
    rintro trail request budget p q ⟨target, runs⟩ operating guarded sound proceeds fine after active
    refine ⟨(after.stepOutDepth_active active).trans target, ?_⟩
    rw [List.append_assoc]
    exact runs.step sound fine after
  stays := by
    rintro trail request budget p next ⟨target, runs⟩ operating ends tick program lines controller
    constructor
    · rw [controller, Controller.beginTick, operating.state]
      dsimp only
      rw [target]
      exact target
    · rw [history, List.map_append] at runs ⊢
      change RunsOn name offset lower (_ ++ [next.program.stack])
      rw [program]
      exact runs

end

/-- From a rest in a call that the user's code made, a step out begins: its target is the depth of that
call from its first tick to its end, and it does not end before the call has returned. -/
theorem step_out_returns {φ : Type} {s₀ : Scheduler Machine φ} {first : Live Machine}
    {name : String} {offset : Option Nat} {upper lower : List Frame} (reachable : Reachable s₀)
    (here : s₀.live = some first) (rests : first.controller.isAtRest = true)
    (stands : first.program.stack = upper ++ .call name offset .running :: lower)
    (innermost : started upper = 0) (user : (topLine first.lines lower).isSome = true) :
    let s₁ := s₀.perform (.command .stepOut)
    (∃ live, s₁.live = some live ∧ live.controller.mode = .stepOut) ∧
      (∀ trail s live, Underway s₁ trail s → s.live = some live → live.controller.mode = .stepOut →
        live.controller.beginTick.1.stepOutDepth = some (lower.length + 1)) ∧
      ∀ trail s request p, ComesTo s₁ trail s request p →
        (p.live.controller.mode = .stepOut →
          p.live.controller.stepOutDepth = some (lower.length + 1)) ∧
        ∀ q, p.pass s.breakpoints request s.settings.tickBudget = (q, some .rested) →
          q.live.controller.stopReason = some .step →
            Returns name offset lower (history (trail ++ [p, q])) := by
  intro s₁
  have given : (Operation.command .stepOut : Operation Machine φ).Given := by
    rintro program lines began ended ⟨⟩
  have reachableThen : Reachable s₁ := .perform reachable given
  have paused : first.controller.isPaused = true :=
    Controller.isPaused_of_state (by simpa [Controller.isAtRest] using rests)
  have begins : s₁.live =
      some { first with controller := first.controller.enterState (.paused .stepOut) } := by
    change s₀.stepOut.live = _
    rw [Scheduler.stepOut, here, if_pos (by simpa using paused)]
    exact beginStep_live here (by simp)
  have sound := reachable.sound here
  have target := (reachable.tallies here).target sound.stacked sound.bodied stands innermost user
  have starts : RunsOn name offset lower (history ([] ++ [Progress.begin
      { first with controller := first.controller.enterState (.paused .stepOut) }])) := by
    left
    intro stack member
    rw [List.mem_singleton.mp member]
    cases upper with
    | nil => exact absurd stands (sound.bodied _ _ _)
    | cons frame upper => exact ⟨frame, upper, stands⟩
  have persists := out_persists name offset lower
  have operates : Operating .stepOut (first.controller.enterState (.paused .stepOut)) ∧
      (first.controller.enterState (.paused .stepOut)).beginTick.1.stepOutDepth =
          some (lower.length + 1) ∧ _ := ⟨enterState_operating _ _, congrArg some target, starts⟩
  have unmoved : ∀ {c : Controller}, c.isAtRest = true → c.mode = .stepOut → False := by
    intro c atRest mode
    rw [Controller.isAtRest, beq_iff_eq] at atRest
    rw [Controller.mode_of_state atRest] at mode
    cases mode
  refine ⟨⟨_, begins, rfl⟩, ?_, ?_⟩
  · intro trail s live underway there mode
    rcases persists.underway reachableThen begins operates underway there with
      atRest | ⟨-, target, -⟩
    · exact (unmoved atRest mode).elim
    · exact target
  · intro trail s request p comes
    have holds := persists.comesTo reachableThen begins operates comes
    constructor
    · intro mode
      rcases holds with interrupted | ⟨-, -, target, -⟩
      · exact (unmoved interrupted.rests mode).elim
      · exact target
    · intro q passed goal
      obtain ⟨proceeds, fine, after, rested⟩ := Progress.pass_rested passed
      rcases holds with interrupted | ⟨-, operating, target, runs⟩
      · exact absurd goal (interrupted.unstepped after rested)
      · rcases runs.step (comes.kept reachableThen).sound fine after with running | returns
        -- In a call that still runs the stack is deeper than the target, where nothing rests.
        · obtain ⟨frame, above, same⟩ := running q.live.program.stack (by simp [history])
          have deeper : lower.length + 1 < q.live.program.stack.length := by
            rw [same, List.length_append, List.length_cons, List.length_cons]
            omega
          rw [after.inside operating.state target deeper] at rested
          cases rested
        · exact returns

def inUserCall (live : Live Machine) : Bool :=
  match live.program.stack.dropWhile (!·.isStarted) with
  | .call _ _ .running :: lower => (topLine live.lines lower).isSome
  | _ => false

theorem inUserCall_spec {live : Live Machine} (inside : inUserCall live = true) :
    ∃ upper name offset lower,
      live.program.stack = upper ++ .call name offset .running :: lower ∧ started upper = 0 ∧
        (topLine live.lines lower).isSome = true := by
  have split := List.takeWhile_append_dropWhile (p := (!·.isStarted)) (l := live.program.stack)
  have unstarted : started (live.program.stack.takeWhile (!·.isStarted)) = 0 := by
    refine List.countP_eq_zero.mpr fun frame member => ?_
    simpa using List.mem_takeWhile_imp member
  unfold inUserCall at inside
  split at inside
  · rename_i name offset lower found
    rw [found] at split
    exact ⟨_, name, offset, lower, split.symm, unstarted, inside⟩
  · cases inside

def inFunction (loaded : Loaded) : Scheduler Machine Unit :=
  Scheduler.performAll (.new .default none)
    [.command (.setBreakpoints [2]), .start loaded.machine loaded.text.lineMap 0 0]

theorem inFunction_reachable {loaded : Loaded} (read : Script.load calling = .ok loaded) :
    Reachable (inFunction loaded) := by
  apply Reachable.loading read (.new _ _)
  simp +contextual

/-- From the breakpoint in the function, which line 4 calls, the step out ends on line 5. -/
theorem calling_step_out_returns : ∃ (loaded : Loaded) (first : Live Machine)
    (name : String) (offset : Option Nat) (upper lower : List Frame)
    (trail : List (Progress Machine)) (p q : Progress Machine), Script.load calling = .ok loaded ∧
      let s := (inFunction loaded).perform (.command .stepOut)
      let request := s.tickRequest 0
      ((inFunction loaded).live = some first ∧ first.controller.isAtRest = true ∧
        first.program.stack = upper ++ .call name offset .running :: lower ∧ started upper = 0 ∧
        (topLine first.lines lower).isSome = true) ∧
      (ComesTo s trail s request p ∧
        p.pass s.breakpoints request s.settings.tickBudget = (q, some .rested) ∧
        q.live.controller.stopReason = some .step) ∧
      q.line = some 5 ∧
      Returns name offset lower (history (trail ++ [p, q])) := by
  have computed : (Script.load calling).toOption.any (fun loaded =>
      restsAfter .stepOut (inFunction loaded) fun first _ q =>
        first.controller.isAtRest && inUserCall first && q.line == some 5) = true := by
    decide +kernel
  obtain ⟨loaded, read, holds⟩ := load_any computed
  obtain ⟨first, trail, p, q, here, comes, rests, goal, ends⟩ := of_restsAfter holds
  simp only [Bool.and_eq_true, beq_iff_eq] at ends
  obtain ⟨⟨atRest, inside⟩, line⟩ := ends
  obtain ⟨upper, name, offset, lower, stands, innermost, user⟩ := inUserCall_spec inside
  have out := step_out_returns (inFunction_reachable read) here atRest stands innermost user
  exact ⟨loaded, first, name, offset, upper, lower, trail, p, q, read,
    ⟨here, atRest, stands, innermost, user⟩, ⟨comes, rests, goal⟩, line,
    (out.2.2 trail _ _ p comes).2 q rests goal⟩

end Metronome.Run
