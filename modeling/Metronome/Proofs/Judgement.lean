import Metronome.Proofs.Pass

namespace Metronome

namespace Debug

def Controller.noted (c : Controller) (after : Cursor) : Controller :=
  let callHere := after.inUserCode && after.isKind .call
  { c with
    depths := c.depths.record after.depth callHere
    firstCallDepth :=
      if c.isPaused && callHere && c.firstCallDepth.isNone then some after.depth
      else c.firstCallDepth }

def Burst.noted (burst : Burst) (c : Controller) (after : Cursor) : Burst :=
  let done := burst.doneUserLine || (after.inUserCode && after.isDone) ||
    (c.isPaused && after.inUserCode && after.isKind .block)
  { burst with
    doneUserLine := done
    reachedBreak := burst.reachedBreak || (!done && after.inUserCode && c.mode == .stepIn &&
      (c.noted after).firstCallDepth.any (· < after.depth)) }

/-- Paused, with a stop in reach once the current statement is tidied up. -/
def Controller.stopping (c : Controller) (burst : Burst) : Bool :=
  c.isPaused && (burst.doneUserLine || burst.reachedBreak)

def Controller.rest (c : Controller) (line : Option Nat) (depth : Nat) : Controller :=
  { c.clearStep with
    state := .paused .run
    stopPoint := (line.map fun line => ⟨line, depth⟩).or c.stopPoint
    stopReason := some (c.stopReason.getD .step) }

@[simp] theorem Controller.noted_state (c : Controller) (after : Cursor) :
    (c.noted after).state = c.state := rfl

@[simp] theorem Controller.noted_isPaused (c : Controller) (after : Cursor) :
    (c.noted after).isPaused = c.isPaused := rfl

@[simp] theorem Controller.noted_mode (c : Controller) (after : Cursor) :
    (c.noted after).mode = c.mode := rfl

theorem Controller.mode_running {c : Controller} (running : c.isPaused = false) : c.mode = .run := by
  unfold isPaused at running
  unfold mode
  split
  · rfl
  · rename_i paused
    rw [paused] at running
    cases running

theorem Burst.mark_done (unwinding reached done b : Bool) :
    (if b = true then Burst.mk unwinding reached true else ⟨unwinding, reached, done⟩) =
      ⟨unwinding, reached, done || b⟩ := by
  cases b <;> simp

theorem Burst.mark_reached (unwinding reached done b : Bool) :
    (if b = true then Burst.mk unwinding true done else ⟨unwinding, reached, done⟩) =
      ⟨unwinding, reached || b, done⟩ := by
  cases b <;> simp

theorem Controller.mark_call (state : ExecState) (stopPoint : Option StopPoint)
    (depths : CallDepths) (first other out : Option Nat) (entry : Bool)
    (reason : Option StopReason) (b : Bool) :
    (if b = true then Controller.mk state stopPoint depths other out entry reason
      else ⟨state, stopPoint, depths, first, out, entry, reason⟩) =
      ⟨state, stopPoint, depths, if b then other else first, out, entry, reason⟩ := by
  cases b <;> rfl

theorem Controller.observeStep_eq (c : Controller) (burst : Burst) (after : Cursor) :
    c.observeStep burst after = (c.noted after, burst.noted c after) := by
  obtain ⟨state, stopPoint, depths, first, out, entry, reason⟩ := c
  obtain ⟨unwinding, reached, done⟩ := burst
  unfold observeStep
  simp only [Burst.mark_done, Burst.mark_reached, mark_call]
  unfold Burst.noted noted
  cases state with
  | running => simp [isPaused, mode, show (StepMode.run == StepMode.stepIn) = false from rfl]
  | paused mode =>
    simp [isPaused, Controller.mode]

theorem Controller.unwind_eq (c : Controller) (burst : Burst) (safe : Bool) :
    c.unwind burst safe =
      ({ burst with unwinding := if c.stopping burst then safe else burst.unwinding },
        c.stopping burst && burst.unwinding && !safe) := by
  unfold unwind stopping
  cases c.isPaused <;> cases burst.doneUserLine || burst.reachedBreak <;> simp

theorem Controller.completeStep_eq (c : Controller) (burst : Burst) (line : Option Nat)
    (depth : Nat) :
    c.completeStep burst line depth =
      if c.stopping burst && !burst.unwinding && !c.staysDeep depth then (c.rest line depth, true)
      else (c, false) := by
  unfold completeStep stopping rest
  rw [Bool.or_comm burst.reachedBreak]
  cases line <;> cases c.isPaused <;> cases burst.doneUserLine || burst.reachedBreak <;>
    cases burst.unwinding <;> cases c.staysDeep depth <;> simp

theorem judge_eq {σ : Type} [Interpreter σ] (c : Controller) (burst : Burst) (line : Option Nat)
    (program : σ) (lines : LineMap) :
    Run.Progress.judge c burst line program lines =
      let after := Cursor.withLine program line
      let now := Cursor.lineOf program lines
      let noted := burst.noted c after
      let unwinding :=
        if c.stopping noted then Interpreter.isSafe program || (burst.unwinding && now.isNone)
        else burst.unwinding
      let rests := c.stopping noted && !unwinding &&
        !(c.noted after).staysDeep (Interpreter.depth program)
      (if rests then (c.noted after).rest now (Interpreter.depth program) else c.noted after,
        { noted with unwinding }, rests) := by
  unfold Run.Progress.judge
  rw [Controller.observeStep_eq]
  have same : (burst.noted c (Cursor.withLine program line)).unwinding = burst.unwinding := rfl
  have stops : ∀ flags, (c.noted (Cursor.withLine program line)).stopping flags = c.stopping flags :=
    fun _ => rfl
  dsimp only
  generalize burst.noted c (Cursor.withLine program line) = noted at same ⊢
  simp only [Controller.unwind_eq, Controller.completeStep_eq, Controller.reselected, stops, same]
  have ignores : ∀ unwinding, c.stopping { noted with unwinding } = c.stopping noted :=
    fun _ => rfl
  cases active : c.stopping noted <;> cases burst.unwinding <;> cases Interpreter.isSafe program <;>
    cases Cursor.lineOf program lines <;>
    simp only [ignores, active, Bool.and_false, Bool.false_and, Bool.and_true, Bool.true_and,
      Bool.not_true, Bool.not_false, Bool.false_eq_true, if_false, if_true, Option.isNone_none,
      Option.isNone_some, Bool.or_false, Bool.or_true] <;> split <;> simp_all

theorem Controller.refreshStopPoint_eq (c : Controller) (burst : Burst) (cursor : Cursor) :
    ∃ stopPoint, c.refreshStopPoint burst cursor = { c with stopPoint } := by
  unfold refreshStopPoint
  split
  · exact ⟨c.stopPoint, rfl⟩
  · dsimp only
    split <;> split <;> exact ⟨_, rfl⟩

theorem Controller.stopping_congr {c other : Controller} (same : other.state = c.state)
    (burst : Burst) : other.stopping burst = c.stopping burst := by
  unfold stopping isPaused
  rw [same]

theorem Controller.stepping {c : Controller} (steps : c.mode ≠ .run) :
    c.isPaused = true ∧ c.isAtRest = false := by
  obtain ⟨state, _⟩ := c
  cases state with
  | running => exact absurd rfl steps
  | paused mode =>
    refine ⟨rfl, ?_⟩
    cases mode with
    | run => exact absurd rfl steps
    | _ => rfl

theorem Controller.awake {c : Controller} (running : c.isPaused = false) : c.isAtRest = false := by
  obtain ⟨state, _⟩ := c
  cases state with
  | running => rfl
  | paused => cases running

theorem Controller.paused_of_rest {c : Controller} (rests : c.isAtRest = true) :
    c.isPaused = true := by
  obtain ⟨state, _⟩ := c
  cases state with
  | running => cases rests
  | paused => rfl

theorem Controller.isPaused_congr {c other : Controller} (same : other.state = c.state) :
    other.isPaused = c.isPaused := by
  unfold isPaused
  rw [same]

theorem Controller.mode_congr {c other : Controller} (same : other.state = c.state) :
    other.mode = c.mode := by
  unfold mode
  rw [same]

theorem Controller.isAtRest_congr {c other : Controller} (same : other.state = c.state) :
    other.isAtRest = c.isAtRest := by
  unfold isAtRest
  rw [same]

theorem Controller.stopping_noted {c : Controller} {burst : Burst} (other : Controller)
    (after : Cursor) (stopping : c.stopping burst = true) : c.stopping (burst.noted other after) = true := by
  unfold Controller.stopping at stopping ⊢
  unfold Burst.noted
  cases done : burst.doneUserLine <;> cases reached : burst.reachedBreak <;> simp_all

end Debug

namespace Run.Progress

open Metronome.Debug (Burst Controller Cursor)

variable {σ : Type} [Interpreter σ]

def refreshed (p : Progress σ) : Controller :=
  p.live.controller.refreshStopPoint p.burst p.cursor

def seen (p : Progress σ) (program : σ) : Cursor :=
  Cursor.withLine program p.line

def flags (p : Progress σ) (program : σ) : Burst :=
  p.burst.noted p.refreshed (p.seen program)

theorem refreshed_eq (p : Progress σ) :
    ∃ stopPoint, p.refreshed = { p.live.controller with stopPoint } :=
  Controller.refreshStopPoint_eq _ _ _

theorem refreshed_state (p : Progress σ) : p.refreshed.state = p.live.controller.state := by
  obtain ⟨stopPoint, same⟩ := p.refreshed_eq
  rw [same]

theorem refreshed_mode (p : Progress σ) : p.refreshed.mode = p.live.controller.mode :=
  Controller.mode_congr p.refreshed_state

theorem refreshed_isPaused (p : Progress σ) : p.refreshed.isPaused = p.live.controller.isPaused :=
  Controller.isPaused_congr p.refreshed_state

theorem refreshed_entryPending (p : Progress σ) :
    p.refreshed.entryPending = p.live.controller.entryPending := by
  obtain ⟨stopPoint, same⟩ := p.refreshed_eq
  rw [same]

theorem refreshed_stopReason (p : Progress σ) :
    p.refreshed.stopReason = p.live.controller.stopReason := by
  obtain ⟨stopPoint, same⟩ := p.refreshed_eq
  rw [same]

theorem stopping_refreshed (p : Progress σ) (burst : Burst) :
    p.refreshed.stopping burst = p.live.controller.stopping burst :=
  Controller.stopping_congr p.refreshed_state burst

namespace Judged

variable {request : Request} {p q : Progress σ}

theorem judged_eq (after : Judged request p q) :
    p.judged request = judge p.refreshed p.burst p.line q.live.program q.live.lines := by
  rw [after.program, after.lines]
  rfl

theorem unwinding (after : Judged request p q) :
    q.burst.unwinding =
      if p.live.controller.stopping (p.flags q.live.program) then
        Interpreter.isSafe q.live.program || (p.burst.unwinding && q.line.isNone)
      else p.burst.unwinding := by
  rw [after.burst, after.judged_eq, Debug.judge_eq, ← stopping_refreshed]
  rfl

theorem burst_eq (after : Judged request p q) :
    q.burst = { p.flags q.live.program with unwinding := q.burst.unwinding } := by
  rw [after.burst, after.judged_eq, Debug.judge_eq]
  rfl

theorem rests_eq (after : Judged request p q) :
    (p.judged request).2.2 =
      (p.live.controller.stopping (p.flags q.live.program) && !q.burst.unwinding &&
        !(p.refreshed.noted (p.seen q.live.program)).staysDeep
          (Interpreter.depth q.live.program)) := by
  rw [after.burst, after.judged_eq, Debug.judge_eq, ← stopping_refreshed]
  rfl

theorem controller_eq (after : Judged request p q) :
    q.live.controller =
      if (p.judged request).2.2 then
        (p.refreshed.noted (p.seen q.live.program)).rest q.line (Interpreter.depth q.live.program)
      else p.refreshed.noted (p.seen q.live.program) := by
  rw [after.controller, after.judged_eq, Debug.judge_eq]
  rfl

theorem entryPending (after : Judged request p q) :
    q.live.controller.entryPending = p.live.controller.entryPending := by
  rw [after.controller_eq, ← p.refreshed_entryPending]
  split <;> rfl

theorem reached (after : Judged request p q) (before : p.burst.reachedBreak = true) :
    q.burst.reachedBreak = true := by
  rw [after.burst_eq]
  change (p.flags q.live.program).reachedBreak = true
  rw [flags, Burst.noted, before]
  rfl

theorem controller_active (after : Judged request p q)
    (active : (p.judged request).2.2 = false) :
    q.live.controller = p.refreshed.noted (p.seen q.live.program) := by
  rw [after.controller_eq, active]
  rfl

theorem state_active (after : Judged request p q) (active : (p.judged request).2.2 = false) :
    q.live.controller.state = p.live.controller.state := by
  rw [after.controller_active active, Controller.noted_state, p.refreshed_state]

end Judged

end Run.Progress

end Metronome
