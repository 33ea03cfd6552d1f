import Metronome.Proofs.Breakpoint
import Metronome.Proofs.Deeds

namespace Metronome.Run

open Metronome.Debug (Breakpoints Controller)

variable {σ : Type} [Interpreter σ]

namespace Progress

def stepsIn (done : List (Progress σ × Deed)) : Nat :=
  done.countP fun did => did.2 != .arrives

def arrivalsIn (done : List (Progress σ × Deed)) : Nat :=
  done.countP fun did => did.2 == .arrives

structure Allowed (budget : Nat) (before : List (Progress σ × Deed)) (p : Progress σ) : Prop where
  counted : p.steps = stepsIn before
  affords : budget ≤ stepsIn before → p.burst.unwinding = true
  loose : p.burst.unwinding = true → Interpreter.isSafe p.live.program = true ∨ p.line = none

/-- What holds of a moment of a burst and of what was done before it. -/
structure Budgeted (budget : Nat) (done : List (Progress σ × Deed)) (p : Progress σ) : Prop where
  warranted : p.Warranted
  counted : p.steps = stepsIn done
  each : Each (fun before q deed => deed ≠ .arrives → Allowed budget before q) done
  arrivals : arrivalsIn done ≤ if p.burst.reachedBreak then 1 else 0

variable {breakpoints : Breakpoints} {request : Request} {budget fuel : Nat} {p q : Progress σ}
  {done : List (Progress σ × Deed)}

omit [Interpreter σ] in
theorem stepsIn_append (early late : List (Progress σ × Deed)) :
    stepsIn (early ++ late) = stepsIn early + stepsIn late :=
  List.countP_append

omit [Interpreter σ] in
theorem arrivalsIn_append (early late : List (Progress σ × Deed)) :
    arrivalsIn (early ++ late) = arrivalsIn early + arrivalsIn late :=
  List.countP_append

theorem Budgeted.allowed (budgeted : Budgeted budget done p)
    (proceeds : p.Proceeds request budget) :
    Allowed budget done p := by
  refine ⟨budgeted.counted, fun spent => ?_, budgeted.warranted.loose⟩
  rw [← budgeted.counted] at spent
  exact proceeds.affords.resolve_left (by omega)

theorem Budgeted.concat (budgeted : Budgeted budget done p) (proceeds : p.Proceeds request budget)
    (deed : Deed) :
    Each (fun before q deed => deed ≠ .arrives → Allowed budget before q) (done ++ [(p, deed)]) :=
  budgeted.each.concat fun _ => budgeted.allowed proceeds

theorem tracks_budget (breakpoints : Breakpoints) (request : Request) (budget : Nat) :
    Tracks (σ := σ) breakpoints request budget (Budgeted budget) fun done =>
      Each (fun before q deed => deed ≠ .arrives → Allowed budget before q) done ∧
        arrivalsIn done ≤ 1 where
  arrives {done p q} budgeted proceeds arrives after := by
    obtain ⟨line, -, still, -, reaches⟩ := arrival_arrives arrives
    -- A burst that has arrived unwinds from then on, and arrives nowhere while it does.
    have unreached : p.burst.reachedBreak = false := by
      by_contra reached
      rw [proceeds.unwinds (Bool.not_eq_false _ ▸ reached)] at still
      cases still
    have none : arrivalsIn done ≤ 0 := by
      have arrivals := budgeted.arrivals
      rwa [unreached, if_neg Bool.false_ne_true] at arrivals
    have reached : q.burst.reachedBreak = true := by rw [after.burst, reaches]
    refine ⟨.arrived arrives after, ?_, budgeted.concat proceeds _, ?_⟩
    · rw [after.steps, budgeted.counted, stepsIn_append]
      rfl
    · rw [arrivalsIn_append, if_pos reached]
      change arrivalsIn done + 1 ≤ 1
      omega
  steps {done p q} budgeted proceeds _ after := by
    refine ⟨budgeted.warranted.judged after, ?_, budgeted.concat proceeds _, ?_⟩
    · rw [after.steps, budgeted.counted, stepsIn_append]
      rfl
    · have arrivals := budgeted.arrivals
      rw [arrivalsIn_append]
      change arrivalsIn done + 0 ≤ _
      split at arrivals
      · rename_i before
        rw [if_pos (after.reached before)]
        exact arrivals
      · omega
  fails {done p} budgeted proceeds _ := by
    refine ⟨budgeted.concat proceeds _, ?_⟩
    have arrivals := budgeted.arrivals
    rw [arrivalsIn_append]
    change arrivalsIn done + 0 ≤ 1
    split at arrivals <;> omega

omit [Interpreter σ] in
theorem ends_failed {error : StepError} {line : Option Nat} {rested : Bool}
    (same : (p, if rested then some Ending.rested else none) = (q, some (.failed error line))) :
    False := by
  cases rested <;> cases same

theorem step_failed_state {cursor : Debug.Cursor} {error : StepError} {line : Option Nat}
    (fails : p.step request cursor = (q, some (.failed error line))) :
    q.live.controller.state = p.live.controller.state := by
  obtain ⟨stopPoint, refreshed⟩ := p.live.controller.refreshStopPoint_eq p.burst cursor
  unfold step stepProgram at fails
  rw [refreshed] at fails
  dsimp only at fails
  split at fails
  · cases fails
    rfl
  · exact (ends_failed fails).elim

theorem pass_failed_state {error : StepError} {line : Option Nat}
    (fails : p.pass breakpoints request budget = (q, some (.failed error line))) :
    q.live.controller.state = p.live.controller.state := by
  obtain ⟨lastSelected, notices, noted⟩ := noteLine_eq p request.atMaxSpeed
  unfold pass at fails
  dsimp only at fails
  split at fails
  · cases fails
  split at fails
  · cases fails
  split at fails
  · cases fails
  rw [show (Debug.Cursor.capture p.live.program p.live.lines).line = p.line from rfl,
    noted] at fails
  split at fails
  · cases fails
  · rename_i passesBy
    have stays := arrival_passes_by (Bool.eq_false_iff.mpr passesBy)
    rw [step_failed_state fails]
    exact congrArg (·.1.state) stays

theorem Judged.paused (after : Judged request p q) (paused : p.live.controller.isPaused = true) :
    q.live.controller.isPaused = true := by
  cases rests : (p.judged request).2.2 with
  | true =>
    rw [after.controller_eq, if_pos rests]
    rfl
  | false =>
    rw [Controller.isPaused_congr (after.state_active rests)]
    exact paused

theorem pass_paused {ending : Option Ending}
    (passed : p.pass breakpoints request budget = (q, ending))
    (paused : p.live.controller.isPaused = true) : q.live.controller.isPaused = true := by
  have spec := pass_spec breakpoints request budget p
  rw [passed] at spec
  cases spec with
  | stopped | exhausted | complete => exact paused
  | arrived proceeds arrives after =>
    obtain ⟨line, -, -, -, reaches⟩ := arrival_arrives arrives
    rw [after.controller, reaches]
    rfl
  | failed =>
    rw [Controller.isPaused_congr (pass_failed_state passed)]
    exact paused
  | stepped _ _ _ after => exact after.paused paused

theorem passes_paused (paused : p.live.controller.isPaused = true) :
    (p.passes breakpoints request budget fuel).1.live.controller.isPaused = true := by
  induction fuel generalizing p with
  | zero => exact paused
  | succ fuel ih =>
    rw [passes]
    split
    · rename_i passed
      exact pass_paused passed paused
    · rename_i passed
      exact ih (pass_paused passed paused)

theorem steps_while_running (warranted : p.Warranted) (within : p.steps ≤ budget)
    (running : (p.passes breakpoints request budget fuel).1.live.controller.isPaused = false) :
    p.steps + stepsIn (p.deeds breakpoints request budget fuel) ≤ budget := by
  induction fuel generalizing p with
  | zero => exact within
  | succ fuel ih =>
    have runs : p.live.controller.isPaused = false := by
      by_contra paused
      rw [passes_paused (Bool.not_eq_false _ ▸ paused)] at running
      cases running
    have left : p.Proceeds request budget → p.steps < budget := fun proceeds =>
      proceeds.affords.resolve_right (by rw [warranted.calm runs]; exact Bool.false_ne_true)
    rw [passes] at running
    rw [deeds, stepsIn_append]
    have does := pass_does breakpoints request budget p
    generalize p.pass breakpoints request budget = result at does running ⊢
    generalize p.deed breakpoints request budget = did at does ⊢
    cases does with
    | nothing => exact within
    | @arrives q proceeds arrives after =>
      have rest := ih (.arrived arrives after) (after.steps ▸ within) running
      rw [after.steps] at rest
      exact (Nat.zero_add _).symm ▸ rest
    | @steps q ending proceeds _ after =>
      have next := left proceeds
      cases ending with
      | some => exact next
      | none =>
        have rest := ih (warranted.judged after) (after.steps ▸ next) running
        rw [after.steps, Nat.add_assoc] at rest
        exact rest
    | fails proceeds => exact left proceeds

theorem exhausted_spent (ends : (p.passes breakpoints request budget fuel).2 = .exhausted) :
    budget ≤ (p.passes breakpoints request budget fuel).1.steps := by
  generalize ran : p.passes breakpoints request budget fuel = result at ends ⊢
  obtain ⟨q, ending⟩ := result
  cases ends
  obtain ⟨r, -, ⟨cut, -⟩ | passed⟩ := passes_spec ran
  · cases cut
  · cases pass_ending passed with
    | exhausted spent => exact spent

end Progress

/-- The budget of a burst of any interpreter, also of one that never ends, after any number of
passes. If the debugger runs when it ends, it has taken at most as many steps as its budget has.
Each step past the budget is taken while the burst unwinds, and a step that unwinds tidies up or
begins outside the user's text. A burst arrives at most once, and its budget is spent on steps
alone. -/
theorem steps_within_budget (live : Live σ) (breakpoints : Breakpoints) (request : Request)
    (budget fuel : Nat) :
    let ended := (Progress.begin live).passes breakpoints request budget fuel
    let done := (Progress.begin live).deeds breakpoints request budget fuel
    (ended.1.live.controller.state = .running → Progress.stepsIn done ≤ budget) ∧
      (∀ before p deed after, done = before ++ (p, deed) :: after → deed ≠ .arrives →
        (budget ≤ Progress.stepsIn before → p.burst.unwinding = true) ∧
          (p.burst.unwinding = true →
            Interpreter.isSafe p.live.program = true ∨ p.line = none)) ∧
      Progress.arrivalsIn done ≤ 1 ∧
      (ended.2 = .exhausted → budget ≤ Progress.stepsIn done) := by
  have warranted : (Progress.begin live).Warranted := .of_still rfl
  have begins : Progress.Budgeted budget [] (Progress.begin live) :=
    ⟨warranted, rfl, .nil, Nat.zero_le _⟩
  intro ended done
  have tracked : Progress.Tracked _ _ ([] ++ done) ended :=
    (Progress.tracks_budget breakpoints request budget).passes begins
  rw [List.nil_append] at tracked
  have spent : ended.2 = .exhausted → budget ≤ ended.1.steps := Progress.exhausted_spent
  have within : ended.1.live.controller.isPaused = false → 0 + Progress.stepsIn done ≤ budget :=
    Progress.steps_while_running warranted (Nat.zero_le budget)
  have allowed : Progress.Each (fun before p deed => deed ≠ .arrives →
      Progress.Allowed budget before p) done ∧ Progress.arrivalsIn done ≤ 1 ∧
      (ended.2 = .exhausted → ended.1.steps = Progress.stepsIn done) := by
    generalize ended = result at tracked
    cases tracked with
    | holds _ budgeted =>
      have arrivals := budgeted.arrivals
      exact ⟨budgeted.each, by split at arrivals <;> omega, fun _ => budgeted.counted⟩
    | lost here => exact ⟨here.1, here.2, fun exhausted => by cases exhausted⟩
  refine ⟨fun running => ?_, fun before p deed after same steps => ?_, allowed.2.1,
    fun spends => ?_⟩
  · rw [← Nat.zero_add (Progress.stepsIn done)]
    exact within (by rw [Controller.isPaused, running])
  · have law := allowed.1 before p deed after same steps
    exact ⟨law.affords, law.loose⟩
  · rw [← allowed.2.2 spends]
    exact spent spends

def steppingCall (loaded : Script.Loaded) : Live Script.Machine :=
  let live := Live.start loaded.machine loaded.text.lineMap false
  { live with controller := live.controller.step .stepOver }

/-- With a budget of three steps a fourth one leaves the function's first line, and the debugger
does not run afterwards. -/
theorem calling_unwinds_past_budget : ∃ loaded, Script.load calling = .ok loaded ∧
    let request : Request := ⟨false, false, 64, 0⟩
    let first := Progress.begin (steppingCall loaded)
    Progress.stepsIn (first.deeds .empty request 3 10) = 4 ∧
      (first.passes .empty request 3 10).1.live.controller.state ≠ .running := by
  have computed : (Script.load calling).toOption.any (fun loaded =>
      Progress.stepsIn ((Progress.begin (steppingCall loaded)).deeds .empty ⟨false, false, 64, 0⟩
        3 10) == 4) = true := by decide +kernel
  obtain ⟨loaded, read, holds⟩ := Script.load_any computed
  have four := eq_of_beq holds
  refine ⟨loaded, read, four, fun running => ?_⟩
  have law :=
    (steps_within_budget (steppingCall loaded) .empty ⟨false, false, 64, 0⟩ 3 10).1 running
  omega

end Metronome.Run
