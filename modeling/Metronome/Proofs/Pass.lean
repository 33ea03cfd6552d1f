import Metronome.Run.Burst

/-!
What one pass of a burst can do. `Pass` has one constructor for each way in which a pass ends or
goes on; the fields of the burst after it are read off `Moved` and need no unfolding.
-/
namespace Metronome.Run

open Metronome.Debug (Breakpoints Controller Cursor)

variable {σ : Type} [Interpreter σ]

namespace Progress

def cursor (p : Progress σ) : Cursor :=
  Cursor.capture p.live.program p.live.lines

def line (p : Progress σ) : Option Nat :=
  Cursor.lineOf p.live.program p.live.lines

def arrival (breakpoints : Breakpoints) (p : Progress σ) : Controller × Debug.Burst × Bool :=
  p.live.controller.arrive p.burst p.cursor (p.cursor.line.any breakpoints.contains)
    (Interpreter.isSafe p.live.program)

def stepped (request : Request) (p : Progress σ) : Stepped σ × Bridge :=
  (Interpreter.step p.live.program).run Bridge.natives
    ⟨request, p.live.queue, p.live.timers, p.live.response,
      (p.noteLine request.atMaxSpeed p.line).notices⟩

def judge (controller : Controller) (burst : Debug.Burst) (line : Option Nat) (program : σ)
    (lines : LineMap) : Controller × Debug.Burst × Bool :=
  let (controller, burst) := controller.observeStep burst (Cursor.withLine program line)
  let now := Cursor.lineOf program lines
  let (burst, ended) := controller.unwind burst (Interpreter.isSafe program)
  let burst := if ended then Controller.reselected burst now else burst
  let (controller, rested) := controller.completeStep burst now (Interpreter.depth program)
  (controller, burst, rested)

def judged (request : Request) (p : Progress σ) : Controller × Debug.Burst × Bool :=
  judge (p.live.controller.refreshStopPoint p.burst p.cursor) p.burst p.line
    (p.stepped request).1.state p.live.lines

/-- A pass comes to its step, or to an arrival before it. -/
structure Proceeds (request : Request) (budget : Nat) (p : Progress σ) : Prop where
  goesOn : Controller.shouldStop p.burst (p.live.response.signals request) request.atMaxSpeed = false
  affords : p.steps < budget ∨ p.burst.unwinding = true
  incomplete : Interpreter.isComplete p.live.program = false

theorem Proceeds.unwinds {request : Request} {budget : Nat} {p : Progress σ}
    (proceeds : p.Proceeds request budget) (reached : p.burst.reachedBreak = true) :
    p.burst.unwinding = true := by
  have goesOn := proceeds.goesOn
  rw [Controller.shouldStop, reached] at goesOn
  simp only [Bool.or_eq_false_iff, Bool.true_and, Bool.not_eq_false'] at goesOn
  exact goesOn.1.1.1

structure Moved (p q : Progress σ) : Prop where
  lines : q.live.lines = p.live.lines
  ticks : q.live.ticks = p.live.ticks
  lastLine : q.live.lastLine = p.line.or p.live.lastLine

structure Arrived (breakpoints : Breakpoints) (request : Request) (p q : Progress σ) : Prop
    extends Moved p q where
  program : q.live.program = p.live.program
  queue : q.live.queue = p.live.queue
  timers : q.live.timers = p.live.timers
  response : q.live.response = p.live.response
  controller : q.live.controller = (p.arrival breakpoints).1
  burst : q.burst = (p.arrival breakpoints).2.1
  steps : q.steps = p.steps
  notices : q.notices = (p.noteLine request.atMaxSpeed p.line).notices

structure Took (request : Request) (p q : Progress σ) : Prop extends Moved p q where
  program : q.live.program = (p.stepped request).1.state
  queue : q.live.queue = (p.stepped request).2.queue
  timers : q.live.timers = (p.stepped request).2.timers
  response : q.live.response = (p.stepped request).2.response
  notices : q.notices = (p.stepped request).2.notices

structure Judged (request : Request) (p q : Progress σ) : Prop extends Took request p q where
  controller : q.live.controller = (p.judged request).1
  burst : q.burst = (p.judged request).2.1
  steps : q.steps = p.steps + 1

inductive Pass (breakpoints : Breakpoints) (request : Request) (budget : Nat) (p : Progress σ) :
    Progress σ × Option Ending → Prop where
  | stopped (stops : Controller.shouldStop p.burst (p.live.response.signals request)
      request.atMaxSpeed = true) : Pass breakpoints request budget p (p, some .stopped)
  | exhausted (spent : budget ≤ p.steps) (still : p.burst.unwinding = false) :
      Pass breakpoints request budget p (p, some .exhausted)
  | complete (goesOn : Controller.shouldStop p.burst (p.live.response.signals request)
        request.atMaxSpeed = false) (complete : Interpreter.isComplete p.live.program = true) :
      Pass breakpoints request budget p (p, some .complete)
  | arrived {q : Progress σ} (proceeds : p.Proceeds request budget)
      (arrives : (p.arrival breakpoints).2.2 = true) (after : Arrived breakpoints request p q) :
      Pass breakpoints request budget p (q, none)
  | failed {q : Progress σ} {error : StepError} (proceeds : p.Proceeds request budget)
      (passesBy : (p.arrival breakpoints).2.2 = false)
      (fails : (p.stepped request).1.error = some error) (after : Took request p q) :
      Pass breakpoints request budget p (q, some (.failed error p.line))
  | stepped {q : Progress σ} (proceeds : p.Proceeds request budget)
      (passesBy : (p.arrival breakpoints).2.2 = false)
      (fine : (p.stepped request).1.error = none) (after : Judged request p q) :
      Pass breakpoints request budget p
        (q, if (p.judged request).2.2 then some .rested else none)

end Progress

/-- A controller arrives at a line of the user's when it waits for the entry, or at a breakpoint
that is not on the line of the last stop. -/
theorem arrive_cases (controller : Controller) (burst : Debug.Burst) (cursor : Cursor)
    (isBreakpoint safe : Bool) :
    controller.arrive burst cursor isBreakpoint safe = (controller, burst, false) ∨
      ∃ line, cursor.line = some line ∧ burst.unwinding = false ∧
        (controller.entryPending = true ∨
          isBreakpoint = true ∧ controller.stopPoint.map (·.line) ≠ some line) ∧
        controller.arrive burst cursor isBreakpoint safe =
          ((controller.arriveAt burst line cursor.depth safe).1,
            (controller.arriveAt burst line cursor.depth safe).2, true) := by
  unfold Controller.arrive
  split
  · exact .inl rfl
  · rename_i line here
    split
    · exact .inl rfl
    · rename_i still
      dsimp only
      split
      · rename_i arrives
        refine .inr ⟨line, here, by simpa using still, ?_, rfl⟩
        simpa only [Bool.or_eq_true, Bool.and_eq_true, bne_iff_ne] using arrives
      · exact .inl rfl

namespace Progress

theorem noteLine_eq (p : Progress σ) (atMaxSpeed : Bool) :
    ∃ lastSelected notices, p.noteLine atMaxSpeed p.line =
      { p with
        live := { p.live with lastLine := p.line.or p.live.lastLine, lastSelected }
        notices } := by
  unfold noteLine
  cases here : p.line with
  | none => exact ⟨p.live.lastSelected, p.notices, rfl⟩
  | some line =>
    simp only [Option.isNone_some, Bool.false_eq_true, if_false, Option.some_or]
    split
    · unfold Live.select
      split
      · exact ⟨_, _, rfl⟩
      · split <;> exact ⟨_, _, rfl⟩
    · exact ⟨_, _, rfl⟩

theorem arrival_passes_by {breakpoints : Breakpoints} {p : Progress σ}
    (passesBy : (p.arrival breakpoints).2.2 = false) :
    p.arrival breakpoints = (p.live.controller, p.burst, false) := by
  rcases arrive_cases p.live.controller p.burst p.cursor (p.cursor.line.any breakpoints.contains)
    (Interpreter.isSafe p.live.program) with stays | ⟨line, -, -, -, arrives⟩
  · exact stays
  · rw [arrival, arrives] at passesBy
    cases passesBy

theorem arrival_arrives {breakpoints : Breakpoints} {p : Progress σ}
    (arrives : (p.arrival breakpoints).2.2 = true) :
    ∃ line, p.line = some line ∧ p.burst.unwinding = false ∧
      (p.live.controller.entryPending = true ∨ breakpoints.contains line = true ∧
        p.live.controller.stopPoint.map (·.line) ≠ some line) ∧
      p.arrival breakpoints =
        ((p.live.controller.arriveAt p.burst line p.cursor.depth
            (Interpreter.isSafe p.live.program)).1,
          { p.burst with
            reachedBreak := true, unwinding := Interpreter.isSafe p.live.program }, true) := by
  rcases arrive_cases p.live.controller p.burst p.cursor (p.cursor.line.any breakpoints.contains)
    (Interpreter.isSafe p.live.program) with stays | ⟨line, here, still, why, reaches⟩
  · rw [arrival, stays] at arrives
    cases arrives
  · refine ⟨line, here, still, ?_, reaches⟩
    rw [here] at why
    exact why

theorem arrival_iff {breakpoints : Breakpoints} {p : Progress σ} {line : Nat}
    (here : p.line = some line) :
    (p.arrival breakpoints).2.2 = true ↔ p.burst.unwinding = false ∧
      (p.live.controller.entryPending = true ∨ breakpoints.contains line = true ∧
        p.live.controller.stopPoint.map (·.line) ≠ some line) := by
  have same : p.cursor.line = some line := here
  unfold arrival Controller.arrive
  rw [same]
  dsimp only [Option.any_some]
  cases p.burst.unwinding with
  | true => simp
  | false =>
    simp only [Bool.false_eq_true, if_false, true_and]
    split
    · rename_i arrives
      simpa only [Bool.or_eq_true, Bool.and_eq_true, bne_iff_ne, true_iff] using arrives
    · rename_i stays
      simpa only [Bool.or_eq_true, Bool.and_eq_true, bne_iff_ne, Bool.false_eq_true,
        false_iff] using stays

theorem outside_of_pending {breakpoints : Breakpoints} {p : Progress σ}
    (pending : p.live.controller.entryPending = true) (still : p.burst.unwinding = false)
    (passesBy : (p.arrival breakpoints).2.2 = false) : p.line = none := by
  cases here : p.line with
  | none => rfl
  | some line =>
    rw [(arrival_iff here).mpr ⟨still, .inl pending⟩] at passesBy
    cases passesBy

theorem pass_spec (breakpoints : Breakpoints) (request : Request) (budget : Nat)
    (p : Progress σ) : Pass breakpoints request budget p (p.pass breakpoints request budget) := by
  unfold pass
  dsimp only
  split
  · rename_i stops
    exact .stopped stops
  · rename_i goesOn
    split
    · rename_i spent
      simp only [Bool.and_eq_true, decide_eq_true_eq, Bool.not_eq_true'] at spent
      exact .exhausted spent.1 spent.2
    · rename_i affords
      split
      · rename_i complete
        exact .complete (by simpa using goesOn) complete
      · rename_i incomplete
        have proceeds : p.Proceeds request budget := by
          refine ⟨by simpa using goesOn, ?_, by simpa using incomplete⟩
          simp only [Bool.and_eq_true, decide_eq_true_eq, Bool.not_eq_true'] at affords
          by_cases left : p.steps < budget
          · exact .inl left
          · exact .inr (by simpa using fun still => affords ⟨by omega, still⟩)
        obtain ⟨lastSelected, notices, noted⟩ := noteLine_eq p request.atMaxSpeed
        have shown : (p.noteLine request.atMaxSpeed p.line).notices = notices := by rw [noted]
        rw [show (Cursor.capture p.live.program p.live.lines).line = p.line from rfl, noted]
        have moved : ∀ {live : Live σ} {burst : Debug.Burst} {steps : Nat} {told : Array Notice},
            live.lines = p.live.lines → live.ticks = p.live.ticks →
            live.lastLine = p.line.or p.live.lastLine → Moved p ⟨live, burst, steps, told⟩ :=
          fun lines ticks lastLine => ⟨lines, ticks, lastLine⟩
        split
        · rename_i arrives
          exact .arrived proceeds arrives
            ⟨moved rfl rfl rfl, rfl, rfl, rfl, rfl, rfl, rfl, rfl, shown.symm⟩
        · rename_i passesBy
          have passed : (p.arrival breakpoints).2.2 = false := Bool.eq_false_iff.mpr passesBy
          have stays := arrival_passes_by passed
          change Pass breakpoints request budget p
            (step { p with
              live := { p.live with
                lastLine := p.line.or p.live.lastLine
                lastSelected
                controller := (p.arrival breakpoints).1 }
              burst := (p.arrival breakpoints).2.1
              notices } request p.cursor)
          rw [stays]
          unfold step stepProgram
          dsimp only
          rw [← shown]
          split
          · rename_i error fails
            exact .failed proceeds passed fails ⟨moved rfl rfl rfl, rfl, rfl, rfl, rfl, rfl⟩
          · rename_i fine
            exact .stepped proceeds passed fine
              ⟨⟨moved rfl rfl rfl, rfl, rfl, rfl, rfl, rfl⟩, rfl, rfl, rfl⟩

/-- A pass that is not over at its start arrives at a stop or takes its step. -/
theorem pass_proceeds (breakpoints : Breakpoints) {request : Request} {budget : Nat}
    {p : Progress σ} (proceeds : p.Proceeds request budget) :
    (∃ q, p.pass breakpoints request budget = (q, none) ∧ (p.arrival breakpoints).2.2 = true ∧
        Arrived breakpoints request p q) ∨
      (p.arrival breakpoints).2.2 = false ∧
        ((∃ q error, p.pass breakpoints request budget = (q, some (.failed error p.line)) ∧
            (p.stepped request).1.error = some error ∧ Took request p q) ∨
          ∃ q, p.pass breakpoints request budget =
              (q, if (p.judged request).2.2 then some .rested else none) ∧
            (p.stepped request).1.error = none ∧ Judged request p q) := by
  have spec := pass_spec breakpoints request budget p
  generalize p.pass breakpoints request budget = result at spec ⊢
  cases spec with
  | stopped stops =>
    rw [proceeds.goesOn] at stops
    cases stops
  | exhausted spent still =>
    rcases proceeds.affords with left | unwinding
    · omega
    · rw [still] at unwinding
      cases unwinding
  | complete _ complete =>
    rw [proceeds.incomplete] at complete
    cases complete
  | arrived _ arrives after => exact .inl ⟨_, rfl, arrives, after⟩
  | failed _ passesBy fails after => exact .inr ⟨passesBy, .inl ⟨_, _, rfl, fails, after⟩⟩
  | stepped _ passesBy fine after => exact .inr ⟨passesBy, .inr ⟨_, rfl, fine, after⟩⟩

theorem pass_arrives {breakpoints : Breakpoints} {request : Request} {budget : Nat}
    {p : Progress σ} (proceeds : p.Proceeds request budget)
    (arrives : (p.arrival breakpoints).2.2 = true) :
    ∃ q, p.pass breakpoints request budget = (q, none) ∧ Arrived breakpoints request p q := by
  rcases pass_proceeds breakpoints proceeds with ⟨q, passed, -, after⟩ | ⟨passesBy, -⟩
  · exact ⟨q, passed, after⟩
  · rw [arrives] at passesBy
    cases passesBy

theorem pass_steps {breakpoints : Breakpoints} {request : Request} {budget : Nat}
    {p : Progress σ} (proceeds : p.Proceeds request budget)
    (passesBy : (p.arrival breakpoints).2.2 = false)
    (fine : (p.stepped request).1.error = none) :
    ∃ q, p.pass breakpoints request budget =
        (q, if (p.judged request).2.2 then some .rested else none) ∧ Judged request p q := by
  rcases pass_proceeds breakpoints proceeds with
    ⟨-, -, arrives, -⟩ | ⟨-, ⟨-, error, -, fails, -⟩ | ⟨q, passed, -, after⟩⟩
  · rw [passesBy] at arrives
    cases arrives
  · rw [fine] at fails
    cases fails
  · exact ⟨q, passed, after⟩

/-- A pass after which a burst goes on arrives at a stop, or takes a step after which the debugger is
not at rest. -/
inductive GoesOn (breakpoints : Breakpoints) (request : Request) (p q : Progress σ) : Prop where
  | arrived (arrives : (p.arrival breakpoints).2.2 = true)
      (after : Arrived breakpoints request p q)
  | stepped (passesBy : (p.arrival breakpoints).2.2 = false)
      (fine : (p.stepped request).1.error = none) (after : Judged request p q)
      (active : (p.judged request).2.2 = false)

theorem pass_none {breakpoints : Breakpoints} {request : Request} {budget : Nat}
    {p q : Progress σ} (goesOn : p.pass breakpoints request budget = (q, none)) :
    p.Proceeds request budget ∧ GoesOn breakpoints request p q := by
  have spec := pass_spec breakpoints request budget p
  rw [goesOn] at spec
  generalize result : (q, (none : Option Ending)) = after at spec
  cases spec with
  | stopped => cases result
  | exhausted => cases result
  | complete => cases result
  | failed => cases result
  | arrived proceeds arrives after =>
    cases result
    exact ⟨proceeds, .arrived arrives after⟩
  | stepped proceeds passesBy fine after =>
    cases rests : (p.judged request).2.2 with
    | true =>
      rw [rests] at result
      cases result
    | false =>
      rw [rests] at result
      cases result
      exact ⟨proceeds, .stepped passesBy fine after rests⟩

/-- A pass that ends a burst finds it over, or takes a step that fails or after which the debugger is
at rest. -/
inductive Ends (breakpoints : Breakpoints) (request : Request) (budget : Nat) (p : Progress σ) :
    Progress σ → Ending → Prop where
  | stopped (stops : Controller.shouldStop p.burst (p.live.response.signals request)
      request.atMaxSpeed = true) : Ends breakpoints request budget p p .stopped
  | exhausted (spent : budget ≤ p.steps) (still : p.burst.unwinding = false) :
      Ends breakpoints request budget p p .exhausted
  | complete (complete : Interpreter.isComplete p.live.program = true) :
      Ends breakpoints request budget p p .complete
  | failed {q : Progress σ} {error : StepError} (proceeds : p.Proceeds request budget)
      (passesBy : (p.arrival breakpoints).2.2 = false)
      (fails : (p.stepped request).1.error = some error) (after : Took request p q) :
      Ends breakpoints request budget p q (.failed error p.line)
  | rested {q : Progress σ} (proceeds : p.Proceeds request budget)
      (passesBy : (p.arrival breakpoints).2.2 = false)
      (fine : (p.stepped request).1.error = none) (after : Judged request p q)
      (rests : (p.judged request).2.2 = true) : Ends breakpoints request budget p q .rested

theorem pass_ending {breakpoints : Breakpoints} {request : Request} {budget : Nat}
    {p q : Progress σ} {ending : Ending}
    (ended : p.pass breakpoints request budget = (q, some ending)) :
    Ends breakpoints request budget p q ending := by
  have spec := pass_spec breakpoints request budget p
  rw [ended] at spec
  generalize result : (q, some ending) = after at spec
  cases spec with
  | stopped stops =>
    cases result
    exact .stopped stops
  | exhausted spent still =>
    cases result
    exact .exhausted spent still
  | complete _ complete =>
    cases result
    exact .complete complete
  | arrived => cases result
  | failed proceeds passesBy fails after =>
    cases result
    exact .failed proceeds passesBy fails after
  | stepped proceeds passesBy fine after =>
    cases rests : (p.judged request).2.2 with
    | false =>
      rw [rests] at result
      cases result
    | true =>
      rw [rests] at result
      cases result
      exact .rested proceeds passesBy fine after rests

theorem pass_not_cutOff (breakpoints : Breakpoints) (request : Request) (budget : Nat)
    (p : Progress σ) : (p.pass breakpoints request budget).2 ≠ some .cutOff := by
  generalize passed : p.pass breakpoints request budget = result
  obtain ⟨q, ending⟩ := result
  intro cut
  cases (cut : ending = some .cutOff)
  cases pass_ending passed

inductive Reaches (breakpoints : Breakpoints) (request : Request) (budget : Nat)
    (p : Progress σ) : Progress σ → Prop where
  | here : Reaches breakpoints request budget p p
  | pass {q r : Progress σ} (before : Reaches breakpoints request budget p q)
      (goesOn : q.pass breakpoints request budget = (r, none)) :
      Reaches breakpoints request budget p r

theorem Reaches.after {breakpoints : Breakpoints} {request : Request} {budget : Nat}
    {p q r : Progress σ} (goesOn : p.pass breakpoints request budget = (q, none))
    (rest : Reaches breakpoints request budget q r) : Reaches breakpoints request budget p r := by
  induction rest with
  | here => exact .pass .here goesOn
  | pass _ next ih => exact .pass ih next

theorem Reaches.keeps {breakpoints : Breakpoints} {request : Request} {budget : Nat}
    {p q : Progress σ} (reaches : Reaches breakpoints request budget p q)
    (holds : Progress σ → Prop) (first : holds p)
    (each : ∀ r s, holds r → r.pass breakpoints request budget = (s, none) → holds s) :
    holds q := by
  induction reaches with
  | here => exact first
  | pass _ next ih => exact each _ _ ih next

theorem passes_spec {breakpoints : Breakpoints} {request : Request} {budget fuel : Nat}
    {p q : Progress σ} {ending : Ending}
    (ends : p.passes breakpoints request budget fuel = (q, ending)) :
    ∃ r, Reaches breakpoints request budget p r ∧
      (ending = .cutOff ∧ q = r ∨ r.pass breakpoints request budget = (q, some ending)) := by
  induction fuel generalizing p with
  | zero =>
    cases ends
    exact ⟨_, .here, .inl ⟨rfl, rfl⟩⟩
  | succ fuel ih =>
    unfold passes at ends
    split at ends
    · rename_i last passed
      cases ends
      exact ⟨_, .here, .inr passed⟩
    · rename_i next passed
      obtain ⟨r, reaches, last⟩ := ih ends
      exact ⟨r, reaches.after passed, last⟩

end Progress

theorem Live.burst_keeps {live : Live σ} {breakpoints : Breakpoints} {request : Request}
    {budget : Nat} (holds : Progress σ → Prop) (first : holds (Progress.begin live))
    (each : ∀ p q ending, p.pass breakpoints request budget = (q, ending) →
      (∀ error line, ending ≠ some (.failed error line)) → holds p → holds q)
    (unfailed : ∀ error line, (live.burst breakpoints request budget).2 ≠ .failed error line) :
    holds (live.burst breakpoints request budget).1 := by
  generalize ran : live.burst breakpoints request budget = result at unfailed ⊢
  obtain ⟨q, ending⟩ := result
  unfold Live.burst at ran
  obtain ⟨r, reaches, last⟩ := Progress.passes_spec ran
  have sofar : holds r :=
    reaches.keeps holds first fun p next before passed =>
      each p next none passed (fun _ _ => by simp) before
  rcases last with ⟨-, rfl⟩ | passed
  · exact sofar
  · exact each r q _ passed (fun error line same => unfailed error line (by simpa using same)) sofar

end Metronome.Run
