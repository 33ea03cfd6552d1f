import Metronome.Proofs.Calls
import Metronome.Proofs.Trail

namespace Metronome

open Metronome.Debug (Breakpoints Burst Command Controller Cursor ExecState StepMode)

namespace Debug

theorem Controller.isPaused_of_state {c : Controller} {mode : StepMode}
    (state : c.state = .paused mode) : c.isPaused = true := by
  rw [isPaused, state]

theorem Controller.mode_of_state {c : Controller} {mode : StepMode}
    (state : c.state = .paused mode) : c.mode = mode := by
  rw [Controller.mode, state]

theorem Controller.takeStopReason_silent {c : Controller} (silent : c.stopReason = none) :
    c.takeStopReason.1 = c := by
  obtain ⟨state, stopPoint, depths, first, out, entry, reason⟩ := c
  cases silent
  rfl

end Debug

namespace Run.Progress

open Metronome.Script (Frame Machine)

variable {breakpoints : Breakpoints} {request : Request} {budget : Nat} {p q : Progress Machine}

/-- The program stands outside the user's text, where it waits for callbacks. -/
def astray (p : Progress Machine) : Bool :=
  (Interpreter.position p.live.program).isSome && p.line.isNone

theorem line_of_position (near : p.astray = false)
    (stands : (p.live.program.stack.head?.bind Frame.position).isSome = true) :
    p.line.isSome = true := by
  unfold astray at near
  rw [show (Interpreter.position p.live.program).isSome = true from stands, Bool.true_and] at near
  rwa [Option.isNone_eq_false_iff] at near

theorem refreshed_firstCallDepth (p : Progress Machine) :
    p.refreshed.firstCallDepth = p.live.controller.firstCallDepth := by
  obtain ⟨stopPoint, same⟩ := p.refreshed_eq
  rw [same]

theorem seen_isKind {frame : Frame} {below : List Frame} {program : Machine} (kind : NodeKind)
    (top : program.stack = frame :: below) :
    (p.seen program).isKind kind = (frame.kind == kind) := by
  simp [seen, Cursor.isKind, Cursor.withLine, Script.Machine.top_cons top]

theorem seen_isDone {frame : Frame} {below : List Frame} {program : Machine}
    (top : program.stack = frame :: below) : (p.seen program).isDone = frame.isDone := by
  simp [seen, Cursor.isDone, Cursor.withLine, Script.Machine.top_cons top]

theorem first_noted (paused : p.live.controller.isPaused = true) (program : Machine) :
    (p.refreshed.noted (p.seen program)).firstCallDepth =
      if p.line.isSome && (p.seen program).isKind .call &&
          p.live.controller.firstCallDepth.isNone then
        some program.stack.length
      else p.live.controller.firstCallDepth := by
  have pausedThen : p.refreshed.isPaused = true := p.refreshed_isPaused.trans paused
  simp only [Controller.noted, pausedThen, Bool.true_and, p.refreshed_firstCallDepth]
  rfl

theorem first_stays (paused : p.live.controller.isPaused = true) {depth : Nat}
    (first : p.live.controller.firstCallDepth = some depth) (program : Machine) :
    (p.refreshed.noted (p.seen program)).firstCallDepth = some depth := by
  rw [first_noted paused, first]
  simp

theorem first_unseen (paused : p.live.controller.isPaused = true) {program : Machine}
    (first : p.live.controller.firstCallDepth = none)
    (noCall : ∀ name offset state below, program.stack ≠ .call name offset state :: below) :
    (p.refreshed.noted (p.seen program)).firstCallDepth = none := by
  have unseen : (p.seen program).isKind .call = false := by
    cases top : program.stack with
    | nil =>
      have nothing : Interpreter.top program = none := by
        change program.stack.head?.map _ = none
        rw [top]
        rfl
      simp [seen, Cursor.isKind, Cursor.withLine, nothing]
    | cons frame below =>
      rw [seen_isKind .call top]
      cases frame with
      | call name offset state => exact absurd top (noCall name offset state below)
      | _ => rfl
  rw [first_noted paused, unseen, first]
  simp

theorem stopping_of_over {frame : Frame} {below : List Frame} {program : Machine}
    (paused : p.live.controller.isPaused = true) (here : p.line.isSome = true)
    (top : program.stack = frame :: below) (ends : frame.isDone = true ∨ frame.isBlock = true) :
    p.live.controller.stopping (p.flags program) = true := by
  have user : (p.seen program).inUserCode = true := here
  have pausedThen : p.refreshed.isPaused = true := p.refreshed_isPaused.trans paused
  have done := seen_isDone (p := p) top
  have block := seen_isKind (p := p) .block top
  rw [Script.Frame.kind_block] at block
  rcases ends with finished | entered
  · rw [finished] at done
    simp [Controller.stopping, paused, flags, Burst.noted, user, done]
  · rw [entered] at block
    simp [Controller.stopping, paused, pausedThen, flags, Burst.noted, user, block]

theorem calm_of_call {name : String} {offset : Option Nat} {arguments : List Value}
    {lower : List Frame} {program : Machine} (paused : p.live.controller.isPaused = true)
    (first : p.live.controller.firstCallDepth = none)
    (calm : p.live.controller.stopping p.burst = false)
    (top : program.stack = .call name offset (.ready arguments) :: lower) :
    p.live.controller.stopping (p.flags program) = false := by
  have unfinished := seen_isDone (p := p) top
  have noBlock := seen_isKind (p := p) .block top
  have shallow : (p.refreshed.noted (p.seen program)).firstCallDepth.any
      (· < (p.seen program).depth) = false := by
    rw [first_noted paused, first]
    split
    · exact decide_eq_false (Nat.lt_irrefl _)
    · rfl
  rw [Controller.stopping, paused, Bool.true_and, Bool.or_eq_false_iff] at calm
  simp [Controller.stopping, paused, flags, Burst.noted, unfinished, noBlock, calm, shallow,
    Frame.isDone, Frame.kind]

namespace Judged

theorem first_active (after : Judged request p q) (active : (p.judged request).2.2 = false) :
    q.live.controller.firstCallDepth =
      (p.refreshed.noted (p.seen q.live.program)).firstCallDepth := by
  rw [after.controller_active active]

theorem stopReason_active (after : Judged request p q)
    (active : (p.judged request).2.2 = false) :
    q.live.controller.stopReason = p.live.controller.stopReason := by
  obtain ⟨stopPoint, same⟩ := p.refreshed_eq
  rw [after.controller_active active, same]
  rfl

theorem stopping_active (after : Judged request p q)
    (active : (p.judged request).2.2 = false) :
    q.live.controller.stopping q.burst = p.live.controller.stopping (p.flags q.live.program) := by
  rw [Controller.stopping_congr (after.state_active active), after.burst_eq]
  rfl

theorem tidies (after : Judged request p q)
    (stopping : p.live.controller.stopping (p.flags q.live.program) = true)
    (safe : Interpreter.isSafe q.live.program = true) :
    q.burst.unwinding = true ∧ (p.judged request).2.2 = false := by
  have unwinding : q.burst.unwinding = true := by
    rw [after.unwinding, stopping, safe]
    rfl
  refine ⟨unwinding, ?_⟩
  rw [after.rests_eq, unwinding]
  simp

theorem atRest (after : Judged request p q) (rests : (p.judged request).2.2 = true) :
    q.live.controller.isAtRest = true := by
  rw [after.controller_eq, rests]
  rfl

end Judged

theorem Proceeds.unasked (proceeds : p.Proceeds request budget) :
    p.live.response.seenEmptyQueue = false := by
  have goesOn := proceeds.goesOn
  simp only [Controller.shouldStop, Response.signals, Bool.or_eq_false_iff] at goesOn
  exact goesOn.1.2

theorem Proceeds.busy (proceeds : p.Proceeds request budget) : p.live.program.stack ≠ [] := by
  have incomplete : p.live.program.stack.isEmpty = false := proceeds.incomplete
  simpa using incomplete

theorem not_proceeds {ending : Ending}
    (passed : p.pass breakpoints request budget = (p, some ending))
    (unfailed : ∀ error line, ending ≠ .failed error line) : ¬ p.Proceeds request budget := by
  intro proceeds
  rcases pass_proceeds breakpoints proceeds with
    ⟨next, other, -⟩ | ⟨-, ⟨next, error, other, -⟩ | ⟨next, other, -, after⟩⟩
  · rw [passed] at other
    cases other
  · rw [passed] at other
    cases other
    exact unfailed _ _ rfl
  · rw [passed] at other
    obtain ⟨rfl, -⟩ := Prod.mk.inj other
    have longer := after.steps
    omega

theorem pass_rested (passed : p.pass breakpoints request budget = (q, some .rested)) :
    p.Proceeds request budget ∧ (p.stepped request).1.error = none ∧ Judged request p q ∧
      (p.judged request).2.2 = true := by
  cases pass_ending passed with
  | rested proceeds _ fine after rests => exact ⟨proceeds, fine, after, rests⟩

theorem complete_of_unwinding (ends : ¬ p.Proceeds request budget)
    (tick : request.untilReturn = false) (unwinds : p.burst.unwinding = true)
    (unasked : p.live.response.seenEmptyQueue = false) : p.live.program.stack = [] := by
  have goesOn : Controller.shouldStop p.burst (p.live.response.signals request)
      request.atMaxSpeed = false := by
    simp [Controller.shouldStop, Response.signals, unwinds, unasked, tick]
  by_contra busy
  refine ends ⟨goesOn, .inr unwinds, ?_⟩
  change p.live.program.stack.isEmpty = false
  simpa using busy

end Run.Progress

namespace Run

open Metronome.Script (Machine)
open Metronome.Debug (StopReason)

theorem begun_state (c : Controller) : c.beginTick.1.state = c.state := by
  obtain ⟨stepOutDepth, same⟩ := beginTick_eq c
  rw [same]

theorem beginTick_same {c : Controller} {mode : StepMode} (state : c.state = .paused mode)
    (inside : mode ≠ .stepOut) : c.beginTick.1 = c := by
  unfold Controller.beginTick
  rw [state]
  cases mode with
  | stepOut => exact absurd rfl inside
  | _ => rfl

structure Operating (mode : StepMode) (c : Controller) : Prop where
  state : c.state = .paused mode
  silent : c.stopReason = none

structure Interrupted (c : Controller) : Prop where
  rests : c.isAtRest = true
  other : ∃ reason, c.stopReason = some reason ∧ reason ≠ .step

theorem Operating.begun {mode : StepMode} {c : Controller} (operating : Operating mode c) :
    Operating mode c.beginTick.1 := by
  refine ⟨(begun_state c).trans operating.state, ?_⟩
  obtain ⟨stepOutDepth, same⟩ := beginTick_eq c
  rw [same]
  exact operating.silent

theorem Operating.judged {mode : StepMode} {request : Request} {p q : Progress Machine}
    (operating : Operating mode p.live.controller) (after : Progress.Judged request p q)
    (active : (p.judged request).2.2 = false) : Operating mode q.live.controller :=
  ⟨(after.state_active active).trans operating.state,
    (after.stopReason_active active).trans operating.silent⟩

theorem Interrupted.unstepped {request : Request} {p q : Progress Machine}
    (interrupted : Interrupted p.live.controller) (after : Progress.Judged request p q)
    (rests : (p.judged request).2.2 = true) : q.live.controller.stopReason ≠ some .step := by
  obtain ⟨reason, stop, other⟩ := interrupted.other
  have controller := after.controller_eq
  obtain ⟨stopPoint, same⟩ := p.refreshed_eq
  rw [rests, same] at controller
  rw [controller]
  change some (p.live.controller.stopReason.getD .step) ≠ _
  rw [stop]
  simpa using other

/-- What holds while a step operation is in progress: between two bursts of what the last one left, and
in a burst of where it has come to. An arrival ends the operation. -/
structure Persists (mode : StepMode) (between : List (Progress Machine) → Live Machine → Prop)
    (within : List (Progress Machine) → Progress Machine → Prop) : Prop where
  idles {trail : List (Progress Machine)} {live next : Live Machine} (holds : between trail live)
      (program : next.program = live.program) (lines : next.lines = live.lines)
      (controller : next.controller = live.controller) : between trail next
  begins {trail : List (Progress Machine)} {live next : Live Machine} (holds : between trail live)
      (operating : Operating mode live.controller) (program : next.program = live.program)
      (lines : next.lines = live.lines) (controller : next.controller = live.controller.beginTick.1) :
      within trail (Progress.begin next)
  stepped {trail : List (Progress Machine)} {request : Request} {budget : Nat}
      {p q : Progress Machine} (holds : within trail p) (operating : Operating mode p.live.controller)
      (guarded : p.Guarded) (sound : p.live.program.Sound p.live.lines)
      (proceeds : p.Proceeds request budget) (fine : (p.stepped request).1.error = none)
      (after : Progress.Judged request p q) (active : (p.judged request).2.2 = false) :
      within (trail ++ [p]) q
  stays {trail : List (Progress Machine)} {request : Request} {budget : Nat} {p : Progress Machine}
      {next : Live Machine} (holds : within trail p) (operating : Operating mode p.live.controller)
      (ends : ¬ p.Proceeds request budget) (tick : request.untilReturn = false)
      (program : next.program = p.live.program) (lines : next.lines = p.live.lines)
      (controller : next.controller = p.live.controller) : between trail next

section

variable {mode : StepMode} {between : List (Progress Machine) → Live Machine → Prop}
  {within : List (Progress Machine) → Progress Machine → Prop}

/-- What persists lasts until the operation is over. -/
theorem Persists.lasting (persists : Persists mode between within) :
    Lasting
      (fun trail live => ∀ left ∈ live, left.controller.isAtRest = true ∨
        Operating mode left.controller ∧ between trail left)
      (fun trail request p => Interrupted p.live.controller ∨
        request.untilReturn = false ∧ Operating mode p.live.controller ∧ within trail p) where
  idles := by
    rintro trail live next holds idled left ⟨⟩
    rcases holds live rfl with rests | ⟨operating, holds⟩
    · left
      rcases idled.controller with same | same
      · exact same ▸ rests
      · exact same ▸ rests
    · right
      have same : next.controller = live.controller := by
        rcases idled.controller with same | same
        · exact same
        · exact same.trans (Controller.takeStopReason_silent operating.silent)
      exact ⟨same ▸ operating, persists.idles holds idled.program idled.lines same⟩
  gone := by
    rintro trail live holds left ⟨⟩
  begins := by
    rintro trail live next request holds program lines controller awake tick
    rcases holds live rfl with rests | ⟨operating, holds⟩
    · rw [controller, Controller.isAtRest_congr (begun_state _), rests] at awake
      cases awake
    · right
      have operatingThen : Operating mode next.controller := controller ▸ operating.begun
      refine ⟨?_, operatingThen, persists.begins holds operating program lines controller⟩
      rw [Bool.eq_false_iff]
      intro dispatched
      have paused := Controller.isPaused_of_state operatingThen.state
      rw [tick dispatched] at paused
      cases paused
  arrived := by
    intro trail breakpoints request budget p q holds guarded sound proceeds arrives after
    obtain ⟨line, -, -, -, reaches⟩ := Progress.arrival_arrives arrives
    left
    rw [after.controller, reaches]
    refine ⟨rfl, _, rfl, ?_⟩
    cases p.live.controller.entryPending <;> simp
  stepped := by
    rintro trail breakpoints request budget p q (⟨rests, reason, stop, other⟩ | ⟨tick, operating, holds⟩)
      guarded sound proceeds passesBy fine after active
    · left
      refine ⟨?_, reason, (after.stopReason_active active).trans stop, other⟩
      rw [Controller.isAtRest_congr (after.state_active active)]
      exact rests
    · right
      exact ⟨tick, operating.judged after active,
        persists.stepped holds operating guarded sound proceeds fine after active⟩
  rested := by
    rintro trail breakpoints request budget p q next holds guarded sound proceeds passesBy fine after
      rests leaves left ⟨⟩
    left
    have controller := after.controller_eq
    rw [rests] at controller
    rw [leaves.controller, controller]
    rfl
  failed := by
    rintro trail breakpoints request budget p holds guarded sound proceeds passesBy left ⟨⟩
  stays := by
    rintro trail breakpoints request budget p next ending (⟨rests, -⟩ | ⟨tick, operating, holds⟩)
      guarded sound passed leaves left ⟨⟩
    · left
      rw [leaves.controller]
      exact rests
    · right
      have same : next.controller = p.live.controller :=
        leaves.controller.trans (Controller.takeStopReason_silent operating.silent)
      have ends := Progress.not_proceeds passed leaves.fine
      exact ⟨same ▸ operating,
        persists.stays holds operating ends tick leaves.program leaves.lines same⟩

variable {φ : Type} {s₀ s : Scheduler Machine φ} {trail : List (Progress Machine)}
  {first : Live Machine}

theorem Persists.underway (persists : Persists mode between within) (reachable : Reachable s₀)
    (here : s₀.live = some first) (starts : Operating mode first.controller ∧ between [] first)
    (underway : Underway s₀ trail s) {live : Live Machine} (there : s.live = some live) :
    live.controller.isAtRest = true ∨ Operating mode live.controller ∧ between trail live := by
  refine underway.holds persists.lasting reachable ?_ live there
  rintro left same
  rw [here] at same
  cases same
  exact .inr starts

theorem Persists.comesTo (persists : Persists mode between within) (reachable : Reachable s₀)
    (here : s₀.live = some first) (starts : Operating mode first.controller ∧ between [] first)
    {request : Request} {p : Progress Machine} (comes : ComesTo s₀ trail s request p) :
    Interrupted p.live.controller ∨
      request.untilReturn = false ∧ Operating mode p.live.controller ∧ within trail p := by
  refine comes.holds persists.lasting reachable ?_
  rintro left same
  rw [here] at same
  cases same
  exact .inr starts

end

theorem beginStep_live {φ : Type} {s : Scheduler Machine φ} {first : Live Machine}
    (here : s.live = some first) {mode : StepMode} (moves : mode ≠ .run) :
    (s.beginStep mode).live =
      some { first with controller := first.controller.enterState (.paused mode) } := by
  rw [Scheduler.beginStep, here]
  dsimp only
  rw [Scheduler.reportPauseState_live, Controller.step, if_neg moves]

theorem enterState_operating (c : Controller) (mode : StepMode) :
    Operating mode (c.enterState (.paused mode)) := ⟨rfl, rfl⟩

def restsAfter (command : Command) (s₀ : Scheduler Machine Unit)
    (ends : Live Machine → List (Progress Machine) → Progress Machine → Bool) : Bool :=
  let s := s₀.perform (.command command)
  let request := s.tickRequest 0
  s₀.live.any fun first =>
    s.live.any fun live =>
      let trail := live.ticked.trail s.breakpoints request s.settings.tickBudget
      s.runNumber == 1 && live.controller.beginTick.2 &&
        trail.getLast?.any fun p =>
          let after := p.pass s.breakpoints request s.settings.tickBudget
          after.2 == some .rested && after.1.live.controller.stopReason == some .step &&
            ends first trail after.1

theorem of_restsAfter {command : Command} {s₀ : Scheduler Machine Unit}
    {ends : Live Machine → List (Progress Machine) → Progress Machine → Bool}
    (computed : restsAfter command s₀ ends = true) :
    ∃ (first : Live Machine) (trail : List (Progress Machine)) (p q : Progress Machine),
      let s := s₀.perform (.command command)
      let request := s.tickRequest 0
      s₀.live = some first ∧ ComesTo s trail s request p ∧
        p.pass s.breakpoints request s.settings.tickBudget = (q, some .rested) ∧
        q.live.controller.stopReason = some .step ∧ ends first (trail ++ [p]) q = true := by
  simp only [restsAfter, Bool.and_eq_true, beq_iff_eq, Option.any_eq_true] at computed
  obtain ⟨first, here, live, there, ⟨current, steps⟩, p, last, ⟨rests, goal⟩, ends⟩ := computed
  obtain ⟨before, split⟩ := List.getLast?_eq_some_iff.mp last
  obtain ⟨walks, -⟩ := Progress.walks_of_trail split
  have runs : Bursts (s₀.perform (.command command)) (.tick ⟨1, 0⟩ 0 0) live.ticked
      ((s₀.perform (.command command)).tickRequest 0) := .tick there current.symm steps
  have comes := ComesTo.walks .here rfl runs walks
  exact ⟨first, before, p, _, here, comes, Prod.ext rfl rests, goal, split ▸ ends⟩

end Run

end Metronome
