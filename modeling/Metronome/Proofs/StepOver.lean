import Metronome.Proofs.Breakpoint
import Metronome.Proofs.Stepping

/-!
Stepping over calls. An operation that steps over remembers the depth of the first call that it sees
on top. From then on the stack is either still above that call, or the call has returned and the burst
unwinds from it; in neither case does the operation end in a function that was called. A call that
stands on top already when the operation begins, and has not begun, is not seen.
-/
namespace Metronome

open Metronome.Debug (Breakpoints Burst Controller Cursor StepMode StopReason)

namespace Run

open Metronome.Script (CallState Frame Loaded Machine Unready reach started load_any)

namespace Progress

/-- How an operation that steps over stands to the call that it saw first: it has seen none, the
stack is above that call, or the call has returned and the burst unwinds to the end of the
operation. At most the given number of calls had started when the operation began. -/
inductive Over (calls : Nat) (p : Progress Machine) : Prop where
  | unseen (first : p.live.controller.firstCallDepth = none)
      (fewer : started p.live.program.stack ≤ calls) (unready : Unready p.live.program.stack)
      (unwinds : p.live.controller.stopping p.burst = true → p.burst.unwinding = true)
  | called {name : String} {offset : Option Nat} {arguments : List Value} {lower : List Frame}
      (stack : p.live.program.stack = .call name offset (.ready arguments) :: lower)
      (first : p.live.controller.firstCallDepth = some (lower.length + 1))
      (fewer : started lower ≤ calls)
  | above {frame : Frame} {upper lower : List Frame} {name : String} {offset : Option Nat}
      {state : CallState}
      (stack : p.live.program.stack = frame :: upper ++ .call name offset state :: lower)
      (first : p.live.controller.firstCallDepth = some (lower.length + 1))
      (fewer : started lower ≤ calls)
  | returned {name : String} {offset : Option Nat} {value : Value} {lower : List Frame}
      (stack : p.live.program.stack = .call name offset (.returned value) :: lower)
      (first : p.live.controller.firstCallDepth = some (lower.length + 1))
      (fewer : started lower ≤ calls) (unwinds : p.burst.unwinding = true)
      (unasked : p.live.response.seenEmptyQueue = false)
  | outside {depth : Nat} (first : p.live.controller.firstCallDepth = some depth)
      (reaches : reach p.live.program.stack < depth)
      (fewer : started p.live.program.stack ≤ calls) (unready : Unready p.live.program.stack)
      (unwinds : p.burst.unwinding = true) (unasked : p.live.response.seenEmptyQueue = false)
  | complete (empty : p.live.program.stack = [])

variable {calls : Nat} {request : Request} {p q : Progress Machine}

theorem Judged.rests_over (after : Judged request p q)
    (mode : p.live.controller.state = .paused .stepOver) :
    (p.judged request).2.2 =
      (p.live.controller.stopping (p.flags q.live.program) && !q.burst.unwinding &&
        !(p.refreshed.noted (p.seen q.live.program)).firstCallDepth.any
          (· < q.live.program.stack.length)) := by
  have modeThen : (p.refreshed.noted (p.seen q.live.program)).mode = .stepOver := by
    rw [Controller.noted_mode, p.refreshed_mode, Controller.mode_of_state mode]
  rw [after.rests_eq, Controller.staysDeep, modeThen]
  rfl

theorem Judged.deep (after : Judged request p q)
    (mode : p.live.controller.state = .paused .stepOver) {depth : Nat}
    (first : p.live.controller.firstCallDepth = some depth)
    (deeper : depth < q.live.program.stack.length) : (p.judged request).2.2 = false := by
  rw [after.rests_over mode, first_stays (Controller.isPaused_of_state mode) first]
  simp [deeper]

def KeepsOut (calls : Nat) (request : Request) (p q : Progress Machine) : Prop :=
  ((p.judged request).2.2 = true → started q.live.program.stack ≤ calls) ∧
    ((p.judged request).2.2 = false → Over calls q)

theorem KeepsOut.of_active (active : (p.judged request).2.2 = false) (keeps : Over calls q) :
    KeepsOut calls request p q := by
  refine ⟨fun rests => ?_, fun _ => keeps⟩
  rw [active] at rests
  cases rests

theorem Judged.returned {name : String} {offset : Option Nat} {value : Value}
    {lower : List Frame} (after : Judged request p q)
    (mode : p.live.controller.state = .paused .stepOver) (here : p.line.isSome = true)
    (stack : q.live.program.stack = .call name offset (.returned value) :: lower)
    (first : (p.refreshed.noted (p.seen q.live.program)).firstCallDepth = some (lower.length + 1))
    (fewer : started lower ≤ calls) (unasked : q.live.response.seenEmptyQueue = false) :
    KeepsOut calls request p q := by
  have stopping := stopping_of_over (Controller.isPaused_of_state mode) here stack (.inl rfl)
  have safe : Interpreter.isSafe q.live.program = true := by
    rw [Script.Machine.isSafe_cons stack]
    rfl
  obtain ⟨unwinding, active⟩ := after.tidies stopping safe
  have seen := (after.first_active active).trans first
  exact .of_active active (.returned stack seen fewer unwinding unasked)

theorem Judged.unseen {budget : Nat} (after : Judged request p q)
    (mode : p.live.controller.state = .paused .stepOver) (guarded : p.Guarded)
    (sound : p.live.program.Sound p.live.lines) (proceeds : p.Proceeds request budget)
    (fine : (p.stepped request).1.error = none) (near : p.astray = false)
    (first : p.live.controller.firstCallDepth = none)
    (fewer : started p.live.program.stack ≤ calls) (unready : Unready p.live.program.stack)
    (unwinds : p.live.controller.stopping p.burst = true → p.burst.unwinding = true) :
    KeepsOut calls request p q := by
  obtain ⟨answers, shift, -, asked⟩ := after.toTook.shift fine
  have paused := Controller.isPaused_of_state mode
  have fewerThen : started q.live.program.stack ≤ calls := (shift.started_le unready).trans fewer
  by_cases call : ∃ name offset state lower,
      q.live.program.stack = .call name offset state :: lower
  · obtain ⟨name, offset, state, lower, stack⟩ := call
    have seen : p.line.isSome = true →
        (p.refreshed.noted (p.seen q.live.program)).firstCallDepth = some (lower.length + 1) := by
      intro here
      rw [first_noted paused, seen_isKind .call stack, here, first, stack]
      rfl
    rw [stack, Script.started_cons] at fewerThen
    have fewerBelow : started lower ≤ calls := (Nat.le_add_right _ _).trans fewerThen
    cases shift.surfaces sound.stacked sound.bodied stack with
    | made stands busy =>
      have here := line_of_position near (by rw [stands]; rfl)
      have unsafe_top : Interpreter.isSafe p.live.program = false := by
        cases top : p.live.program.stack with
        | nil => exact absurd top proceeds.busy
        | cons frame below =>
          rw [Script.Machine.isSafe_cons top, Bool.or_eq_false_iff]
          exact busy frame (by rw [top]; rfl)
      -- A burst with a stop in reach unwinds, and a statement that makes a call is not unwound.
      have calm : p.live.controller.stopping p.burst = false := by
        rw [Bool.eq_false_iff]
        intro stopping
        rcases guarded.loose (unwinds stopping) with safe | outside
        · rw [unsafe_top] at safe
          cases safe
        · rw [outside] at here
          cases here
      have active : (p.judged request).2.2 = false := by
        rw [after.rests_over mode, calm_of_call paused first calm stack]
        rfl
      exact .of_active active (.called stack ((after.first_active active).trans (seen here)) fewerBelow)
    | returned stands unasked =>
      have here := line_of_position near stands
      have unaskedThen : q.live.response.seenEmptyQueue = false := by
        rw [asked, proceeds.unasked, unasked]
        rfl
      exact after.returned mode here stack (seen here) fewerBelow unaskedThen
  · have none_seen : (p.refreshed.noted (p.seen q.live.program)).firstCallDepth = none :=
      first_unseen paused first fun name offset state below top =>
        call ⟨name, offset, state, below, top⟩
    refine ⟨fun _ => fewerThen, fun active => .unseen ?_ fewerThen ?_ fun stopping => ?_⟩
    · rw [after.first_active active, none_seen]
    · intro name offset arguments below top
      exact call ⟨name, offset, _, below, top⟩
    · rw [after.stopping_active active] at stopping
      rw [after.rests_over mode, stopping, none_seen] at active
      simpa using active

theorem Judged.above {budget : Nat} {frame : Frame} {upper lower : List Frame} {name : String}
    {offset : Option Nat} {state : CallState} (after : Judged request p q)
    (mode : p.live.controller.state = .paused .stepOver)
    (sound : p.live.program.Sound p.live.lines) (proceeds : p.Proceeds request budget)
    (fine : (p.stepped request).1.error = none) (near : p.astray = false)
    (stack : p.live.program.stack = frame :: upper ++ .call name offset state :: lower)
    (first : p.live.controller.firstCallDepth = some (lower.length + 1))
    (fewer : started lower ≤ calls) : KeepsOut calls request p q := by
  obtain ⟨answers, shift, -, asked⟩ := after.toTook.shift fine
  rcases shift.above sound.stacked stack with
    ⟨top, higher, stackThen⟩ | ⟨⟨value, stackThen⟩, stands, rfl⟩
  · have deeper : lower.length + 1 < q.live.program.stack.length := by
      rw [stackThen, List.length_append, List.length_cons, List.length_cons]
      omega
    have active := after.deep mode first deeper
    have seen := (after.first_active active).trans (first_stays (Controller.isPaused_of_state mode) first _)
    exact .of_active active (.above stackThen seen fewer)
  · have unasked : q.live.response.seenEmptyQueue = false := by
      rw [asked, proceeds.unasked]
      rfl
    exact after.returned mode (line_of_position near stands) stackThen (first_stays (Controller.isPaused_of_state mode) first _)
      fewer unasked

theorem Judged.called {name : String} {offset : Option Nat} {arguments : List Value}
    {lower : List Frame} (after : Judged request p q)
    (mode : p.live.controller.state = .paused .stepOver)
    (fine : (p.stepped request).1.error = none)
    (stack : p.live.program.stack = .call name offset (.ready arguments) :: lower)
    (first : p.live.controller.firstCallDepth = some (lower.length + 1))
    (fewer : started lower ≤ calls) : KeepsOut calls request p q := by
  obtain ⟨answers, shift, -⟩ := after.toTook.shift fine
  obtain ⟨rest, origin, stackThen⟩ := shift.begun stack
  have deeper : lower.length + 1 < q.live.program.stack.length := by
    rw [stackThen]
    simp
  have active := after.deep mode first deeper
  have seen := (after.first_active active).trans (first_stays (Controller.isPaused_of_state mode) first _)
  have above : q.live.program.stack =
      .block rest origin :: [] ++ .call name offset .running :: lower := stackThen
  exact .of_active active (.above above seen fewer)

theorem Judged.tidied {budget depth bound : Nat} {answers : List Bool} (after : Judged request p q)
    (mode : p.live.controller.state = .paused .stepOver) (guarded : p.Guarded)
    (proceeds : p.Proceeds request budget) (unwinds : p.burst.unwinding = true)
    (tidied : Script.Tidied calls bound answers q.live.program.stack)
    (asked : q.live.response.seenEmptyQueue =
      (p.live.response.seenEmptyQueue || answers.contains false))
    (first : p.live.controller.firstCallDepth = some depth) (reaches : bound < depth) :
    KeepsOut calls request p q := by
  have unasked : q.live.response.seenEmptyQueue = false := by
    rw [asked, proceeds.unasked, tidied.unasked]
    rfl
  have near_top : reach q.live.program.stack < depth := Nat.lt_of_le_of_lt tidied.reach reaches
  refine ⟨fun _ => tidied.started, fun active => ?_⟩
  have seen := (after.first_active active).trans (first_stays (Controller.isPaused_of_state mode) first _)
  refine .outside seen near_top tidied.started tidied.unready ?_ unasked
  have stopping : p.live.controller.stopping (p.flags q.live.program) = true :=
    guarded.stopping_flags unwinds _
  have shallow : ¬ depth < q.live.program.stack.length := by
    have shorter := Script.length_le_reach q.live.program.stack
    omega
  rw [after.rests_over mode, stopping, first_stays (Controller.isPaused_of_state mode) first] at active
  simpa [shallow] using active

theorem Guarded.safe_top {budget : Nat} (guarded : p.Guarded)
    (sound : p.live.program.Sound p.live.lines) (proceeds : p.Proceeds request budget)
    (near : p.astray = false) (unready : Unready p.live.program.stack)
    (unwinds : p.burst.unwinding = true) :
    ∃ frame below, p.live.program.stack = frame :: below ∧
      (frame.isDone = true ∨ frame.isBlock = true) := by
  cases stack : p.live.program.stack with
  | nil => exact absurd stack proceeds.busy
  | cons frame below =>
    refine ⟨frame, below, rfl, ?_⟩
    rcases guarded.loose unwinds with safe | outside
    · rw [Script.Machine.isSafe_cons stack, Bool.or_eq_true] at safe
      exact safe
    · have nowhere : frame.position = none := by
        by_contra stands
        have here := line_of_position near (by
          rw [stack]
          exact Option.isSome_iff_ne_none.mpr stands)
        rw [outside] at here
        cases here
      cases frame with
      | block rest origin => exact .inr rfl
      | call name offset state =>
        cases state with
        | ready arguments => exact absurd stack (unready _ _ _ _)
        | running => exact absurd stack (sound.bodied _ _ _)
        | returned value => exact .inl rfl
      | _ => cases nowhere

theorem Over.step {budget : Nat} (keeps : Over calls p)
    (mode : p.live.controller.state = .paused .stepOver) (after : Judged request p q)
    (guarded : p.Guarded)
    (sound : p.live.program.Sound p.live.lines) (proceeds : p.Proceeds request budget)
    (fine : (p.stepped request).1.error = none) (near : p.astray = false) :
    KeepsOut calls request p q := by
  cases keeps with
  | unseen first fewer unready unwinds =>
    exact after.unseen mode guarded sound proceeds fine near first fewer unready unwinds
  | called stack first fewer => exact after.called mode fine stack first fewer
  | above stack first fewer =>
    exact after.above mode sound proceeds fine near stack first fewer
  | returned stack first fewer unwinds =>
    obtain ⟨answers, shift, -, asked⟩ := after.toTook.shift fine
    obtain ⟨unstarted, reaches, unready, unasked⟩ := (shift.returns sound.stacked stack).1
    exact after.tidied mode guarded proceeds unwinds
      ⟨unstarted.trans fewer, reaches, unready, unasked⟩ asked first (Nat.lt_succ_self _)
  | outside first reaches fewer unready unwinds =>
    obtain ⟨frame, below, stack, safe⟩ :=
      guarded.safe_top sound proceeds near unready unwinds
    obtain ⟨answers, shift, -, asked⟩ := after.toTook.shift fine
    obtain ⟨unstarted, reachesThen, unreadyThen, unasked⟩ :=
      shift.tidied sound.stacked stack safe
    exact after.tidied mode guarded proceeds unwinds
      ⟨unstarted.trans fewer, reachesThen, unreadyThen, unasked⟩ asked first reaches
  | complete empty => exact absurd empty proceeds.busy

theorem Over.restart (keeps : Over calls p) (program : q.live.program = p.live.program)
    (controller : q.live.controller = p.live.controller) (fresh : q.burst = .fresh)
    (calm : p.burst.unwinding = true → p.live.response.seenEmptyQueue = false →
      p.live.program.stack = []) : Over calls q := by
  cases keeps with
  | unseen first fewer unready =>
    refine .unseen (controller ▸ first) (program ▸ fewer) (program ▸ unready) fun stopping => ?_
    simp [Controller.stopping, fresh, Debug.Burst.fresh] at stopping
  | called stack first fewer => exact .called (program ▸ stack) (controller ▸ first) fewer
  | above stack first fewer => exact .above (program ▸ stack) (controller ▸ first) fewer
  | returned _ _ _ unwinds unasked => exact .complete (program ▸ calm unwinds unasked)
  | outside _ _ _ _ unwinds unasked => exact .complete (program ▸ calm unwinds unasked)
  | complete empty => exact .complete (program ▸ empty)

end Progress

open Progress

/-- Unless the program has got to where it waits for callbacks, an operation that steps over stands to
its first call as one can. -/
theorem over_persists (calls : Nat) : Persists .stepOver
    (fun trail live => (∃ r ∈ trail, r.astray = true) ∨ Over calls (begin live))
    (fun trail p => (∃ r ∈ trail, r.astray = true) ∨ Over calls p) where
  idles := by
    intro trail live next holds program lines controller
    exact holds.imp_right fun keeps => keeps.restart program controller rfl fun unwinds => by cases unwinds
  begins := by
    intro trail live next holds operating program lines controller
    have begun := beginTick_same operating.state (by simp)
    exact holds.imp_right fun keeps =>
      keeps.restart program (controller.trans begun) rfl fun unwinds => by cases unwinds
  stepped := by
    rintro trail request budget p q (⟨r, member, far⟩ | keeps) operating guarded sound proceeds fine
      after active
    · exact .inl ⟨r, List.mem_append_left _ member, far⟩
    · cases near : p.astray with
      | true => exact .inl ⟨p, List.mem_append_right _ (List.mem_singleton.mpr rfl), near⟩
      | false =>
        exact .inr ((keeps.step operating.state after guarded sound proceeds fine near).2 active)
  stays := by
    intro trail request budget p next holds operating ends tick program lines controller
    exact holds.imp_right fun keeps =>
      keeps.restart program controller rfl (complete_of_unwinding ends tick)

/-- A step over that begins on no call that was made and has not begun does not end inside a call: it
comes to rest with at most as many calls started as there were, unless the program got to where it
waits for callbacks. -/
theorem step_over_stays_out {φ : Type} {s₀ s : Scheduler Machine φ} {first : Live Machine}
    {trail : List (Progress Machine)} {request : Request} {p q : Progress Machine}
    (reachable : Reachable s₀) (here : s₀.live = some first)
    (unready : Unready first.program.stack)
    (comes : ComesTo (s₀.perform (.command .stepOver)) trail s request p)
    (near : ∀ r ∈ trail ++ [p], r.astray = false)
    (rests : p.pass s.breakpoints request s.settings.tickBudget = (q, some .rested))
    (goal : q.live.controller.stopReason = some .step) :
    started q.live.program.stack ≤ started first.program.stack := by
  have given : (Operation.command .stepOver : Operation Machine φ).Given := by
    rintro program lines began ended ⟨⟩
  have reachableThen := Reachable.perform reachable given
  have begins : (s₀.perform (.command .stepOver)).live =
      some { first with controller := first.controller.enterState (.paused .stepOver) } :=
    beginStep_live here (by simp)
  have unseen : Over (started first.program.stack) (begin
      { first with controller := first.controller.enterState (.paused .stepOver) }) :=
    .unseen rfl (Nat.le_refl _) unready fun stopping => by cases stopping
  have kept := comes.kept reachableThen
  obtain ⟨proceeds, fine, after, rested⟩ := pass_rested rests
  rcases (over_persists _).comesTo reachableThen begins ⟨enterState_operating _ _, .inr unseen⟩ comes
    with interrupted | ⟨-, operating, ⟨r, member, far⟩ | keeps⟩
  · exact absurd goal (interrupted.unstepped after rested)
  · rw [near r (List.mem_append_left _ member)] at far
    cases far
  · have close := near p (List.mem_append_right _ (List.mem_singleton.mpr rfl))
    exact (keeps.step operating.state after kept.guarded kept.sound proceeds fine close).1 rested

def atCall (loaded : Loaded) : Scheduler Machine Unit :=
  entering.performAll
    [.start loaded.machine loaded.text.lineMap 0 0, .tick ⟨1, 0⟩ 0 0]

def onCall (loaded : Loaded) : Scheduler Machine Unit :=
  (Scheduler.new { Settings.default with tickBudget := 1 } none).performAll
    [.start loaded.machine loaded.text.lineMap 0 0, .tick ⟨1, 0⟩ 0 0, .command .pause]

theorem atCall_reachable {loaded : Loaded} (read : Script.load calling = .ok loaded) :
    Reachable (atCall loaded) := by
  apply Reachable.loading read (.new _ _)
  simp +contextual

/-- The step over a call that was made and has not begun ends in the function. -/
theorem stepOver_ends_inside : ∃ (loaded : Loaded) (first : Live Machine)
    (trail : List (Progress Machine)) (p q : Progress Machine), Script.load calling = .ok loaded ∧
      let s := (onCall loaded).perform (.command .stepOver)
      let request := s.tickRequest 0
      ((onCall loaded).live = some first ∧ ComesTo s trail s request p ∧
        (∀ r ∈ trail ++ [p], r.astray = false) ∧
        p.pass s.breakpoints request s.settings.tickBudget = (q, some .rested) ∧
        q.live.controller.stopReason = some .step) ∧
      first.controller.isAtRest = true ∧ q.line = some 2 ∧
      started first.program.stack < started q.live.program.stack := by
  have computed : (Script.load calling).toOption.any (fun loaded =>
      restsAfter .stepOver (onCall loaded) fun first trail q =>
        trail.all (!·.astray) && first.controller.isAtRest && q.line == some 2 &&
          decide (started first.program.stack < started q.live.program.stack)) = true := by
    decide +kernel
  obtain ⟨loaded, read, holds⟩ := load_any computed
  obtain ⟨first, trail, p, q, here, comes, rests, goal, ends⟩ := of_restsAfter holds
  simp only [Bool.and_eq_true, beq_iff_eq, decide_eq_true_eq, List.all_eq_true, Bool.not_eq_true',
    and_assoc] at ends
  obtain ⟨near, ends⟩ := ends
  exact ⟨loaded, first, trail, p, q, read, ⟨here, comes, near, rests, goal⟩, ends⟩

theorem stepOver_ends_after_call : ∃ (loaded : Loaded) (first : Live Machine)
    (trail : List (Progress Machine)) (p q : Progress Machine), Script.load calling = .ok loaded ∧
      let s := (atCall loaded).perform (.command .stepOver)
      let request := s.tickRequest 0
      ((atCall loaded).live = some first ∧ Unready first.program.stack ∧
        ComesTo s trail s request p ∧ (∀ r ∈ trail ++ [p], r.astray = false) ∧
        p.pass s.breakpoints request s.settings.tickBudget = (q, some .rested) ∧
        q.live.controller.stopReason = some .step) ∧
      q.line = some 5 ∧ started q.live.program.stack ≤ started first.program.stack := by
  have computed : (Script.load calling).toOption.any (fun loaded =>
      restsAfter .stepOver (atCall loaded) fun first trail q =>
        trail.all (!·.astray) && first.program.evaluates && q.line == some 5) = true := by
    decide +kernel
  obtain ⟨loaded, read, holds⟩ := load_any computed
  obtain ⟨first, trail, p, q, here, comes, rests, goal, ends⟩ := of_restsAfter holds
  simp only [Bool.and_eq_true, beq_iff_eq, List.all_eq_true, Bool.not_eq_true'] at ends
  obtain ⟨⟨near, evaluates⟩, line⟩ := ends
  have unready : Unready first.program.stack := by
    intro name offset arguments below top
    rw [Machine.evaluates, top] at evaluates
    cases evaluates
  refine ⟨loaded, first, trail, p, q, read, ⟨here, unready, comes, near, rests, goal⟩, line, ?_⟩
  exact step_over_stays_out (atCall_reachable read) here unready comes near rests goal

end Run

end Metronome
