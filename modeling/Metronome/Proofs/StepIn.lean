import Metronome.Proofs.StepOver

/-!
Stepping in. An operation that steps in evaluates one statement or condition of the user's: from then on
its burst unwinds to the end of the operation, or it is in a call that the evaluation made, and ends
where it comes to the user's code. A burst that ends because no callback waits forgets that it unwinds;
this goes unnoticed until the program waits for callbacks outside the user's text.
-/
namespace Metronome

open Metronome.Debug (Burst Controller Cursor)

namespace Script

variable {functions : List Function} {stack after : List Frame} {answers : List Bool}

theorem Shift.settles (shift : Shift functions stack answers after)
    (evaluates : stack.head?.any Frame.evaluates = true) :
    ∃ frame below, after = frame :: below ∧
      ((frame.isDone = true ∨ frame.isBlock = true) ∨
        ∃ name offset state, frame = .call name offset state) := by
  cases shift with
  | idle => cases evaluates
  | leave node finished =>
    obtain ⟨unfinished, -⟩ := Frame.evaluates_unsafe evaluates
    rw [finished] at unfinished
    cases unfinished
  | act => exact ⟨_, _, rfl, .inl (.inl rfl)⟩
  | loopOff => exact ⟨_, _, rfl, .inl (.inl rfl)⟩
  | branchOff => exact ⟨_, _, rfl, .inl (.inl rfl)⟩
  | pollNone => exact ⟨_, _, rfl, .inl (.inl rfl)⟩
  | loopOn => exact ⟨_, _, rfl, .inl (.inr rfl)⟩
  | branchOn => exact ⟨_, _, rfl, .inl (.inr rfl)⟩
  | giveUp => exact ⟨_, _, rfl, .inr ⟨_, _, _, rfl⟩⟩
  | call => exact ⟨_, _, rfl, .inr ⟨_, _, _, rfl⟩⟩
  | pollSome => exact ⟨_, _, rfl, .inr ⟨_, _, _, rfl⟩⟩
  | _ => cases evaluates

theorem Shift.inBody {rest : List Node} {origin offset : Option Nat} {name : String}
    {lower : List Frame} (shift : Shift functions stack answers after)
    (same : stack = .block rest origin :: .call name offset .running :: lower) :
    after = .call name offset (.returned .null) :: lower ∨
      ∃ node nodes,
        after = .ofNode node :: .block nodes origin :: .call name offset .running :: lower := by
  cases shift with
  | leave node =>
    cases same
    cases node
  | leaveBlock noCall =>
    cases same
    exact absurd rfl (noCall _ _ _)
  | endCall =>
    cases same
    exact .inl rfl
  | enter =>
    cases same
    exact .inr ⟨_, _, rfl⟩
  | _ => cases same

theorem Shift.polled {place : Place} {lower : List Frame}
    (shift : Shift functions stack answers after) (stacked : Stacked stack)
    (same : stack = .poll place .done :: lower) :
    after = [] ∨ ∃ block below, after = block :: below ∧ block.isBlock = true := by
  have left : after = lower := by
    cases shift with
    | leave =>
      cases same
      rfl
    | pollNone unfinished | pollSome unfinished =>
      cases same
      exact absurd rfl unfinished
    | _ => cases same
  cases lower with
  | nil => exact .inl left
  | cons under below =>
    refine .inr ⟨under, below, left, ?_⟩
    cases (List.isChain_cons_cons.mp (same ▸ stacked)).1 with
    | block => rfl

end Script

namespace Run

open Metronome.Script (Frame Loaded Machine load_any)

namespace Progress

variable {request : Request} {budget : Nat} {p q : Progress Machine}

/-- The next step evaluates a statement or a condition of the user's. -/
def evaluates (p : Progress Machine) : Bool :=
  p.live.program.evaluates && p.line.isSome

theorem evaluates_of_top {frame : Frame} {below : List Frame}
    (stack : p.live.program.stack = frame :: below) (settled : frame.evaluates = false) :
    p.evaluates = false := by
  rw [evaluates, Machine.evaluates, stack, List.head?_cons, Option.any_some, settled, Bool.false_and]

theorem Warranted.quiet (warranted : p.Warranted) (unwinds : p.burst.unwinding = true) :
    p.evaluates = false := by
  rcases warranted.loose unwinds with safe | outside
  · cases evaluates : p.live.program.evaluates with
    | false => rw [Progress.evaluates, evaluates, Bool.false_and]
    | true =>
      rw [Script.Machine.evaluates_unsafe evaluates] at safe
      cases safe
  · rw [Progress.evaluates, outside, Option.isSome_none, Bool.and_false]

theorem Guarded.quiet (guarded : p.Guarded) (unwinds : p.burst.unwinding = true) :
    p.evaluates = false :=
  guarded.warranted.quiet unwinds

theorem stopping_of_deeper {program : Machine} {depth : Nat}
    (state : p.live.controller.state = .paused .stepIn) (here : p.line.isSome = true)
    (first : p.live.controller.firstCallDepth = some depth)
    (deeper : depth < program.stack.length) :
    p.live.controller.stopping (p.flags program) = true := by
  have paused := Controller.isPaused_of_state state
  have mode : p.refreshed.mode = .stepIn :=
    p.refreshed_mode.trans (Controller.mode_of_state state)
  have user : (p.seen program).inUserCode = true := here
  have inside : (p.refreshed.noted (p.seen program)).firstCallDepth.any
      (· < (p.seen program).depth) = true := by
    rw [first_stays paused first]
    exact decide_eq_true deeper
  rw [Controller.stopping, paused, Bool.true_and]
  cases done : (p.flags program).doneUserLine with
  | true => rfl
  | false =>
    have reached : (p.flags program).reachedBreak =
        (p.burst.reachedBreak || (!(p.flags program).doneUserLine && (p.seen program).inUserCode &&
          p.refreshed.mode == .stepIn && (p.refreshed.noted (p.seen program)).firstCallDepth.any
            (· < (p.seen program).depth))) := rfl
    rw [reached, done, user, mode, inside]
    simp

theorem Judged.unwinds_in (after : Judged request p q)
    (state : p.live.controller.state = .paused .stepIn)
    (stopping : p.live.controller.stopping (p.flags q.live.program) = true)
    (active : (p.judged request).2.2 = false) : q.burst.unwinding = true := by
  have mode : (p.refreshed.noted (p.seen q.live.program)).mode = .stepIn :=
    p.refreshed_mode.trans (Controller.mode_of_state state)
  rw [after.rests_eq, stopping, Controller.staysDeep, mode] at active
  simpa using active

/-- An operation that steps in evaluates nothing more: its burst unwinds, it is in a call that it saw
first and has not come to the user's code in it, or it is done with a poll that found no callback. -/
inductive Spent (p : Progress Machine) : Prop where
  | unwinds (unwinds : p.burst.unwinding = true) (unasked : p.live.response.seenEmptyQueue = false)
  | called {name : String} {offset : Option Nat} {arguments : List Value} {lower : List Frame}
      (stack : p.live.program.stack = .call name offset (.ready arguments) :: lower)
      (first : p.live.controller.firstCallDepth = some (lower.length + 1))
  | entered {rest : List Script.Node} {name : String} {origin offset : Option Nat}
      {lower : List Frame}
      (stack : p.live.program.stack = .block rest origin :: .call name offset .running :: lower)
      (first : p.live.controller.firstCallDepth = some (lower.length + 1))
  | polled {place : Script.Place} {lower : List Frame}
      (stack : p.live.program.stack = .poll place .done :: lower)
  | complete (empty : p.live.program.stack = [])

theorem Spent.quiet (spent : p.Spent) (guarded : p.Guarded) : p.evaluates = false := by
  cases spent with
  | unwinds unwinds => exact guarded.quiet unwinds
  | called stack => exact evaluates_of_top stack rfl
  | entered stack => exact evaluates_of_top stack rfl
  | polled stack => exact evaluates_of_top stack rfl
  | complete empty =>
    rw [evaluates, Machine.evaluates, empty, List.head?_nil, Option.any_none, Bool.false_and]

theorem Judged.spent (after : Judged request p q)
    (state : p.live.controller.state = .paused .stepIn) (proceeds : p.Proceeds request budget)
    (fine : (p.stepped request).1.error = none) (active : (p.judged request).2.2 = false)
    (stopping : p.live.controller.stopping (p.flags q.live.program) = true) : q.Spent := by
  obtain ⟨answers, shift, -, asked⟩ := after.toTook.shift fine
  cases found : answers.contains false with
  | true =>
    obtain ⟨place, -, below, -, -, stack⟩ := shift.asked found
    exact .polled stack
  | false =>
    refine .unwinds (after.unwinds_in state stopping active) ?_
    rw [asked, proceeds.unasked, found]
    rfl

/-- Before it has evaluated anything and seen a call, a step of an operation that steps in evaluates
nothing and sees no call, or spends the operation. -/
theorem Judged.spends (after : Judged request p q)
    (state : p.live.controller.state = .paused .stepIn)
    (sound : p.live.program.Sound p.live.lines) (proceeds : p.Proceeds request budget)
    (fine : (p.stepped request).1.error = none) (active : (p.judged request).2.2 = false)
    (first : p.live.controller.firstCallDepth = none) :
    (p.evaluates = false ∧ q.live.controller.firstCallDepth = none) ∨ q.Spent := by
  obtain ⟨answers, shift, -⟩ := after.toTook.shift fine
  have paused := Controller.isPaused_of_state state
  cases here : p.line.isSome with
  | false =>
    left
    rw [after.first_active active, first_noted paused, here]
    exact ⟨by rw [evaluates, here, Bool.and_false], first⟩
  | true =>
    by_cases call : ∃ name offset state lower,
        q.live.program.stack = .call name offset state :: lower
    · obtain ⟨name, offset, made, lower, stack⟩ := call
      right
      cases shift.surfaces sound.stacked sound.bodied stack with
      | made =>
        refine .called stack ?_
        rw [after.first_active active, first_noted paused, seen_isKind .call stack, here, first, stack]
        rfl
      | returned =>
        exact after.spent state proceeds fine active (stopping_of_over paused here stack (.inl rfl))
    · -- No call is on top, so a statement that was evaluated is over or has entered a block.
      have unseen : q.live.controller.firstCallDepth = none :=
        (after.first_active active).trans
          (first_unseen paused first fun name offset state below top =>
            call ⟨name, offset, state, below, top⟩)
      cases evaluates : p.live.program.evaluates with
      | false => exact .inl ⟨by rw [Progress.evaluates, evaluates, Bool.false_and], unseen⟩
      | true =>
        obtain ⟨frame, below, stack, ends | ⟨name, offset, made, rfl⟩⟩ := shift.settles evaluates
        · exact .inr (after.spent state proceeds fine active (stopping_of_over paused here stack ends))
        · exact absurd ⟨name, offset, made, below, stack⟩ call

theorem Spent.step (spent : p.Spent) (after : Judged request p q)
    (state : p.live.controller.state = .paused .stepIn) (guarded : p.Guarded)
    (sound : p.live.program.Sound p.live.lines) (proceeds : p.Proceeds request budget)
    (fine : (p.stepped request).1.error = none) (active : (p.judged request).2.2 = false)
    (near : p.astray = false) : q.Spent := by
  obtain ⟨answers, shift, -⟩ := after.toTook.shift fine
  have paused := Controller.isPaused_of_state state
  cases spent with
  | unwinds unwinds =>
    exact after.spent state proceeds fine active (guarded.stopping_flags unwinds _)
  | called stack first =>
    obtain ⟨rest, origin, body⟩ := shift.begun stack
    cases here : p.line.isSome with
    | true =>
      exact after.spent state proceeds fine active (stopping_of_over paused here body (.inr rfl))
    | false => exact .entered body ((after.first_active active).trans (first_stays paused first _))
  | @entered rest name origin offset lower stack first =>
    -- The body stands somewhere, so that it lies in the user's text as long as nothing is astray.
    have stands : (p.live.program.stack.head?.bind Frame.position).isSome = true := by
      have chain := sound.stacked
      rw [stack] at chain ⊢
      cases (List.isChain_cons_cons.mp chain).1 with
      | body => cases rest <;> rfl
    have here := line_of_position near stands
    refine after.spent state proceeds fine active ?_
    rcases shift.inBody stack with ended | ⟨node, nodes, entered⟩
    · exact stopping_of_over paused here ended (.inl rfl)
    · refine stopping_of_deeper state here first ?_
      rw [entered]
      simp only [List.length_cons]
      omega
  | polled stack =>
    rcases shift.polled sound.stacked stack with empty | ⟨block, below, left, isBlock⟩
    · exact .complete empty
    · have here := line_of_position near (by rw [stack]; rfl)
      exact after.spent state proceeds fine active (stopping_of_over paused here left (.inr isBlock))
  | complete empty => exact absurd empty proceeds.busy

theorem Spent.restart (spent : p.Spent) (program : q.live.program = p.live.program)
    (controller : q.live.controller = p.live.controller)
    (calm : p.burst.unwinding = true → p.live.response.seenEmptyQueue = false →
      p.live.program.stack = []) : q.Spent := by
  cases spent with
  | unwinds unwinds unasked => exact .complete (program ▸ calm unwinds unasked)
  | called stack first => exact .called (program ▸ stack) (controller ▸ first)
  | entered stack first => exact .entered (program ▸ stack) (controller ▸ first)
  | polled stack => exact .polled (program ▸ stack)
  | complete empty => exact .complete (program ▸ empty)

end Progress

open Progress

def untilAstray (trail : List (Progress Machine)) : List (Progress Machine) :=
  trail.takeWhile fun r => !r.astray

theorem untilAstray_far {trail : List (Progress Machine)} (far : ∃ r ∈ trail, r.astray = true)
    (more : List (Progress Machine)) : untilAstray (trail ++ more) = untilAstray trail := by
  rw [untilAstray, List.takeWhile_append, if_neg, ← untilAstray]
  intro whole
  obtain ⟨r, member, astray⟩ := far
  have near := (List.takeWhile_prefix _).eq_of_length whole
  rw [← near] at member
  simpa [astray] using List.mem_takeWhile_imp member

theorem untilAstray_near {trail : List (Progress Machine)} (near : ∀ r ∈ trail, r.astray = false) :
    untilAstray trail = trail :=
  List.takeWhile_eq_self_iff.mpr fun r member => by simp [near r member]

/-- At most one moment before the program first waits for callbacks evaluates something. -/
def EvaluatesOnce (trail : List (Progress Machine)) : Prop :=
  (untilAstray trail).countP evaluates ≤ 1

def InStep (trail : List (Progress Machine)) (p : Progress Machine) : Prop :=
  (∃ r ∈ trail, r.astray = true) ∨
    ((∀ r ∈ trail, r.evaluates = false) ∧ p.live.controller.firstCallDepth = none) ∨ p.Spent

theorem InStep.restart {trail : List (Progress Machine)} {p q : Progress Machine}
    (holds : InStep trail p) (program : q.live.program = p.live.program)
    (controller : q.live.controller = p.live.controller)
    (calm : p.burst.unwinding = true → p.live.response.seenEmptyQueue = false →
      p.live.program.stack = []) : InStep trail q := by
  rcases holds with far | ⟨quiet, first⟩ | spent
  · exact .inl far
  · exact .inr (.inl ⟨quiet, controller ▸ first⟩)
  · exact .inr (.inr (spent.restart program controller calm))

theorem in_persists : Persists .stepIn (fun trail live => InStep trail (begin live)) InStep where
  idles holds program lines controller :=
    holds.restart program controller fun unwinds => by cases unwinds
  begins := by
    intro trail live next holds operating program lines controller
    have begun := beginTick_same operating.state (by simp)
    exact holds.restart program (controller.trans begun) fun unwinds => by cases unwinds
  stepped := by
    intro trail request budget p q holds operating guarded sound proceeds fine after active
    have last : p ∈ trail ++ [p] := List.mem_append_right _ (List.mem_singleton.mpr rfl)
    cases near : p.astray with
    | true => exact .inl ⟨p, last, near⟩
    | false =>
      rcases holds with ⟨r, member, far⟩ | ⟨quiet, first⟩ | spent
      · exact .inl ⟨r, List.mem_append_left _ member, far⟩
      · rcases after.spends operating.state sound proceeds fine active first with
          ⟨still, unseen⟩ | spent
        · exact .inr (.inl ⟨List.forall_mem_append.mpr ⟨quiet, by simpa using still⟩, unseen⟩)
        · exact .inr (.inr spent)
      · exact .inr (.inr (spent.step after operating.state guarded sound proceeds fine active near))
  stays holds operating ends tick program lines controller :=
    holds.restart program controller (complete_of_unwinding ends tick)

theorem EvaluatesOnce.quiet {trail : List (Progress Machine)} {p : Progress Machine}
    (once : EvaluatesOnce trail) (quiet : p.evaluates = false) : EvaluatesOnce (trail ++ [p]) := by
  unfold EvaluatesOnce at once ⊢
  by_cases far : ∃ r ∈ trail, r.astray = true
  · rw [untilAstray_far far]
    exact once
  · have near : ∀ r ∈ trail, r.astray = false := by simpa using far
    rw [untilAstray_near near] at once
    calc (untilAstray (trail ++ [p])).countP evaluates
        ≤ (trail ++ [p]).countP evaluates := (List.takeWhile_prefix _).sublist.countP_le
      _ = trail.countP evaluates := by simp [List.countP_append, quiet]
      _ ≤ 1 := once

theorem EvaluatesOnce.add {trail : List (Progress Machine)} {request : Request} {budget : Nat}
    {p : Progress Machine}
    (holds : Interrupted p.live.controller ∨
      request.untilReturn = false ∧ Operating .stepIn p.live.controller ∧ InStep trail p)
    (guarded : p.Guarded) (proceeds : p.Proceeds request budget) (once : EvaluatesOnce trail) :
    EvaluatesOnce (trail ++ [p]) := by
  rcases holds with interrupted | ⟨-, -, far | ⟨quiet, -⟩ | spent⟩
  · exact once.quiet (guarded.quiet (proceeds.unwinds (guarded.reached interrupted.rests)))
  · rw [EvaluatesOnce, untilAstray_far far]
    exact once
  · calc (untilAstray (trail ++ [p])).countP evaluates
        ≤ (trail ++ [p]).countP evaluates := (List.takeWhile_prefix _).sublist.countP_le
      _ = [p].countP evaluates := by
        rw [List.countP_append, List.countP_eq_zero.mpr (by simpa using quiet), Nat.zero_add]
      _ ≤ 1 := List.countP_le_length
  · exact once.quiet (spent.quiet guarded)

/-- A step in evaluates at most one statement or condition of the user's, over any number of bursts,
until the program gets to where it waits for callbacks. -/
theorem step_in_evaluates_once {φ : Type} {s₀ s : Scheduler Machine φ}
    {trail : List (Progress Machine)} (reachable : Reachable s₀)
    (underway : Underway (s₀.perform (.command .stepIn)) trail s) : EvaluatesOnce trail := by
  have given : (Operation.command .stepIn : Operation Machine φ).Given := by
    rintro program lines began ended ⟨⟩
  have starts : ∀ left ∈ (s₀.perform (.command .stepIn)).live, left.controller.isAtRest = true ∨
      Operating .stepIn left.controller ∧ InStep [] (begin left) := by
    intro left there
    right
    change s₀.stepIn.live = some left at there
    cases here : s₀.live with
    | none =>
      rw [Scheduler.stepIn, Scheduler.beginStep, here] at there
      rw [here] at there
      cases there
    | some first =>
      have begins := beginStep_live here (show Debug.StepMode.stepIn ≠ .run by simp)
      rw [Scheduler.stepIn, begins] at there
      cases there
      exact ⟨enterState_operating _ _, .inr (.inl ⟨by simp, rfl⟩)⟩
  exact (underway.holds (in_persists.lasting.along EvaluatesOnce.add) (.perform reachable given)
    ⟨starts, Nat.zero_le _⟩).2

/-- The step in at the call evaluates the call, and comes to rest in the function. -/
theorem calling_step_in_evaluates_once : ∃ loaded, Script.load calling = .ok loaded ∧
    let s := (atCall loaded).perform (.command .stepIn)
    let trail := s.trail (.tick ⟨1, 0⟩ 0 0)
    Reachable (atCall loaded) ∧ Underway s trail (s.perform (.tick ⟨1, 0⟩ 0 0)) ∧
      trail.countP evaluates = 1 ∧ (s.perform (.tick ⟨1, 0⟩ 0 0)).transcript =
        [.stopped .entry ⟨true, true, .run, some 4, some 2⟩,
          .stopped .step ⟨true, true, .run, some 2, some 5⟩] ∧
      EvaluatesOnce trail := by
  have computed : (Script.load calling).toOption.any (fun loaded =>
      let s := (atCall loaded).perform (.command .stepIn)
      (s.trail (.tick ⟨1, 0⟩ 0 0)).countP evaluates == 1 &&
        (s.perform (.tick ⟨1, 0⟩ 0 0)).transcript ==
          [.stopped .entry ⟨true, true, .run, some 4, some 2⟩,
            .stopped .step ⟨true, true, .run, some 2, some 5⟩]) = true := by
    decide +kernel
  obtain ⟨loaded, read, holds⟩ := load_any computed
  rw [Bool.and_eq_true, beq_iff_eq, beq_iff_eq] at holds
  have reachable := atCall_reachable read
  have underway : Underway ((atCall loaded).perform (.command .stepIn)) _
      (((atCall loaded).perform (.command .stepIn)).perform (.tick ⟨1, 0⟩ 0 0)) := .first rfl
  exact ⟨loaded, read, reachable, underway, holds.1, holds.2,
    step_in_evaluates_once reachable underway⟩

def callingBack : List Char :=
  "func f\n  print \"first\"\n  print \"second\"\nend\ntimeout f 0\n".toList

def atTimer (loaded : Loaded) : Scheduler Machine Unit :=
  entering.performAll [.start loaded.machine loaded.text.lineMap 0 0, .tick ⟨1, 0⟩ 0 0]

/-- The step in at the timer evaluates it, waits for callbacks, and evaluates the first statement of the
function as well before it comes to rest. -/
theorem callingBack_evaluates_twice : ∃ loaded, Script.load callingBack = .ok loaded ∧
    let s := (atTimer loaded).perform (.command .stepIn)
    let waits := s.perform (.tick ⟨1, 0⟩ 0 0)
    let rests := waits.perform (.tick ⟨1, 0⟩ 0 0)
    let trail := s.trail (.tick ⟨1, 0⟩ 0 0) ++ waits.trail (.tick ⟨1, 0⟩ 0 0)
    ((atTimer loaded).isAtRest = true ∧ s.isAtRest = false ∧ waits.isAtRest = false ∧
        rests.isAtRest = true) ∧
      Underway s trail rests ∧ (trail.filter evaluates).map (·.line) = [some 5, some 2] ∧
      rests.transcript = [.stopped .entry ⟨true, true, .run, some 5, some 2⟩, .output "first",
        .stopped .step ⟨true, true, .run, some 3, some 7⟩] := by
  have computed : (Script.load callingBack).toOption.any (fun loaded =>
      let s := (atTimer loaded).perform (.command .stepIn)
      let waits := s.perform (.tick ⟨1, 0⟩ 0 0)
      let rests := waits.perform (.tick ⟨1, 0⟩ 0 0)
      let trail := s.trail (.tick ⟨1, 0⟩ 0 0) ++ waits.trail (.tick ⟨1, 0⟩ 0 0)
      ((atTimer loaded).isAtRest && !s.isAtRest && !waits.isAtRest && rests.isAtRest) &&
        (trail.filter evaluates).map (·.line) == [some 5, some 2] &&
        rests.transcript == [.stopped .entry ⟨true, true, .run, some 5, some 2⟩, .output "first",
          .stopped .step ⟨true, true, .run, some 3, some 7⟩]) = true := by
    decide +kernel
  obtain ⟨loaded, read, holds⟩ := load_any computed
  simp only [Bool.and_eq_true, beq_iff_eq, Bool.not_eq_true', and_assoc] at holds
  obtain ⟨begins, goes, waits, rests, lines, told⟩ := holds
  exact ⟨loaded, read, ⟨begins, goes, waits, rests⟩, .event (.first rfl) rfl, lines, told⟩

end Run

end Metronome
