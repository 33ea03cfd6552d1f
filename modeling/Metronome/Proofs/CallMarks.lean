import Metronome.Proofs.Calls
import Metronome.Proofs.Judgement
import Metronome.Proofs.Soundness

namespace Metronome

open Metronome.Debug (CallDepths Controller Cursor)

namespace Script

variable {lines : LineMap}

def topLine (lines : LineMap) (stack : List Frame) : Option Nat :=
  (stack.head?.bind Frame.position).bind lines.userLine

/-- The depths of the calls that the user's statements made, the deepest first. A call stands on the
statement that made it. -/
def userCalls (lines : LineMap) : List Frame → List Nat
  | [] => []
  | frame :: below =>
    if frame.kind == .call && (topLine lines below).isSome then
      (below.length + 1) :: userCalls lines below
    else userCalls lines below

theorem userCalls_cons (frame : Frame) (below : List Frame) :
    userCalls lines (frame :: below) =
      if frame.kind == .call && (topLine lines below).isSome then
        (below.length + 1) :: userCalls lines below
      else userCalls lines below := rfl

theorem userCalls_noCall {frame : Frame} {below : List Frame} (noCall : frame.kind ≠ .call) :
    userCalls lines (frame :: below) = userCalls lines below := by
  simp [userCalls_cons, noCall]

theorem userCalls_congr {frame other : Frame} {below : List Frame} (kind : other.kind = frame.kind) :
    userCalls lines (other :: below) = userCalls lines (frame :: below) := by
  rw [userCalls_cons, userCalls_cons, kind]

theorem userCalls_le {stack : List Frame} : ∀ depth ∈ userCalls lines stack, depth ≤ stack.length := by
  induction stack with
  | nil => simp [userCalls]
  | cons frame below ih =>
    intro depth member
    rw [userCalls_cons] at member
    split at member
    · rcases List.mem_cons.mp member with rfl | deeper
      · exact Nat.le_refl _
      · exact Nat.le_succ_of_le (ih depth deeper)
    · exact Nat.le_succ_of_le (ih depth member)

theorem dropWhile_shallow {depths : List Nat} {bound : Nat}
    (shallow : ∀ depth ∈ depths, depth ≤ bound) : depths.dropWhile (bound < ·) = depths := by
  cases depths with
  | nil => rfl
  | cons depth depths =>
    have near := shallow depth List.mem_cons_self
    rw [List.dropWhile_cons_of_neg (by simpa using near)]

theorem dropWhile_above (upper lower : List Frame) (marks : List Nat) :
    (((upper ++ lower).length + 1) :: marks).dropWhile (lower.length < ·) =
      marks.dropWhile (lower.length < ·) := by
  have deep : lower.length < (upper ++ lower).length + 1 := by
    rw [List.length_append]
    omega
  simp only [List.dropWhile_cons, deep, decide_true, if_true]

theorem dropWhile_userCalls (upper lower : List Frame) :
    (userCalls lines (upper ++ lower)).dropWhile (lower.length < ·) = userCalls lines lower := by
  induction upper with
  | nil => exact dropWhile_shallow userCalls_le
  | cons frame upper ih =>
    rw [List.cons_append, userCalls_cons]
    split
    · rw [dropWhile_above, ih]
    · exact ih

/-- How marks stand to a stack: they are the calls that the user's statements made, or a call has just
returned and is marked whoever made it. -/
inductive Marked (lines : LineMap) : List Nat → List Frame → Prop where
  | calls (stack : List Frame) : Marked lines (userCalls lines stack) stack
  | returned (name : String) (offset : Option Nat) (value : Value) (below : List Frame) :
      Marked lines ((below.length + 1) :: userCalls lines below)
        (.call name offset (.returned value) :: below)

theorem Marked.le {marks : List Nat} {stack : List Frame} (marked : Marked lines marks stack) :
    ∀ mark ∈ marks, mark ≤ stack.length := by
  cases marked with
  | calls => exact userCalls_le
  | returned name offset value below =>
    refine List.forall_mem_cons.mpr ⟨Nat.le_refl _, fun depth member => ?_⟩
    exact Nat.le_succ_of_le (userCalls_le depth member)

theorem Marked.drops {marks : List Nat} {frame : Frame} {upper lower : List Frame}
    (marked : Marked lines marks (frame :: upper ++ lower)) :
    marks.dropWhile (lower.length < ·) = userCalls lines lower := by
  rw [List.cons_append] at marked
  cases marked with
  | calls => exact dropWhile_userCalls (frame :: upper) lower
  | returned name offset value below =>
    rw [dropWhile_above, dropWhile_userCalls]

theorem Marked.drops_top {marks : List Nat} {frame : Frame} {lower : List Frame}
    (marked : Marked lines marks (frame :: lower)) :
    marks.dropWhile (lower.length < ·) = userCalls lines lower := by
  rw [show frame :: lower = frame :: [] ++ lower from rfl] at marked
  exact marked.drops

theorem Marked.keeps {marks : List Nat} {stack : List Frame} {bound : Nat}
    (marked : Marked lines marks stack) (unreturned : ∀ name offset value below,
      stack ≠ .call name offset (.returned value) :: below) (deep : stack.length ≤ bound) :
    marks.dropWhile (bound < ·) = userCalls lines stack := by
  cases marked with
  | calls => exact dropWhile_shallow fun depth member => (userCalls_le depth member).trans deep
  | returned name offset value below => exact absurd rfl (unreturned _ _ _ _)

variable {functions : List Function} {stack after : List Frame} {answers : List Bool}
  {marks : List Nat}

theorem Shift.makes (lines : LineMap) {name : String} {offset : Option Nat}
    {arguments : List Value} {below : List Frame} (shift : Shift functions stack answers after) (stacked : Stacked stack)
    (bodied : Bodied stack) (made : after = .call name offset (.ready arguments) :: below) :
    (∀ name offset value rest, stack ≠ .call name offset (.returned value) :: rest) ∧
      topLine lines below = topLine lines stack ∧ below.length = stack.length ∧
      userCalls lines below = userCalls lines stack := by
  have surfaced := shift.surfaces stacked bodied made
  cases shift with
  | call | pollSome =>
    cases made
    exact ⟨by simp, rfl, rfl, rfl⟩
  | @enter node => cases node <;> cases made
  | leave node finished =>
    cases surfaced with
    | made stands busy => exact absurd finished (by simp [(busy _ rfl).1])
  | leaveBlock | drop =>
    cases surfaced with
    | made stands busy => cases (busy _ rfl).1
  | _ => cases made

/-- Without a new call a step leaves of the marks the calls that are left on the stack. -/
theorem Shift.keeps_marks (shift : Shift functions stack answers after) (bodied : Bodied stack)
    (unready : Unready after) (marked : Marked lines marks stack) :
    marks.dropWhile (after.length < ·) = userCalls lines after := by
  have replaced : ∀ (upper : List Frame) {frame old new : Frame} {below : List Frame},
      stack = frame :: upper ++ old :: below → after = new :: below → new.kind = old.kind →
        marks.dropWhile (after.length < ·) = userCalls lines after := by
    rintro upper frame old new below rfl rfl kind
    rw [userCalls_congr kind]
    exact marked.drops
  have returned : ∀ (upper : List Frame) {name : String} {origin : Option Nat} {state : CallState}
      {value : Value} {frame : Frame} {below rest : List Frame}, stack = frame :: (upper ++ below) →
      toCall below = .call name origin state :: rest →
      after = .call name origin (.returned value) :: rest →
        marks.dropWhile (after.length < ·) = userCalls lines after := by
    rintro upper name origin state value frame below rest stands found same
    have suffix : toCall below <:+ below := List.dropWhile_suffix _
    rw [found] at suffix
    obtain ⟨between, split⟩ := suffix
    have whole : stack = frame :: (upper ++ between) ++ .call name origin state :: rest := by
      rw [stands, ← split]
      simp
    exact replaced _ whole same rfl
  cases shift with
  | idle => exact marked.keeps (by simp) (Nat.le_refl _)
  | leave => exact marked.drops_top
  | leaveBlock => exact marked.drops_top
  | drop => exact marked.drops_top
  | endCall => exact replaced [] rfl rfl rfl
  | resume => exact replaced [] rfl rfl rfl
  | answered => exact replaced [] rfl rfl rfl
  | handOn returns found => exact returned [_] rfl found rfl
  | giveUp unfinished noCall returns found => exact returned [] rfl found rfl
  | surface => exact absurd rfl (bodied _ _ _)
  | call => exact absurd rfl (unready _ _ _ _)
  | pollSome => exact absurd rfl (unready _ _ _ _)
  | @enter node =>
    rw [marked.keeps (by simp) (by simp)]
    cases node <;> simp [userCalls_cons, Frame.ofNode, Frame.kind]
  | begin =>
    rw [marked.keeps (by simp) (by simp)]
    simp [userCalls_cons, Frame.kind]
  | _ =>
    rw [marked.keeps (by simp) (by simp)]
    simp [userCalls_cons, Frame.kind]

theorem Shift.marked (shift : Shift functions stack answers after) (stacked : Stacked stack)
    (bodied : Bodied stack) {depths : CallDepths} (marked : Marked lines depths.marks stack) :
    Marked lines (depths.record after.length ((topLine lines stack).isSome &&
      after.head?.any (·.kind == .call))).marks after := by
  unfold CallDepths.record
  dsimp only
  -- Only a call that was just made can be one of the user's calls that has no mark yet.
  by_cases unready : Unready after
  · rw [shift.keeps_marks bodied unready marked]
    split
    · rename_i fresh
      simp only [Bool.and_eq_true, bne_iff_ne, Option.any_eq_true, beq_iff_eq] at fresh
      obtain ⟨⟨-, top, here, kind⟩, unmarked⟩ := fresh
      cases after with
      | nil => cases here
      | cons frame below =>
        cases here
        cases top with
        | call name offset state =>
          have others : userCalls lines (.call name offset state :: below) =
              userCalls lines below := by
            rw [userCalls_cons] at unmarked ⊢
            split
            · rename_i mine
              rw [if_pos mine] at unmarked
              exact absurd rfl unmarked
            · rfl
          cases shift.surfaces stacked bodied rfl with
          | made => exact absurd rfl (unready _ _ _ _)
          | returned => exact others ▸ .returned name offset _ below
        | _ => cases kind
    · exact .calls after
  · simp only [Unready, not_forall, not_not] at unready
    obtain ⟨name, offset, arguments, below, same⟩ := unready
    obtain ⟨unreturned, line, length, calls⟩ := shift.makes lines stacked bodied same
    subst same
    rw [marked.keeps unreturned (by simp [length])]
    have here : Marked lines (userCalls lines (.call name offset (.ready arguments) :: below))
        (.call name offset (.ready arguments) :: below) := .calls _
    have unmarked : (userCalls lines stack).head? ≠ some (below.length + 1) := by
      intro top
      have near := userCalls_le _ (List.mem_of_head? top)
      omega
    rw [userCalls_cons, line, calls] at here
    simpa [Frame.kind, unmarked] using here

theorem noCall_between {frame : Frame} {upper lower : List Frame}
    (stacked : Stacked (frame :: upper ++ lower)) (unstarted : started upper = 0) :
    ∀ between ∈ upper, between.kind ≠ .call := by
  induction upper generalizing frame with
  | nil => simp
  | cons under upper ih =>
    rw [started_cons, Nat.add_eq_zero_iff] at unstarted
    rw [List.forall_mem_cons]
    refine ⟨?_, ih stacked.tail unstarted.1⟩
    cases (List.isChain_cons_cons.mp stacked).1 with
    | body => simp [Frame.isStarted] at unstarted
    | _ => simp [Frame.kind]

theorem userCalls_append {upper lower : List Frame} (noCall : ∀ frame ∈ upper, frame.kind ≠ .call) :
    userCalls lines (upper ++ lower) = userCalls lines lower := by
  induction upper with
  | nil => rfl
  | cons frame upper ih =>
    obtain ⟨first, rest⟩ := List.forall_mem_cons.mp noCall
    rw [List.cons_append, userCalls_noCall first, ih rest]

/-- Below the top, the first mark is the innermost call that has started, if the user's code made
it. -/
theorem Marked.target {depths : CallDepths} {upper lower : List Frame} {name : String}
    {offset : Option Nat} (marked : Marked lines depths.marks stack)
    (current : depths.current = stack.length) (stacked : Stacked stack) (bodied : Bodied stack)
    (stands : stack = upper ++ .call name offset .running :: lower)
    (innermost : started upper = 0) (user : (topLine lines lower).isSome = true) :
    depths.stepOutTarget = lower.length + 1 := by
  subst stands
  cases upper with
  | nil => exact absurd rfl (bodied _ _ _)
  | cons frame upper =>
    rw [started_cons, Nat.add_eq_zero_iff] at innermost
    have below : userCalls lines (upper ++ .call name offset .running :: lower) =
        (lower.length + 1) :: userCalls lines lower := by
      rw [userCalls_append (noCall_between stacked innermost.1), userCalls_cons, user]
      rfl
    have kept : depths.marks.dropWhile
          ((upper ++ .call name offset .running :: lower).length < ·) =
        userCalls lines (upper ++ .call name offset .running :: lower) := marked.drops_top
    rw [below] at kept
    generalize between : (upper ++ .call name offset .running :: lower).length = bound at kept
    have deeper : depths.current = bound + 1 := by simpa [← between] using current
    have near : lower.length < bound := by simp [← between]; omega
    have split := List.takeWhile_append_dropWhile (p := (bound < ·)) (l := depths.marks)
    have top : (depths.marks.takeWhile (bound < ·)).find?
        (fun depth => 1 ≤ depth && depth < depths.current) = none := by
      refine List.find?_eq_none.mpr fun depth member => ?_
      have above : bound < depth := by simpa using List.mem_takeWhile_imp member
      simp only [Bool.and_eq_true, decide_eq_true_eq]
      omega
    rw [CallDepths.stepOutTarget, ← split, kept, List.find?_append, top, Option.none_or,
      List.find?_cons_of_pos (by simp; omega), Option.getD_some]

end Script

@[simp] theorem Debug.Controller.takeStopReason_depths (c : Controller) :
    c.takeStopReason.1.depths = c.depths := rfl

namespace Run

open Metronome.Debug (Breakpoints)
open Metronome.Script (Frame Machine Marked topLine)

/-- Call depths that tally with a stack. Before its first step a program has no calls. -/
structure Tallies (lines : LineMap) (depths : CallDepths) (stack : List Frame) : Prop where
  marked : Marked lines depths.marks stack
  current : depths.current = stack.length ∨ depths.current = 0 ∧ ∀ frame ∈ stack, frame.kind ≠ .call

namespace Progress

variable {request : Request} {p q : Progress Machine}

theorem Judged.depths (after : Judged request p q) :
    q.live.controller.depths =
      p.live.controller.depths.record q.live.program.stack.length
        ((topLine p.live.lines p.live.program.stack).isSome &&
          q.live.program.stack.head?.any (·.kind == .call)) := by
  obtain ⟨stopPoint, same⟩ := p.refreshed_eq
  have seen : (p.seen q.live.program).isKind .call =
      q.live.program.stack.head?.any (·.kind == .call) := by
    rw [seen, Cursor.isKind, Cursor.withLine]
    exact Option.any_map
  rw [after.controller_eq, same, ← seen]
  split <;> rfl

theorem Judged.tallies (after : Judged request p q) (fine : (p.stepped request).1.error = none)
    (sound : p.live.program.Sound p.live.lines)
    (tallies : Tallies p.live.lines p.live.controller.depths p.live.program.stack) :
    Tallies q.live.lines q.live.controller.depths q.live.program.stack := by
  obtain ⟨answers, shift, -⟩ := after.toTook.shift fine
  rw [after.depths, after.lines]
  exact ⟨shift.marked sound.stacked sound.bodied tallies.marked, .inl rfl⟩

theorem pass_tallies {breakpoints : Breakpoints} {budget : Nat} {ending : Option Ending}
    (passed : p.pass breakpoints request budget = (q, ending))
    (unfailed : ∀ error line, ending ≠ some (.failed error line))
    (sound : p.live.program.Sound p.live.lines)
    (tallies : Tallies p.live.lines p.live.controller.depths p.live.program.stack) :
    Tallies q.live.lines q.live.controller.depths q.live.program.stack := by
  have spec := pass_spec breakpoints request budget p
  rw [passed] at spec
  cases spec with
  | stopped => exact tallies
  | exhausted => exact tallies
  | complete => exact tallies
  | arrived _ arrives after =>
    obtain ⟨line, -, -, -, reaches⟩ := arrival_arrives arrives
    rw [after.lines, after.program, after.controller, reaches]
    exact tallies
  | failed => exact absurd rfl (unfailed _ _)
  | stepped _ _ fine after => exact after.tallies fine sound tallies

end Progress

theorem Minds.depths {φ : Type} {operation : Operation Machine φ} {c next : Controller}
    (minds : Minds operation c next) : next.depths = c.depths := by
  cases minds with
  | paused =>
    unfold Controller.pause
    split <;> rfl
  | _ => rfl

theorem start_tallies {φ : Type} {operation : Operation Machine φ} (given : operation.Given)
    {program : Machine} {lines : LineMap} {began ended : Instant}
    (starts : operation = .start program lines began ended) :
    Tallies lines CallDepths.empty program.stack := by
  obtain ⟨loaded, accepted, rfl, rfl⟩ := given program lines began ended starts
  obtain ⟨source, same, -⟩ := accepted.program
  rw [same]
  refine ⟨.calls (Machine.ofProgram source).stack, .inr ⟨rfl, ?_⟩⟩
  intro frame member
  rw [List.mem_singleton.mp member]
  simp [Frame.kind]

theorem burst_tallies {live : Live Machine} {breakpoints : Breakpoints} {request : Request}
    {budget : Nat} (sound : live.program.Sound live.lines)
    (tallies : Tallies live.lines live.controller.depths live.program.stack)
    (unfailed : ∀ error line, (live.burst breakpoints request budget).2 ≠ .failed error line) :
    Tallies (live.burst breakpoints request budget).1.live.lines
      (live.burst breakpoints request budget).1.live.controller.depths
      (live.burst breakpoints request budget).1.live.program.stack := by
  have kept := live.burst_keeps
    (fun p => p.live.program.Sound p.live.lines ∧
      Tallies p.live.lines p.live.controller.depths p.live.program.stack)
    ⟨sound, tallies⟩
    (fun _ _ _ passed fine holds => ⟨Progress.pass_sound passed fine holds.1,
      Progress.pass_tallies passed fine holds.1 holds.2⟩) unfailed
  exact kept.2

theorem begun_depths (c : Controller) : c.beginTick.1.depths = c.depths := by
  obtain ⟨stepOutDepth, same⟩ := beginTick_eq c
  rw [same]

theorem Reachable.tallies {φ : Type} {s : Scheduler Machine φ} (reachable : Reachable s)
    {live : Live Machine} (here : s.live = some live) :
    Tallies live.lines live.controller.depths live.program.stack := by
  induction reachable generalizing live with
  | new => cases here
  | @perform s operation before given ih =>
    cases Scheduler.perform_hands here with
    | minds before program lines minds =>
      rw [program, lines, minds.depths]
      exact ih before
    | opens starts entry same =>
      subst same
      exact start_tallies given starts
    | @bursts first request runs leaves =>
      have sound := runs.sound (fun _ => before.sound) given
      have tallies : Tallies first.lines first.controller.depths first.program.stack := by
        cases runs with
        | @tick live _ _ _ there =>
          change Tallies live.lines live.controller.beginTick.1.depths live.program.stack
          rw [begun_depths]
          exact ih there
        | @dispatch live _ _ there =>
          change Tallies live.lines live.controller.depths live.program.stack
          exact ih there
        | start => exact start_tallies given rfl
      rw [leaves.program, leaves.lines, leaves.controller, Controller.takeStopReason_depths]
      exact burst_tallies sound tallies leaves.fine

theorem Tallies.le {lines : LineMap} {depths : CallDepths} {stack : List Frame}
    (tallies : Tallies lines depths stack) :
    depths.current ≤ stack.length ∧ ∀ mark ∈ depths.marks, mark ≤ stack.length := by
  refine ⟨?_, tallies.marked.le⟩
  rcases tallies.current with current | ⟨current, -⟩
  · exact current.le
  · rw [current]
    exact Nat.zero_le _

theorem Tallies.target {lines : LineMap} {depths : CallDepths} {stack upper lower : List Frame}
    {name : String} {offset : Option Nat} (tallies : Tallies lines depths stack)
    (stacked : Script.Stacked stack) (bodied : Script.Bodied stack)
    (stands : stack = upper ++ .call name offset .running :: lower)
    (innermost : Script.started upper = 0) (user : (topLine lines lower).isSome = true) :
    depths.stepOutTarget = lower.length + 1 := by
  rcases tallies.current with current | ⟨-, noCall⟩
  · exact tallies.marked.target current stacked bodied stands innermost user
  · exact absurd rfl (noCall (.call name offset .running) (by simp [stands]))

end Run

end Metronome
