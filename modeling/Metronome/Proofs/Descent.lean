import Metronome.Proofs.Judgement
import Metronome.Proofs.Soundness

/-!
Every burst ends. Outside its budget a burst goes on only while it unwinds, and then each step
either ends the unwinding on a line of the user's, or finds the queue empty, or takes something
away from the stack and the queue. `reserve` weighs what is left, so that every pass of a burst
lowers it.
-/
namespace Metronome

open Metronome.Debug (Burst Controller Cursor)

namespace Script

/-- What the frame on top adds to the weight of a stack. A poll loop falls by one in each step of a
round that takes no callback; a callback's call is paid for by the place that it had in the
queue. -/
def Frame.rank : Frame → Nat
  | .block [] _ => 6
  | .block (.loop _ _ _ :: _) _ => 6
  | .block (.poll _ :: _) _ => 2
  | .block _ _ => 0
  | .call _ _ (.ready _) => 8
  | .call _ _ .running => 7
  | .call _ _ (.returned _) => 6
  | .loop _ _ _ false => 4
  | frame => if frame.isDone then 6 else 0

def topRank : List Frame → Nat
  | [] => 0
  | frame :: _ => frame.rank

def weight (stack : List Frame) : Nat :=
  stack.length + topRank stack

theorem Frame.rank_le (frame : Frame) : frame.rank ≤ 8 := by
  unfold rank
  split <;> try decide
  split <;> decide

theorem topRank_le (stack : List Frame) : topRank stack ≤ 8 := by
  cases stack with
  | nil => decide
  | cons frame below => exact frame.rank_le

theorem Frame.rank_isDone {frame : Frame} (finished : frame.isDone = true) : frame.rank = 6 := by
  unfold rank
  split <;> simp_all [isDone]

def Frame.Loose (lines : LineMap) (frame : Frame) : Prop :=
  frame.isDone = true ∨ frame.isBlock = true ∨ frame.position.bind lines.userLine = none

theorem Shift.length_le {functions : List Function} {stack after : List Frame}
    {answers : List Bool} (shift : Shift functions stack answers after) :
    after.length ≤ stack.length + 1 := by
  cases shift with
  | handOn returns found | giveUp _ _ returns found =>
    have shorter := toCall_length found
    simp only [List.length_cons]
    omega
  | _ =>
    simp only [List.length_cons, List.length_nil]
    omega

theorem Shift.weight_le {functions : List Function} {stack after : List Frame}
    {answers : List Bool} (shift : Shift functions stack answers after) :
    weight after ≤ weight stack + 9 := by
  have length := shift.length_le
  have rank := topRank_le after
  unfold weight
  omega

theorem weight_cons (frame : Frame) (below : List Frame) :
    weight (frame :: below) = below.length + 1 + frame.rank := rfl

theorem Frame.rank_block_le (rest : List Node) (origin : Option Nat) :
    (Frame.block rest origin).rank ≤ 6 := by
  cases rest with
  | nil => exact Nat.le_refl 6
  | cons node rest => cases node <;> simp [rank]

theorem Frame.StandsOn.rank_le {frame below : Frame} (stands : frame.StandsOn below) :
    below.rank ≤ 6 ∨ ∃ name offset, below = .call name offset .running := by
  cases stands with
  | block => exact .inl (Frame.rank_block_le _ _)
  | body => exact .inr ⟨_, _, rfl⟩
  | _ =>
    left
    simp [Frame.rank, Frame.isDone]

theorem weight_leave {frame : Frame} {below : List Frame} (finished : frame.isDone = true)
    (stacked : Stacked (frame :: below))
    (noCall : ∀ name offset rest, below ≠ .call name offset .running :: rest) :
    weight below < weight (frame :: below) := by
  rw [weight_cons, Frame.rank_isDone finished]
  cases below with
  | nil => decide
  | cons under below =>
    have stands : frame.StandsOn under := (List.isChain_cons_cons.mp stacked).1
    rcases stands.rank_le with light | ⟨name, offset, rfl⟩
    · rw [weight_cons, List.length_cons]
      omega
    · exact absurd rfl (noCall _ _ _)

theorem not_loose {lines : LineMap} {frame : Frame} {offset : Nat}
    (unfinished : frame.isDone = false) (noBlock : frame.isBlock = false)
    (position : frame.position = some offset) (user : lines.Holds offset) :
    ¬ frame.Loose lines := by
  rintro (finished | block | outside)
  · rw [unfinished] at finished
    cases finished
  · rw [noBlock] at block
    cases block
  · rw [position] at outside
    change lines.userLine offset = none at outside
    rw [LineMap.Holds, outside] at user
    cases user

theorem not_loose_action {lines : LineMap} {place : Place} {action : Action} {phase : Phase}
    (unfinished : phase ≠ .done) (tame : (Frame.action place action phase).Tame lines) :
    ¬ (Frame.action place action phase).Loose lines :=
  not_loose (by simpa [Frame.isDone] using unfinished) rfl rfl tame

theorem not_loose_branch {lines : LineMap} {place : Place} {condition : Expr} {body : List Node}
    {phase : Phase} (unfinished : phase ≠ .done)
    (tame : (Frame.branch place condition body phase).Tame lines) :
    ¬ (Frame.branch place condition body phase).Loose lines := by
  cases tame with
  | branch user => exact not_loose (by simpa [Frame.isDone] using unfinished) rfl rfl user

theorem loose_loop {lines : LineMap} {place : Place} {condition : Expr} {body : List Node}
    (tame : (Frame.loop place condition body false).Tame lines)
    (loose : (Frame.loop place condition body false).Loose lines) :
    condition = .always ∧ ∃ inner, body = [.poll inner] := by
  cases tame with
  | loop user => exact absurd loose (not_loose rfl rfl rfl user)
  | @pollLoop place inner => exact ⟨rfl, inner, rfl⟩

theorem Shift.descends {lines : LineMap} {functions : List Function} {stack after : List Frame}
    {answers : List Bool} (shift : Shift functions stack answers after) (stacked : Stacked stack)
    (tame : TameStack lines stack) (loose : ∀ frame ∈ stack.head?, frame.Loose lines)
    (stays : ∀ frame ∈ after.head?, frame.Loose lines) (some_frame : stack ≠ [])
    (found : false ∉ answers) :
    weight after < weight stack + 10 * answers.count true := by
  -- An unfinished statement of the user's is not loose. What is left tidies up, belongs to the
  -- generated loop, or begins a call, and of these only a callback that is taken adds weight.
  cases shift with
  | idle => exact absurd rfl some_frame
  | leave node finished =>
    refine weight_leave finished stacked ?_
    rintro name offset rest rfl
    cases (List.isChain_cons_cons.mp stacked).1
    cases node
  | leaveBlock noCall => exact weight_leave rfl stacked noCall
  | endCall =>
    simp only [weight_cons, Frame.rank, List.length_cons]
    omega
  | resume | answered =>
    simp only [weight_cons, Frame.rank, Frame.isDone, List.length_cons]
    simp
  | handOn returns under =>
    have shorter := toCall_length under
    simp only [weight_cons, Frame.rank, List.length_cons]
    omega
  | drop noAction noPoll =>
    refine weight_leave rfl stacked ?_
    rintro name offset rest rfl
    cases (List.isChain_cons_cons.mp stacked).1
  | @enter node =>
    have tameNode : (Frame.ofNode node).Tame lines :=
      ((TameStack.cons.mp tame).1 node (by simp)).frame
    have looseNode : (Frame.ofNode node).Loose lines := stays _ rfl
    cases node with
    | action => exact absurd looseNode (not_loose_action (by simp) tameNode)
    | branch => exact absurd looseNode (not_loose_branch (by simp) tameNode)
    | poll => simp [weight_cons, Frame.rank, Frame.ofNode, Frame.isDone]
    | loop => simp [weight_cons, Frame.rank, Frame.ofNode]
  | act unfinished | giveUp unfinished | call unfinished =>
    exact absurd (loose _ rfl) (not_loose_action unfinished (tame _ (by simp)))
  | loopOn =>
    obtain ⟨-, inner, rfl⟩ := loose_loop (tame _ (by simp)) (loose _ rfl)
    simp [weight_cons, Frame.rank]
  | loopOff ends =>
    obtain ⟨always, -⟩ := loose_loop (tame _ (by simp)) (loose _ rfl)
    exact absurd always ends
  | branchOn | branchOff | branchBack =>
    exact absurd (loose _ rfl) (not_loose_branch (by simp) (tame _ (by simp)))
  | @begin name offset arguments function =>
    have light := Frame.rank_block_le function.body (some function.offset)
    have heavy : (Frame.call name offset (.ready arguments)).rank = 8 := rfl
    rw [weight_cons, weight_cons, heavy, List.length_cons]
    omega
  | surface => simp [weight_cons, Frame.rank]
  | pollNone => simp at found
  | pollSome =>
    simp only [weight_cons, Frame.rank, List.length_cons, List.count_singleton_self]
    omega

end Script

namespace Run

open Metronome.Debug (Breakpoints)
open Metronome.Script (Machine Shift weight)

variable {σ : Type} [Interpreter σ]

namespace Progress

/-- Unwinding is warranted: a burst unwinds only for a stop in reach, and over steps that tidy up or
lie outside the user's text. -/
structure Warranted (p : Progress σ) : Prop where
  loose : p.burst.unwinding = true → Interpreter.isSafe p.live.program = true ∨ p.line = none
  stopping : p.burst.unwinding = true → p.live.controller.stopping p.burst = true

theorem Warranted.stopping_flags {p : Progress σ} (warranted : p.Warranted)
    (unwinds : p.burst.unwinding = true) (program : σ) :
    p.live.controller.stopping (p.flags program) = true :=
  Controller.stopping_noted p.refreshed (p.seen program) (warranted.stopping unwinds)

theorem Warranted.calm {p : Progress σ} (warranted : p.Warranted)
    (running : p.live.controller.isPaused = false) : p.burst.unwinding = false := by
  rw [Bool.eq_false_iff]
  intro unwinding
  have stopping := warranted.stopping unwinding
  rw [Controller.stopping, running] at stopping
  cases stopping

theorem Warranted.of_still {p : Progress σ} (still : p.burst.unwinding = false) : p.Warranted := by
  constructor <;> intro unwinding <;> rw [still] at unwinding <;> cases unwinding

theorem Warranted.arrived {breakpoints : Breakpoints} {request : Request} {p q : Progress σ}
    (arrives : (p.arrival breakpoints).2.2 = true) (after : Arrived breakpoints request p q) :
    q.Warranted := by
  obtain ⟨line, -, -, -, reaches⟩ := arrival_arrives arrives
  have controller := after.controller
  have burst := after.burst
  rw [reaches] at controller burst
  constructor
  · rw [burst, after.program]
    exact .inl
  · intro unwinding
    rw [burst, controller]
    simp [Controller.stopping, Controller.isPaused, Controller.arriveAt]

theorem Warranted.judged {request : Request} {p q : Progress σ} (warranted : p.Warranted)
    (after : Judged request p q) : q.Warranted := by
  by_cases unwinds : q.burst.unwinding = true
  · have stopping : p.live.controller.stopping (p.flags q.live.program) = true := by
      by_contra calm
      rw [Bool.not_eq_true] at calm
      rw [after.unwinding, calm] at unwinds
      rw [warranted.stopping_flags unwinds] at calm
      cases calm
    have active : (p.judged request).2.2 = false := by
      rw [after.rests_eq, unwinds, Bool.not_true, Bool.and_false, Bool.false_and]
    constructor
    · intro _
      rw [after.unwinding, stopping] at unwinds
      simp only [if_true, Bool.or_eq_true, Bool.and_eq_true, Option.isNone_iff_eq_none] at unwinds
      exact unwinds.imp id And.right
    · intro _
      rw [Controller.stopping_congr (after.state_active active), after.burst_eq]
      exact stopping
  · exact .of_still (Bool.not_eq_true _ ▸ unwinds)

structure Guarded (p : Progress σ) : Prop where
  loose : p.burst.unwinding = true → Interpreter.isSafe p.live.program = true ∨ p.line = none
  stopping : p.burst.unwinding = true → p.live.controller.stopping p.burst = true
  reached : p.live.controller.isAtRest = true → p.burst.reachedBreak = true

theorem Guarded.warranted {p : Progress σ} (guarded : p.Guarded) : p.Warranted :=
  ⟨guarded.loose, guarded.stopping⟩

theorem Guarded.stopping_flags {p : Progress σ} (guarded : p.Guarded)
    (unwinds : p.burst.unwinding = true) (program : σ) :
    p.live.controller.stopping (p.flags program) = true :=
  guarded.warranted.stopping_flags unwinds program

theorem Guarded.calm {p : Progress σ} (guarded : p.Guarded)
    (running : p.live.controller.isPaused = false) : p.burst.unwinding = false :=
  guarded.warranted.calm running

theorem Guarded.pass {breakpoints : Breakpoints} {request : Request} {budget : Nat}
    {p q : Progress σ} (guarded : p.Guarded)
    (goesOn : p.pass breakpoints request budget = (q, none)) : q.Guarded := by
  obtain ⟨arrives, after⟩ | ⟨-, fine, after, active⟩ := (pass_none goesOn).2
  · have warranted : q.Warranted := .arrived arrives after
    obtain ⟨line, -, -, -, reaches⟩ := arrival_arrives arrives
    refine ⟨warranted.loose, warranted.stopping, fun _ => ?_⟩
    rw [after.burst, reaches]
  · have warranted : q.Warranted := guarded.warranted.judged after
    refine ⟨warranted.loose, warranted.stopping, fun rests => ?_⟩
    rw [Controller.isAtRest_congr (after.state_active active)] at rests
    exact after.reached (guarded.reached rests)

theorem Guarded.reaches {breakpoints : Breakpoints} {request : Request} {budget : Nat}
    {p q : Progress σ} (guarded : p.Guarded) (reaches : Reaches breakpoints request budget p q) :
    q.Guarded :=
  reaches.keeps Guarded guarded fun _ _ guarded goesOn => guarded.pass goesOn

theorem Reaches.reached {breakpoints : Breakpoints} {request : Request} {budget : Nat}
    {p q : Progress σ} (reaches : Reaches breakpoints request budget p q)
    (reached : p.burst.reachedBreak = true) : q.burst.reachedBreak = true := by
  apply reaches.keeps (fun p => p.burst.reachedBreak = true) reached
  intro r s before goesOn
  obtain ⟨arrives, after⟩ | ⟨-, -, after, -⟩ := (pass_none goesOn).2
  · obtain ⟨line, -, -, -, same⟩ := arrival_arrives arrives
    rw [after.burst, same]
  · exact after.reached before

theorem begin_guarded {live : Live σ} (active : live.controller.isAtRest = false) :
    (begin live).Guarded := by
  refine ⟨fun unwinding => ?_, fun unwinding => ?_, fun rests => ?_⟩
  · cases unwinding
  · cases unwinding
  · rw [show (begin live).live.controller = live.controller from rfl, active] at rests
    cases rests

def stopsNow (request : Request) (budget : Nat) (p : Progress σ) : Bool :=
  Controller.shouldStop p.burst (p.live.response.signals request) request.atMaxSpeed ||
    (decide (budget ≤ p.steps) && !p.burst.unwinding)

theorem Proceeds.not_stopsNow {request : Request} {budget : Nat} {p : Progress σ}
    (proceeds : p.Proceeds request budget) : p.stopsNow request budget = false := by
  unfold stopsNow
  rw [proceeds.goesOn]
  rcases proceeds.affords with left | unwinding
  · simp [left]
  · simp [unwinding]

/-- What is left for a burst to do: its budget, the weight of its stack, the queue, and the one stop
at which it may arrive. -/
def reserve (request : Request) (budget : Nat) (p : Progress Machine) : Nat :=
  if p.stopsNow request budget then 0
  else
    11 * (budget - p.steps) + (weight p.live.program.stack + 10 * p.live.queue.length) +
      (if p.live.controller.isAtRest then 0 else 1) + 1

theorem reserve_busy {request : Request} {budget : Nat} {p : Progress Machine}
    (busy : p.stopsNow request budget = false) :
    p.reserve request budget =
      11 * (budget - p.steps) + (weight p.live.program.stack + 10 * p.live.queue.length) +
        (if p.live.controller.isAtRest then 0 else 1) + 1 := by
  rw [reserve, busy]
  rfl

theorem Guarded.arrives_once {request : Request} {budget : Nat} {p : Progress σ}
    (guarded : p.Guarded) (proceeds : p.Proceeds request budget)
    (still : p.burst.unwinding = false) : p.live.controller.isAtRest = false := by
  rw [Bool.eq_false_iff]
  intro rests
  rw [proceeds.unwinds (guarded.reached rests)] at still
  cases still

theorem loose_top {m : Machine} {lines : LineMap}
    (loose : Interpreter.isSafe m = true ∨ Cursor.lineOf m lines = none) :
    ∀ frame ∈ m.stack.head?, frame.Loose lines := by
  obtain ⟨functions, globals, locals, stack⟩ := m
  cases stack with
  | nil => simp
  | cons frame below =>
    intro top same
    cases same
    rcases loose with safe | outside
    · rcases Bool.or_eq_true_iff.mp safe with finished | block
      · exact .inl finished
      · exact .inr (.inl block)
    · exact .inr (.inr outside)

/-- Every pass that does not end a burst lowers its reserve. -/
theorem pass_reserve {breakpoints : Breakpoints} {request : Request} {budget : Nat}
    {p q : Progress Machine} (guarded : p.Guarded) (sound : p.live.program.Sound p.live.lines)
    (goesOn : p.pass breakpoints request budget = (q, none)) :
    q.reserve request budget < p.reserve request budget := by
  obtain ⟨proceeds, next⟩ := pass_none goesOn
  have busy := proceeds.not_stopsNow
  rw [reserve_busy busy]
  by_cases stops : q.stopsNow request budget = true
  · rw [reserve, if_pos stops]
    omega
  · rw [reserve_busy (Bool.not_eq_true _ ▸ stops)]
    rcases next with ⟨arrives, after⟩ | ⟨-, fine, after, active⟩
    · obtain ⟨line, -, still, -, reaches⟩ := arrival_arrives arrives
      have rests : q.live.controller.isAtRest = true := by
        rw [after.controller, reaches]
        rfl
      rw [after.steps, after.program, after.queue, rests, guarded.arrives_once proceeds still]
      simp
    · have sameRest : q.live.controller.isAtRest = p.live.controller.isAtRest :=
        Controller.isAtRest_congr (after.state_active active)
      obtain ⟨answers, shift, queue, seen⟩ := after.toTook.shift fine
      rw [after.steps, sameRest]
      by_cases left : p.steps < budget
      · have heavier := shift.weight_le
        omega
      · -- The budget is spent, so the burst unwinds and the stack or the queue has to pay.
        have unwinds : p.burst.unwinding = true := proceeds.affords.resolve_left left
        have stays : q.burst.unwinding = true := by
          by_contra still
          exact stops (by simp [stopsNow, after.steps, still]; omega)
        have found : false ∉ answers := by
          intro asked
          rw [List.contains_iff_mem.mpr asked, Bool.or_true] at seen
          exact stops (by simp [stopsNow, Controller.shouldStop, Response.signals, seen])
        have some_frame : p.live.program.stack ≠ [] := by
          intro none
          have complete := proceeds.incomplete
          rw [show Interpreter.isComplete p.live.program = p.live.program.stack.isEmpty from rfl,
            none] at complete
          cases complete
        have looseAfter := loose_top ((guarded.pass goesOn).loose stays)
        rw [after.lines] at looseAfter
        have lighter := shift.descends sound.stacked sound.stack
          (loose_top (guarded.loose unwinds)) looseAfter some_frame found
        omega

theorem passes_end (breakpoints : Breakpoints) {request : Request} {budget fuel : Nat}
    {p : Progress Machine} (guarded : p.Guarded) (sound : p.live.program.Sound p.live.lines)
    (enough : p.reserve request budget < fuel) :
    (p.passes breakpoints request budget fuel).2 ≠ .cutOff := by
  induction fuel generalizing p with
  | zero => omega
  | succ fuel ih =>
    unfold passes
    split
    · rename_i q ending passed
      intro cut
      have never := pass_not_cutOff breakpoints request budget p
      rw [passed] at never
      exact never (congrArg some cut)
    · rename_i q goesOn
      have lower := pass_reserve guarded sound goesOn
      exact ih (guarded.pass goesOn) (pass_sound goesOn (fun _ _ => by simp) sound) (by omega)

theorem passes_more {breakpoints : Breakpoints} {request : Request} {budget fuel : Nat}
    {p : Progress σ} (more : Nat) (ends : (p.passes breakpoints request budget fuel).2 ≠ .cutOff)
    (enough : fuel ≤ more) :
    p.passes breakpoints request budget more = p.passes breakpoints request budget fuel := by
  induction fuel generalizing p more with
  | zero => exact absurd rfl ends
  | succ fuel ih =>
    obtain ⟨rest, rfl⟩ := Nat.exists_eq_add_of_le' enough
    rw [← Nat.add_assoc]
    unfold passes at ends ⊢
    split at ends
    · rfl
    · exact ih (rest + fuel) ends (by omega)

theorem no_endless_passes {breakpoints : Breakpoints} {request : Request} {budget : Nat}
    {p : Progress Machine} (guarded : p.Guarded) (sound : p.live.program.Sound p.live.lines) :
    ¬ ∃ run : Nat → Progress Machine, run 0 = p ∧
      ∀ n, (run n).pass breakpoints request budget = (run (n + 1), none) := by
  rintro ⟨run, rfl, goesOn⟩
  have keeps : ∀ n, (run n).Guarded ∧ (run n).live.program.Sound (run n).live.lines := by
    intro n
    induction n with
    | zero => exact ⟨guarded, sound⟩
    | succ n ih =>
      exact ⟨ih.1.pass (goesOn n), pass_sound (goesOn n) (fun _ _ => by simp) ih.2⟩
  have falls : ∀ n, (run n).reserve request budget + n ≤ (run 0).reserve request budget := by
    intro n
    induction n with
    | zero => exact Nat.le_refl _
    | succ n ih =>
      have lower := pass_reserve (keeps n).1 (keeps n).2 (goesOn n)
      omega
  have beyond := falls ((run 0).reserve request budget + 1)
  omega

theorem reserve_begin (live : Live Machine) (request : Request) (budget : Nat) :
    (begin live).reserve request budget < limit live budget := by
  have rank := Script.topRank_le live.program.stack
  have depth : Interpreter.depth live.program = live.program.stack.length := rfl
  unfold limit
  rw [depth]
  cases busy : (begin live).stopsNow request budget with
  | true =>
    rw [reserve, if_pos busy]
    omega
  | false =>
    rw [reserve_busy busy]
    have once : (if (begin live).live.controller.isAtRest then 0 else 1) ≤ 1 := by
      split <;> decide
    simp only [begin, weight] at once ⊢
    omega

end Progress

theorem beginTick_active {c : Controller} (steps : c.beginTick.2 = true) :
    c.beginTick.1.isAtRest = false := by
  obtain ⟨state, stopPoint, depths, first, out, entry, reason⟩ := c
  cases state with
  | running => rfl
  | paused mode =>
    cases mode with
    | run => cases steps
    | stepOut => cases out <;> rfl
    | _ => rfl

theorem beginTick_steps {c : Controller} (awake : c.isAtRest = false) :
    c.beginTick.2 = true ∧ c.beginTick.1.stopReason = c.stopReason := by
  obtain ⟨state, stopPoint, depths, first, out, entry, reason⟩ := c
  cases state with
  | running => exact ⟨rfl, rfl⟩
  | paused mode =>
    cases mode with
    | run => cases awake
    | stepOut => cases out <;> exact ⟨rfl, rfl⟩
    | _ => exact ⟨rfl, rfl⟩

theorem Bursts.active {σ φ : Type} {s : Scheduler σ φ} {operation : Operation σ φ} {live : Live σ}
    {request : Request} (runs : Bursts s operation live request) :
    live.controller.isAtRest = false := by
  cases runs with
  | tick here current steps => exact beginTick_active steps
  | dispatch here running => exact Controller.awake running
  | start => rfl

theorem Bursts.uncut {φ : Type} {s : Scheduler Machine φ} {operation : Operation Machine φ}
    {live : Live Machine} {request : Request} (reachable : Reachable s) (given : operation.Given)
    (runs : Bursts s operation live request) :
    ((Progress.begin live).passes s.breakpoints request s.settings.tickBudget
      (Progress.limit live s.settings.tickBudget)).2 ≠ .cutOff := by
  have sound : live.program.Sound live.lines :=
    runs.sound (fun _ here => reachable.sound here) given
  exact Progress.passes_end s.breakpoints (Progress.begin_guarded runs.active) sound
    (Progress.reserve_begin live request s.settings.tickBudget)

/-- The loop of a burst ends by itself, in every scheduler that accepted sources lead to: it is never
cut off, and there is no endless row of passes. -/
theorem burst_ends {φ : Type} {s : Scheduler Machine φ} {operation : Operation Machine φ}
    {live : Live Machine} {request : Request} (reachable : Reachable s)
    (given : operation.Given) (runs : Bursts s operation live request) :
    (∃ p ending, ending ≠ .cutOff ∧
        live.burst s.breakpoints request s.settings.tickBudget = (p, ending) ∧
        ∀ fuel, Progress.limit live s.settings.tickBudget ≤ fuel →
          (Progress.begin live).passes s.breakpoints request s.settings.tickBudget fuel =
            (p, ending)) ∧
      ¬ ∃ run : Nat → Progress Machine, run 0 = Progress.begin live ∧
        ∀ n, (run n).pass s.breakpoints request s.settings.tickBudget = (run (n + 1), none) := by
  have guarded := Progress.begin_guarded runs.active
  have sound : live.program.Sound live.lines :=
    runs.sound (fun _ here => reachable.sound here) given
  refine ⟨?_, Progress.no_endless_passes guarded sound⟩
  have ends := Progress.passes_end s.breakpoints guarded sound
    (Progress.reserve_begin live request s.settings.tickBudget)
  have more := fun fuel enough => Progress.passes_more fuel ends enough
  unfold Live.burst
  generalize (Progress.begin live).passes s.breakpoints request s.settings.tickBudget
    (Progress.limit live s.settings.tickBudget) = result at ends more ⊢
  obtain ⟨p, ending⟩ := result
  exact ⟨p, ending, ends, rfl, more⟩

def spin : List Char := "while true\nend\n".toList

theorem load_spin : ∃ loaded, Script.load spin = .ok loaded := by
  have read : (Script.load spin).isOk = true := by decide +kernel
  cases same : Script.load spin with
  | ok loaded => exact ⟨loaded, rfl⟩
  | error error =>
    rw [same] at read
    cases read

theorem spin_burst_ends : ∃ loaded, Script.load spin = .ok loaded ∧
    ∃ (request : Request) (p : Progress Machine) (ending : Ending),
      Bursts (.new .default none : Scheduler Machine Unit)
        (.start loaded.machine loaded.text.lineMap 0 0)
        (Live.start loaded.machine loaded.text.lineMap false).ticked request ∧
      ending ≠ .cutOff ∧
      (Live.start loaded.machine loaded.text.lineMap false).ticked.burst .empty request 10000 =
        (p, ending) := by
  obtain ⟨loaded, read⟩ := load_spin
  have runs : Bursts (.new .default none : Scheduler Machine Unit)
      (.start loaded.machine loaded.text.lineMap 0 0)
      (Live.start loaded.machine loaded.text.lineMap false).ticked
      ((Scheduler.new .default none : Scheduler Machine Unit).tickRequest 0) := .start rfl
  have given : (Operation.start loaded.machine loaded.text.lineMap 0 0 :
      Operation Machine Unit).Given := by
    intro program lines began ended same
    cases same
    exact ⟨loaded, .polling read, rfl, rfl⟩
  obtain ⟨⟨p, ending, ends, burst, -⟩, -⟩ := burst_ends (.new .default none) given runs
  exact ⟨loaded, read, _, p, ending, runs, ends, burst⟩

end Run

end Metronome
