import Metronome.Proofs.Descent
import Metronome.Proofs.Transparency

/-!
A debugger without ticks. It keeps of a burst only whether the burst unwinds, and forgets that too
when its program finds no callback, since that ends a burst at every pace. The passes of any burst
keep step with it, whatever the budget and the speed cut them into.
-/
namespace Metronome

open Metronome.Debug (Breakpoints Controller Cursor)

namespace Script

theorem Shift.tidies {functions : List Function} {frame : Frame} {below after : List Frame}
    {answers : List Bool} (shift : Shift functions (frame :: below) answers after)
    (unfinished : frame.isDone = false) (noBlock : frame.isBlock = false)
    (alone : true ∉ answers) :
    (∃ top rest, after = top :: rest ∧ (top.isDone = true ∨ top.isBlock = true)) ∨
      ∃ name offset arguments, after.length = below.length + 2 ∧
        frame.position = some offset ∧
        after.head? = some (.call name (some offset) (.ready arguments)) := by
  cases shift with
  | leave node finished =>
    rw [unfinished] at finished
    cases finished
  | leaveBlock => cases noBlock
  | endCall => cases noBlock
  | resume => cases unfinished
  | handOn => cases unfinished
  | answered => cases unfinished
  | drop => cases unfinished
  | enter => cases noBlock
  | call => exact .inr ⟨_, _, _, rfl, rfl, rfl⟩
  | pollSome => simp at alone
  | loopOn => exact .inl ⟨_, _, rfl, .inr rfl⟩
  | branchOn => exact .inl ⟨_, _, rfl, .inr rfl⟩
  | begin => exact .inl ⟨_, _, rfl, .inr rfl⟩
  | _ => exact .inl ⟨_, _, rfl, .inl rfl⟩

end Script

namespace Debug

/-- What a controller makes of a step depends on the flags of a burst through two questions only:
whether a stop is in reach, and whether the burst unwinds. -/
theorem judge_congr {σ : Type} [Interpreter σ] {c : Controller} {burst other : Burst}
    {line : Option Nat} {program : σ} {lines : LineMap}
    (unwinding : other.unwinding = burst.unwinding)
    (stopping : c.stopping (other.noted c (Cursor.withLine program line)) =
      c.stopping (burst.noted c (Cursor.withLine program line))) :
    (Run.Progress.judge c other line program lines).1 =
        (Run.Progress.judge c burst line program lines).1 ∧
      (Run.Progress.judge c other line program lines).2.1.unwinding =
        (Run.Progress.judge c burst line program lines).2.1.unwinding := by
  rw [judge_eq, judge_eq]
  dsimp only
  rw [unwinding, stopping]
  exact ⟨rfl, rfl⟩

theorem Burst.noted_tidy {c : Controller} {after : Cursor} (burst : Burst)
    (paused : c.isPaused = true) (user : after.inUserCode = true)
    (tidies : after.isDone = true ∨ after.isKind .block = true) :
    (burst.noted c after).doneUserLine = true := by
  unfold Burst.noted
  rcases tidies with done | block
  · simp [user, done]
  · simp [paused, user, block]

theorem Controller.primed_noted {c : Controller} {stopPoint : Option StopPoint} {after : Cursor}
    (primed : c.beginTick.1 = c) :
    (Controller.noted { c with stopPoint } after).beginTick.1 =
      Controller.noted { c with stopPoint } after := by
  obtain ⟨state, _, depths, first, out, entry, reason⟩ := c
  cases state with
  | running => rfl
  | paused mode =>
    cases mode with
    | stepOut =>
      cases out with
      | none => simp [beginTick] at primed
      | some depth => rfl
    | _ => rfl

theorem Controller.primed_beginTick (c : Controller) : c.beginTick.1.beginTick.1 = c.beginTick.1 := by
  obtain ⟨state, stopPoint, depths, first, out, entry, reason⟩ := c
  cases state with
  | running => rfl
  | paused mode =>
    cases mode with
    | stepOut => cases out <;> rfl
    | _ => rfl

theorem Controller.staysDeep_mode {c : Controller} {depth : Nat} (deep : c.staysDeep depth = true) :
    c.mode = .stepOver ∨ c.mode = .stepOut := by
  unfold staysDeep at deep
  split at deep
  · rename_i out
    exact .inr out
  · rename_i stepsOver
    exact .inl stepsOver
  · cases deep

theorem Controller.staysDeep_noted {c other : Controller} {after : Cursor} {depth more : Nat}
    (deep : c.staysDeep depth = true) (deeper : depth ≤ more) (state : other.state = c.state)
    (first : other.firstCallDepth = c.firstCallDepth) (out : other.stepOutDepth = c.stepOutDepth) :
    (other.noted after).staysDeep more = true := by
  have mode : (other.noted after).mode = c.mode := mode_congr state
  unfold staysDeep
  rw [mode]
  rcases staysDeep_mode deep with stepsOver | stepsOut
  · rw [stepsOver]
    simp only [staysDeep, stepsOver] at deep
    obtain ⟨target, found, less⟩ := (Option.any_eq_true _ _).mp deep
    simp only [noted, first, found, Option.isNone_some, Bool.and_false, Bool.false_eq_true,
      if_false, Option.any_some, decide_eq_true_eq] at less ⊢
    omega
  · rw [stepsOut]
    simp only [staysDeep, stepsOut, noted, out, decide_eq_true_eq] at deep ⊢
    omega

end Debug

namespace Run

open Metronome.Script (Accepted Loaded Machine Shift)

/-- A run of a debugger without ticks: how many steps its program has taken, and what outlives a
step. -/
structure Tickless where
  steps : Nat
  controller : Controller
  unwinding : Bool
  asked : Bool

namespace Tickless

variable (loaded : Loaded) (breakpoints : Breakpoints)

def program (t : Tickless) : Machine :=
  (Alone.after loaded t.steps).program

def burst (t : Tickless) : Debug.Burst :=
  ⟨t.unwinding, t.controller.isAtRest, t.unwinding⟩

def cursor (t : Tickless) : Cursor :=
  Cursor.capture (t.program loaded) loaded.text.lineMap

def arrival (t : Tickless) : Controller × Debug.Burst × Bool :=
  t.controller.arrive t.burst (t.cursor loaded)
    ((t.cursor loaded).line.any breakpoints.contains) (Interpreter.isSafe (t.program loaded))

def judged (t : Tickless) : Controller × Debug.Burst × Bool :=
  Progress.judge (t.controller.refreshStopPoint t.burst (t.cursor loaded)) t.burst
    (t.cursor loaded).line (t.program loaded).stepAlone.1.state loaded.text.lineMap

/-- What comes next: a wait for a callback forgets the unwinding, an arrival takes no step. -/
def next (t : Tickless) : Tickless :=
  if t.asked then { t with unwinding := false, asked := false }
  else
    let (controller, burst, arrived) := t.arrival loaded breakpoints
    if arrived then { t with controller, unwinding := burst.unwinding }
    else
      let (controller, burst, _) := t.judged loaded
      ⟨t.steps + 1, controller, burst.unwinding, (t.program loaded).stepAlone.2.asked⟩

def halted (quits : Bool) (t : Tickless) : Bool :=
  (Alone.after loaded t.steps).failure.isSome || Interpreter.isComplete (t.program loaded) ||
    (t.controller.isAtRest && (!t.unwinding || t.asked)) || (t.asked && quits)

inductive Halts (quits : Bool) : Tickless → Tickless → Prop where
  | here {t : Tickless} (halted : t.halted loaded quits = true) : Halts quits t t
  | next {t u : Tickless} (going : t.halted loaded quits = false)
      (rest : Halts quits (t.next loaded breakpoints) u) : Halts quits t u

variable {loaded breakpoints}

def Leads (loaded : Loaded) (breakpoints : Breakpoints) (quits : Bool) (t u : Tickless) : Prop :=
  ∀ v, Halts loaded breakpoints quits u v → Halts loaded breakpoints quits t v

theorem Halts.unique {quits : Bool} {t u v : Tickless}
    (left : Halts loaded breakpoints quits t u) (right : Halts loaded breakpoints quits t v) :
    u = v := by
  induction left with
  | here halted =>
    cases right with
    | here => rfl
    | next going =>
      rw [halted] at going
      cases going
  | next going _ ih =>
    cases right with
    | here halted =>
      rw [halted] at going
      cases going
    | next _ rest => exact ih rest

theorem next_asked {t : Tickless} (asked : t.asked = true) :
    t.next loaded breakpoints = { t with unwinding := false, asked := false } := by
  unfold next
  rw [asked]
  rfl

theorem next_arrived {t : Tickless} (calm : t.asked = false)
    (arrives : (t.arrival loaded breakpoints).2.2 = true) :
    t.next loaded breakpoints =
      { t with
        controller := (t.arrival loaded breakpoints).1
        unwinding := (t.arrival loaded breakpoints).2.1.unwinding } := by
  unfold next
  rw [calm, if_neg (by simp)]
  dsimp only
  rw [if_pos arrives]

theorem next_stepped {t : Tickless} (calm : t.asked = false)
    (passesBy : (t.arrival loaded breakpoints).2.2 = false) :
    t.next loaded breakpoints =
      ⟨t.steps + 1, (t.judged loaded).1, (t.judged loaded).2.1.unwinding,
        (t.program loaded).stepAlone.2.asked⟩ := by
  unfold next
  rw [calm, if_neg (by simp)]
  dsimp only
  rw [if_neg (by simp [passesBy])]

end Tickless

namespace Progress

/-- A burst in step with a run without ticks. Its flag for a line that has ended may be left over:
then a step operation waits at a statement for the stack to become shallower. -/
structure Matches (loaded : Loaded) (t : Tickless) (p : Progress Machine) : Prop where
  follows : Follows loaded t.steps p.live
  sound : p.live.program.Sound p.live.lines
  guarded : p.Guarded
  controller : p.live.controller = t.controller
  unwinding : p.burst.unwinding = t.unwinding
  asked : p.live.response.seenEmptyQueue = t.asked
  rests : p.burst.reachedBreak = true → p.live.controller.isAtRest = true
  ended : p.burst.unwinding = true → p.live.controller.isAtRest = false →
    p.burst.doneUserLine = true
  leftOver : p.burst.unwinding = false → p.burst.doneUserLine = true →
    p.live.controller.isPaused = true → p.live.controller.isAtRest = false →
    (∃ line, p.line = some line) ∧ Interpreter.isSafe p.live.program = false ∧
      p.live.controller.staysDeep (Interpreter.depth p.live.program) = true
  reason : p.live.controller.isAtRest = false → p.live.controller.stopReason = none
  primed : p.live.controller.beginTick.1 = p.live.controller

namespace Matches

variable {loaded : Loaded} {t : Tickless} {p q : Progress Machine} {breakpoints : Breakpoints}
  {request : Request} {budget : Nat}

theorem program (keeps : Matches loaded t p) : t.program loaded = p.live.program :=
  keeps.follows.program.symm

theorem cursor (keeps : Matches loaded t p) : t.cursor loaded = p.cursor := by
  rw [Tickless.cursor, keeps.program, ← keeps.follows.lines]
  rfl

theorem calm (keeps : Matches loaded t p) (proceeds : p.Proceeds request budget) :
    t.asked = false := by
  have goesOn := proceeds.goesOn
  simp only [Debug.Controller.shouldStop, Bool.or_eq_false_iff] at goesOn
  rw [← keeps.asked]
  exact goesOn.1.2

theorem reached (keeps : Matches loaded t p) :
    p.burst.reachedBreak = t.controller.isAtRest := by
  rw [← keeps.controller]
  cases rests : p.live.controller.isAtRest with
  | true => exact keeps.guarded.reached rests
  | false =>
    rw [Bool.eq_false_iff]
    intro reached
    rw [keeps.rests reached] at rests
    cases rests

theorem arrival (keeps : Matches loaded t p) (breakpoints : Breakpoints) :
    (t.arrival loaded breakpoints).1 = (p.arrival breakpoints).1 ∧
      (t.arrival loaded breakpoints).2.1.unwinding = (p.arrival breakpoints).2.1.unwinding ∧
      (t.arrival loaded breakpoints).2.2 = (p.arrival breakpoints).2.2 := by
  rw [Tickless.arrival, Progress.arrival, keeps.cursor, keeps.program, keeps.controller]
  have unwinding : t.burst.unwinding = p.burst.unwinding := keeps.unwinding.symm
  unfold Controller.arrive
  split
  · exact ⟨rfl, unwinding, rfl⟩
  · rw [unwinding]
    split
    · exact ⟨rfl, unwinding, rfl⟩
    · dsimp only
      split
      · exact ⟨rfl, rfl, rfl⟩
      · exact ⟨rfl, unwinding, rfl⟩

theorem arrived (keeps : Matches loaded t p) (proceeds : p.Proceeds request budget)
    (arrives : (p.arrival breakpoints).2.2 = true) (after : Arrived breakpoints request p q)
    (goesOn : p.pass breakpoints request budget = (q, none)) :
    Matches loaded (t.next loaded breakpoints) q := by
  obtain ⟨controller, unwinding, same⟩ := keeps.arrival breakpoints
  rw [Tickless.next_arrived (keeps.calm proceeds) (same.trans arrives)]
  obtain ⟨line, -, -, -, reaches⟩ := arrival_arrives arrives
  have rests : q.live.controller.isAtRest = true := by
    rw [after.controller, reaches]
    rfl
  have never : q.live.controller.isAtRest ≠ false := by simp [rests]
  refine ⟨after.follows keeps.follows, ?_, keeps.guarded.pass goesOn, after.controller.trans
    controller.symm, ?_, ?_, fun _ => rests, fun _ active => absurd active never,
    fun _ _ _ active => absurd active never, fun active => absurd active never, ?_⟩
  · rw [after.program, after.lines]
    exact keeps.sound
  · rw [after.burst]
    exact unwinding.symm
  · rw [after.response]
    exact keeps.asked
  · rw [after.controller, reaches]
    rfl

theorem burst (keeps : Matches loaded t p) (done : p.burst.doneUserLine = p.burst.unwinding) :
    t.burst = p.burst := by
  unfold Tickless.burst
  rw [← keeps.reached, ← keeps.unwinding]
  obtain ⟨live, ⟨unwinding, reached, ended⟩, steps, notices⟩ := p
  cases done
  rfl

theorem judged_leftOver {line : Nat} (keeps : Matches loaded t p) (after : Judged request p q)
    (fine : (p.stepped request).1.error = none) (here : p.line = some line)
    (busy : Interpreter.isSafe p.live.program = false)
    (deep : p.live.controller.staysDeep (Interpreter.depth p.live.program) = true)
    (paused : p.refreshed.isPaused = true) (active : p.live.controller.isAtRest = false)
    (unwinding : p.burst.unwinding = false)
    (done : p.burst.doneUserLine = true) :
    (judge p.refreshed t.burst p.line q.live.program q.live.lines).1 =
        (judge p.refreshed p.burst p.line q.live.program q.live.lines).1 ∧
      (judge p.refreshed t.burst p.line q.live.program q.live.lines).2.1.unwinding =
        (judge p.refreshed p.burst p.line q.live.program q.live.lines).2.1.unwinding := by
  have user : (p.seen q.live.program).inUserCode = true := by
    simp [seen, Cursor.withLine, Cursor.inUserCode, here]
  obtain ⟨frame, below, stack, unfinished, noBlock⟩ := Machine.unsafe_cons busy
  obtain ⟨answers, shift, alone⟩ := after.toTook.shift_alone fine keeps.follows.queue
  rw [stack] at shift
  rcases shift.tidies unfinished noBlock alone with
    ⟨top, rest, next, tidies⟩ | ⟨name, offset, arguments, length, position, top⟩
  · have seen : (p.seen q.live.program).isDone = true ∨
        (p.seen q.live.program).isKind .block = true := by
      simp only [Progress.seen, Cursor.withLine, Cursor.isDone, Cursor.isKind,
        Machine.top_cons next, Option.any_some, Script.Frame.kind_block]
      exact tidies
    have stops : ∀ burst : Debug.Burst,
        p.refreshed.stopping (burst.noted p.refreshed (p.seen q.live.program)) = true := by
      intro burst
      rw [Controller.stopping, paused, Debug.Burst.noted_tidy burst paused user seen]
      rfl
    exact Debug.judge_congr keeps.unwinding.symm ((stops _).trans (stops _).symm)
  -- The statement calls a function: one run has a stop in reach, but stays too deep for it.
  · obtain ⟨rest, next⟩ := List.head?_eq_some_iff.mp top
    have waits : Interpreter.isSafe q.live.program = false := Machine.isSafe_cons next
    have deeper : (p.refreshed.noted (p.seen q.live.program)).staysDeep
        (Interpreter.depth q.live.program) = true := by
      obtain ⟨stopPoint, same⟩ := p.refreshed_eq
      refine Controller.staysDeep_noted deep ?_ p.refreshed_state (by rw [same]) (by rw [same])
      change p.live.program.stack.length ≤ q.live.program.stack.length
      rw [stack, length, List.length_cons]
      omega
    have noStep : p.refreshed.mode ≠ .stepIn := by
      rw [p.refreshed_mode]
      rcases Controller.staysDeep_mode deep with stepsOver | stepsOut
      · simp [stepsOver]
      · simp [stepsOut]
    have quiet : p.refreshed.stopping (t.burst.noted p.refreshed (p.seen q.live.program)) =
        false := by
      have seen : (p.seen q.live.program).isDone = false ∧
          (p.seen q.live.program).isKind .block = false := by
        simp only [Progress.seen, Cursor.withLine, Cursor.isDone, Cursor.isKind,
          Machine.top_cons next, Option.any_some, Script.Frame.kind_block]
        exact ⟨rfl, rfl⟩
      have still : t.unwinding = false := keeps.unwinding.symm.trans unwinding
      have awake : t.controller.isAtRest = false := keeps.controller ▸ active
      simp [Controller.stopping, Debug.Burst.noted, Tickless.burst, seen, still, awake, noStep]
    have stops : p.refreshed.stopping (p.burst.noted p.refreshed (p.seen q.live.program)) =
        true := by
      rw [Controller.stopping, paused, Debug.Burst.noted, done]
      rfl
    have still : t.burst.unwinding = p.burst.unwinding := keeps.unwinding.symm
    rw [Debug.judge_eq, Debug.judge_eq]
    simp only [Progress.seen] at quiet stops deeper
    simp [quiet, stops, waits, deeper, still, unwinding]

/-- What a step leaves of the flags differs only while a step operation waits for a shallower stack
and calls a function: then neither run comes to rest. -/
theorem judged (keeps : Matches loaded t p) (after : Judged request p q)
    (fine : (p.stepped request).1.error = none) :
    (t.judged loaded).1 = (p.judged request).1 ∧
      (t.judged loaded).2.1.unwinding = (p.judged request).2.1.unwinding := by
  have result : (p.stepped request).1 = p.live.program.stepAlone.1 :=
    (stepped_alone request keeps.follows.queue keeps.follows.unasked).1
  have refreshed : t.controller.refreshStopPoint t.burst (t.cursor loaded) = p.refreshed := by
    rw [Progress.refreshed, keeps.cursor, keeps.controller]
    unfold Controller.refreshStopPoint
    rw [show t.burst.unwinding = p.burst.unwinding from keeps.unwinding.symm]
  have program : (t.program loaded).stepAlone.1.state = q.live.program := by
    rw [after.program, result, keeps.program]
  have mine : t.judged loaded =
      judge p.refreshed t.burst p.line q.live.program q.live.lines := by
    rw [Tickless.judged, refreshed, program, keeps.cursor, after.lines, keeps.follows.lines]
    rfl
  rw [mine, after.judged_eq]
  have paused := p.refreshed_isPaused
  cases live : p.live.controller.isPaused with
  | false =>
    refine Debug.judge_congr keeps.unwinding.symm ?_
    simp [Controller.stopping, paused, live]
  | true =>
    cases rests : p.live.controller.isAtRest with
    | true =>
      have reached : t.burst.reachedBreak = true := by
        rw [Tickless.burst, ← keeps.controller, rests]
      have stopping : ∀ burst : Debug.Burst, burst.reachedBreak = true →
          p.refreshed.stopping burst = true := by
        intro burst reached
        simp [Controller.stopping, paused, live, reached]
      refine Debug.judge_congr keeps.unwinding.symm ?_
      rw [Controller.stopping_noted _ _ (stopping _ reached),
        Controller.stopping_noted _ _ (stopping _ (keeps.guarded.reached rests))]
    | false =>
      cases unwinding : p.burst.unwinding with
      | true =>
        rw [keeps.burst (by rw [keeps.ended unwinding rests, unwinding])]
        exact ⟨rfl, rfl⟩
      | false =>
        cases done : p.burst.doneUserLine with
        | false =>
          rw [keeps.burst (by rw [done, unwinding])]
          exact ⟨rfl, rfl⟩
        | true =>
          -- Only here do the flags differ, and both runs wait for a shallower stack.
          obtain ⟨⟨line, here⟩, busy, deep⟩ := keeps.leftOver unwinding done live rests
          exact keeps.judged_leftOver after fine here busy deep (paused.trans live) rests unwinding done

theorem next_stepped (keeps : Matches loaded t p) (proceeds : p.Proceeds request budget)
    (passesBy : (p.arrival breakpoints).2.2 = false) (after : Judged request p q)
    (fine : (p.stepped request).1.error = none) :
    t.next loaded breakpoints =
      ⟨t.steps + 1, q.live.controller, q.burst.unwinding, q.live.response.seenEmptyQueue⟩ := by
  obtain ⟨-, -, same⟩ := keeps.arrival breakpoints
  obtain ⟨controller, unwinding⟩ := keeps.judged after fine
  have calm := keeps.calm proceeds
  obtain ⟨-, -, seen, -⟩ := stepped_alone request keeps.follows.queue keeps.follows.unasked
  rw [Tickless.next_stepped calm (same.trans passesBy), controller, unwinding, after.controller,
    after.burst, after.response, seen, keeps.asked, calm, Bool.false_or, keeps.program]

theorem tidies (after : Judged request p q) (newly : p.burst.doneUserLine = false)
    (done : q.burst.doneUserLine = true) :
    (∃ line, p.line = some line) ∧ Interpreter.isSafe q.live.program = true := by
  rw [after.burst_eq] at done
  simp only [flags, Debug.Burst.noted, newly, Bool.false_or, Bool.or_eq_true,
    Bool.and_eq_true, seen, Cursor.withLine, Cursor.inUserCode, Cursor.isDone, Cursor.isKind,
    Option.isSome_iff_exists] at done
  cases stack : q.live.program.stack with
  | nil =>
    have top : Interpreter.top q.live.program = none := by
      change q.live.program.stack.head?.map _ = _
      rw [stack]
      rfl
    simp [top] at done
  | cons frame below =>
    simp only [Machine.top_cons stack, Option.any_some, Script.Frame.kind_block] at done
    rw [Machine.isSafe_cons stack, Bool.or_eq_true]
    rcases done with ⟨user, done⟩ | ⟨⟨-, user⟩, block⟩
    · exact ⟨user, .inl done⟩
    · exact ⟨user, .inr block⟩

theorem waits (after : Judged request p q) (active : (p.judged request).2.2 = false)
    (paused : p.live.controller.isPaused = true)
    (ended : (q.burst.doneUserLine || q.burst.reachedBreak) = true)
    (unwinding : q.burst.unwinding = false) :
    Interpreter.isSafe q.live.program = false ∧
      (p.burst.unwinding = true → ∃ line, q.line = some line) ∧
      (p.refreshed.noted (p.seen q.live.program)).staysDeep
        (Interpreter.depth q.live.program) = true := by
  have stopping : p.live.controller.stopping (p.flags q.live.program) = true := by
    rw [after.burst_eq] at ended
    rw [Controller.stopping, paused]
    exact ended
  have calm := after.unwinding
  rw [stopping, if_pos rfl, unwinding] at calm
  have awake := after.rests_eq
  rw [active, stopping, unwinding] at awake
  obtain ⟨busy, inside⟩ := Bool.or_eq_false_iff.mp calm.symm
  refine ⟨busy, fun unwound => ?_, by simpa using awake.symm⟩
  rw [unwound, Bool.true_and, Option.isNone_eq_false_iff] at inside
  exact Option.isSome_iff_exists.mp inside

theorem reached_before (keeps : Matches loaded t p) (after : Judged request p q)
    (active : (p.judged request).2.2 = false) (reached : q.burst.reachedBreak = true) :
    p.burst.reachedBreak = true := by
  by_contra unreached
  have reachedNow := reached
  rw [after.burst_eq] at reached
  simp only [flags, Debug.Burst.noted, Bool.eq_false_iff.mpr unreached, Bool.false_or,
    Bool.and_eq_true, Bool.not_eq_true', beq_iff_eq] at reached
  obtain ⟨⟨⟨unended, user⟩, stepsIn⟩, deeper⟩ := reached
  have mode : p.live.controller.mode = .stepIn :=
    p.refreshed_mode.symm.trans stepsIn
  obtain ⟨paused, awake⟩ := Controller.stepping (c := p.live.controller) (by simp [mode])
  have shallow : (p.refreshed.noted (p.seen q.live.program)).staysDeep
      (Interpreter.depth q.live.program) = false := by
    unfold Controller.staysDeep
    rw [Controller.noted_mode, stepsIn]
  -- The stop is new, and no line has ended with it: nothing is left to tidy up, so that the burst can
  -- only unwind because it did before.
  cases unwinding : q.burst.unwinding with
  | false =>
    obtain ⟨-, -, deep⟩ := waits after active paused (by simp [reachedNow]) unwinding
    rw [shallow] at deep
    cases deep
  | true =>
    have stopping : p.live.controller.stopping (p.flags q.live.program) = true := by
      rw [after.burst_eq] at reachedNow
      rw [Controller.stopping, paused, show (p.flags q.live.program).reachedBreak = true from
        reachedNow, Bool.or_true]
      rfl
    have unwinds := after.unwinding
    rw [stopping, if_pos rfl, unwinding] at unwinds
    simp only [Bool.or_eq_false_iff] at unended
    rcases Bool.or_eq_true_iff.mp unwinds.symm with safe | unwound
    · have finished := unended.1.2
      have noBlock := unended.2
      rw [user, Bool.true_and] at finished
      rw [p.refreshed_isPaused, paused, user, Bool.true_and, Bool.true_and] at noBlock
      cases stack : q.live.program.stack with
      | nil =>
        obtain ⟨depth, -, less⟩ := (Option.any_eq_true _ _).mp deeper
        have empty : (p.seen q.live.program).depth = 0 := by
          change q.live.program.stack.length = 0
          rw [stack]
          rfl
        rw [empty] at less
        simp at less
      | cons frame below =>
        simp only [seen, Cursor.withLine, Cursor.isDone, Cursor.isKind, Machine.top_cons stack,
          Option.any_some, Script.Frame.kind_block] at finished noBlock
        rw [Machine.isSafe_cons stack, finished, noBlock] at safe
        cases safe
    · rw [keeps.ended (Bool.and_eq_true_iff.mp unwound).1 awake] at unended
      cases unended.1.1

theorem line_leftOver (keeps : Matches loaded t p) (after : Judged request p q)
    (fine : (p.stepped request).1.error = none) (awake : p.live.controller.isAtRest = false)
    (paused : p.live.controller.isPaused = true)
    (done : q.burst.doneUserLine = true) (busy : Interpreter.isSafe q.live.program = false)
    (inside : p.burst.unwinding = true → ∃ line, q.line = some line) :
    ∃ line, q.line = some line := by
  cases unwinding : p.burst.unwinding with
  | true => exact inside unwinding
  | false =>
    cases before : p.burst.doneUserLine with
    | false =>
      rw [(tidies after before done).2] at busy
      cases busy
    | true =>
      obtain ⟨⟨line, here⟩, waits, -⟩ := keeps.leftOver unwinding before paused awake
      obtain ⟨frame, below, stack, unfinished, noBlock⟩ := Machine.unsafe_cons waits
      obtain ⟨answers, shift, alone⟩ := after.toTook.shift_alone fine keeps.follows.queue
      rw [stack] at shift
      rcases shift.tidies unfinished noBlock alone with
        ⟨top, rest, next, tidies⟩ | ⟨name, offset, arguments, -, position, top⟩
      · rw [Machine.isSafe_cons next, Bool.or_eq_false_iff] at busy
        simp [busy] at tidies
      · refine ⟨line, ?_⟩
        rw [← here]
        change (q.live.program.stack.head?.bind Script.Frame.position).bind _ =
          (p.live.program.stack.head?.bind Script.Frame.position).bind _
        rw [top, stack, after.lines]
        change (some offset).bind _ = (frame.position).bind _
        rw [position]

theorem stepped (keeps : Matches loaded t p) (proceeds : p.Proceeds request budget)
    (passesBy : (p.arrival breakpoints).2.2 = false) (after : Judged request p q)
    (fine : (p.stepped request).1.error = none) (active : (p.judged request).2.2 = false)
    (goesOn : p.pass breakpoints request budget = (q, none)) :
    Matches loaded (t.next loaded breakpoints) q := by
  have guarded := keeps.guarded.pass goesOn
  have controller := after.controller_active active
  obtain ⟨stopPoint, refreshed⟩ := p.refreshed_eq
  have sameState := after.state_active active
  have sameRest := Controller.isAtRest_congr sameState
  rw [keeps.next_stepped proceeds passesBy after fine]
  refine ⟨after.follows fine keeps.follows, ?_, guarded, rfl, rfl, rfl, ?_, ?_, ?_, ?_, ?_⟩
  · exact pass_sound goesOn (fun _ _ => by simp) keeps.sound
  · intro reached
    rw [sameRest]
    exact keeps.rests (keeps.reached_before after active reached)
  · intro unwinding awake
    have stopping := guarded.stopping unwinding
    rw [Controller.stopping, Bool.and_eq_true, Bool.or_eq_true] at stopping
    refine stopping.2.resolve_right fun reached => ?_
    rw [sameRest, keeps.rests (keeps.reached_before after active reached)] at awake
    cases awake
  · intro unwinding done paused awake
    have pausedThen := (Controller.isPaused_congr sameState).symm.trans paused
    obtain ⟨busy, inside, deep⟩ := waits after active pausedThen (by simp [done]) unwinding
    rw [controller]
    exact ⟨keeps.line_leftOver after fine (sameRest ▸ awake) pausedThen done busy inside, busy,
      deep⟩
  · intro awake
    rw [controller, Controller.noted, refreshed]
    exact keeps.reason (sameRest ▸ awake)
  · have primed := keeps.primed
    rw [controller, refreshed]
    exact Controller.primed_noted primed

theorem going (keeps : Matches loaded t p) (quits : Bool) (proceeds : p.Proceeds request budget) :
    t.halted loaded quits = false := by
  have calm := keeps.calm proceeds
  have goesOn := proceeds.goesOn
  simp only [Controller.shouldStop, Bool.or_eq_false_iff] at goesOn
  have noStop := goesOn.1.1.1
  rw [keeps.reached, keeps.unwinding] at noStop
  unfold Tickless.halted
  rw [keeps.follows.fine, keeps.program, proceeds.incomplete, calm]
  simpa using noStop

end Matches

structure Meets (loaded : Loaded) (quits : Bool) (u : Tickless) (live : Live Machine) : Prop where
  follows : Follows loaded u.steps live
  sound : live.program.Sound live.lines
  controller : live.controller = u.controller
  asked : live.response.seenEmptyQueue = u.asked
  reason : live.controller.isAtRest = false → live.controller.stopReason = none
  primed : live.controller.beginTick.1 = live.controller
  calm : u.halted loaded quits = false → u.asked = false → u.unwinding = false

inductive Closes (loaded : Loaded) (quits : Bool) (u : Tickless) (q : Progress Machine) :
    Ending → Prop where
  | failed {error : StepError} {line : Option Nat}
      (failure : (Alone.after loaded u.steps).failure =
        some (error.message, Scheduler.failureLine q.live error line)) :
      Closes loaded quits u q (.failed error line)
  | between {ending : Ending} (fine : ∀ error line, ending ≠ .failed error line)
      (meets : Meets loaded quits u q.live) : Closes loaded quits u q ending

theorem Matches.closes {loaded : Loaded} {t : Tickless} {p : Progress Machine} {quits : Bool}
    {ending : Ending} (keeps : Matches loaded t p)
    (fine : ∀ error line, ending ≠ .failed error line)
    (calm : t.halted loaded quits = false → t.asked = false → t.unwinding = false) :
    Closes loaded quits t p ending :=
  .between fine ⟨keeps.follows, keeps.sound, keeps.controller, keeps.asked, keeps.reason,
    keeps.primed, calm⟩

theorem Matches.pass_ends {loaded : Loaded} {start : Nat} {t : Tickless} {p q : Progress Machine}
    {breakpoints : Breakpoints} {request : Request} {budget : Nat} {ending : Ending} (quits : Bool)
    (keeps : Matches loaded t p) (tells : TellsAlone loaded start t.steps p.notices)
    (tick : request.untilReturn = false)
    (ends : p.pass breakpoints request budget = (q, some ending)) :
    ∃ u, t.Leads loaded breakpoints quits u ∧ Closes loaded quits u q ending ∧
      TellsAlone loaded start u.steps q.notices := by
  cases pass_ending ends with
  | stopped stops =>
    refine ⟨t, fun _ halts => halts, keeps.closes (by simp) fun _ quiet => ?_, tells⟩
    rw [Controller.shouldStop, keeps.unwinding, Response.signals, keeps.asked, quiet, tick] at stops
    cases unwinding : t.unwinding with
    | false => rfl
    | true => simp [unwinding] at stops
  | exhausted _ still =>
    exact ⟨t, fun _ halts => halts, keeps.closes (by simp) fun _ _ => keeps.unwinding ▸ still,
      tells⟩
  | complete complete =>
    refine ⟨t, fun _ halts => halts, keeps.closes (by simp) fun going => ?_, tells⟩
    rw [Tickless.halted, keeps.program, complete, Bool.or_true] at going
    cases going
  | failed proceeds passesBy fails after =>
    have going := keeps.going quits proceeds
    have calm := keeps.calm proceeds
    have next : (t.next loaded breakpoints).steps = t.steps + 1 := by
      rw [Tickless.next_stepped calm ((keeps.arrival breakpoints).2.2.trans passesBy)]
    obtain ⟨result, -, -, -⟩ := stepped_alone request keeps.follows.queue keeps.follows.unasked
    rw [result] at fails
    refine ⟨_, fun _ halts => .next going halts, .failed ?_, ?_⟩
    · rw [next, after_step keeps.follows, fails, Scheduler.failureLine, after.lines,
        after.lastLine]
      rfl
    · rw [next]
      exact after.tells keeps.follows tells
  | rested proceeds passesBy fine after rests =>
    have next := keeps.next_stepped proceeds passesBy after fine
    have resting : q.live.controller.isAtRest = true := by
      rw [after.controller_eq, rests]
      rfl
    have calm : q.burst.unwinding = false := by
      have why := after.rests_eq
      rw [rests] at why
      simp only [Bool.true_eq, Bool.and_eq_true, Bool.not_eq_true'] at why
      exact why.1.2
    refine ⟨_, fun _ halts => .next (keeps.going quits proceeds) halts, ?_, ?_⟩
    · rw [next]
      refine .between (by simp) ⟨after.follows fine keeps.follows,
        pass_sound ends (by simp) keeps.sound, rfl, rfl, ?_, ?_, fun _ _ => calm⟩
      · intro awake
        rw [resting] at awake
        cases awake
      · rw [after.controller_eq, rests]
        rfl
    · rw [next]
      exact after.toTook.tells keeps.follows tells

theorem Matches.passes {loaded : Loaded} {start fuel : Nat} {t : Tickless}
    {p q : Progress Machine} {breakpoints : Breakpoints} {request : Request} {budget : Nat}
    {ending : Ending} (quits : Bool) (keeps : Matches loaded t p)
    (tells : TellsAlone loaded start t.steps p.notices) (tick : request.untilReturn = false)
    (ends : p.passes breakpoints request budget fuel = (q, ending)) (uncut : ending ≠ .cutOff) :
    ∃ u, t.Leads loaded breakpoints quits u ∧ Closes loaded quits u q ending ∧
      TellsAlone loaded start u.steps q.notices := by
  induction fuel generalizing t p with
  | zero =>
    cases ends
    exact absurd rfl uncut
  | succ fuel ih =>
    unfold Progress.passes at ends
    split at ends
    · rename_i last passed
      cases ends
      exact keeps.pass_ends quits tells tick passed
    · rename_i next passed
      obtain ⟨proceeds, moves⟩ := pass_none passed
      obtain ⟨follows, told⟩ : Matches loaded (t.next loaded breakpoints) next ∧
          TellsAlone loaded start (t.next loaded breakpoints).steps next.notices := by
        rcases moves with ⟨arrives, after⟩ | ⟨passesBy, fine, after, active⟩
        · refine ⟨keeps.arrived proceeds arrives after passed, ?_⟩
          rw [Tickless.next_arrived (keeps.calm proceeds)
            ((keeps.arrival breakpoints).2.2.trans arrives)]
          refine tells.of_transcript ?_
          rw [after.notices, transcript_noteLine]
        · refine ⟨keeps.stepped proceeds passesBy after fine active passed, ?_⟩
          rw [keeps.next_stepped proceeds passesBy after fine]
          exact after.toTook.tells keeps.follows tells
      obtain ⟨u, leads, closes, tellsAll⟩ := ih follows told ends
      exact ⟨u, fun v halts => .next (keeps.going quits proceeds) (leads v halts), closes, tellsAll⟩

end Progress

end Run

end Metronome
