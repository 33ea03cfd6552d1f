import Metronome.Proofs.CallMarks
import Metronome.Proofs.Integrity

/-!
The height of a machine's stack. With a given frame on top, a step either puts one more frame on every
stack that is not full, or leaves every stack no higher than it was; which of the two depends on the
frame, the variables and the answers of the host, and not on what lies below. So no step leads past the
limit, and a full stack stops just those steps that would put a frame on it.
-/
namespace Metronome.Script

namespace Machine

variable {m : Machine} {frame : Frame} {height : Nat} {ν : Type} (natives : Natives ν) (host : ν)

def onto (m : Machine) (stack : List Frame) : Machine :=
  { m with stack }

structure StaysWithin (height : Nat) (r : Result) : Prop where
  low : r.state.stack.length ≤ height
  other : ∀ error, r.error = some error → error.message ≠ StepFault.stackFull.message

theorem succeed_within (low : m.stack.length ≤ height) : StaysWithin height (succeed m) :=
  ⟨low, nofun⟩

theorem fail_within {fault : StepFault} {offset : Option Nat} (low : m.stack.length ≤ height)
    (other : fault ≠ .stackFull) : StaysWithin height (m.fail fault offset) := by
  refine ⟨low, ?_⟩
  rintro error ⟨⟩
  exact StepFault.message_ne_full other

theorem push_within (room : m.stack.length < stackLimit) (low : m.stack.length < height) :
    StaysWithin height (m.push frame) := by
  rw [Solo.push_fits (Nat.not_le_of_lt room)]
  exact succeed_within low

theorem push_below {functions : List Function} {globals : Scope} {locals : List Scope}
    {stack : List Frame} (room : stack.length < stackLimit) :
    push ⟨functions, globals, locals, stack⟩ frame =
      succeed ⟨functions, globals, locals, frame :: stack⟩ :=
  Solo.push_fits (Nat.not_le_of_lt room)

theorem returnValue_within {value : Value} {offset : Nat} (low : m.stack.length ≤ height) :
    StaysWithin height (m.returnValue value offset) := by
  unfold returnValue
  split
  · rename_i found
    have suffix := (List.dropWhile_suffix (·.kind != .call) (l := m.stack)).length_le
    rw [found] at suffix
    exact succeed_within (suffix.trans low)
  · exact fail_within (Nat.zero_le _) nofun

theorem complete_within {place : Place} {action : Action} {value : Value}
    (room : m.stack.length < stackLimit) (low : m.stack.length < height) :
    StaysWithin height ((m.complete place action value).run natives host).1 := by
  cases action with
  | ret => exact returnValue_within (Nat.le_of_lt low)
  | set name =>
    have same := (assign_stack m name value).1
    exact push_within (same ▸ room) (same ▸ low)
  | _ => exact push_within room low

theorem runSimple_within {place : Place} {action : Action} (room : m.stack.length < stackLimit)
    (low : m.stack.length < height) :
    StaysWithin height ((m.runSimple place action).run natives host).1 := by
  rcases runSimple_cases m place action with ⟨fault, ofValue, same⟩ | ⟨value, same⟩ |
    ⟨callback, delay, same⟩
  · rw [same]
    exact fail_within (Nat.le_of_lt low) (StepFault.ne_of_isOfValue ofValue).2
  · rw [same]
    exact complete_within natives host room low
  · rw [same]
    exact complete_within natives _ room low

theorem finishBlock_length (m : Machine) : m.finishBlock.stack.length = m.stack.length := by
  unfold finishBlock
  split
  · rename_i running
    rw [running]
    rfl
  · rfl

theorem finishCall_within {value : Value} (room : m.stack.length < stackLimit)
    (low : m.stack.length < height) :
    StaysWithin height ((m.finishCall value).run natives host).1 := by
  unfold finishCall
  split
  · rename_i place action below waiting
    rw [waiting, List.length_cons] at room low
    exact complete_within natives host (Nat.lt_of_succ_lt room) (Nat.lt_of_succ_lt low)
  · rename_i place below waiting
    rw [waiting, List.length_cons] at room low
    exact push_within (Nat.lt_of_succ_lt room) (Nat.lt_of_succ_lt low)
  · exact succeed_within (Nat.le_of_lt low)

theorem finish_within (room : m.stack.length < stackLimit) (low : m.stack.length < height) :
    StaysWithin height ((m.finish frame).run natives host).1 := by
  unfold finish
  split
  · exact finishCall_within natives host room low
  · refine succeed_within ?_
    rw [finishBlock_length]
    exact Nat.le_of_lt low
  · exact succeed_within (Nat.le_of_lt low)

def Adds (m : Machine) (computation : List Frame → Native Result) : Prop :=
  ∃ under new locals after, ∀ below : List Frame, below.length < stackLimit →
    (computation below).run natives host =
      (push ⟨m.functions, m.globals, locals, under :: below⟩ new, after)

def Stays (computation : List Frame → Native Result) : Prop :=
  ∀ below : List Frame, below.length < stackLimit →
    StaysWithin (below.length + 1) ((computation below).run natives host).1

theorem eval_onto (m : Machine) (stack : List Frame) (value : Expr) :
    (m.onto stack).eval value = m.eval value := by
  cases value <;> rfl

theorem evalAll_onto (m : Machine) (stack : List Frame) (operands : List Primary) :
    (m.onto stack).evalAll operands = m.evalAll operands := by
  induction operands with
  | nil => rfl
  | cons operand operands ih =>
    rw [evalAll, evalAll, ih]
    rfl

theorem runAction_calls {place : Place} {action : Action} {call : Call}
    (calls : action.call? = some call) (room : m.stack.length < stackLimit) :
    m.runAction place action =
      .done ((m.onto (.action place action .waiting :: m.stack)).pushCall call place.offset) := by
  simp only [runAction, calls, Solo.push_fits (Nat.not_le_of_lt room)]
  rfl

theorem runAction_height (m : Machine) (place : Place) (action : Action) :
    m.Adds natives host (fun below => (m.onto below).runAction place action) ∨
      Stays natives host (fun below => (m.onto below).runAction place action) := by
  cases calls : action.call? with
  | none =>
    refine .inr fun below room => ?_
    simp only [runAction, calls]
    exact runSimple_within natives host room (Nat.lt_succ_self _)
  | some call =>
    cases given : m.evalAll call.arguments with
    | error fault =>
      refine .inr fun below room => ?_
      simp only [runAction_calls (m := m.onto below) calls room, pushCall, evalAll_onto, given]
      exact fail_within (Nat.le_refl _) (StepFault.ne_of_isOfValue (evalAll_fault given)).2
    | ok arguments =>
      refine .inl ⟨.action place action .waiting,
        .call call.name (some place.offset) (.ready arguments), m.locals, host, fun below room => ?_⟩
      simp only [runAction_calls (m := m.onto below) calls room, pushCall, evalAll_onto, given]
      rfl

theorem test_height (m : Machine) (place : Place) (condition : Expr) (body : List Node)
    (frame : Bool → Frame) :
    m.Adds natives host (fun below => .done ((m.onto below).test place condition body frame)) ∨
      Stays natives host (fun below => .done ((m.onto below).test place condition body frame)) := by
  unfold test
  simp only [eval_onto]
  cases found : m.eval condition with
  | error fault =>
    exact .inr fun below room =>
      fail_within (Nat.le_succ _) (StepFault.ne_of_isOfValue (eval_fault found)).2
  | ok value =>
    cases truth : value.truthy with
    | true =>
      refine .inl ⟨frame true, .block body (some place.offset), m.locals, host,
        fun below room => ?_⟩
      simp only [truth, if_true]
      rfl
    | false =>
      refine .inr fun below room => ?_
      simp only [truth, Bool.false_eq_true, if_false]
      exact succeed_within (Nat.le_refl _)

theorem startCall_begins {name : String} {offset : Option Nat} {arguments : List Value}
    {function : Function} (known : findFunction m.functions name = some function)
    (arity : function.parameters.length = arguments.length) (room : m.stack.length < stackLimit) :
    m.startCall name offset arguments =
      push ⟨m.functions, m.globals, Scope.ofArguments function.parameters arguments :: m.locals,
        .call name offset .running :: m.stack⟩ (.block function.body (some function.offset)) := by
  simp only [startCall, known, ne_eq, arity, not_true_eq_false, if_false,
    Solo.push_fits (Nat.not_le_of_lt room)]
  rfl

theorem startCall_height (m : Machine) (name : String) (offset : Option Nat)
    (arguments : List Value) :
    m.Adds natives host (fun below => .done ((m.onto below).startCall name offset arguments)) ∨
      Stays natives host (fun below => .done ((m.onto below).startCall name offset arguments)) := by
  cases found : findFunction m.functions name with
  | none =>
    refine .inr fun below room => ?_
    have known : findFunction (m.onto below).functions name = none := found
    simp only [startCall, known]
    exact fail_within (Nat.le_succ _) nofun
  | some function =>
    have known : ∀ below, findFunction (m.onto below).functions name = some function :=
      fun _ => found
    by_cases arity : function.parameters.length = arguments.length
    · refine .inl ⟨.call name offset .running, .block function.body (some function.offset),
        Scope.ofArguments function.parameters arguments :: m.locals, host, fun below room => ?_⟩
      simp only [startCall_begins (m := m.onto below) (known below) arity room]
      rfl
    · refine .inr fun below room => ?_
      simp only [startCall, known, ne_eq, if_pos arity]
      exact fail_within (Nat.le_succ _) nofun

theorem advance_height (m : Machine) (frame : Frame) :
    m.Adds natives host (fun below => (m.onto below).advance frame) ∨
      Stays natives host (fun below => (m.onto below).advance frame) := by
  cases frame with
  | block rest origin =>
    cases rest with
    | nil => exact .inr fun below room => succeed_within (Nat.le_succ _)
    | cons node rest =>
      exact .inl ⟨.block rest origin, .ofNode node, m.locals, host, fun _ _ => rfl⟩
  | action place action => exact runAction_height natives host m place action
  | poll place =>
    cases asked : natives.nextCallback host with
    | mk callback after =>
      cases callback with
      | none =>
        refine .inr fun below room => ?_
        simp only [advance, runPoll, Native.run, asked]
        exact succeed_within (Nat.le_refl _)
      | some callback =>
        refine .inl ⟨.poll place .waiting, .call callback.name none (.ready callback.arguments),
          m.locals, after, fun below room => ?_⟩
        simp only [advance, runPoll, Native.run, asked]
        rfl
  | loop place condition body => exact test_height natives host m place condition body _
  | branch place condition body phase =>
    cases phase with
    | waiting => exact .inr fun below room => succeed_within (Nat.le_refl _)
    | _ => exact test_height natives host m place condition body _
  | call name offset state =>
    cases state with
    | ready arguments => exact startCall_height natives host m name offset arguments
    | _ => exact .inr fun below room => succeed_within (Nat.le_refl _)

theorem step_advances (m : Machine) {top : Frame} (unfinished : top.isDone = false)
    (below : List Frame) : (m.onto (top :: below)).step = (m.onto below).advance top :=
  if_neg (Bool.eq_false_iff.mp unfinished)

/-- With this frame on top, a step puts one more frame on every stack that is not full, or leads no
higher on any. -/
theorem step_height (m : Machine) (top : Frame) :
    m.Adds natives host (fun below => (m.onto (top :: below)).step) ∨
      Stays natives host (fun below => (m.onto (top :: below)).step) := by
  cases finished : top.isDone with
  | true =>
    refine .inr fun below room => ?_
    have finishes : (m.onto (top :: below)).step = (m.onto below).finish top := if_pos finished
    simp only [finishes]
    exact finish_within natives host room (Nat.lt_succ_self _)
  | false =>
    simp only [step_advances m finished]
    exact advance_height natives host m top

theorem push_height (m : Machine) (frame : Frame) :
    (m.push frame).state.stack.length ≤ m.stack.length + 1 ∧
      (m.stack.length ≤ stackLimit → (m.push frame).state.stack.length ≤ stackLimit) := by
  unfold push
  split
  · exact ⟨Nat.le_succ _, id⟩
  · rename_i room
    exact ⟨Nat.le_refl _, fun _ => Nat.lt_of_not_le room⟩

theorem push_full_iff (m : Machine) (frame : Frame) :
    (∃ error, (m.push frame).error = some error ∧
      error.message = StepFault.stackFull.message) ↔ stackLimit ≤ m.stack.length := by
  unfold push
  split
  · rename_i full
    exact iff_of_true ⟨_, rfl, rfl⟩ full
  · rename_i room
    exact iff_of_false (by rintro ⟨error, ⟨⟩, -⟩) room

/-- Whether with these answers a step puts one more frame on the stack where there is room for it: it
does so when only the upper part of the stack is there. -/
def WouldAdd (m : Machine) (natives : Natives ν) (host : ν) : Prop :=
  ∀ upper lower, m.stack = upper ++ lower → upper ≠ [] → lower ≠ [] →
    let r := ((m.onto upper).step.run natives host).1
    r.error = none ∧ r.state.stack.length = upper.length + 1

theorem Adds.wouldAdd {top : Frame} {below : List Frame} (stack : m.stack = top :: below)
    (fits : m.stack.length ≤ stackLimit)
    (adds : m.Adds natives host fun below => (m.onto (top :: below)).step) :
    m.WouldAdd natives host := by
  obtain ⟨under, new, locals, after, pushes⟩ := adds
  intro upper lower split filled left
  cases upper with
  | nil => exact absurd rfl filled
  | cons first rest =>
    have shorter : rest.length + 1 < stackLimit := by
      have more := List.length_pos_iff.mpr left
      rw [split, List.length_append, List.length_cons] at fits
      omega
    obtain rfl : top = first := by
      rw [stack] at split
      exact (List.cons.inj split).1
    dsimp only
    rw [pushes rest (Nat.lt_of_succ_lt shorter), push_below]
    · exact ⟨rfl, rfl⟩
    · exact shorter

theorem step_limited (m : Machine) (fits : m.stack.length ≤ stackLimit) :
    let r := (m.step.run natives host).1
    r.state.stack.length ≤ stackLimit ∧ r.state.stack.length ≤ m.stack.length + 1 ∧
      ((∃ error, r.error = some error ∧ error.message = StepFault.stackFull.message) ↔
        m.stack.length = stackLimit ∧ m.WouldAdd natives host) := by
  cases stack : m.stack with
  | nil =>
    have idle : m.step = .done (succeed m) := by rw [step, stack]
    rw [idle]
    refine ⟨fits, by rw [← stack]; exact Nat.le_succ _, iff_of_false ?_ ?_⟩
    · rintro ⟨error, ⟨⟩, -⟩
    · rintro ⟨height, -⟩
      exact absurd height (by decide)
  | cons top below =>
    have whole : m.onto (top :: below) = m := by rw [← stack]; rfl
    rw [stack] at fits
    rcases step_height natives host m top with adds | stays
    · have added := adds.wouldAdd natives host stack (stack ▸ fits)
      obtain ⟨under, new, locals, after, pushes⟩ := adds
      have steps : (m.onto (top :: below)).step.run natives host =
          (push ⟨m.functions, m.globals, locals, under :: below⟩ new, after) := pushes below fits
      rw [whole] at steps
      dsimp only
      rw [steps, push_full_iff]
      obtain ⟨rises, limited⟩ := push_height ⟨m.functions, m.globals, locals, under :: below⟩ new
      refine ⟨limited fits, rises, fun full => ⟨Nat.le_antisymm fits full, added⟩, fun full => ?_⟩
      exact full.1.ge
    · have low : StaysWithin (below.length + 1)
          ((m.onto (top :: below)).step.run natives host).1 := stays below fits
      rw [whole] at low
      refine ⟨low.low.trans fits, low.low.trans (Nat.le_succ _), iff_of_false ?_ ?_⟩
      · rintro ⟨error, fails, message⟩
        exact low.other error fails message
      · -- With nothing below it the top frame would be put under another, which it is not.
        rintro ⟨height, adds⟩
        have left : below ≠ [] := by
          rintro rfl
          exact absurd height (by decide : ¬ 1 = stackLimit)
        have more := (adds [top] below stack (List.cons_ne_nil _ _) left).2
        have alone := (stays [] (by decide)).low
        rw [more] at alone
        exact absurd alone (Nat.not_succ_le_self 1)

end Machine

/-- The machines that a program comes to, whatever its hosts answer, and also with steps that are taken
after one that has failed. -/
inductive Machine.SteppedBy (program : Program) : Machine → Prop where
  | start : SteppedBy program (.ofProgram program)
  | step {m : Machine} {ν : Type} (before : SteppedBy program m) (natives : Natives ν) (host : ν) :
      SteppedBy program (m.step.run natives host).1.state

theorem Machine.SteppedBy.limited {program : Program} {m : Machine} (stepped : m.SteppedBy program) :
    m.stack.length ≤ stackLimit := by
  induction stepped with
  | start => exact (by decide : 1 ≤ stackLimit)
  | step before natives host ih => exact (Machine.step_limited natives host _ ih).1

/-- Whatever program is run, whatever its hosts answer and whether steps have failed before, its stack
never holds more than 3000 frames, and a step leads at most one frame higher. A step fails for
exceeding the stack exactly when there are 3000 frames and the step would add one. -/
theorem stack_bounded {program : Program} {m : Machine} (stepped : m.SteppedBy program) {ν : Type}
    (natives : Natives ν) (host : ν) :
    let r := (m.step.run natives host).1
    m.stack.length ≤ 3000 ∧ r.state.stack.length ≤ m.stack.length + 1 ∧
      ((∃ error, r.error = some error ∧
          error.message = "Maximum call stack size exceeded") ↔
        m.stack.length = 3000 ∧ m.WouldAdd natives host) := by
  obtain ⟨-, rises, full⟩ := Machine.step_limited natives host m stepped.limited
  exact ⟨stepped.limited, rises, full⟩

def plunging : Program where
  body := [.action ⟨20, 4⟩ (.call ⟨"f", []⟩)]
  functions := [⟨"f", [], [.action ⟨9, 2⟩ (.call ⟨"f", []⟩)], 0⟩]

theorem Machine.SteppedBy.advances {program : Program} {m after : Machine} {top : Frame}
    {below : List Frame} (stepped : (m.onto (top :: below)).SteppedBy program)
    (unfinished : top.isDone = false)
    (leads : (m.onto below).advance top = .done (Machine.succeed after)) :
    after.SteppedBy program := by
  have next := stepped.step Journal.natives ⟨[], false⟩
  rwa [Machine.step_advances m unfinished, leads] at next

theorem plunging_fills (n : Nat) (fits : 3 * n + 3 ≤ stackLimit) :
    ∃ locals origin below, Machine.SteppedBy plunging
      ⟨plunging.functions, [], locals, .call "f" origin (.ready []) :: below⟩ ∧
        below.length = 3 * n + 2 := by
  induction n with
  | zero =>
    have begins : Machine.SteppedBy plunging _ := .start
    have called := (begins.step Journal.natives ⟨[], false⟩).step Journal.natives ⟨[], false⟩
    exact ⟨_, _, _, called, rfl⟩
  | succ n ih =>
    obtain ⟨locals, origin, below, ready, height⟩ := ih (by omega)
    have room : below.length + 3 < stackLimit := by omega
    have begun : Machine.SteppedBy plunging ⟨plunging.functions, [], [] :: locals,
        .block [.action ⟨9, 2⟩ (.call ⟨"f", []⟩)] (some 0) :: .call "f" origin .running :: below⟩ := by
      refine ready.advances (m := ⟨plunging.functions, [], locals, []⟩) rfl ?_
      rw [Machine.advance, Machine.startCall_begins rfl rfl, Machine.push_below]
      · rfl
      · change below.length + 1 < stackLimit
        omega
      · change below.length < stackLimit
        omega
    have entered : Machine.SteppedBy plunging ⟨plunging.functions, [], [] :: locals,
        .action ⟨9, 2⟩ (.call ⟨"f", []⟩) .ready :: .block [] (some 0) ::
          .call "f" origin .running :: below⟩ := by
      refine begun.advances (m := ⟨plunging.functions, [], [] :: locals, []⟩) rfl ?_
      refine congrArg Native.done (Machine.push_below ?_)
      change below.length + 2 < stackLimit
      omega
    have called : Machine.SteppedBy plunging ⟨plunging.functions, [], [] :: locals,
        .call "f" (some 9) (.ready []) :: .action ⟨9, 2⟩ (.call ⟨"f", []⟩) .waiting ::
          .block [] (some 0) :: .call "f" origin .running :: below⟩ := by
      refine entered.advances (m := ⟨plunging.functions, [], [] :: locals, []⟩) rfl ?_
      rw [Machine.advance, Machine.runAction_calls rfl]
      · exact congrArg Native.done (Machine.push_below room)
      · change below.length + 2 < stackLimit
        omega
    refine ⟨_, _, _, called, ?_⟩
    simp only [List.length_cons, height]
    omega

/-- The call that finds the stack full fails; with fewer frames below it, it would add one. -/
theorem plunging_bounded : ∃ m, Machine.SteppedBy plunging m ∧ m.stack.length = 3000 ∧
    (∃ error, (m.step.run Journal.natives ⟨[], false⟩).1.error = some error ∧
      error.message = "Maximum call stack size exceeded") ∧
    m.WouldAdd Journal.natives ⟨[], false⟩ := by
  obtain ⟨locals, origin, below, stepped, height⟩ := plunging_fills 999 (by decide)
  have begins : Machine.step ⟨plunging.functions, [], locals,
      .call "f" origin (.ready []) :: below⟩ = .done (Machine.push
        ⟨plunging.functions, [], [] :: locals, .call "f" origin .running :: below⟩
        (.block [.action ⟨9, 2⟩ (.call ⟨"f", []⟩)] (some 0))) := by
    refine (Machine.step_advances ⟨plunging.functions, [], locals, []⟩ rfl below).trans ?_
    rw [Machine.advance, Machine.startCall_begins rfl rfl]
    · rfl
    · change below.length < stackLimit
      rw [height]
      decide
  obtain ⟨-, -, full⟩ := stack_bounded stepped Journal.natives ⟨[], false⟩
  rw [begins] at full
  have fails := (Machine.push_full_iff
    ⟨plunging.functions, [], [] :: locals, .call "f" origin .running :: below⟩
    (.block [.action ⟨9, 2⟩ (.call ⟨"f", []⟩)] (some 0))).mpr
      (by rw [List.length_cons, height]; decide)
  refine ⟨_, stepped, by rw [List.length_cons, height], ?_, (full.mp fails).2⟩
  rw [begins]
  exact fails

end Metronome.Script

namespace Metronome.Run

open Metronome.Script (Machine stackLimit)

def givingOut : Natives (List (Option Callback)) where
  nextCallback callbacks := (callbacks.head?.join, callbacks.tail)
  giveBack _ callbacks := callbacks
  setTimeout _ _ callbacks := callbacks
  output _ callbacks := callbacks

theorem yields_run {α : Type} {computation : Native α} {answers : List Bool} {result : α}
    (yields : computation.Yields answers result) :
    ∃ callbacks, (computation.run givingOut callbacks).1 = result := by
  induction yields with
  | done result => exact ⟨[], rfl⟩
  | nextCallback callback rest ih =>
    obtain ⟨callbacks, same⟩ := ih
    exact ⟨callback :: callbacks, same⟩
  | giveBack value after ih => exact ih
  | setTimeout callback delay after ih => exact ih
  | output line after ih => exact ih

theorem limited_invariant : Invariant fun _ m => m.stack.length ≤ stackLimit where
  accepted accepted := by
    obtain ⟨program, same, -⟩ := accepted.program
    rw [same]
    exact (by decide : 1 ≤ stackLimit)
  step fits yields _ := by
    obtain ⟨callbacks, rfl⟩ := yields_run yields
    exact (Machine.step_limited givingOut callbacks _ fits).1

/-- The depths that a debugger takes in are those of stacks within the limit. -/
theorem Reachable.depths_limited {φ : Type} {s : Scheduler Machine φ} (reachable : Reachable s)
    {live : Live Machine} (here : s.live = some live) :
    live.controller.depths.current ≤ stackLimit ∧
      ∀ mark ∈ live.controller.depths.marks, mark ≤ stackLimit := by
  have fits := limited_invariant.reachable reachable here
  obtain ⟨current, marks⟩ := (reachable.tallies here).le
  exact ⟨current.trans fits, fun mark member => (marks mark member).trans fits⟩

end Metronome.Run
