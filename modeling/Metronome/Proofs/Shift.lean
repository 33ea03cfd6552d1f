import Metronome.Script.Machine

/-!
What one step of a machine does to its stack. `Shift` lists every way in which a step that does not
fail changes the stack, with the answers that it got to its requests for a callback; what follows
for runs is argued from it and not from the machine's functions.
-/
namespace Metronome

namespace Native

/-- The results that a computation can come to, each with the answers to its requests for a
callback: whether one came. -/
inductive Yields {α : Type} : Native α → List Bool → α → Prop where
  | done (result : α) : Yields (.done result) [] result
  | nextCallback {resume : Option Callback → Native α} {answers : List Bool} {result : α}
      (callback : Option Callback) (rest : Yields (resume callback) answers result) :
      Yields (.nextCallback resume) (callback.isSome :: answers) result
  | giveBack {rest : Native α} {answers : List Bool} {result : α} (value : Value)
      (after : Yields rest answers result) : Yields (.giveBack value rest) answers result
  | setTimeout {rest : Native α} {answers : List Bool} {result : α} (callback : Callback)
      (delay : Duration) (after : Yields rest answers result) :
      Yields (.setTimeout callback delay rest) answers result
  | output {rest : Native α} {answers : List Bool} {result : α} (line : String)
      (after : Yields rest answers result) : Yields (.output line rest) answers result

variable {α : Type} {answers : List Bool} {result : α}

@[simp] theorem yields_done {other : α} :
    (done other).Yields answers result ↔ answers = [] ∧ result = other := by
  constructor
  · intro yields
    cases yields
    exact ⟨rfl, rfl⟩
  · rintro ⟨rfl, rfl⟩
    exact .done _

@[simp] theorem yields_output {line : String} {rest : Native α} :
    (output line rest).Yields answers result ↔ rest.Yields answers result := by
  constructor
  · intro yields
    cases yields
    assumption
  · exact .output line

@[simp] theorem yields_giveBack {value : Value} {rest : Native α} :
    (giveBack value rest).Yields answers result ↔ rest.Yields answers result := by
  constructor
  · intro yields
    cases yields
    assumption
  · exact .giveBack value

@[simp] theorem yields_setTimeout {callback : Callback} {delay : Duration} {rest : Native α} :
    (setTimeout callback delay rest).Yields answers result ↔ rest.Yields answers result := by
  constructor
  · intro yields
    cases yields
    assumption
  · exact .setTimeout callback delay

@[simp] theorem yields_nextCallback {resume : Option Callback → Native α} :
    (nextCallback resume).Yields answers result ↔
      ∃ callback given, answers = callback.isSome :: given ∧
        (resume callback).Yields given result := by
  constructor
  · intro yields
    cases yields with
    | nextCallback callback rest => exact ⟨callback, _, rfl, rest⟩
  · rintro ⟨callback, given, rfl, rest⟩
    exact .nextCallback callback rest

end Native

namespace Script

def Action.isReturn : Action → Bool
  | .ret _ => true
  | _ => false

def Expr.always : Expr :=
  .primary (.literal (.bool true))

def Frame.isNode : Frame → Bool
  | .block _ _ => false
  | .call _ _ _ => false
  | _ => true

def toCall (stack : List Frame) : List Frame :=
  stack.dropWhile (·.kind != .call)

/-- What a step that does not fail does to the stack. -/
inductive Shift (functions : List Function) : List Frame → List Bool → List Frame → Prop where
  | idle : Shift functions [] [] []
  | leave {frame : Frame} {below : List Frame} (node : frame.isNode = true)
      (finished : frame.isDone = true) : Shift functions (frame :: below) [] below
  | leaveBlock {origin : Option Nat} {below : List Frame}
      (noCall : ∀ name offset rest, below ≠ .call name offset .running :: rest) :
      Shift functions (.block [] origin :: below) [] below
  | endCall {origin : Option Nat} {name : String} {offset : Option Nat} {below : List Frame} :
      Shift functions (.block [] origin :: .call name offset .running :: below) []
        (.call name offset (.returned .null) :: below)
  | resume {name : String} {offset : Option Nat} {value : Value} {place : Place} {action : Action}
      {below : List Frame} (noReturn : action.isReturn = false) :
      Shift functions (.call name offset (.returned value) :: .action place action .waiting :: below)
        [] (.action place action .done :: below)
  | handOn {name outer : String} {offset origin : Option Nat} {value : Value} {state : CallState}
      {place : Place} {action : Action} {below rest : List Frame} (returns : action.isReturn = true)
      (found : toCall below = .call outer origin state :: rest) :
      Shift functions (.call name offset (.returned value) :: .action place action .waiting :: below)
        [] (.call outer origin (.returned value) :: rest)
  | answered {name : String} {offset : Option Nat} {value : Value} {place : Place}
      {below : List Frame} :
      Shift functions (.call name offset (.returned value) :: .poll place .waiting :: below) []
        (.poll place .done :: below)
  | drop {name : String} {offset : Option Nat} {value : Value} {below : List Frame}
      (noAction : ∀ place action rest, below ≠ .action place action .waiting :: rest)
      (noPoll : ∀ place rest, below ≠ .poll place .waiting :: rest) :
      Shift functions (.call name offset (.returned value) :: below) [] below
  | enter {node : Node} {nodes : List Node} {origin : Option Nat} {below : List Frame} :
      Shift functions (.block (node :: nodes) origin :: below) []
        (.ofNode node :: .block nodes origin :: below)
  | act {place : Place} {action : Action} {phase : Phase} {below : List Frame}
      (unfinished : phase ≠ .done) (noCall : action.call? = none)
      (noReturn : action.isReturn = false) :
      Shift functions (.action place action phase :: below) [] (.action place action .done :: below)
  | giveUp {place : Place} {action : Action} {phase : Phase} {name : String}
      {origin : Option Nat} {state : CallState} {value : Value} {below rest : List Frame}
      (unfinished : phase ≠ .done) (noCall : action.call? = none)
      (returns : action.isReturn = true) (found : toCall below = .call name origin state :: rest) :
      Shift functions (.action place action phase :: below) []
        (.call name origin (.returned value) :: rest)
  | call {place : Place} {action : Action} {phase : Phase} {target : Call}
      {arguments : List Value} {below : List Frame} (unfinished : phase ≠ .done)
      (calls : action.call? = some target) :
      Shift functions (.action place action phase :: below) []
        (.call target.name (some place.offset) (.ready arguments) ::
          .action place action .waiting :: below)
  | loopOn {place : Place} {condition : Expr} {body : List Node} {below : List Frame} :
      Shift functions (.loop place condition body false :: below) []
        (.block body (some place.offset) :: .loop place condition body false :: below)
  | loopOff {place : Place} {condition : Expr} {body : List Node} {below : List Frame}
      (ends : condition ≠ .always) :
      Shift functions (.loop place condition body false :: below) []
        (.loop place condition body true :: below)
  | branchOn {place : Place} {condition : Expr} {body : List Node} {below : List Frame} :
      Shift functions (.branch place condition body .ready :: below) []
        (.block body (some place.offset) :: .branch place condition body .waiting :: below)
  | branchOff {place : Place} {condition : Expr} {body : List Node} {below : List Frame} :
      Shift functions (.branch place condition body .ready :: below) []
        (.branch place condition body .done :: below)
  | branchBack {place : Place} {condition : Expr} {body : List Node} {below : List Frame} :
      Shift functions (.branch place condition body .waiting :: below) []
        (.branch place condition body .done :: below)
  | begin {name : String} {offset : Option Nat} {arguments : List Value} {function : Function}
      {below : List Frame} (found : findFunction functions name = some function) :
      Shift functions (.call name offset (.ready arguments) :: below) []
        (.block function.body (some function.offset) :: .call name offset .running :: below)
  | surface {name : String} {offset : Option Nat} {below : List Frame} :
      Shift functions (.call name offset .running :: below) []
        (.call name offset (.returned .null) :: below)
  | pollNone {place : Place} {phase : Phase} {below : List Frame} (unfinished : phase ≠ .done) :
      Shift functions (.poll place phase :: below) [false] (.poll place .done :: below)
  | pollSome {place : Place} {phase : Phase} {name : String} {arguments : List Value}
      {below : List Frame} (unfinished : phase ≠ .done) :
      Shift functions (.poll place phase :: below) [true]
        (.call name none (.ready arguments) :: .poll place .waiting :: below)

theorem Shift.asked {functions : List Function} {stack after : List Frame} {answers : List Bool}
    (shift : Shift functions stack answers after) (asked : answers.contains false = true) :
    ∃ place phase below, phase ≠ .done ∧ stack = .poll place phase :: below ∧
      after = .poll place .done :: below := by
  cases shift with
  | pollNone unfinished => exact ⟨_, _, _, unfinished, rfl, rfl⟩
  | _ => simp at asked

namespace Machine

theorem push_state {m : Machine} {frame : Frame} (fine : (m.push frame).error = none) :
    (m.push frame).state = { m with stack := frame :: m.stack } := by
  unfold push at fine ⊢
  split
  · rename_i full
    simp [full, fail] at fine
  · rfl

theorem assign_stack (m : Machine) (name : String) (value : Value) :
    (m.assign name value).stack = m.stack ∧ (m.assign name value).functions = m.functions := by
  unfold assign
  split
  · exact ⟨rfl, rfl⟩
  · split <;> exact ⟨rfl, rfl⟩

theorem returnValue_state {m : Machine} {value : Value} {offset : Nat}
    (fine : (m.returnValue value offset).error = none) :
    ∃ name origin state rest, toCall m.stack = .call name origin state :: rest ∧
      (m.returnValue value offset).state =
        { m with stack := .call name origin (.returned value) :: rest, locals := m.locals.tail } := by
  unfold returnValue at fine ⊢
  split
  · rename_i name origin state rest found
    exact ⟨name, origin, state, rest, found, rfl⟩
  · rename_i missing
    split at fine
    · rename_i found
      exact absurd found (missing _ _ _ _)
    · cases fine

theorem complete_stack {m : Machine} {place : Place} {action : Action} {value : Value}
    {answers : List Bool} {r : Result} (noReturn : action.isReturn = false)
    (yields : (m.complete place action value).Yields answers r) (fine : r.error = none) :
    answers = [] ∧ r.state.stack = .action place action .done :: m.stack ∧
      r.state.functions = m.functions := by
  cases action with
  | ret value => cases noReturn
  | set name =>
    obtain ⟨rfl, rfl⟩ := Native.yields_done.mp yields
    have same := assign_stack m name value
    rw [push_state fine]
    exact ⟨rfl, by rw [same.1], same.2⟩
  | _ =>
    simp only [complete, Native.yields_done, Native.yields_output] at yields
    obtain ⟨rfl, rfl⟩ := yields
    rw [push_state fine]
    exact ⟨rfl, rfl, rfl⟩

theorem complete_return {m : Machine} {place : Place} {action : Action} {value : Value}
    {answers : List Bool} {r : Result} (returns : action.isReturn = true)
    (yields : (m.complete place action value).Yields answers r) (fine : r.error = none) :
    answers = [] ∧ r.state.functions = m.functions ∧
      ∃ name origin state rest, toCall m.stack = .call name origin state :: rest ∧
        r.state.stack = .call name origin (.returned value) :: rest := by
  cases action with
  | ret _ =>
    obtain ⟨rfl, rfl⟩ := Native.yields_done.mp yields
    obtain ⟨name, origin, state, rest, found, after⟩ := returnValue_state fine
    rw [after]
    exact ⟨rfl, rfl, name, origin, state, rest, found, rfl⟩
  | _ => cases returns

theorem finishBlock_shift {m : Machine} {origin : Option Nat} :
    Shift m.functions (.block [] origin :: m.stack) [] m.finishBlock.stack ∧
      m.finishBlock.functions = m.functions := by
  unfold finishBlock
  split
  · rename_i name offset below running
    rw [running]
    exact ⟨.endCall, rfl⟩
  · rename_i other
    exact ⟨.leaveBlock other, rfl⟩

theorem finishCall_shift {m : Machine} {name : String} {offset : Option Nat} {value : Value}
    {answers : List Bool} {r : Result} (yields : (m.finishCall value).Yields answers r)
    (fine : r.error = none) :
    Shift m.functions (.call name offset (.returned value) :: m.stack) answers r.state.stack ∧
      r.state.functions = m.functions := by
  unfold finishCall at yields
  split at yields
  · rename_i place action below waiting
    rw [waiting]
    cases returns : action.isReturn with
    | false =>
      obtain ⟨rfl, stack, functions⟩ := complete_stack returns yields fine
      rw [stack]
      exact ⟨.resume returns, functions⟩
    | true =>
      obtain ⟨rfl, functions, outer, origin, state, rest, found, stack⟩ :=
        complete_return returns yields fine
      rw [stack]
      exact ⟨.handOn returns found, functions⟩
  · rename_i place below waiting
    simp only [Native.yields_giveBack, Native.yields_done] at yields
    obtain ⟨rfl, rfl⟩ := yields
    rw [push_state fine, waiting]
    exact ⟨.answered, rfl⟩
  · rename_i noAction noPoll
    obtain ⟨rfl, rfl⟩ := Native.yields_done.mp yields
    exact ⟨.drop noAction noPoll, rfl⟩

theorem finish_shift {m : Machine} {frame : Frame} {answers : List Bool} {r : Result}
    (finished : frame.isDone = true) (yields : (m.finish frame).Yields answers r)
    (fine : r.error = none) :
    Shift m.functions (frame :: m.stack) answers r.state.stack ∧
      r.state.functions = m.functions := by
  cases frame with
  | call name offset state =>
    cases state with
    | returned value => exact finishCall_shift yields fine
    | _ => cases finished
  | block rest origin =>
    cases rest with
    | nil =>
      obtain ⟨rfl, rfl⟩ := Native.yields_done.mp yields
      exact finishBlock_shift
    | cons => cases finished
  | _ =>
    obtain ⟨rfl, rfl⟩ := Native.yields_done.mp yields
    exact ⟨.leave rfl finished, rfl⟩

theorem fail_error {m : Machine} {fault : StepFault} {offset : Option Nat} :
    (m.fail fault offset).error ≠ none := by
  simp [fail]

theorem eval_always {m : Machine} {value : Value} (found : m.eval .always = .ok value) :
    value = .bool true := by
  simp only [Expr.always, eval, evalPrimary] at found
  cases found
  rfl

theorem test_state {m : Machine} {place : Place} {condition : Expr} {body : List Node}
    {frame : Bool → Frame} (fine : (m.test place condition body frame).error = none) :
    (m.test place condition body frame).state =
        { m with stack := .block body (some place.offset) :: frame true :: m.stack } ∨
      (m.test place condition body frame).state = m.restore (frame false) ∧
        condition ≠ .always := by
  unfold test at fine ⊢
  split
  · rename_i fault found
    simp [found, fail] at fine
  · rename_i value found
    simp only [found] at fine
    cases truth : value.truthy with
    | true =>
      simp only [truth, if_true] at fine ⊢
      exact .inl (push_state fine)
    | false =>
      refine .inr ⟨rfl, ?_⟩
      rintro rfl
      rw [eval_always found] at truth
      cases truth

theorem runSimple_complete {m : Machine} {place : Place} {action : Action} {answers : List Bool}
    {r : Result} (yields : (m.runSimple place action).Yields answers r) (fine : r.error = none) :
    ∃ value, (m.complete place action value).Yields answers r := by
  unfold runSimple at yields
  dsimp only at yields
  split at yields
  case h_4 =>
    split at yields
    · obtain ⟨rfl, rfl⟩ := Native.yields_done.mp yields
      exact absurd fine fail_error
    · exact ⟨_, Native.yields_setTimeout.mp yields⟩
  case h_5 => exact ⟨_, yields⟩
  all_goals
    split at yields
    · obtain ⟨rfl, rfl⟩ := Native.yields_done.mp yields
      exact absurd fine fail_error
    · exact ⟨_, yields⟩

theorem pushCall_state {m : Machine} {call : Call} {offset : Nat}
    (fine : (m.pushCall call offset).error = none) :
    ∃ arguments, (m.pushCall call offset).state =
      { m with stack := .call call.name (some offset) (.ready arguments) :: m.stack } := by
  unfold pushCall at fine ⊢
  split
  · rename_i found
    simp [found, fail] at fine
  · rename_i arguments found
    simp only [found] at fine
    exact ⟨arguments, push_state fine⟩

theorem runAction_shift {m : Machine} {place : Place} {action : Action} {phase : Phase}
    {answers : List Bool} {r : Result} (unfinished : phase ≠ .done)
    (yields : (m.runAction place action).Yields answers r) (fine : r.error = none) :
    Shift m.functions (.action place action phase :: m.stack) answers r.state.stack ∧
      r.state.functions = m.functions := by
  unfold runAction at yields
  split at yields
  · rename_i noCall
    obtain ⟨value, completes⟩ := runSimple_complete yields fine
    cases returns : action.isReturn with
    | false =>
      obtain ⟨rfl, stack, functions⟩ := complete_stack returns completes fine
      rw [stack]
      exact ⟨.act unfinished noCall returns, functions⟩
    | true =>
      obtain ⟨rfl, functions, name, origin, state, rest, found, stack⟩ :=
        complete_return returns completes fine
      rw [stack]
      exact ⟨.giveUp unfinished noCall returns found, functions⟩
  · rename_i target calls
    dsimp only at yields
    split at yields
    · rename_i error found
      obtain ⟨rfl, rfl⟩ := Native.yields_done.mp yields
      rw [found] at fine
      cases fine
    · rename_i pushed
      obtain ⟨rfl, rfl⟩ := Native.yields_done.mp yields
      rw [push_state pushed] at fine ⊢
      obtain ⟨arguments, after⟩ := pushCall_state fine
      rw [after]
      exact ⟨.call unfinished calls, rfl⟩

theorem startCall_state {m : Machine} {name : String} {offset : Option Nat}
    {arguments : List Value} (fine : (m.startCall name offset arguments).error = none) :
    ∃ function, findFunction m.functions name = some function ∧
      (m.startCall name offset arguments).state =
        { m with
          stack := .block function.body (some function.offset) ::
            .call name offset .running :: m.stack
          locals := Scope.ofArguments function.parameters arguments :: m.locals } := by
  unfold startCall at fine ⊢
  split
  · rename_i missing
    simp [missing, fail] at fine
  · rename_i function found
    simp only [found] at fine
    split at fine
    · exact absurd fine fail_error
    · rename_i arity
      rw [if_neg arity]
      split at fine
      · rename_i error failed
        rw [failed] at fine
        cases fine
      · rename_i pushed
        simp only [pushed]
        rw [push_state pushed] at fine ⊢
        exact ⟨function, found, push_state fine⟩

theorem advance_shift {m : Machine} {frame : Frame} {answers : List Bool} {r : Result}
    (unfinished : frame.isDone = false) (yields : (m.advance frame).Yields answers r)
    (fine : r.error = none) :
    Shift m.functions (frame :: m.stack) answers r.state.stack ∧
      r.state.functions = m.functions := by
  cases frame with
  | block rest origin =>
    cases rest with
    | nil => cases unfinished
    | cons node nodes =>
      obtain ⟨rfl, rfl⟩ := Native.yields_done.mp yields
      rw [push_state fine]
      exact ⟨.enter, rfl⟩
  | action place action phase =>
    exact runAction_shift (by simpa [Frame.isDone] using unfinished) yields fine
  | poll place phase =>
    have ready : phase ≠ .done := by simpa [Frame.isDone] using unfinished
    simp only [advance, runPoll, Native.yields_nextCallback] at yields
    obtain ⟨callback, given, rfl, rest⟩ := yields
    cases callback with
    | none =>
      obtain ⟨rfl, rfl⟩ := Native.yields_done.mp rest
      exact ⟨.pollNone ready, rfl⟩
    | some callback =>
      obtain ⟨rfl, rfl⟩ := Native.yields_done.mp rest
      rw [push_state fine]
      exact ⟨.pollSome ready, rfl⟩
  | loop place condition body done =>
    cases done with
    | true => cases unfinished
    | false =>
      obtain ⟨rfl, rfl⟩ := Native.yields_done.mp yields
      rcases test_state fine with leaves | ⟨leaves, ends⟩
      · rw [leaves]
        exact ⟨.loopOn, rfl⟩
      · rw [leaves]
        exact ⟨.loopOff ends, rfl⟩
  | branch place condition body phase =>
    cases phase with
    | done => cases unfinished
    | waiting =>
      obtain ⟨rfl, rfl⟩ := Native.yields_done.mp yields
      exact ⟨.branchBack, rfl⟩
    | ready =>
      obtain ⟨rfl, rfl⟩ := Native.yields_done.mp yields
      rcases test_state fine with leaves | ⟨leaves, -⟩
      · rw [leaves]
        exact ⟨.branchOn, rfl⟩
      · rw [leaves]
        exact ⟨.branchOff, rfl⟩
  | call name offset state =>
    cases state with
    | returned value => cases unfinished
    | ready arguments =>
      obtain ⟨rfl, rfl⟩ := Native.yields_done.mp yields
      obtain ⟨function, found, leaves⟩ := startCall_state fine
      rw [leaves]
      exact ⟨.begin found, rfl⟩
    | running =>
      obtain ⟨rfl, rfl⟩ := Native.yields_done.mp yields
      exact ⟨.surface, rfl⟩

/-- Every step that does not fail is a shift of the stack, and keeps the functions. -/
theorem step_shift {m : Machine} {answers : List Bool} {r : Result}
    (yields : m.step.Yields answers r) (fine : r.error = none) :
    Shift m.functions m.stack answers r.state.stack ∧ r.state.functions = m.functions := by
  unfold step at yields
  split at yields
  · rename_i empty
    obtain ⟨rfl, rfl⟩ := Native.yields_done.mp yields
    simp only [succeed, empty]
    exact ⟨.idle, trivial⟩
  · rename_i frame below stack
    rw [stack]
    dsimp only at yields
    split at yields
    · rename_i finished
      exact finish_shift finished yields fine
    · rename_i unfinished
      exact advance_shift (by simpa using unfinished) yields fine

end Machine

theorem Frame.kind_block {frame : Frame} : (frame.kind == .block) = frame.isBlock := by
  cases frame <;> rfl

section

variable {m : Machine} {frame : Frame} {below : List Frame}

theorem Machine.top_cons (stack : m.stack = frame :: below) :
    Interpreter.top m = some ⟨frame.kind, frame.isDone⟩ := by
  change m.stack.head?.map _ = _
  rw [stack]
  rfl

theorem Machine.isSafe_eq (m : Machine) :
    Interpreter.isSafe m = m.stack.head?.all fun frame => frame.isDone || frame.isBlock := by
  obtain ⟨functions, globals, locals, stack⟩ := m
  cases stack <;> rfl

theorem Machine.isSafe_cons (stack : m.stack = frame :: below) :
    Interpreter.isSafe m = (frame.isDone || frame.isBlock) := by
  rw [Machine.isSafe_eq, stack]
  rfl

theorem Machine.unsafe_cons (busy : Interpreter.isSafe m = false) :
    ∃ frame below, m.stack = frame :: below ∧ frame.isDone = false ∧ frame.isBlock = false := by
  cases stack : m.stack with
  | nil =>
    rw [Machine.isSafe_eq, stack] at busy
    cases busy
  | cons frame below =>
    rw [Machine.isSafe_cons stack, Bool.or_eq_false_iff] at busy
    exact ⟨frame, below, rfl, busy⟩

end

end Script

end Metronome
