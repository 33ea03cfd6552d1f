import Metronome.Proofs.Solo
import Metronome.Proofs.Unwinding

namespace Metronome

theorem OperandFault.message_head (fault : OperandFault) :
    fault.message.toList.head? ∈ [some 'c', some 'd', some 'r'] := by
  cases fault with
  | mismatch op left right =>
    unfold message
    simp [String.toList_append]
  | divisionByZero | notFinite => decide

namespace Script

variable {functions : List Function} {stack after : List Frame} {answers : List Bool}

inductive Node.Inside (node : Node) : List Node → Prop where
  | here {nodes : List Node} (member : node ∈ nodes) : Inside node nodes
  | loop {nodes body : List Node} {place : Place} {condition : Expr}
      (member : .loop place condition body ∈ nodes) (inner : Inside node body) : Inside node nodes
  | branch {nodes body : List Node} {place : Place} {condition : Expr}
      (member : .branch place condition body ∈ nodes) (inner : Inside node body) :
      Inside node nodes

theorem Node.Inside.loopBody {place : Place} {condition : Expr} {body nodes : List Node}
    (inside : (Node.loop place condition body).Inside nodes) :
    ∀ node ∈ body, node.Inside nodes := by
  intro node member
  induction inside with
  | here outer => exact .loop outer (.here member)
  | loop outer _ ih => exact .loop outer ih
  | branch outer _ ih => exact .branch outer ih

theorem Node.Inside.branchBody {place : Place} {condition : Expr} {body nodes : List Node}
    (inside : (Node.branch place condition body).Inside nodes) :
    ∀ node ∈ body, node.Inside nodes := by
  intro node member
  induction inside with
  | here outer => exact .branch outer (.here member)
  | loop outer _ ih => exact .loop outer ih
  | branch outer _ ih => exact .branch outer ih

def Program.Contains (program : Program) (node : Node) : Prop :=
  node.Inside program.body ∨ ∃ function ∈ program.functions, node.Inside function.body

theorem Program.Contains.loopBody {program : Program} {place : Place} {condition : Expr}
    {body : List Node} (contains : program.Contains (.loop place condition body)) :
    ∀ node ∈ body, program.Contains node := by
  intro node member
  rcases contains with inside | ⟨function, known, inside⟩
  · exact .inl (inside.loopBody node member)
  · exact .inr ⟨function, known, inside.loopBody node member⟩

theorem Program.Contains.branchBody {program : Program} {place : Place} {condition : Expr}
    {body : List Node} (contains : program.Contains (.branch place condition body)) :
    ∀ node ∈ body, program.Contains node := by
  intro node member
  rcases contains with inside | ⟨function, known, inside⟩
  · exact .inl (inside.branchBody node member)
  · exact .inr ⟨function, known, inside.branchBody node member⟩

def Frame.statements : Frame → List Node
  | block rest _ => rest
  | action place act _ => [.action place act]
  | poll place _ => [.poll place]
  | loop place condition body _ => [.loop place condition body]
  | branch place condition body _ => [.branch place condition body]
  | call _ _ _ => []

@[simp] theorem Frame.statements_ofNode (node : Node) :
    (Frame.ofNode node).statements = [node] := by
  cases node <;> rfl

/-- What is on a stack comes from the program's text. -/
def DrawnFrom (program : Program) (stack : List Frame) : Prop :=
  ∀ frame ∈ stack, ∀ node ∈ frame.statements, program.Contains node

theorem DrawnFrom.cons {program : Program} {frame : Frame} {below : List Frame} :
    DrawnFrom program (frame :: below) ↔
      (∀ node ∈ frame.statements, program.Contains node) ∧ DrawnFrom program below :=
  List.forall_mem_cons

theorem DrawnFrom.handOver {program : Program} {below rest : List Frame} {name : String}
    {origin : Option Nat} {state other : CallState} (drawn : DrawnFrom program below)
    (found : toCall below = .call name origin state :: rest) :
    DrawnFrom program (.call name origin other :: rest) := by
  refine DrawnFrom.cons.mpr ⟨fun _ member => (by cases member), fun frame member => ?_⟩
  have suffix : frame ∈ toCall below := by
    rw [found]
    exact List.mem_cons_of_mem _ member
  exact drawn frame ((List.dropWhile_suffix _).mem suffix)

theorem Shift.drawn {program : Program} (shift : Shift program.functions stack answers after)
    (drawn : DrawnFrom program stack) : DrawnFrom program after := by
  cases shift with
  | idle => exact drawn
  | leave | leaveBlock | drop => exact (DrawnFrom.cons.mp drawn).2
  | handOn _ found => exact (DrawnFrom.cons.mp (DrawnFrom.cons.mp drawn).2).2.handOver found
  | giveUp _ _ _ found => exact (DrawnFrom.cons.mp drawn).2.handOver found
  | @enter node nodes origin below =>
    obtain ⟨top, rest⟩ := DrawnFrom.cons.mp drawn
    obtain ⟨first, others⟩ := List.forall_mem_cons.mp top
    exact DrawnFrom.cons.mpr ⟨by simpa using first, DrawnFrom.cons.mpr ⟨others, rest⟩⟩
  | loopOn =>
    simp only [DrawnFrom.cons, Frame.statements, List.forall_mem_singleton] at drawn ⊢
    exact ⟨drawn.1.loopBody, drawn⟩
  | branchOn =>
    simp only [DrawnFrom.cons, Frame.statements, List.forall_mem_singleton] at drawn ⊢
    exact ⟨drawn.1.branchBody, drawn⟩
  | @begin _ _ _ function _ found =>
    simp only [DrawnFrom.cons, Frame.statements] at drawn ⊢
    exact ⟨fun node member => .inr ⟨function, findFunction_mem found, .here member⟩, drawn⟩
  | _ =>
    simp only [DrawnFrom.cons, Frame.statements] at drawn ⊢
    simp_all

def Frame.isRunning : Frame → Bool
  | call _ _ .running => true
  | _ => false

def openCalls (stack : List Frame) : Nat :=
  stack.countP Frame.isRunning

@[simp] theorem openCalls_cons (frame : Frame) (below : List Frame) :
    openCalls (frame :: below) = openCalls below + if frame.isRunning then 1 else 0 :=
  List.countP_cons

theorem openCalls_toCall (stack : List Frame) : openCalls (toCall stack) = openCalls stack := by
  induction stack with
  | nil => rfl
  | cons frame below ih =>
    by_cases call : frame.kind = .call
    · rw [toCall, List.dropWhile_cons_of_neg (by simp [call])]
    · have idle : frame.isRunning = false := by
        cases frame with
        | call => exact absurd rfl call
        | _ => rfl
      rw [toCall, List.dropWhile_cons_of_pos (by simp [call]), ← toCall, ih, openCalls_cons, idle]
      rfl

theorem Stacked.running {frame : Frame} {below : List Frame} (stacked : Stacked (frame :: below))
    {name : String} {offset : Option Nat} {state : CallState}
    (member : .call name offset state ∈ below) : state = .running := by
  induction below generalizing frame with
  | nil => cases member
  | cons next below ih =>
    obtain ⟨stands, lower⟩ := List.isChain_cons_cons.mp stacked
    rcases List.mem_cons.mp member with rfl | deeper
    · -- only a call that runs can have a frame standing on it
      cases stands
      rfl
    · exact ih lower deeper

namespace Machine

def Paired (m : Machine) : Prop :=
  m.locals.length = openCalls m.stack

def AllRun (m : Machine) : Prop :=
  ∀ name offset state, .call name offset state ∈ m.stack → state = .running

variable {m : Machine} {r : Result}

theorem Paired.push {frame : Frame} (paired : m.Paired) (idle : frame.isRunning = false)
    (fine : (m.push frame).error = none) : (m.push frame).state.Paired := by
  rw [push_state fine, Paired, openCalls_cons, idle]
  exact paired

theorem Paired.restore {frame : Frame} (paired : m.Paired) (idle : frame.isRunning = false) :
    (m.restore frame).Paired := by
  rw [Paired, Machine.restore, openCalls_cons, idle]
  exact paired

theorem assign_locals (m : Machine) (name : String) (value : Value) :
    (m.assign name value).locals.length = m.locals.length := by
  unfold assign
  split
  · rfl
  · rename_i scope outer same
    split
    · rw [same]
      rfl
    · rfl

theorem Paired.assign (paired : m.Paired) (name : String) (value : Value) :
    (m.assign name value).Paired := by
  rw [Paired, assign_locals, (assign_stack m name value).1]
  exact paired

theorem Paired.returnValue {value : Value} {offset : Nat} (paired : m.Paired) (runs : m.AllRun)
    (fine : (m.returnValue value offset).error = none) :
    (m.returnValue value offset).state.Paired := by
  obtain ⟨name, origin, state, rest, found, leaves⟩ := returnValue_state fine
  have member : .call name origin state ∈ m.stack := by
    have inCall : .call name origin state ∈ toCall m.stack := found ▸ List.mem_cons_self
    exact (List.dropWhile_suffix _).mem inCall
  obtain rfl := runs _ _ _ member
  -- The frames above the call go with it, and have no scopes to take along.
  have count := openCalls_toCall m.stack
  rw [found, openCalls_cons] at count
  have more : openCalls rest + 1 = m.locals.length := count.trans paired.symm
  rw [leaves, Paired, List.length_tail, ← more]
  rfl

theorem Paired.complete {place : Place} {action : Action} {value : Value} (paired : m.Paired)
    (runs : m.AllRun) (yields : (m.complete place action value).Yields answers r)
    (fine : r.error = none) : r.state.Paired := by
  cases action with
  | ret _ =>
    obtain ⟨rfl, rfl⟩ := Native.yields_done.mp yields
    exact paired.returnValue runs fine
  | set name =>
    obtain ⟨rfl, rfl⟩ := Native.yields_done.mp yields
    exact (paired.assign name value).push rfl fine
  | _ =>
    simp only [Machine.complete, Native.yields_done, Native.yields_output] at yields
    obtain ⟨rfl, rfl⟩ := yields
    exact paired.push rfl fine

theorem Paired.runAction {place : Place} {action : Action} (paired : m.Paired) (runs : m.AllRun)
    (yields : (m.runAction place action).Yields answers r) (fine : r.error = none) :
    r.state.Paired := by
  unfold Machine.runAction at yields
  split at yields
  · obtain ⟨value, completes⟩ := runSimple_complete yields fine
    exact paired.complete runs completes fine
  · dsimp only at yields
    split at yields
    · rename_i error failed
      obtain ⟨rfl, rfl⟩ := Native.yields_done.mp yields
      rw [failed] at fine
      cases fine
    · rename_i pushed
      obtain ⟨rfl, rfl⟩ := Native.yields_done.mp yields
      have waits := paired.push rfl pushed
      obtain ⟨arguments, leaves⟩ := pushCall_state fine
      rw [leaves, Paired, openCalls_cons]
      exact waits

theorem Paired.test {place : Place} {condition : Expr} {body : List Node} {frame : Bool → Frame}
    (paired : m.Paired) (idle : ∀ holds, (frame holds).isRunning = false)
    (fine : (m.test place condition body frame).error = none) :
    (m.test place condition body frame).state.Paired := by
  rcases test_state fine with leaves | ⟨leaves, -⟩
  · rw [leaves, Paired, openCalls_cons, openCalls_cons, idle]
    exact paired
  · rw [leaves]
    exact paired.restore (idle false)

theorem Paired.startCall {name : String} {offset : Option Nat} {arguments : List Value}
    (paired : m.Paired) (fine : (m.startCall name offset arguments).error = none) :
    (m.startCall name offset arguments).state.Paired := by
  obtain ⟨function, -, leaves⟩ := startCall_state fine
  rw [leaves, Paired, openCalls_cons, openCalls_cons]
  exact congrArg Nat.succ paired

theorem Paired.finishBlock (paired : m.Paired) : m.finishBlock.Paired := by
  unfold Machine.finishBlock
  split
  · rename_i name offset below running
    rw [Paired, running, openCalls_cons] at paired
    rw [Paired, List.length_tail, paired]
    rfl
  · exact paired

theorem Paired.finishCall {value : Value} (paired : m.Paired) (runs : m.AllRun)
    (yields : (m.finishCall value).Yields answers r) (fine : r.error = none) : r.state.Paired := by
  unfold Machine.finishCall at yields
  split at yields
  · rename_i place action below waiting
    have lower : Paired { m with stack := below } := by
      rw [Paired, waiting, openCalls_cons] at paired
      exact paired
    refine lower.complete (fun name offset state member => runs name offset state ?_) yields fine
    rw [waiting]
    exact List.mem_cons_of_mem _ member
  · rename_i place below waiting
    simp only [Native.yields_giveBack, Native.yields_done] at yields
    obtain ⟨rfl, rfl⟩ := yields
    rw [Paired, waiting, openCalls_cons] at paired
    exact Paired.push paired rfl fine
  · obtain ⟨rfl, rfl⟩ := Native.yields_done.mp yields
    exact paired

theorem Paired.finish {frame : Frame} {below : List Frame} (paired : m.Paired)
    (stack : m.stack = frame :: below) (stacked : Stacked m.stack) (finished : frame.isDone = true)
    (yields : (Machine.finish { m with stack := below } frame).Yields answers r)
    (fine : r.error = none) : r.state.Paired := by
  have idle : frame.isRunning = false := by
    cases frame with
    | call name offset state => cases state <;> first | rfl | cases finished
    | _ => rfl
  have left : Paired { m with stack := below } := by
    rw [Paired, stack, openCalls_cons, idle] at paired
    exact paired
  rw [stack] at stacked
  -- `m` without its top frame is the machine that goes on, and what lies below a top frame runs.
  have runs : AllRun { m with stack := below } := fun _ _ _ member => stacked.running member
  cases frame with
  | call name offset state =>
    cases state with
    | returned value => exact left.finishCall runs yields fine
    | _ => cases finished
  | block =>
    obtain ⟨rfl, rfl⟩ := Native.yields_done.mp yields
    exact left.finishBlock
  | _ =>
    obtain ⟨rfl, rfl⟩ := Native.yields_done.mp yields
    exact left

theorem Paired.advance {frame : Frame} {below : List Frame} (paired : m.Paired)
    (stack : m.stack = frame :: below) (stacked : Stacked m.stack)
    (unfinished : frame.isDone = false)
    (yields : (Machine.advance { m with stack := below } frame).Yields answers r)
    (fine : r.error = none) : r.state.Paired := by
  rw [Paired, stack, openCalls_cons] at paired
  rw [stack] at stacked
  have runs : AllRun { m with stack := below } := fun _ _ _ member => stacked.running member
  cases frame with
  | block rest origin =>
    cases rest with
    | nil => cases unfinished
    | cons node nodes =>
      obtain ⟨rfl, rfl⟩ := Native.yields_done.mp yields
      have idle : (Frame.ofNode node).isRunning = false := by cases node <;> rfl
      have left : Paired { m with stack := .block nodes origin :: below } := paired
      exact left.push idle fine
  | action place action phase =>
    have left : Paired { m with stack := below } := paired
    exact left.runAction runs yields fine
  | poll place phase =>
    simp only [Machine.advance, runPoll, Native.yields_nextCallback] at yields
    obtain ⟨callback, given, rfl, rest⟩ := yields
    cases callback with
    | none =>
      obtain ⟨rfl, rfl⟩ := Native.yields_done.mp rest
      exact Paired.restore paired rfl
    | some callback =>
      obtain ⟨rfl, rfl⟩ := Native.yields_done.mp rest
      have left : Paired { m with stack := .poll place .waiting :: below } := paired
      exact left.push rfl fine
  | loop place condition body done =>
    obtain ⟨rfl, rfl⟩ := Native.yields_done.mp yields
    exact Paired.test paired (fun _ => rfl) fine
  | branch place condition body phase =>
    cases phase with
    | done => cases unfinished
    | waiting =>
      obtain ⟨rfl, rfl⟩ := Native.yields_done.mp yields
      exact Paired.restore paired rfl
    | ready =>
      obtain ⟨rfl, rfl⟩ := Native.yields_done.mp yields
      exact Paired.test paired (fun _ => rfl) fine
  | call name offset state =>
    cases state with
    | returned value => cases unfinished
    | ready arguments =>
      obtain ⟨rfl, rfl⟩ := Native.yields_done.mp yields
      exact Paired.startCall paired fine
    | running =>
      obtain ⟨rfl, rfl⟩ := Native.yields_done.mp yields
      change m.locals.tail.length = _
      rw [List.length_tail, paired]
      rfl

theorem Paired.step (paired : m.Paired) (stacked : Stacked m.stack)
    (yields : m.step.Yields answers r) (fine : r.error = none) : r.state.Paired := by
  unfold Machine.step at yields
  split at yields
  · obtain ⟨rfl, rfl⟩ := Native.yields_done.mp yields
    exact paired
  · rename_i frame below stack
    dsimp only at yields
    split at yields
    · rename_i finished
      exact paired.finish stack stacked finished yields fine
    · rename_i unfinished
      exact paired.advance stack stacked (by simpa using unfinished) yields fine

end Machine

theorem StepFault.message_ne {fault : StepFault} (other : fault ≠ .returnOutside) :
    fault.message ≠ StepFault.returnOutside.message := by
  intro same
  -- Some messages hold names or values, so they are told apart by their last letters, by a
  -- parenthesis or by their first letter.
  have letters := congrArg String.toList same
  have ends := congrArg (fun text : List Char => text.reverse.take 13) letters
  have member := congrArg (fun text : List Char => '(' ∈ text) letters
  cases fault with
  | returnOutside => exact other rfl
  | undefined | notFunction => simp [message] at ends
  | arity => simp [message] at member
  | operands fault =>
    have head := fault.message_head
    rw [show fault.message = StepFault.returnOutside.message from same] at head
    exact absurd head (by decide)
  | badDelay | hugeDelay | stackFull => exact absurd same (by decide)

theorem StepFault.message_head {fault : StepFault} (other : fault ≠ .stackFull) :
    fault.message.toList.head? ∈ [some '\x60', some 't', some 'c', some 'd', some 'r'] := by
  cases fault with
  | stackFull => exact absurd rfl other
  | operands fault =>
    have head := fault.message_head
    exact List.mem_cons_of_mem _ (List.mem_cons_of_mem _ head)
  | undefined | notFunction | arity => simp [message, String.toList_append]
  | badDelay | hugeDelay | returnOutside => decide

theorem StepFault.message_ne_call (fault : StepFault) : fault.message ≠ "unexpected call" := by
  intro same
  by_cases full : fault = .stackFull
  · subst full
    exact absurd same (by decide)
  · have head := StepFault.message_head full
    rw [same] at head
    exact absurd head (by decide)

theorem StepFault.message_ne_full {fault : StepFault} (other : fault ≠ .stackFull) :
    fault.message ≠ StepFault.stackFull.message := by
  intro same
  have head := StepFault.message_head other
  rw [same] at head
  exact absurd head (by decide)

def StepFault.isOfValue : StepFault → Bool
  | stackFull => false
  | returnOutside => false
  | _ => true

theorem StepFault.ne_of_isOfValue {fault : StepFault} (ofValue : fault.isOfValue = true) :
    fault ≠ .returnOutside ∧ fault ≠ .stackFull := by
  constructor
  · rintro rfl
    cases ofValue
  · rintro rfl
    cases ofValue

namespace Machine

variable {m : Machine} {r : Result} {fault : StepFault}

def Regular (r : Result) : Prop :=
  ∀ error, r.error = some error →
    ∃ fault offset, fault ≠ StepFault.returnOutside ∧ error = fault.at offset

theorem regular_of_fine (fine : r.error = none) : Regular r := by
  intro error fails
  rw [fine] at fails
  cases fails

theorem regular_fail {offset : Option Nat} (other : fault ≠ .returnOutside) :
    Regular (m.fail fault offset) := by
  rintro error ⟨⟩
  exact ⟨fault, offset, other, rfl⟩

theorem regular_push (m : Machine) (frame : Frame) : Regular (m.push frame) := by
  unfold push
  split
  · exact regular_fail nofun
  · exact regular_of_fine rfl

theorem fails_then {ε α β : Type} {first : Except ε α} {rest : α → Except ε β} {reason : ε}
    (fails : (first >>= rest) = .error reason) :
    first = .error reason ∨ ∃ value, first = .ok value ∧ rest value = .error reason := by
  cases first with
  | error early =>
    cases fails
    exact .inl rfl
  | ok value => exact .inr ⟨value, rfl, fails⟩

theorem evalPrimary_fault {operand : Primary} (fails : m.evalPrimary operand = .error fault) :
    fault.isOfValue = true := by
  unfold evalPrimary at fails
  split at fails
  · cases fails
  · split at fails
    · cases fails
    · cases fails
      rfl

theorem eval_fault {value : Expr} (fails : m.eval value = .error fault) :
    fault.isOfValue = true := by
  cases value with
  | primary operand => exact evalPrimary_fault fails
  | binary left op right =>
    rcases fails_then fails with first | ⟨leftValue, -, fails⟩
    · exact evalPrimary_fault first
    rcases fails_then fails with second | ⟨rightValue, -, fails⟩
    · exact evalPrimary_fault second
    cases applied : Value.apply op leftValue rightValue with
    | error reason =>
      rw [applied] at fails
      cases fails
      rfl
    | ok result =>
      rw [applied] at fails
      cases fails

theorem evalAll_fault {operands : List Primary} (fails : m.evalAll operands = .error fault) :
    fault.isOfValue = true := by
  induction operands with
  | nil => cases fails
  | cons operand operands ih =>
    rcases fails_then fails with first | ⟨value, -, fails⟩
    · exact evalPrimary_fault first
    rcases fails_then fails with others | ⟨values, -, fails⟩
    · exact ih others
    · cases fails

theorem delayOf_fault {value : Value} (fails : delayOf value = .error fault) :
    fault.isOfValue = true := by
  unfold delayOf at fails
  split at fails
  · cases fails
    rfl
  · split at fails
    · split at fails
      · cases fails
      · cases fails
        rfl
    · cases fails
      rfl

theorem timerOf_fault {callback : String} {delay : Primary} {arguments : List Primary}
    (fails : m.timerOf callback delay arguments = .error fault) : fault.isOfValue = true := by
  unfold timerOf at fails
  split at fails
  · cases fails
    rfl
  · rcases fails_then fails with waiting | ⟨value, -, fails⟩
    · exact evalPrimary_fault waiting
    rcases fails_then fails with length | ⟨duration, -, fails⟩
    · exact delayOf_fault length
    rcases fails_then fails with others | ⟨values, -, fails⟩
    · exact evalAll_fault others
    · cases fails

theorem complete_regular {place : Place} {action : Action} {value : Value}
    (confined : action.isReturn = false ∨ toCall m.stack ≠ [])
    (yields : (m.complete place action value).Yields answers r) : Regular r := by
  cases action with
  | ret result =>
    have inCall := confined.resolve_left (by simp [Action.isReturn])
    obtain ⟨rfl, rfl⟩ := Native.yields_done.mp yields
    exact regular_of_fine (returnValue_fine value _ inCall)
  | _ =>
    simp only [Machine.complete, Native.yields_done, Native.yields_output] at yields
    obtain ⟨rfl, rfl⟩ := yields
    exact regular_push _ _

theorem runSimple_cases (m : Machine) (place : Place) (action : Action) :
    (∃ fault : StepFault, fault.isOfValue = true ∧
        m.runSimple place action = .done (m.fail fault (some place.offset))) ∨
      (∃ value, m.runSimple place action = m.complete place action value) ∨
      ∃ callback delay, m.runSimple place action =
        .setTimeout callback delay (m.complete place action .null) := by
  unfold runSimple
  dsimp only
  split
  case h_4 =>
    split
    · rename_i failed
      exact .inl ⟨_, timerOf_fault failed, rfl⟩
    · exact .inr (.inr ⟨_, _, rfl⟩)
  case h_5 => exact .inr (.inl ⟨_, rfl⟩)
  all_goals
    split
    · rename_i failed
      exact .inl ⟨_, eval_fault failed, rfl⟩
    · exact .inr (.inl ⟨_, rfl⟩)

theorem runSimple_regular {place : Place} {action : Action}
    (confined : action.isReturn = false ∨ toCall m.stack ≠ [])
    (yields : (m.runSimple place action).Yields answers r) : Regular r := by
  rcases runSimple_cases m place action with ⟨fault, ofValue, same⟩ | ⟨value, same⟩ |
    ⟨callback, delay, same⟩
  · rw [same] at yields
    obtain ⟨rfl, rfl⟩ := Native.yields_done.mp yields
    exact regular_fail (StepFault.ne_of_isOfValue ofValue).1
  · rw [same] at yields
    exact complete_regular confined yields
  · rw [same] at yields
    exact complete_regular confined (Native.yields_setTimeout.mp yields)

theorem pushCall_regular (m : Machine) (call : Call) (offset : Nat) :
    Regular (m.pushCall call offset) := by
  unfold pushCall
  split
  · rename_i failed
    exact regular_fail (StepFault.ne_of_isOfValue (evalAll_fault failed)).1
  · exact regular_push _ _

theorem runAction_regular {place : Place} {action : Action}
    (confined : action.isReturn = false ∨ toCall m.stack ≠ [])
    (yields : (m.runAction place action).Yields answers r) : Regular r := by
  unfold runAction at yields
  split at yields
  · exact runSimple_regular confined yields
  · dsimp only at yields
    split at yields
    · obtain ⟨rfl, rfl⟩ := Native.yields_done.mp yields
      exact regular_push _ _
    · obtain ⟨rfl, rfl⟩ := Native.yields_done.mp yields
      exact pushCall_regular _ _ _

theorem test_regular (m : Machine) (place : Place) (condition : Expr) (body : List Node)
    (frame : Bool → Frame) : Regular (m.test place condition body frame) := by
  unfold test
  split
  · rename_i failed
    exact regular_fail (StepFault.ne_of_isOfValue (eval_fault failed)).1
  · dsimp only
    split
    · exact regular_push _ _
    · exact regular_of_fine rfl

theorem startCall_regular (m : Machine) (name : String) (offset : Option Nat)
    (arguments : List Value) : Regular (m.startCall name offset arguments) := by
  unfold startCall
  split
  · exact regular_fail nofun
  · split
    · exact regular_fail nofun
    · dsimp only
      split
      · exact regular_push _ _
      · exact regular_push _ _

theorem advance_regular {frame : Frame}
    (confined : frame.Returnless ∨ toCall m.stack ≠ [])
    (yields : (m.advance frame).Yields answers r) : Regular r := by
  cases frame with
  | block rest origin =>
    cases rest with
    | nil =>
      obtain ⟨rfl, rfl⟩ := Native.yields_done.mp yields
      exact regular_of_fine rfl
    | cons =>
      obtain ⟨rfl, rfl⟩ := Native.yields_done.mp yields
      exact regular_push _ _
  | action => exact runAction_regular confined yields
  | poll =>
    simp only [Machine.advance, runPoll, Native.yields_nextCallback] at yields
    obtain ⟨callback, given, rfl, rest⟩ := yields
    cases callback with
    | none =>
      obtain ⟨rfl, rfl⟩ := Native.yields_done.mp rest
      exact regular_of_fine rfl
    | some =>
      obtain ⟨rfl, rfl⟩ := Native.yields_done.mp rest
      exact regular_push _ _
  | loop =>
    obtain ⟨rfl, rfl⟩ := Native.yields_done.mp yields
    exact test_regular _ _ _ _ _
  | branch place condition body phase =>
    cases phase with
    | waiting =>
      obtain ⟨rfl, rfl⟩ := Native.yields_done.mp yields
      exact regular_of_fine rfl
    | _ =>
      obtain ⟨rfl, rfl⟩ := Native.yields_done.mp yields
      exact test_regular _ _ _ _ _
  | call name offset state =>
    cases state with
    | ready =>
      obtain ⟨rfl, rfl⟩ := Native.yields_done.mp yields
      exact startCall_regular _ _ _ _
    | _ =>
      obtain ⟨rfl, rfl⟩ := Native.yields_done.mp yields
      exact regular_of_fine rfl

theorem finish_regular {frame : Frame} (confined : Confined m.stack)
    (yields : (m.finish frame).Yields answers r) : Regular r := by
  unfold finish at yields
  split at yields
  · unfold finishCall at yields
    split at yields
    · rename_i waiting
      rw [waiting] at confined
      refine complete_regular ?_ yields
      exact confined.1
    · simp only [Native.yields_giveBack, Native.yields_done] at yields
      obtain ⟨rfl, rfl⟩ := yields
      exact regular_push _ _
    · obtain ⟨rfl, rfl⟩ := Native.yields_done.mp yields
      exact regular_of_fine rfl
  all_goals
    obtain ⟨rfl, rfl⟩ := Native.yields_done.mp yields
    exact regular_of_fine rfl

/-- Where each `return` is above a call, no step returns outside of calls. -/
theorem step_regular (confined : Confined m.stack) (yields : m.step.Yields answers r) :
    Regular r := by
  unfold step at yields
  split at yields
  · obtain ⟨rfl, rfl⟩ := Native.yields_done.mp yields
    exact regular_of_fine rfl
  · rename_i frame below stack
    rw [stack] at confined
    dsimp only at yields
    split at yields
    · exact finish_regular confined.2 yields
    · exact advance_regular confined.1 yields

end Machine

/-- The machines that a program comes to with steps that do not fail, whatever callbacks it is
given on the way. -/
inductive Machine.ReachedBy (program : Program) : Machine → Prop where
  | start : ReachedBy program (.ofProgram program)
  | step {m : Machine} {answers : List Bool} {r : Machine.Result} (before : ReachedBy program m)
      (yields : m.step.Yields answers r) (fine : r.error = none) : ReachedBy program r.state

/-- What holds of a machine of an accepted program until its first error. -/
structure Machine.Intact (program : Program) (m : Machine) : Prop where
  functions : m.functions = program.functions
  stacked : Stacked m.stack
  bodied : Bodied m.stack
  confined : Confined m.stack
  drawn : DrawnFrom program m.stack
  paired : m.Paired

theorem Machine.Intact.start {text : List Char} {program : Program}
    (read : parse text = .ok program) : (Machine.ofProgram program).Intact program where
  functions := rfl
  stacked := List.isChain_singleton _
  bodied := fun _ _ _ => by simp [ofProgram]
  confined := ⟨.inl (parse_returnless read), trivial⟩
  drawn := by
    intro frame member node inner
    rw [List.mem_singleton.mp member] at inner
    exact .inl (.here inner)
  paired := rfl

theorem Machine.Intact.step {program : Program} {m : Machine} {r : Machine.Result}
    (intact : m.Intact program) (yields : m.step.Yields answers r) (fine : r.error = none) :
    r.state.Intact program := by
  obtain ⟨shift, functions⟩ := Machine.step_shift yields fine
  have known : r.state.functions = program.functions := functions.trans intact.functions
  refine ⟨known, shift.stacked intact.stacked, shift.bodied intact.stacked,
    shift.confined intact.confined, ?_, intact.paired.step intact.stacked yields fine⟩
  rw [intact.functions] at shift
  exact shift.drawn intact.drawn

theorem Machine.ReachedBy.intact {text : List Char} {program : Program} {m : Machine}
    (read : parse text = .ok program) (reached : m.ReachedBy program) : m.Intact program := by
  induction reached with
  | start => exact .start read
  | step _ yields fine ih => exact ih.step yields fine

/-- Until the first error of an accepted program, whatever callbacks it is given, no step comes upon
a call in an operand or returns outside of all calls; each loop and each branch on the stack is one
of the program's; no running call is on top, and the running calls are as many as the scopes. -/
theorem intact_until_error {text : List Char} {program : Program} {m : Machine}
    (read : parse text = .ok program) (reached : m.ReachedBy program) :
    (∀ answers r error, m.step.Yields answers r → r.error = some error →
      error.message ≠ "unexpected call" ∧
        error.message ≠ "`return` outside of a function") ∧
      (∀ place condition body done, .loop place condition body done ∈ m.stack →
        program.Contains (.loop place condition body)) ∧
      (∀ place condition body phase, .branch place condition body phase ∈ m.stack →
        program.Contains (.branch place condition body)) ∧
      (∀ name offset below, m.stack ≠ .call name offset .running :: below) ∧
      m.locals.length = m.stack.countP Frame.isRunning := by
  have intact := reached.intact read
  refine ⟨?_, ?_, ?_, intact.bodied, intact.paired⟩
  · intro answers r error yields fails
    obtain ⟨fault, offset, other, rfl⟩ := Machine.step_regular intact.confined yields error fails
    exact ⟨fault.message_ne_call, StepFault.message_ne other⟩
  · intro place condition body done member
    exact intact.drawn _ member _ List.mem_cons_self
  · intro place condition body phase member
    exact intact.drawn _ member _ List.mem_cons_self

theorem run_yields {α ν : Type} (natives : Natives ν) (computation : Native α) (host : ν) :
    ∃ answers, computation.Yields answers (computation.run natives host).1 := by
  induction computation generalizing host with
  | done result => exact ⟨[], .done result⟩
  | nextCallback resume ih =>
    obtain ⟨answers, yields⟩ := ih (natives.nextCallback host).1 (natives.nextCallback host).2
    exact ⟨_, .nextCallback _ yields⟩
  | giveBack value rest ih =>
    obtain ⟨answers, yields⟩ := ih (natives.giveBack value host)
    exact ⟨answers, .giveBack value yields⟩
  | setTimeout callback delay rest ih =>
    obtain ⟨answers, yields⟩ := ih (natives.setTimeout callback delay host)
    exact ⟨answers, .setTimeout callback delay yields⟩
  | output line rest ih =>
    obtain ⟨answers, yields⟩ := ih (natives.output line host)
    exact ⟨answers, .output line yields⟩

theorem Solo.reachedBy {program : Program} {s : Solo} (before : s.machine.ReachedBy program)
    {n : Nat} (fine : (s.after n).failure = none) : (s.after n).machine.ReachedBy program := by
  induction n generalizing s with
  | zero => exact before
  | succ n ih =>
    have alive : s.next.failure = none := by
      cases failed : s.next.failure with
      | none => rfl
      | some error =>
        have ended : s.next.Over := .inl (by rw [failed]; rfl)
        rw [Solo.after, ended.after, failed] at fine
        cases fine
    refine ih ?_ fine
    unfold Solo.next at alive ⊢
    split
    · exact before
    · rename_i running
      rw [running] at alive
      obtain ⟨answers, yields⟩ := run_yields Journal.natives s.machine.step s.journal
      exact .step before yields alive

def climbing : List Char :=
  "func up x\n  if x > 0\n    return x\n  end\nend\n".toList ++
    "set n = 1\nwhile n > 0\n  set n = call up n\nend\n".toList

/-- The function's `return` is about to be carried out: one call runs, and has the one scope. -/
theorem climbing_intact : ∃ (program : Program) (m : Machine), parse climbing = .ok program ∧
    m.ReachedBy program ∧
    m.stack.map Frame.kind =
      [.other, .block, .other, .block, .call, .other, .block, .other, .block] ∧
    m.locals.length = 1 ∧ ∀ answers r error, m.step.Yields answers r → r.error = some error →
      error.message ≠ "`return` outside of a function" := by
  have computed : (parse climbing).toOption.any (fun program =>
      let t := (Solo.new (.ofProgram program)).after 11
      t.failure.isNone && t.machine.stack.map Frame.kind ==
          [.other, .block, .other, .block, .call, .other, .block, .other, .block] &&
        t.machine.stack.countP Frame.isRunning == 1) = true := by
    decide +kernel
  cases read : parse climbing with
  | error problem =>
    rw [read] at computed
    cases computed
  | ok program =>
    rw [read] at computed
    simp only [Except.toOption, Option.any_some, Bool.and_eq_true, Option.isNone_iff_eq_none,
      beq_iff_eq] at computed
    obtain ⟨⟨fine, shape⟩, calls⟩ := computed
    have reached := Solo.reachedBy (s := .new (.ofProgram program)) .start fine
    obtain ⟨fails, -, -, -, scopes⟩ := intact_until_error read reached
    exact ⟨program, _, rfl, reached, shape, scopes.trans calls,
      fun answers r error yields failed => (fails answers r error yields failed).2⟩

end Script

end Metronome
