import Metronome.Script.Frame
import Metronome.Script.Parser
import Metronome.Script.Scope
import Metronome.Source

/-!
The machine that runs a script. A step takes the top frame off the stack and puts back what is left
to do of it; a finished frame stays for one step, so that a debugger sees a statement finish.
-/
namespace Metronome.Script

def stackLimit : Nat := 3000

inductive StepFault where
  | undefined (name : String)
  | notFunction (name : String)
  | arity (name : String) (wanted given : Nat)
  | operands (fault : OperandFault)
  | badDelay
  | hugeDelay
  | stackFull
  | returnOutside

def StepFault.message : StepFault → String
  | undefined name => "`" ++ name ++ "` is not defined"
  | notFunction name => "`" ++ name ++ "` is not a function"
  | arity name wanted given =>
    "`" ++ name ++ "` expects " ++ toString wanted ++ " argument(s) but got " ++ toString given
  | operands fault => fault.message
  | badDelay => "timeout delay must be a non-negative number"
  | hugeDelay => "timeout delay is too large"
  | stackFull => "Maximum call stack size exceeded"
  | returnOutside => "`return` outside of a function"

def StepFault.at (fault : StepFault) (offset : Option Nat) : StepError :=
  ⟨fault.message, offset⟩

structure Machine where
  functions : List Function
  globals : Scope
  /-- The scopes of the calls that run, the innermost first. -/
  locals : List Scope
  stack : List Frame

def Action.call? : Action → Option Call
  | .call target => some target
  | .print (.call target) => some target
  | .set _ (.call target) => some target
  | .ret (some (.call target)) => some target
  | _ => none

def delayOf (value : Value) : Except StepFault Duration :=
  match value.float? with
  | none => .error .badDelay
  | some milliseconds =>
    if milliseconds >= 0.0 then
      match Duration.ofSeconds? (milliseconds / 1000.0) with
      | some delay => .ok delay
      | none => .error .hugeDelay
    else .error .badDelay

namespace Machine

def ofProgram (program : Program) : Machine :=
  ⟨program.functions, [], [], [.block program.body none]⟩

/-- A variable of the innermost call, or a global one. -/
def lookup (m : Machine) (name : String) : Option Value :=
  match m.locals.head?.bind (Scope.get? name) with
  | some value => some value
  | none => Scope.get? name m.globals

/-- Sets a variable of the innermost call, unless only a global one has the name. -/
def assign (m : Machine) (name : String) (value : Value) : Machine :=
  match m.locals with
  | [] => { m with globals := m.globals.put name value }
  | scope :: outer =>
    if (Scope.get? name scope).isSome || (Scope.get? name m.globals).isNone then
      { m with locals := scope.put name value :: outer }
    else { m with globals := m.globals.put name value }

def evalPrimary (m : Machine) : Primary → Except StepFault Value
  | .literal value => .ok value
  | .variable name =>
    match m.lookup name with
    | some value => .ok value
    | none => .error (.undefined name)

def eval (m : Machine) : Expr → Except StepFault Value
  | .primary operand => m.evalPrimary operand
  | .binary left op right => do
    let left ← m.evalPrimary left
    let right ← m.evalPrimary right
    (Value.apply op left right).mapError .operands

def evalAll (m : Machine) : List Primary → Except StepFault (List Value)
  | [] => .ok []
  | operand :: operands => do
    let value ← m.evalPrimary operand
    let values ← m.evalAll operands
    return value :: values

abbrev Result := Stepped Machine

def succeed (m : Machine) : Result := ⟨m, none⟩

def fail (m : Machine) (fault : StepFault) (offset : Option Nat) : Result :=
  ⟨m, some (fault.at offset)⟩

def push (m : Machine) (frame : Frame) : Result :=
  if stackLimit ≤ m.stack.length then m.fail .stackFull frame.position
  else succeed { m with stack := frame :: m.stack }

def restore (m : Machine) (frame : Frame) : Machine :=
  { m with stack := frame :: m.stack }

/-- Ends the innermost running call with a value and leaves all that it had begun. -/
def returnValue (m : Machine) (value : Value) (offset : Nat) : Result :=
  match m.stack.dropWhile (·.kind != .call) with
  | .call name origin _ :: below =>
    succeed { m with
      stack := .call name origin (.returned value) :: below
      locals := m.locals.tail }
  | _ => fail { m with stack := [] } .returnOutside (some offset)

def complete (m : Machine) (place : Place) (action : Action) (value : Value) : Native Result :=
  let finished := Frame.action place action .done
  match action with
  | .print _ => .output value.display (.done (m.push finished))
  | .set name _ => .done ((m.assign name value).push finished)
  | .ret _ => .done (m.returnValue value place.offset)
  | .call _ | .timeout _ _ _ => .done (m.push finished)

/-- Evaluates the arguments of a call and puts it on the stack. -/
def pushCall (m : Machine) (call : Call) (offset : Nat) : Result :=
  match m.evalAll call.arguments with
  | .error fault => m.fail fault (some offset)
  | .ok arguments => m.push (.call call.name (some offset) (.ready arguments))

/-- The timer that a statement sets; the function, the delay and the arguments are looked at in this order. -/
def timerOf (m : Machine) (callback : String) (delay : Primary) (arguments : List Primary) :
    Except StepFault (Callback × Duration) := do
  if (findFunction m.functions callback).isNone then throw (.notFunction callback)
  let delay ← delayOf (← m.evalPrimary delay)
  let arguments ← m.evalAll arguments
  return (⟨callback, arguments⟩, delay)

def runSimple (m : Machine) (place : Place) (action : Action) : Native Result :=
  let withValue (value : Expr) : Native Result :=
    match m.eval value with
    | .error fault => .done (m.fail fault (some place.offset))
    | .ok value => m.complete place action value
  match action with
  | .print (.expr value) => withValue value
  | .set _ (.expr value) => withValue value
  | .ret (some (.expr value)) => withValue value
  | .timeout callback delay arguments =>
    match m.timerOf callback delay arguments with
    | .error fault => .done (m.fail fault (some place.offset))
    | .ok (callback, delay) => .setTimeout callback delay (m.complete place action .null)
  | _ => m.complete place action .null

def runAction (m : Machine) (place : Place) (action : Action) : Native Result :=
  match action.call? with
  | none => m.runSimple place action
  | some call =>
    let waiting := m.push (.action place action .waiting)
    match waiting.error with
    | some _ => .done waiting
    | none => .done (waiting.state.pushCall call place.offset)

def test (m : Machine) (place : Place) (condition : Expr) (body : List Node)
    (frame : Bool → Frame) : Result :=
  match m.eval condition with
  | .error fault => m.fail fault (some place.offset)
  | .ok value =>
    let left := m.restore (frame value.truthy)
    if value.truthy then left.push (.block body (some place.offset)) else succeed left

/-- Enters the body of a function. -/
def startCall (m : Machine) (name : String) (offset : Option Nat) (arguments : List Value) :
    Result :=
  match findFunction m.functions name with
  | none => m.fail (.notFunction name) offset
  | some function =>
    if function.parameters.length ≠ arguments.length then
      m.fail (.arity name function.parameters.length arguments.length) offset
    else
      let called := m.push (.call name offset .running)
      match called.error with
      | some _ => called
      | none =>
        let scope := Scope.ofArguments function.parameters arguments
        let entered := { called.state with locals := scope :: called.state.locals }
        entered.push (.block function.body (some function.offset))

def runPoll (m : Machine) (place : Place) : Native Result :=
  .nextCallback fun
    | none => .done (succeed (m.restore (.poll place .done)))
    | some callback =>
      .done ((m.restore (.poll place .waiting)).push
        (.call callback.name none (.ready callback.arguments)))

/-- One step of an unfinished frame that was on top of the machine's stack. -/
def advance (m : Machine) : Frame → Native Result
  | .block [] _ => .done (succeed m)
  | .block (node :: rest) origin =>
    .done ((m.restore (.block rest origin)).push (.ofNode node))
  | .action place action _ => m.runAction place action
  | .loop place condition body _ =>
    .done (m.test place condition body fun holds => .loop place condition body (!holds))
  | .branch place condition body .waiting =>
    .done (succeed (m.restore (.branch place condition body .done)))
  | .branch place condition body _ =>
    .done (m.test place condition body fun holds =>
      .branch place condition body (if holds then .waiting else .done))
  | .call name offset (.ready arguments) => .done (m.startCall name offset arguments)
  | .call name offset _ =>
    .done (succeed { m.restore (.call name offset (.returned .null)) with
      locals := m.locals.tail })
  | .poll place _ => m.runPoll place

/-- What the frame below does when the block on top of it is finished: a running call ends. -/
def finishBlock (m : Machine) : Machine :=
  match m.stack with
  | .call name offset .running :: below =>
    { m with
      stack := .call name offset (.returned .null) :: below
      locals := m.locals.tail }
  | _ => m

def finishCall (m : Machine) (value : Value) : Native Result :=
  match m.stack with
  | .action place action .waiting :: below =>
    complete { m with stack := below } place action value
  | .poll place .waiting :: below =>
    .giveBack value (.done (push { m with stack := below } (.poll place .done)))
  | _ => .done (succeed m)

def finish (m : Machine) : Frame → Native Result
  | .call _ _ (.returned value) => m.finishCall value
  | .block _ _ => .done (succeed m.finishBlock)
  | _ => .done (succeed m)

def step (m : Machine) : Native Result :=
  match m.stack with
  | [] => .done (succeed m)
  | frame :: below =>
    let left := { m with stack := below }
    if frame.isDone then left.finish frame else left.advance frame

instance : Interpreter Machine where
  step := step
  position m := m.stack.head?.bind Frame.position
  depth m := m.stack.length
  top m := m.stack.head?.map fun frame => ⟨frame.kind, frame.isDone⟩
  isSafe m :=
    match m.stack with
    | [] => true
    | frame :: _ => frame.isDone || frame.isBlock
  isComplete m := m.stack.isEmpty

end Machine

/-- Generated code after the user's: it takes callbacks for ever. -/
def pollLoop : List Char := "while true\n  poll\nend\n".toList

structure Loaded where
  machine : Machine
  text : ProgramText

def loadText (text : ProgramText) : Except ParseError Loaded :=
  (parse text.text).map fun program => ⟨.ofProgram program, text⟩

def load (source : List Char) : Except ParseError Loaded :=
  loadText (.wrap source pollLoop)

/-- Reads a user's text as it stands. -/
def loadBare (source : List Char) : Except ParseError Loaded :=
  loadText (.whole source)

end Metronome.Script
