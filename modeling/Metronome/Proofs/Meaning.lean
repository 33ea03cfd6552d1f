import Metronome.Script.Machine

namespace Metronome.Script

inductive Effect where
  | prints (line : String)
  | sets (callback : Callback) (delay : Duration)

structure Env where
  globals : Scope
  scope : Option Scope

inductive Outcome where
  | normal
  | returned (value : Value)
  | failed (error : StepError)

/-- The outcome of a call whose body has ended so: without a return it yields null. -/
def Outcome.ofBody : Outcome → Outcome
  | normal => returned .null
  | outcome => outcome

namespace Env

def empty : Env := ⟨[], none⟩

def read (env : Env) (name : String) : Option Value :=
  (env.scope.bind (Scope.get? name)).or (Scope.get? name env.globals)

def write (env : Env) (name : String) (value : Value) : Env :=
  match env.scope with
  | some scope =>
    if (Scope.get? name scope).isSome || (Scope.get? name env.globals).isNone then
      { env with scope := some (scope.put name value) }
    else { env with globals := env.globals.put name value }
  | none => { env with globals := env.globals.put name value }

def operand (env : Env) : Primary → Except StepFault Value
  | .literal value => .ok value
  | .variable name =>
    match env.read name with
    | some value => .ok value
    | none => .error (.undefined name)

def value (env : Env) : Expr → Except StepFault Value
  | .primary operand => env.operand operand
  | .binary left op right => do
    let left ← env.operand left
    let right ← env.operand right
    (Value.apply op left right).mapError .operands

def values (env : Env) (operands : List Primary) : Except StepFault (List Value) :=
  operands.mapM env.operand

def valueOf (env : Env) : Action → Option (Except StepFault Value)
  | .print (.expr value) => some (env.value value)
  | .set _ (.expr value) => some (env.value value)
  | .ret (some (.expr value)) => some (env.value value)
  | .ret none => some (.ok .null)
  | _ => none

def timer (env : Env) (functions : List Function) (callback : String) (delay : Primary)
    (arguments : List Primary) : Except StepFault (Callback × Duration) := do
  if (findFunction functions callback).isNone then throw (.notFunction callback)
  let delay ← delayOf (← env.operand delay)
  let arguments ← env.values arguments
  return (⟨callback, arguments⟩, delay)

def settle (env : Env) (place : Place) (action : Action) (value : Value) :
    List Effect × Env × Outcome :=
  match action with
  | .print _ => ([.prints value.display], env, .normal)
  | .set name _ => ([], env.write name value, .normal)
  | .ret _ =>
    if env.scope.isSome then ([], env, .returned value)
    else ([], env, .failed (StepFault.returnOutside.at (some place.offset)))
  | .call _ | .timeout _ _ _ => ([], env, .normal)

end Env

/-- What can be evaluated: a block, a statement, or the call of a function with arguments. -/
inductive Task where
  | block (nodes : List Node)
  | node (node : Node)
  | call (name : String) (arguments : List Value) (offset : Nat)

/-- The evaluation of a task: what the host notices, the variables after it, and how it ends. -/
inductive Evaluates (functions : List Function) :
    Env → Task → List Effect → Env → Outcome → Prop where
  | nothing {env : Env} : Evaluates functions env (.block []) [] env .normal
  | goesOn {env middle after : Env} {node : Node} {nodes : List Node} {first rest : List Effect}
      {outcome : Outcome} (head : Evaluates functions env (.node node) first middle .normal)
      (tail : Evaluates functions middle (.block nodes) rest after outcome) :
      Evaluates functions env (.block (node :: nodes)) (first ++ rest) after outcome
  | breaksOff {env after : Env} {node : Node} {nodes : List Node} {effects : List Effect}
      {outcome : Outcome} (head : Evaluates functions env (.node node) effects after outcome)
      (ends : outcome ≠ .normal) :
      Evaluates functions env (.block (node :: nodes)) effects after outcome
  | takes {env after : Env} {place : Place} {action : Action} {value : Value}
      {effects : List Effect} {outcome : Outcome} (given : env.valueOf action = some (.ok value))
      (settles : env.settle place action value = (effects, after, outcome)) :
      Evaluates functions env (.node (.action place action)) effects after outcome
  | takesNothing {env : Env} {place : Place} {action : Action} {fault : StepFault}
      (given : env.valueOf action = some (.error fault)) :
      Evaluates functions env (.node (.action place action)) [] env
        (.failed (fault.at (some place.offset)))
  | setsTimer {env : Env} {place : Place} {name : String} {wait : Primary}
      {arguments : List Primary} {callback : Callback} {delay : Duration}
      (timer : env.timer functions name wait arguments = .ok (callback, delay)) :
      Evaluates functions env (.node (.action place (.timeout name wait arguments)))
        [.sets callback delay] env .normal
  | setsNoTimer {env : Env} {place : Place} {name : String} {wait : Primary}
      {arguments : List Primary} {fault : StepFault}
      (timer : env.timer functions name wait arguments = .error fault) :
      Evaluates functions env (.node (.action place (.timeout name wait arguments))) [] env
        (.failed (fault.at (some place.offset)))
  -- The arguments of a call are evaluated before the function is looked for.
  | calls {env middle after : Env} {place : Place} {action : Action} {target : Call}
      {arguments : List Value} {value : Value} {first rest : List Effect} {outcome : Outcome}
      (asks : action.call? = some target) (given : env.values target.arguments = .ok arguments)
      (returns : Evaluates functions env (.call target.name arguments place.offset) first middle
        (.returned value))
      (settles : middle.settle place action value = (rest, after, outcome)) :
      Evaluates functions env (.node (.action place action)) (first ++ rest) after outcome
  | callsNothing {env : Env} {place : Place} {action : Action} {target : Call} {fault : StepFault}
      (asks : action.call? = some target) (given : env.values target.arguments = .error fault) :
      Evaluates functions env (.node (.action place action)) [] env
        (.failed (fault.at (some place.offset)))
  | callFails {env after : Env} {place : Place} {action : Action} {target : Call}
      {arguments : List Value} {effects : List Effect} {error : StepError}
      (asks : action.call? = some target) (given : env.values target.arguments = .ok arguments)
      (fails : Evaluates functions env (.call target.name arguments place.offset) effects after
        (.failed error)) :
      Evaluates functions env (.node (.action place action)) effects after (.failed error)
  | loopEnds {env : Env} {place : Place} {condition : Expr} {body : List Node} {value : Value}
      (tested : env.value condition = .ok value) (falsy : value.truthy = false) :
      Evaluates functions env (.node (.loop place condition body)) [] env .normal
  | loopRound {env middle after : Env} {place : Place} {condition : Expr} {body : List Node}
      {value : Value} {first rest : List Effect} {outcome : Outcome}
      (tested : env.value condition = .ok value) (truthy : value.truthy = true)
      (round : Evaluates functions env (.block body) first middle .normal)
      (again : Evaluates functions middle (.node (.loop place condition body)) rest after outcome) :
      Evaluates functions env (.node (.loop place condition body)) (first ++ rest) after outcome
  | loopLeft {env after : Env} {place : Place} {condition : Expr} {body : List Node}
      {value : Value} {effects : List Effect} {outcome : Outcome}
      (tested : env.value condition = .ok value) (truthy : value.truthy = true)
      (round : Evaluates functions env (.block body) effects after outcome)
      (ends : outcome ≠ .normal) :
      Evaluates functions env (.node (.loop place condition body)) effects after outcome
  | loopFails {env : Env} {place : Place} {condition : Expr} {body : List Node} {fault : StepFault}
      (tested : env.value condition = .error fault) :
      Evaluates functions env (.node (.loop place condition body)) [] env
        (.failed (fault.at (some place.offset)))
  | branchSkips {env : Env} {place : Place} {condition : Expr} {body : List Node} {value : Value}
      (tested : env.value condition = .ok value) (falsy : value.truthy = false) :
      Evaluates functions env (.node (.branch place condition body)) [] env .normal
  | branchRuns {env after : Env} {place : Place} {condition : Expr} {body : List Node}
      {value : Value} {effects : List Effect} {outcome : Outcome}
      (tested : env.value condition = .ok value) (truthy : value.truthy = true)
      (once : Evaluates functions env (.block body) effects after outcome) :
      Evaluates functions env (.node (.branch place condition body)) effects after outcome
  | branchFails {env : Env} {place : Place} {condition : Expr} {body : List Node}
      {fault : StepFault} (tested : env.value condition = .error fault) :
      Evaluates functions env (.node (.branch place condition body)) [] env
        (.failed (fault.at (some place.offset)))
  -- A body sees its parameters and the global variables; those of the caller come back after it.
  | enters {env inner : Env} {name : String} {arguments : List Value} {offset : Nat}
      {function : Function} {effects : List Effect} {outcome : Outcome}
      (found : findFunction functions name = some function)
      (arity : function.parameters.length = arguments.length)
      (body : Evaluates functions
        ⟨env.globals, some (Scope.ofArguments function.parameters arguments)⟩
        (.block function.body) effects inner outcome) :
      Evaluates functions env (.call name arguments offset) effects ⟨inner.globals, env.scope⟩
        outcome.ofBody
  | unknown {env : Env} {name : String} {arguments : List Value} {offset : Nat}
      (missing : findFunction functions name = none) :
      Evaluates functions env (.call name arguments offset) [] env
        (.failed ((StepFault.notFunction name).at (some offset)))
  | mismatch {env : Env} {name : String} {arguments : List Value} {offset : Nat}
      {function : Function} (found : findFunction functions name = some function)
      (arity : function.parameters.length ≠ arguments.length) :
      Evaluates functions env (.call name arguments offset) [] env
        (.failed ((StepFault.arity name function.parameters.length arguments.length).at
          (some offset)))

theorem Env.write_scope (env : Env) (name : String) (value : Value) :
    (env.write name value).scope.isSome = env.scope.isSome := by
  unfold Env.write
  split
  · rename_i scope here
    split <;> simp [here]
  · rename_i here
    simp [here]

theorem Env.settle_scope {env after : Env} {place : Place} {action : Action} {value : Value}
    {effects : List Effect} {outcome : Outcome}
    (settles : env.settle place action value = (effects, after, outcome)) :
    after.scope.isSome = env.scope.isSome := by
  unfold Env.settle at settles
  split at settles
  · cases settles; rfl
  · cases settles; exact env.write_scope _ _
  · split at settles <;> cases settles <;> rfl
  · cases settles; rfl
  · cases settles; rfl

theorem Evaluates.scope {functions : List Function} {env after : Env} {task : Task}
    {effects : List Effect} {outcome : Outcome}
    (evaluates : Evaluates functions env task effects after outcome) :
    after.scope.isSome = env.scope.isSome := by
  induction evaluates with
  | goesOn _ _ head tail => exact tail.trans head
  | breaksOff _ _ head => exact head
  | takes _ settles => exact Env.settle_scope settles
  | calls _ _ _ settles returns => exact (Env.settle_scope settles).trans returns
  | callFails _ _ _ fails => exact fails
  | loopRound _ _ _ _ round again => exact again.trans round
  | loopLeft _ _ _ _ round => exact round
  | branchRuns _ _ _ once => exact once
  | _ => rfl

end Metronome.Script
