import Metronome.Proofs.Shift
import Metronome.Proofs.Solo

namespace Metronome.Script

def Env.machine (env : Env) (functions : List Function) (outer : List Scope) (stack : List Frame) :
    Machine :=
  ⟨functions, env.globals, env.scope.toList ++ outer, stack⟩

def Env.Lined (env : Env) (outer : List Scope) : Prop :=
  env.scope = none → outer = []

section

variable {env : Env} {functions : List Function} {outer : List Scope} {stack : List Frame}

theorem Env.machine_lookup (lined : env.Lined outer) (name : String) :
    (env.machine functions outer stack).lookup name = env.read name := by
  obtain ⟨globals, scope⟩ := env
  cases scope with
  | none =>
    rw [lined rfl]
    rfl
  | some scope =>
    simp only [Env.machine, Machine.lookup, Env.read, Option.toList, List.singleton_append,
      List.head?_cons, Option.bind_some]
    cases Scope.get? name scope <;> rfl

theorem Env.machine_assign (lined : env.Lined outer) (name : String) (value : Value) :
    (env.machine functions outer stack).assign name value =
      (env.write name value).machine functions outer stack := by
  obtain ⟨globals, scope⟩ := env
  cases scope with
  | none =>
    rw [lined rfl]
    rfl
  | some scope =>
    change Machine.assign ⟨functions, globals, scope :: outer, stack⟩ name value = _
    unfold Machine.assign Env.write
    dsimp only
    split <;> rfl

theorem Env.machine_evalPrimary (lined : env.Lined outer) (operand : Primary) :
    (env.machine functions outer stack).evalPrimary operand = env.operand operand := by
  cases operand with
  | literal value => rfl
  | _ name =>
    rw [Machine.evalPrimary, Env.machine_lookup lined]
    rfl

theorem Env.machine_eval (lined : env.Lined outer) (value : Expr) :
    (env.machine functions outer stack).eval value = env.value value := by
  cases value with
  | primary operand => exact Env.machine_evalPrimary lined operand
  | binary left op right =>
    rw [Machine.eval, Env.machine_evalPrimary lined, Env.machine_evalPrimary lined]
    rfl

theorem Env.machine_evalAll (lined : env.Lined outer) (operands : List Primary) :
    (env.machine functions outer stack).evalAll operands = env.values operands := by
  induction operands with
  | nil => rfl
  | cons operand operands ih =>
    rw [Machine.evalAll, ih, Env.machine_evalPrimary lined]
    exact List.mapM_cons.symm

theorem Env.machine_timerOf (lined : env.Lined outer) (callback : String) (delay : Primary)
    (arguments : List Primary) :
    (env.machine functions outer stack).timerOf callback delay arguments =
      env.timer functions callback delay arguments := by
  rw [Machine.timerOf, Env.machine_evalPrimary lined, Env.machine_evalAll lined]
  rfl

def Machine.taking (m : Machine) (place : Place) (action : Action) :
    Except StepFault Value → Native Machine.Result
  | .ok value => m.complete place action value
  | .error fault => .done (m.fail fault (some place.offset))

theorem Env.machine_takes (lined : env.Lined outer) {action : Action}
    {given : Except StepFault Value} (taken : env.valueOf action = some given) (place : Place) :
    (env.machine functions outer stack).runAction place action =
      (env.machine functions outer stack).taking place action given := by
  unfold Env.valueOf at taken
  split at taken <;> cases taken
  case h_4 => rfl
  all_goals
    simp only [Machine.runAction, Action.call?, Machine.runSimple, Env.machine_eval lined]
    cases env.value _ <;> rfl

def Machine.timing (m : Machine) (place : Place) (action : Action) :
    Except StepFault (Callback × Duration) → Native Machine.Result
  | .ok (callback, delay) => .setTimeout callback delay (m.complete place action .null)
  | .error fault => .done (m.fail fault (some place.offset))

theorem Env.machine_times (lined : env.Lined outer) {name : String} {wait : Primary}
    {arguments : List Primary} {given : Except StepFault (Callback × Duration)}
    (timer : env.timer functions name wait arguments = given) (place : Place) :
    (env.machine functions outer stack).runAction place (.timeout name wait arguments) =
      (env.machine functions outer stack).timing place (.timeout name wait arguments) given := by
  rw [Machine.runAction, show Action.call? (.timeout name wait arguments) = none from rfl]
  simp only [Machine.runSimple, Env.machine_timerOf lined, timer]
  cases given <;> rfl

end

inductive Fits : Env → List Scope → List Frame → Prop where
  | outside {env : Env} {below : List Frame} (scope : env.scope = none)
      (noCall : toCall below = []) : Fits env [] below
  | inside {env : Env} {outer : List Scope} {below rest : List Frame} {name : String}
      {offset : Option Nat} (scope : env.scope.isSome = true)
      (call : toCall below = .call name offset .running :: rest) : Fits env outer below

def Task.isCall : Task → Bool
  | .call _ _ _ => true
  | _ => false

def Task.frame (origin : Option Nat) : Task → Frame
  | .block nodes => .block nodes origin
  | .node statement => .ofNode statement
  | .call name arguments offset => .call name (some offset) (.ready arguments)

/-- How a task that was on top of a stack ends: a block is left without statements, a statement is
gone, a return has come to its call, a call has its value, or the machine has failed. -/
inductive Ends (functions : List Function) (outer : List Scope) (origin : Option Nat)
    (below : List Frame) (after : Env) (effects : List Effect) : Task → Outcome → Solo → Prop where
  | block {nodes : List Node} : Ends functions outer origin below after effects (.block nodes)
      .normal (.running (after.machine functions outer (.block [] origin :: below)) effects)
  | node {node : Node} : Ends functions outer origin below after effects (.node node) .normal
      (.running (after.machine functions outer below) effects)
  | returns {task : Task} {value : Value} {name : String} {offset : Option Nat}
      {rest : List Frame} (inside : task.isCall = false)
      (call : toCall below = .call name offset .running :: rest) :
      Ends functions outer origin below after effects task (.returned value)
        (.running ⟨functions, after.globals, outer, .call name offset (.returned value) :: rest⟩
          effects)
  | call {name : String} {arguments : List Value} {offset : Nat} {value : Value} :
      Ends functions outer origin below after effects (.call name arguments offset)
        (.returned value)
        (.running (after.machine functions outer
          (.call name (some offset) (.returned value) :: below)) effects)
  | failed {task : Task} {t : Solo} {error : StepError} (fails : t.failure = some error)
      (noticed : t.journal.effects = effects) :
      Ends functions outer origin below after effects task (.failed error) t

section

variable {env after : Env} {functions : List Function} {outer : List Scope}
  {below : List Frame} {origin : Option Nat} {effects told : List Effect} {outcome : Outcome}
  {s t : Solo}

theorem Fits.lined (fits : Fits env outer below) : env.Lined outer := by
  cases fits with
  | outside => exact fun _ => rfl
  | inside scope =>
    intro none
    rw [none] at scope
    cases scope

theorem Fits.same (fits : Fits env outer below) (same : after.scope.isSome = env.scope.isSome) :
    Fits after outer below := by
  cases fits with
  | outside scope noCall =>
    rw [scope] at same
    exact .outside (by simpa using same) noCall
  | inside scope call => exact .inside (same.trans scope) call

theorem toCall_other {frame : Frame} (other : frame.kind ≠ .call) :
    toCall (frame :: below) = toCall below := by
  simp [toCall, other]

theorem Fits.above {frame : Frame} (fits : Fits env outer below) (other : frame.kind ≠ .call) :
    Fits env outer (frame :: below) := by
  cases fits with
  | outside scope noCall => exact .outside scope ((toCall_other other).trans noCall)
  | inside scope call => exact .inside scope ((toCall_other other).trans call)

theorem Ends.past {frame : Frame} {task other : Task} {elsewhere : Option Nat}
    (ends : Ends functions outer origin (frame :: below) after effects task outcome t)
    (kind : frame.kind ≠ .call) (inside : task.isCall = false) (inner : other.isCall = false)
    (abrupt : outcome ≠ .normal) :
    Ends functions outer elsewhere below after effects other outcome t := by
  cases ends with
  | block => exact absurd rfl abrupt
  | node => exact absurd rfl abrupt
  | returns _ call => exact .returns inner ((toCall_other kind).symm.trans call)
  | call => cases inside
  | failed fails noticed => exact .failed fails noticed

theorem Ends.block_congr {nodes others : List Node}
    (ends : Ends functions outer origin below after effects (.block nodes) outcome t) :
    Ends functions outer origin below after effects (.block others) outcome t := by
  cases ends with
  | block => exact .block
  | returns _ call => exact .returns rfl call
  | failed fails noticed => exact .failed fails noticed

theorem fails_here {m : Machine} {fault : StepFault} {offset : Option Nat} {task : Task}
    (next : s.next = .ofNative (.done (m.fail fault offset)) told) :
    ∃ t, s.Reaches t ∧ Ends functions outer origin below after (told ++ []) task
      (.failed (fault.at offset)) t := by
  refine ⟨s.next, .one rfl, .failed ?_ ?_⟩
  · rw [next]
    rfl
  · rw [next, List.append_nil]
    rfl

theorem Solo.Modest.leaves {place : Place} {action : Action} (modest : s.Modest)
    (next : s.next = .ofNative (.done ((env.machine functions outer below).push
      (.action place action .done))) told) :
    s.Reaches (.running (env.machine functions outer below) told) := by
  refine .step ?_
  rw [modest.pushed next]
  exact .one ((Solo.next_finish rfl rfl).trans rfl)

theorem returns_here {place : Place} {rhs : Option Rhs} {value : Value}
    (fits : Fits env outer below)
    (next : s.next = .ofNative
      (.done ((env.machine functions outer below).returnValue value place.offset)) told)
    (settles : env.settle place (.ret rhs) value = (effects, after, outcome)) :
    ∃ t, s.Reaches t ∧ Ends functions outer origin below after (told ++ effects)
      (.node (.action place (.ret rhs))) outcome t := by
  rw [Machine.returnValue] at next
  cases fits with
  | outside scope noCall =>
    simp only [Env.settle, scope, Option.isSome_none, Bool.false_eq_true, if_false] at settles
    cases settles
    have bare : (env.machine functions [] below).stack.dropWhile (·.kind != .call) = [] := noCall
    rw [bare] at next
    exact fails_here next
  | inside scope call =>
    simp only [Env.settle, scope, if_true] at settles
    cases settles
    have found : (env.machine functions outer below).stack.dropWhile (·.kind != .call) = _ := call
    have left : (env.machine functions outer below).locals.tail = outer := by
      obtain ⟨inner, same⟩ := Option.isSome_iff_exists.mp scope
      simp [Env.machine, same]
    rw [found, left] at next
    rw [List.append_nil]
    exact ⟨_, .one next, .returns rfl call⟩

theorem Solo.Modest.settles {place : Place} {action : Action} {value : Value}
    (modest : s.Modest) (fits : Fits env outer below)
    (next : s.next =
      .ofNative ((env.machine functions outer below).complete place action value) told)
    (settles : env.settle place action value = (effects, after, outcome)) :
    ∃ t, s.Reaches t ∧ Ends functions outer origin below after (told ++ effects)
      (.node (.action place action)) outcome t := by
  cases action with
  | print rhs =>
    cases settles
    exact ⟨_, modest.leaves next, .node⟩
  | set name rhs =>
    cases settles
    rw [Machine.complete, Env.machine_assign fits.lined] at next
    rw [List.append_nil]
    exact ⟨_, modest.leaves next, .node⟩
  | call target | timeout callback delay arguments =>
    cases settles
    rw [List.append_nil]
    exact ⟨_, modest.leaves next, .node⟩
  | ret rhs => exact returns_here fits next settles

def Task.begun (task : Task) (env : Env) (functions : List Function) (outer : List Scope)
    (origin : Option Nat) (below : List Frame) (told : List Effect) : Solo :=
  .running (env.machine functions outer (task.frame origin :: below)) told

theorem Solo.Modest.enters {node : Node} {nodes : List Node}
    (modest : (Task.begun (.block (node :: nodes)) env functions outer origin below told).Modest) :
    (Task.begun (.block (node :: nodes)) env functions outer origin below told).next =
      Task.begun (.node node) env functions outer origin (.block nodes origin :: below) told := by
  have next : (Task.begun (.block (node :: nodes)) env functions outer origin below told).next =
      .ofNative (.done ((env.machine functions outer (.block nodes origin :: below)).push
        (.ofNode node))) told := (Solo.next_advance rfl rfl).trans rfl
  exact (modest.pushed next).trans rfl

theorem leaves_statement {frame : Frame} (node : frame.isNode = true) (done : frame.isDone = true) :
    (Solo.running (env.machine functions outer (frame :: below)) told).Reaches
      (.running (env.machine functions outer below) told) := by
  refine .one ((Solo.next_finish rfl done).trans ?_)
  cases frame with
  | block => cases node
  | call => cases node
  | _ => rfl

theorem leaves_block {frame : Frame} (other : frame.kind ≠ .call) :
    (Solo.running (env.machine functions outer (.block [] origin :: frame :: below)) told).Reaches
      (.running (env.machine functions outer (frame :: below)) told) := by
  refine .one ((Solo.next_finish rfl rfl).trans ?_)
  cases frame with
  | call => exact absurd rfl other
  | _ => rfl

theorem next_action (env : Env) (functions : List Function) (outer : List Scope)
    (origin : Option Nat) (below : List Frame) (told : List Effect) (place : Place)
    (action : Action) :
    (Task.begun (.node (.action place action)) env functions outer origin below told).next =
      .ofNative ((env.machine functions outer below).runAction place action) told :=
  (Solo.next_advance rfl rfl).trans rfl

theorem next_takes {place : Place} {action : Action} {given : Except StepFault Value}
    (lined : env.Lined outer) (taken : env.valueOf action = some given) :
    (Task.begun (.node (.action place action)) env functions outer origin below told).next =
      .ofNative ((env.machine functions outer below).taking place action given) told := by
  rw [next_action, Env.machine_takes lined taken]

theorem next_times {place : Place} {name : String} {wait : Primary} {arguments : List Primary}
    {given : Except StepFault (Callback × Duration)} (lined : env.Lined outer)
    (timer : env.timer functions name wait arguments = given) :
    (Task.begun (.node (.action place (.timeout name wait arguments))) env functions outer origin below
      told).next = .ofNative ((env.machine functions outer below).timing place
        (.timeout name wait arguments) given) told := by
  rw [next_action, Env.machine_times lined timer]

theorem next_loop {place : Place} {condition : Expr} {body : List Node} :
    (Task.begun (.node (.loop place condition body)) env functions outer origin below told).next =
      .ofNative (.done ((env.machine functions outer below).test place condition body
        fun holds => .loop place condition body (!holds))) told :=
  (Solo.next_advance rfl rfl).trans rfl

theorem next_branch {place : Place} {condition : Expr} {body : List Node} :
    (Task.begun (.node (.branch place condition body)) env functions outer origin below told).next =
      .ofNative (.done ((env.machine functions outer below).test place condition body
        fun holds => .branch place condition body (if holds then .waiting else .done))) told :=
  (Solo.next_advance rfl rfl).trans rfl

theorem next_call (env : Env) (functions : List Function) (outer : List Scope)
    (origin : Option Nat) (below : List Frame) (told : List Effect) (name : String)
    (arguments : List Value) (offset : Nat) :
    (Task.begun (.call name arguments offset) env functions outer origin below told).next =
      .ofNative (.done ((env.machine functions outer below).startCall name (some offset) arguments))
        told :=
  (Solo.next_advance rfl rfl).trans rfl

theorem Solo.Modest.tests {place : Place} {condition : Expr} {body : List Node} {value : Value}
    {frame : Bool → Frame} (modest : s.Modest) (lined : env.Lined outer)
    (next : s.next = .ofNative (.done
      ((env.machine functions outer below).test place condition body frame)) told)
    (tested : env.value condition = .ok value) (truthy : value.truthy = true) :
    s.next = Task.begun (.block body) env functions outer (some place.offset)
      (frame true :: below) told := by
  rw [Machine.test, Env.machine_eval lined, tested] at next
  simp only [truthy, if_true] at next
  exact modest.pushed next

theorem test_skips {place : Place} {condition : Expr} {body : List Node} {value : Value}
    {frame : Bool → Frame} (lined : env.Lined outer)
    (next : s.next = .ofNative (.done
      ((env.machine functions outer below).test place condition body frame)) told)
    (tested : env.value condition = .ok value) (falsy : value.truthy = false) :
    s.Reaches (.running (env.machine functions outer (frame false :: below)) told) := by
  rw [Machine.test, Env.machine_eval lined, tested] at next
  simp only [falsy, Bool.false_eq_true, if_false] at next
  exact .one next

theorem test_fails {place : Place} {condition : Expr} {body : List Node} {fault : StepFault}
    {frame : Bool → Frame} {task : Task} (lined : env.Lined outer)
    (next : s.next = .ofNative (.done
      ((env.machine functions outer below).test place condition body frame)) told)
    (tested : env.value condition = .error fault) :
    ∃ t, s.Reaches t ∧ Ends functions outer origin below after (told ++ []) task
      (.failed (fault.at (some place.offset))) t := by
  rw [Machine.test, Env.machine_eval lined, tested] at next
  exact fails_here next

theorem next_calls {place : Place} {action : Action} {target : Call}
    (modest : (Task.begun (.node (.action place action)) env functions outer origin below told).Modest)
    (asks : action.call? = some target) :
    (Task.begun (.node (.action place action)) env functions outer origin below told).next =
      .ofNative (.done ((env.machine functions outer (.action place action .waiting :: below)).pushCall
        target place.offset)) told := by
  have next := next_action env functions outer origin below told place action
  have fits : ¬ stackLimit ≤ (env.machine functions outer below).stack.length := by
    refine modest.fits (some place.offset) fun full => ?_
    rw [next, Machine.runAction, asks, Machine.push, if_pos full]
    rfl
  rw [next, Machine.runAction, asks, Solo.push_fits fits]
  rfl

theorem Solo.Modest.calls {place : Place} {action : Action} {target : Call}
    {arguments : List Value}
    (modest : (Task.begun (.node (.action place action)) env functions outer origin below told).Modest)
    (lined : env.Lined outer) (asks : action.call? = some target)
    (given : env.values target.arguments = .ok arguments) :
    (Task.begun (.node (.action place action)) env functions outer origin below told).next =
      Task.begun (.call target.name arguments place.offset) env functions outer origin
        (.action place action .waiting :: below) told := by
  have pushed : (Task.begun (.node (.action place action)) env functions outer origin below told).next =
      .ofNative (.done ((env.machine functions outer (.action place action .waiting :: below)).push
        (.call target.name (some place.offset) (.ready arguments)))) told := by
    rw [next_calls modest asks, Machine.pushCall, Env.machine_evalAll lined, given]
  exact (modest.pushed pushed).trans rfl

theorem Solo.Modest.begins {name : String} {arguments : List Value} {offset : Nat}
    {function : Function}
    (modest : (Task.begun (.call name arguments offset) env functions outer origin below told).Modest)
    (found : findFunction functions name = some function)
    (arity : function.parameters.length = arguments.length) :
    (Task.begun (.call name arguments offset) env functions outer origin below told).next =
      Task.begun (.block function.body)
        ⟨env.globals, some (Scope.ofArguments function.parameters arguments)⟩ functions
        (env.scope.toList ++ outer) (some function.offset)
        (.call name (some offset) .running :: below) told := by
  have next := next_call env functions outer origin below told name arguments offset
  have known : findFunction (env.machine functions outer below).functions name = some function := found
  rw [Machine.startCall, known] at next
  dsimp only at next
  rw [if_neg (by simp [arity])] at next
  have fits : ¬ stackLimit ≤ (env.machine functions outer below).stack.length := by
    refine modest.fits (some offset) fun full => ?_
    rw [next, Machine.push, if_pos full]
    rfl
  rw [Solo.push_fits fits] at next
  have pushed : (Task.begun (.call name arguments offset) env functions outer origin below told).next =
      .ofNative (.done ((Env.machine ⟨env.globals, some (Scope.ofArguments function.parameters arguments)⟩
        functions (env.scope.toList ++ outer) (.call name (some offset) .running :: below)).push
          (.block function.body (some function.offset)))) told := next
  exact (modest.pushed pushed).trans rfl

theorem call_ends {inner : Env} {body : List Node} {name : String} {arguments : List Value}
    {offset : Nat} {elsewhere : Option Nat} (scope : inner.scope.isSome = true)
    (ends : Ends functions (env.scope.toList ++ outer) elsewhere
      (.call name (some offset) .running :: below) inner effects (.block body) outcome t) :
    ∃ u, t.Reaches u ∧ Ends functions outer origin below ⟨inner.globals, env.scope⟩ effects
      (.call name arguments offset) outcome.ofBody u := by
  obtain ⟨own, here⟩ := Option.isSome_iff_exists.mp scope
  cases ends with
  | block =>
    refine ⟨_, .one ((Solo.next_finish rfl rfl).trans ?_), .call⟩
    simp only [Env.machine, here]
    rfl
  | returns _ call =>
    cases call
    exact ⟨_, .refl _, .call⟩
  | failed fails noticed => exact ⟨_, .refl _, .failed fails noticed⟩

theorem Solo.Reaches.ends {task : Task} {u : Solo} (first : s.Reaches u)
    (rest : ∃ t, u.Reaches t ∧ Ends functions outer origin below after effects task outcome t) :
    ∃ t, s.Reaches t ∧ Ends functions outer origin below after effects task outcome t := by
  obtain ⟨t, later, ends⟩ := rest
  exact ⟨t, first.trans later, ends⟩

def CarriesOut (functions : List Function) (env : Env) (task : Task) (effects : List Effect)
    (after : Env) (outcome : Outcome) : Prop :=
  ∀ {outer : List Scope} {origin : Option Nat} {below : List Frame} {told : List Effect},
    Fits env outer below → (task.begun env functions outer origin below told).Modest →
    ∃ t, (task.begun env functions outer origin below told).Reaches t ∧
      Ends functions outer origin below after (told ++ effects) task outcome t

namespace CarriesOut

variable {middle : Env} {place : Place} {first rest : List Effect}

theorem goesOn {node : Node} {nodes : List Node} (scope : middle.scope.isSome = env.scope.isSome)
    (head : CarriesOut functions env (.node node) first middle .normal)
    (tail : CarriesOut functions middle (.block nodes) rest after outcome) :
    CarriesOut functions env (.block (node :: nodes)) (first ++ rest) after outcome := by
  intro outer origin below told fits modest
  have entered := Solo.Reaches.one modest.enters
  obtain ⟨t, reaches, ends⟩ := head (fits.above (by simp [Frame.kind])) (modest.after entered)
  cases ends with
  | node =>
    have there := entered.trans reaches
    obtain ⟨u, later, ended⟩ := tail (fits.same scope) (modest.after there)
    rw [← List.append_assoc]
    exact ⟨u, there.trans later, ended.block_congr⟩

theorem breaksOff {node : Node} {nodes : List Node} (abrupt : outcome ≠ .normal)
    (head : CarriesOut functions env (.node node) effects after outcome) :
    CarriesOut functions env (.block (node :: nodes)) effects after outcome := by
  intro outer origin below told fits modest
  have entered := Solo.Reaches.one modest.enters
  obtain ⟨t, reaches, ends⟩ := head (fits.above (by simp [Frame.kind])) (modest.after entered)
  exact ⟨t, entered.trans reaches, ends.past (by simp [Frame.kind]) rfl rfl abrupt⟩

theorem setsTimer {name : String} {wait : Primary} {arguments : List Primary} {callback : Callback}
    {delay : Duration} (timer : env.timer functions name wait arguments = .ok (callback, delay)) :
    CarriesOut functions env (.node (.action place (.timeout name wait arguments)))
      [.sets callback delay] env .normal := by
  intro outer origin below told fits modest
  have settles : env.settle place (.timeout name wait arguments) .null = ([], env, .normal) := rfl
  rw [← List.append_nil (told ++ _)]
  exact modest.settles fits (next_times fits.lined timer) settles

section

variable {action : Action} {target : Call} {arguments : List Value}

theorem calls {value : Value} (asks : action.call? = some target)
    (given : env.values target.arguments = .ok arguments)
    (scope : middle.scope.isSome = env.scope.isSome)
    (settles : middle.settle place action value = (rest, after, outcome))
    (call : CarriesOut functions env (.call target.name arguments place.offset) first middle
      (.returned value)) :
    CarriesOut functions env (.node (.action place action)) (first ++ rest) after outcome := by
  intro outer origin below told fits modest
  have called := Solo.Reaches.one (modest.calls fits.lined asks given)
  obtain ⟨t, reaches, ends⟩ := call (fits.above (by simp [Frame.kind])) (modest.after called)
  cases ends with
  | returns inside => cases inside
  | call =>
    have there := called.trans reaches
    rw [← List.append_assoc]
    refine there.ends ((modest.after there).settles (fits.same scope) ?_ settles)
    exact (Solo.next_finish rfl rfl).trans rfl

theorem callsNothing {fault : StepFault} (asks : action.call? = some target)
    (given : env.values target.arguments = .error fault) :
    CarriesOut functions env (.node (.action place action)) [] env
      (.failed (fault.at (some place.offset))) := by
  intro outer origin below told fits modest
  have next := next_calls modest asks
  rw [Machine.pushCall, Env.machine_evalAll fits.lined, given] at next
  exact fails_here next

theorem callFails {error : StepError} (asks : action.call? = some target)
    (given : env.values target.arguments = .ok arguments)
    (call : CarriesOut functions env (.call target.name arguments place.offset) effects after
      (.failed error)) :
    CarriesOut functions env (.node (.action place action)) effects after (.failed error) := by
  intro outer origin below told fits modest
  have called := Solo.Reaches.one (modest.calls fits.lined asks given)
  obtain ⟨t, reaches, ends⟩ := call (fits.above (by simp [Frame.kind])) (modest.after called)
  cases ends with
  | failed fails noticed => exact ⟨t, called.trans reaches, .failed fails noticed⟩

end

section

variable {condition : Expr} {body : List Node} {value : Value}

theorem loopEnds (tested : env.value condition = .ok value) (falsy : value.truthy = false) :
    CarriesOut functions env (.node (.loop place condition body)) [] env .normal := by
  intro outer origin below told fits _
  rw [List.append_nil]
  exact ⟨_, Solo.Reaches.trans (test_skips fits.lined next_loop tested falsy)
    (leaves_statement rfl rfl), .node⟩

theorem loopRound (tested : env.value condition = .ok value) (truthy : value.truthy = true)
    (scope : middle.scope.isSome = env.scope.isSome)
    (round : CarriesOut functions env (.block body) first middle .normal)
    (again : CarriesOut functions middle (.node (.loop place condition body)) rest after outcome) :
    CarriesOut functions env (.node (.loop place condition body)) (first ++ rest) after outcome := by
  intro outer origin below told fits modest
  have tests := Solo.Reaches.one (modest.tests fits.lined next_loop tested truthy)
  obtain ⟨t, reaches, ends⟩ := round (fits.above (by simp [Frame.kind])) (modest.after tests)
  cases ends with
  | block =>
    have there := (tests.trans reaches).trans (leaves_block (by simp [Frame.kind]))
    rw [← List.append_assoc]
    exact there.ends (again (fits.same scope) (modest.after there))

theorem loopLeft (tested : env.value condition = .ok value) (truthy : value.truthy = true)
    (abrupt : outcome ≠ .normal)
    (round : CarriesOut functions env (.block body) effects after outcome) :
    CarriesOut functions env (.node (.loop place condition body)) effects after outcome := by
  intro outer origin below told fits modest
  have tests := Solo.Reaches.one (modest.tests fits.lined next_loop tested truthy)
  obtain ⟨t, reaches, ends⟩ := round (fits.above (by simp [Frame.kind])) (modest.after tests)
  exact ⟨t, tests.trans reaches, ends.past (by simp [Frame.kind]) rfl rfl abrupt⟩

theorem branchSkips (tested : env.value condition = .ok value) (falsy : value.truthy = false) :
    CarriesOut functions env (.node (.branch place condition body)) [] env .normal := by
  intro outer origin below told fits _
  rw [List.append_nil]
  exact ⟨_, Solo.Reaches.trans (test_skips fits.lined next_branch tested falsy)
    (leaves_statement rfl rfl), .node⟩

theorem branchRuns (tested : env.value condition = .ok value) (truthy : value.truthy = true)
    (once : CarriesOut functions env (.block body) effects after outcome) :
    CarriesOut functions env (.node (.branch place condition body)) effects after outcome := by
  intro outer origin below told fits modest
  have tests := Solo.Reaches.one (modest.tests fits.lined next_branch tested truthy)
  obtain ⟨t, reaches, ends⟩ := once (fits.above (by simp [Frame.kind])) (modest.after tests)
  have there := tests.trans reaches
  by_cases normal : outcome = .normal
  · subst normal
    cases ends with
    | block =>
      -- The branch still shows that it waits for its block, so it takes a step more than a loop.
      exact ⟨_, (there.trans (leaves_block (by simp [Frame.kind]))).trans
        (.step (leaves_statement rfl rfl)), .node⟩
  · exact ⟨t, there, ends.past (by simp [Frame.kind]) rfl rfl normal⟩

end

section

variable {name : String} {arguments : List Value} {offset : Nat} {function : Function}

theorem enters {inner : Env} (found : findFunction functions name = some function)
    (arity : function.parameters.length = arguments.length) (scope : inner.scope.isSome = true)
    (body : CarriesOut functions
      ⟨env.globals, some (Scope.ofArguments function.parameters arguments)⟩
      (.block function.body) effects inner outcome) :
    CarriesOut functions env (.call name arguments offset) effects ⟨inner.globals, env.scope⟩
      outcome.ofBody := by
  intro outer origin below told fits modest
  have begins := Solo.Reaches.one (modest.begins found arity)
  obtain ⟨t, reaches, ends⟩ := body (.inside rfl rfl) (modest.after begins)
  obtain ⟨u, last, ended⟩ := call_ends scope ends
  exact ⟨u, (begins.trans reaches).trans last, ended⟩

theorem unknown (missing : findFunction functions name = none) :
    CarriesOut functions env (.call name arguments offset) [] env
      (.failed ((StepFault.notFunction name).at (some offset))) := by
  intro outer origin below told _ _
  have unknown : findFunction (env.machine functions outer below).functions name = none := missing
  have next := next_call env functions outer origin below told name arguments offset
  rw [Machine.startCall, unknown] at next
  exact fails_here next

theorem mismatch (found : findFunction functions name = some function)
    (arity : function.parameters.length ≠ arguments.length) :
    CarriesOut functions env (.call name arguments offset) [] env
      (.failed ((StepFault.arity name function.parameters.length arguments.length).at
        (some offset))) := by
  intro outer origin below told _ _
  have known : findFunction (env.machine functions outer below).functions name = some function :=
    found
  have next := next_call env functions outer origin below told name arguments offset
  rw [Machine.startCall, known] at next
  dsimp only at next
  rw [if_pos arity] at next
  exact fails_here next

end

end CarriesOut

/-- A machine that runs modestly does with a task on its stack what the task means. -/
theorem Evaluates.carriesOut {task : Task}
    (evaluates : Evaluates functions env task effects after outcome) :
    CarriesOut functions env task effects after outcome := by
  induction evaluates with
  | nothing =>
    intro outer origin below told _ _
    rw [List.append_nil]
    exact ⟨_, .refl _, .block⟩
  | goesOn head _ ih ihRest => exact ih.goesOn head.scope ihRest
  | breaksOff _ ends ih => exact ih.breaksOff ends
  | takes given settles =>
    intro outer origin below told fits modest
    exact modest.settles fits (next_takes fits.lined given) settles
  | takesNothing given =>
    intro outer origin below told fits _
    exact fails_here (next_takes fits.lined given)
  | setsTimer timer => exact CarriesOut.setsTimer timer
  | setsNoTimer timer =>
    intro outer origin below told fits _
    exact fails_here (next_times fits.lined timer)
  | calls asks given call settles ih => exact CarriesOut.calls asks given call.scope settles ih
  | callsNothing asks given => exact CarriesOut.callsNothing asks given
  | callFails asks given _ ih => exact CarriesOut.callFails asks given ih
  | loopEnds tested falsy => exact CarriesOut.loopEnds tested falsy
  | loopRound tested truthy round _ ih ihAgain =>
    exact CarriesOut.loopRound tested truthy round.scope ih ihAgain
  | loopLeft tested truthy _ ends ih => exact CarriesOut.loopLeft tested truthy ends ih
  | loopFails tested =>
    intro outer origin below told fits _
    exact test_fails fits.lined next_loop tested
  | branchSkips tested falsy => exact CarriesOut.branchSkips tested falsy
  | branchRuns tested truthy _ ih => exact CarriesOut.branchRuns tested truthy ih
  | branchFails tested =>
    intro outer origin below told fits _
    exact test_fails fits.lined next_branch tested
  | enters found arity body ih => exact CarriesOut.enters found arity body.scope ih
  | unknown missing => exact CarriesOut.unknown missing
  | mismatch found arity => exact CarriesOut.mismatch found arity

end

end Metronome.Script
