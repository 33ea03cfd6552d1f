import Metronome.Proofs.Shift
import Mathlib.Data.List.Chain

namespace Metronome

def LineMap.Holds (lines : LineMap) (offset : Nat) : Prop :=
  (lines.userLine offset).isSome = true

namespace Script

/-- A frame and the one below it, which waits for the first to leave the stack. -/
inductive Frame.StandsOn : Frame → Frame → Prop where
  | block {frame : Frame} {rest : List Node} {origin : Option Nat} (node : frame.isNode = true) :
      StandsOn frame (.block rest origin)
  | action {name : String} {state : CallState} {place : Place} {action : Action} :
      StandsOn (.call name (some place.offset) state) (.action place action .waiting)
  | poll {name : String} {state : CallState} {place : Place} :
      StandsOn (.call name none state) (.poll place .waiting)
  | loop {rest : List Node} {place : Place} {condition : Expr} {body : List Node} :
      StandsOn (.block rest (some place.offset)) (.loop place condition body false)
  | branch {rest : List Node} {place : Place} {condition : Expr} {body : List Node} :
      StandsOn (.block rest (some place.offset)) (.branch place condition body .waiting)
  | body {rest : List Node} {origin : Nat} {name : String} {offset : Option Nat} :
      StandsOn (.block rest (some origin)) (.call name offset .running)

theorem Frame.StandsOn.replace_node {frame other below : Frame} (stands : frame.StandsOn below)
    (node : frame.isNode = true) (otherNode : other.isNode = true) : other.StandsOn below := by
  cases stands with
  | block => exact .block otherNode
  | _ => cases node

theorem Frame.StandsOn.replace_rest {rest other : List Node} {origin : Option Nat} {below : Frame}
    (stands : (Frame.block rest origin).StandsOn below) :
    (Frame.block other origin).StandsOn below := by
  cases stands with
  | block node => cases node
  | loop => exact .loop
  | branch => exact .branch
  | body => exact .body

theorem Frame.StandsOn.replace_state {name : String} {offset : Option Nat}
    {state other : CallState} {below : Frame}
    (stands : (Frame.call name offset state).StandsOn below) :
    (Frame.call name offset other).StandsOn below := by
  cases stands with
  | block node => cases node
  | action => exact .action
  | poll => exact .poll

def Stacked (stack : List Frame) : Prop :=
  stack.IsChain Frame.StandsOn

theorem Stacked.tail {frame : Frame} {below : List Frame} (stacked : Stacked (frame :: below)) :
    Stacked below :=
  List.IsChain.tail stacked

theorem Stacked.replace {frame other : Frame} {below : List Frame}
    (stacked : Stacked (frame :: below))
    (stands : ∀ under, frame.StandsOn under → other.StandsOn under) : Stacked (other :: below) := by
  obtain ⟨head, tail⟩ := List.isChain_cons.mp stacked
  exact List.isChain_cons.mpr ⟨fun under member => stands under (head under member), tail⟩

theorem Stacked.push {frame under : Frame} {below : List Frame} (stacked : Stacked (under :: below))
    (stands : frame.StandsOn under) : Stacked (frame :: under :: below) :=
  List.isChain_cons_cons.mpr ⟨stands, stacked⟩

theorem Stacked.replace_node {frame other : Frame} {below : List Frame}
    (stacked : Stacked (frame :: below)) (node : frame.isNode = true)
    (otherNode : other.isNode = true) : Stacked (other :: below) :=
  stacked.replace fun _ stands => stands.replace_node node otherNode

theorem Stacked.toCall {stack : List Frame} (stacked : Stacked stack) :
    Stacked (Script.toCall stack) :=
  List.IsChain.suffix stacked (List.dropWhile_suffix _)

theorem toCall_length {below rest : List Frame} {frame : Frame}
    (found : toCall below = frame :: rest) : rest.length < below.length := by
  have shorter := (List.dropWhile_suffix (fun frame : Frame => frame.kind != .call)
    (l := below)).length_le
  rw [toCall] at found
  rw [found] at shorter
  exact shorter

theorem isNode_ofNode (node : Node) : (Frame.ofNode node).isNode = true := by
  cases node <;> rfl

theorem Stacked.handOver {below rest : List Frame} {name : String} {origin : Option Nat}
    {state : CallState} {value : Value} (stacked : Stacked below)
    (found : Script.toCall below = .call name origin state :: rest) :
    Stacked (.call name origin (.returned value) :: rest) := by
  have suffix := stacked.toCall
  rw [found] at suffix
  exact suffix.replace fun _ stands => stands.replace_state

theorem Shift.stacked {functions : List Function} {stack after : List Frame} {answers : List Bool}
    (shift : Shift functions stack answers after) (stacked : Stacked stack) : Stacked after := by
  cases shift with
  | idle => exact stacked
  | leave => exact stacked.tail
  | leaveBlock => exact stacked.tail
  | endCall => exact stacked.tail.replace fun _ stands => stands.replace_state
  | resume => exact stacked.tail.replace_node rfl rfl
  | handOn returns found => exact stacked.tail.tail.handOver found
  | answered => exact stacked.tail.replace_node rfl rfl
  | drop => exact stacked.tail
  | @enter node nodes origin below =>
    have left : Stacked (.block nodes origin :: below) :=
      stacked.replace fun _ stands => stands.replace_rest
    exact left.push (.block (isNode_ofNode node))
  | act => exact stacked.replace_node rfl rfl
  | giveUp unfinished noCall returns found => exact stacked.tail.handOver found
  | call => exact (stacked.replace_node rfl rfl).push .action
  | loopOn => exact stacked.push .loop
  | loopOff => exact stacked.replace_node rfl rfl
  | branchOn => exact (stacked.replace_node rfl rfl).push .branch
  | branchOff => exact stacked.replace_node rfl rfl
  | branchBack => exact stacked.replace_node rfl rfl
  | begin found => exact (stacked.replace fun _ stands => stands.replace_state).push .body
  | surface => exact stacked.replace fun _ stands => stands.replace_state
  | pollNone => exact stacked.replace_node rfl rfl
  | pollSome => exact (stacked.replace_node rfl rfl).push .poll

def Bodied (stack : List Frame) : Prop :=
  ∀ name offset below, stack ≠ .call name offset .running :: below

theorem Shift.bodied {functions : List Function} {stack after : List Frame} {answers : List Bool}
    (shift : Shift functions stack answers after) (stacked : Stacked stack) : Bodied after := by
  intro name offset below same
  cases shift with
  | leave node =>
    subst same
    cases (List.isChain_cons_cons.mp stacked).1
    cases node
  | leaveBlock noCall => exact noCall _ _ _ same
  | drop =>
    subst same
    cases (List.isChain_cons_cons.mp stacked).1
  | @enter node => cases node <;> cases same
  | _ => cases same

/-- A statement outside the user's text is a poll, or a loop without end around one. -/
inductive Node.Tame (lines : LineMap) : Node → Prop where
  | action {place : Place} {action : Action} (user : lines.Holds place.offset) :
      Tame lines (.action place action)
  | poll {place : Place} : Tame lines (.poll place)
  | loop {place : Place} {condition : Expr} {body : List Node} (user : lines.Holds place.offset)
      (inner : ∀ node ∈ body, Tame lines node) : Tame lines (.loop place condition body)
  | branch {place : Place} {condition : Expr} {body : List Node}
      (user : lines.Holds place.offset) (inner : ∀ node ∈ body, Tame lines node) :
      Tame lines (.branch place condition body)
  | pollLoop {place inner : Place} : Tame lines (.loop place .always [.poll inner])

def Frame.Tame (lines : LineMap) : Frame → Prop
  | .block rest _ => ∀ node ∈ rest, node.Tame lines
  | .action place _ _ => lines.Holds place.offset
  | .poll _ _ => True
  | .loop place condition body _ => (Node.loop place condition body).Tame lines
  | .branch place condition body _ => (Node.branch place condition body).Tame lines
  | .call _ offset _ => ∀ byte ∈ offset, lines.Holds byte

theorem Node.Tame.frame {lines : LineMap} {node : Node} (tame : node.Tame lines) :
    (Frame.ofNode node).Tame lines := by
  cases tame with
  | action user => exact user
  | poll => trivial
  | loop user inner => exact .loop user inner
  | branch user inner => exact .branch user inner
  | pollLoop => exact .pollLoop

theorem Node.Tame.loopBody {lines : LineMap} {place : Place} {condition : Expr}
    {body : List Node} (tame : (Node.loop place condition body).Tame lines) :
    ∀ node ∈ body, node.Tame lines := by
  cases tame with
  | loop user inner => exact inner
  | pollLoop =>
    intro node member
    rw [List.mem_singleton.mp member]
    exact .poll

theorem Node.Tame.branchBody {lines : LineMap} {place : Place} {condition : Expr}
    {body : List Node} (tame : (Node.branch place condition body).Tame lines) :
    ∀ node ∈ body, node.Tame lines := by
  cases tame with
  | branch user inner => exact inner

def TameStack (lines : LineMap) (stack : List Frame) : Prop :=
  ∀ frame ∈ stack, frame.Tame lines

def TameFunctions (lines : LineMap) (functions : List Function) : Prop :=
  ∀ function ∈ functions, ∀ node ∈ function.body, node.Tame lines

theorem TameStack.cons {lines : LineMap} {frame : Frame} {below : List Frame} :
    TameStack lines (frame :: below) ↔ frame.Tame lines ∧ TameStack lines below := by
  simp [TameStack]

theorem TameStack.toCall {lines : LineMap} {stack : List Frame} (tame : TameStack lines stack) :
    TameStack lines (Script.toCall stack) :=
  fun frame member => tame frame ((List.dropWhile_suffix _).mem member)

theorem TameStack.handOver {lines : LineMap} {below rest : List Frame} {name : String}
    {origin : Option Nat} {state : CallState} {value : Value} (tame : TameStack lines below)
    (found : Script.toCall below = .call name origin state :: rest) :
    TameStack lines (.call name origin (.returned value) :: rest) := by
  have suffix := tame.toCall
  rw [found, TameStack.cons] at suffix
  exact TameStack.cons.mpr suffix

theorem findFunction_mem {functions : List Function} {name : String} {function : Function}
    (found : findFunction functions name = some function) : function ∈ functions :=
  List.mem_of_find?_eq_some found

theorem Shift.tame {lines : LineMap} {functions : List Function} {stack after : List Frame}
    {answers : List Bool} (shift : Shift functions stack answers after)
    (known : TameFunctions lines functions) (tame : TameStack lines stack) :
    TameStack lines after := by
  cases shift with
  | idle => exact tame
  | handOn returns found =>
    simp only [TameStack.cons] at tame
    exact tame.2.2.handOver found
  | giveUp unfinished noCall returns found => exact (TameStack.cons.mp tame).2.handOver found
  | enter =>
    simp only [TameStack.cons, Frame.Tame, List.forall_mem_cons] at tame ⊢
    exact ⟨tame.1.1.frame, tame.1.2, tame.2⟩
  | loopOn =>
    simp only [TameStack.cons] at tame ⊢
    exact ⟨tame.1.loopBody, tame⟩
  | branchOn =>
    simp only [TameStack.cons] at tame ⊢
    exact ⟨tame.1.branchBody, tame⟩
  | begin found =>
    simp only [TameStack.cons] at tame ⊢
    exact ⟨known _ (findFunction_mem found), tame⟩
  | call =>
    simp only [TameStack.cons, Frame.Tame, Option.mem_def, Option.some.injEq] at tame ⊢
    exact ⟨fun byte same => same ▸ tame.1, tame⟩
  | pollSome =>
    simp only [TameStack.cons, Frame.Tame] at tame ⊢
    exact ⟨fun byte member => absurd member (by simp), trivial, tame.2⟩
  | leave => exact (TameStack.cons.mp tame).2
  | leaveBlock => exact (TameStack.cons.mp tame).2
  | drop => exact (TameStack.cons.mp tame).2
  | endCall =>
    simp only [TameStack.cons, Frame.Tame] at tame ⊢
    exact tame.2
  | surface =>
    simp only [TameStack.cons, Frame.Tame] at tame ⊢
    exact tame
  | _ =>
    simp only [TameStack.cons, Frame.Tame] at tame ⊢
    simp only [tame, and_self]

end Script

end Metronome
