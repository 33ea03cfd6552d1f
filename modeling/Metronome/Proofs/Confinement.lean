import Metronome.Proofs.Forms
import Metronome.Proofs.Soundness

namespace Metronome

namespace Script

inductive Node.Returnless : Node → Prop where
  | action {place : Place} {action : Action} (noReturn : action.isReturn = false) :
      Returnless (.action place action)
  | poll {place : Place} : Returnless (.poll place)
  | loop {place : Place} {condition : Expr} {body : List Node}
      (inner : ∀ node ∈ body, Returnless node) : Returnless (.loop place condition body)
  | branch {place : Place} {condition : Expr} {body : List Node}
      (inner : ∀ node ∈ body, Returnless node) : Returnless (.branch place condition body)

def Frame.Returnless : Frame → Prop
  | .block rest _ => ∀ node ∈ rest, node.Returnless
  | .action _ act _ => act.isReturn = false
  | .loop _ _ body _ => ∀ node ∈ body, node.Returnless
  | .branch _ _ body _ => ∀ node ∈ body, node.Returnless
  | _ => True

/-- A frame that returns, or may come to do so, is above a call. -/
def Confined : List Frame → Prop
  | [] => True
  | frame :: below => (frame.Returnless ∨ toCall below ≠ []) ∧ Confined below

theorem Node.Returnless.frame {node : Node} (returnless : node.Returnless) :
    (Frame.ofNode node).Returnless := by
  cases returnless with
  | action noReturn => exact noReturn
  | poll => trivial
  | loop inner => exact inner
  | branch inner => exact inner

theorem toCall_cons_ne {below : List Frame} (frame : Frame) (inCall : toCall below ≠ []) :
    toCall (frame :: below) ≠ [] := by
  by_cases call : frame.kind = .call
  · rw [toCall, List.dropWhile_cons_of_neg (by simp [call])]
    exact List.cons_ne_nil _ _
  · rw [toCall, List.dropWhile_cons_of_pos (by simp [call])]
    exact inCall

theorem Confined.toCall {stack : List Frame} (confined : Confined stack) :
    Confined (Script.toCall stack) := by
  induction stack with
  | nil => exact confined
  | cons frame below ih =>
    by_cases call : frame.kind = .call
    · rw [Script.toCall, List.dropWhile_cons_of_neg (by simp [call])]
      exact confined
    · rw [Script.toCall, List.dropWhile_cons_of_pos (by simp [call])]
      exact ih confined.2

theorem Confined.handOver {below rest : List Frame} {name : String} {origin : Option Nat}
    {state other : CallState} (confined : Confined below)
    (found : Script.toCall below = .call name origin state :: rest) :
    Confined (.call name origin other :: rest) := by
  have suffix := confined.toCall
  rw [found] at suffix
  exact ⟨.inl trivial, suffix.2⟩

theorem Confined.next {frame other : Frame} {below : List Frame}
    (confined : Confined (frame :: below))
    (returnless : frame.Returnless → other.Returnless) : Confined (other :: below) :=
  ⟨confined.1.imp_left returnless, confined.2⟩

theorem Confined.push {frame other : Frame} {below : List Frame}
    (confined : Confined (frame :: below))
    (returnless : frame.Returnless → other.Returnless) : Confined (other :: frame :: below) :=
  ⟨confined.1.imp returnless (toCall_cons_ne frame), confined⟩

theorem Shift.confined {functions : List Function} {stack after : List Frame}
    {answers : List Bool} (shift : Shift functions stack answers after)
    (confined : Confined stack) :
    Confined after := by
  cases shift with
  | idle => exact confined
  | leave | leaveBlock | drop | resume => exact confined.2
  | endCall | answered => exact confined.2.next id
  | handOn _ found => exact confined.2.2.handOver found
  | giveUp _ _ _ found => exact confined.2.handOver found
  | @enter node nodes origin below =>
    have left : Confined (.block nodes origin :: below) :=
      confined.next fun returnless other member => returnless other (List.mem_cons_of_mem _ member)
    refine ⟨?_, left⟩
    exact confined.1.imp (fun returnless => (returnless node List.mem_cons_self).frame)
      (toCall_cons_ne _)
  | act | loopOff | branchOff | branchBack | surface | pollNone => exact confined.next id
  | call | pollSome => exact ⟨.inl trivial, confined.next id⟩
  | loopOn => exact confined.push id
  | branchOn => exact (confined.next id).push id
  | begin => exact ⟨.inr (List.cons_ne_nil _ _), confined.next id⟩

def Statement.Allowed (context : Context) : Statement → Prop
  | .action act => act.isReturn = true → context.inFunction = true
  | .opening (.function _ _) => context.atTop = true
  | _ => True

theorem Statement.Fits.allowed {context : Context} {statement : Statement}
    (fits : statement.Fits context) : statement.Allowed context := by
  cases statement with
  | action action =>
    cases action with
    | ret value => exact fun _ => fits
    | _ => exact nofun
  | opening opener =>
    cases opener with
    | function name parameters => exact fits.1
    | _ => trivial
  | _ => trivial

structure Draft.Confined (draft : Draft) : Prop where
  body : ∀ node ∈ draft.body, node.Returnless
  blocks : draft.context.inFunction = false →
    ∀ block ∈ draft.blocks, ∀ node ∈ block.body, node.Returnless
  outermost : draft.blocks.Pairwise fun inner _ => inner.isFunction = false

theorem outermost_function {block : OpenBlock} {outer : List OpenBlock} {name : String}
    {parameters : List String} (opener : block.opener = .function name parameters)
    (outermost : (block :: outer).Pairwise fun inner _ => inner.isFunction = false) :
    outer = [] := by
  apply List.eq_nil_iff_forall_not_mem.mpr
  intro other member
  have plain := (List.pairwise_cons.mp outermost).1 other member
  rw [OpenBlock.isFunction, opener] at plain
  cases plain

variable {draft next : Draft}

namespace Draft.Confined

theorem empty : Draft.empty.Confined := by
  constructor <;> simp [Draft.empty]

theorem add {node : Node} (confined : draft.Confined)
    (returnless : draft.context.inFunction = false → node.Returnless) :
    (draft.add node).Confined := by
  obtain ⟨body, blocks, outermost⟩ := confined
  unfold Draft.add
  split
  · rename_i none
    have inner : node.Returnless := returnless (by rw [Draft.context, none]; rfl)
    refine ⟨?_, blocks, outermost⟩
    simpa [or_imp, forall_and] using ⟨body, inner⟩
  · rename_i block outer found
    have same : draft.context.inFunction = (block :: outer).any OpenBlock.isFunction := by
      rw [← found]
      rfl
    rw [found] at blocks outermost
    refine ⟨body, fun outside => ?_, List.pairwise_cons.mpr (List.pairwise_cons.mp outermost)⟩
    have outside : draft.context.inFunction = false := same.trans outside
    have before := List.forall_mem_cons.mp (blocks outside)
    refine List.forall_mem_cons.mpr ⟨?_, before.2⟩
    simpa [or_imp, forall_and] using ⟨before.1, returnless outside⟩

theorem around {block : OpenBlock} {outer : List OpenBlock} {node : Node}
    (confined : draft.Confined) (found : draft.blocks = block :: outer)
    (plain : block.isFunction = false)
    (inside : (∀ inner ∈ block.body, inner.Returnless) → node.Returnless) :
    (Draft.add { draft with blocks := outer } node).Confined := by
  obtain ⟨body, blocks, outermost⟩ := confined
  have outside : (Draft.context { draft with blocks := outer }).inFunction = false →
      draft.context.inFunction = false := by
    intro outside
    rw [Draft.context, found, List.any_cons, plain]
    exact outside
  rw [found] at blocks outermost
  have kept : Draft.Confined { draft with blocks := outer } :=
    ⟨body, fun out other member => blocks (outside out) other (List.mem_cons_of_mem _ member),
      (List.pairwise_cons.mp outermost).2⟩
  exact kept.add fun out => inside (blocks (outside out) block List.mem_cons_self)

theorem close (confined : draft.Confined) (closed : draft.close = .ok next) : next.Confined := by
  cases close_closes closed with
  | loop found opener =>
    exact confined.around found (by rw [OpenBlock.isFunction, opener]) .loop
  | branch found opener =>
    exact confined.around found (by rw [OpenBlock.isFunction, opener]) .branch
  | function found opener =>
    have outermost := confined.outermost
    rw [found] at outermost
    obtain rfl := outermost_function opener outermost
    exact ⟨confined.body, fun _ => by simp, .nil⟩

theorem addStatement {place : Place} {statement : Statement} (confined : draft.Confined)
    (allowed : statement.Allowed draft.context)
    (added : draft.addStatement place statement = .ok next) : next.Confined := by
  cases statement with
  | action act =>
    cases added
    refine confined.add fun outside => .action ?_
    by_contra returns
    rw [allowed (Bool.not_eq_false _ ▸ returns)] at outside
    cases outside
  | poll =>
    cases added
    exact confined.add fun _ => .poll
  | closing => exact confined.close added
  | opening opener =>
    cases added
    have opened : (∀ other ∈ draft.blocks, (OpenBlock.mk opener place []).isFunction = false) := by
      intro other member
      cases opener with
      | function name parameters =>
        have top : draft.blocks = [] := by simpa [Statement.Allowed, Draft.context] using allowed
        rw [top] at member
        cases member
      | _ => rfl
    refine ⟨confined.body, fun outside => ?_, List.pairwise_cons.mpr ⟨opened, confined.outermost⟩⟩
    have before : draft.context.inFunction = false := (Bool.or_eq_false_iff.mp outside).2
    exact List.forall_mem_cons.mpr ⟨by simp, confined.blocks before⟩

theorem addLines {lines : List LogicalLine} (confined : draft.Confined)
    (added : draft.addLines lines = .ok next) : next.Confined :=
  addLines_keeps (fun _ _ _ _ _ _ _ reads takes before =>
    before.addStatement (ofTokens_eq_ok.mp reads).2.allowed takes) confined added

end Draft.Confined

theorem parse_returnless {text : List Char} {program : Program} (read : parse text = .ok program) :
    ∀ node ∈ program.body, node.Returnless := by
  unfold parse at read
  cases added : Draft.empty.addLines (logicalLines text) with
  | error problem =>
    rw [added] at read
    cases read
  | ok draft =>
    rw [added] at read
    change draft.finish = _ at read
    have confined := Draft.Confined.empty.addLines added
    unfold Draft.finish at read
    split at read
    · cases read
      exact confined.body
    · cases read

theorem Accepted.confined {loaded : Loaded} (accepted : Accepted loaded) :
    Confined loaded.machine.stack := by
  have single : ∀ program : Program, (∀ node ∈ program.body, node.Returnless) →
      Confined (Machine.ofProgram program).stack := fun _ returnless => ⟨.inl returnless, trivial⟩
  cases accepted with
  | polling read | bare read =>
    obtain ⟨program, parsed, rfl⟩ := loadText_machine read
    exact single program (parse_returnless parsed)

end Script

namespace Run

open Metronome.Script (Confined Machine)

theorem confined_invariant : Invariant fun _ m => Confined m.stack :=
  ⟨fun accepted => accepted.confined, fun confined yields fine =>
    (Machine.step_shift yields fine).1.confined confined⟩

end Run

end Metronome
