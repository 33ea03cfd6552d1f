import Metronome.Proofs.Region

namespace Metronome.Script

open Metronome.Text

/-- A statement all of whose places, those inside it included, satisfy a property. -/
inductive Node.Placed (holds : Place → Prop) : Node → Prop where
  | action {place : Place} {action : Action} (here : holds place) :
      Placed holds (.action place action)
  | poll {place : Place} (here : holds place) : Placed holds (.poll place)
  | loop {place : Place} {condition : Expr} {body : List Node} (here : holds place)
      (inner : ∀ node ∈ body, Placed holds node) : Placed holds (.loop place condition body)
  | branch {place : Place} {condition : Expr} {body : List Node} (here : holds place)
      (inner : ∀ node ∈ body, Placed holds node) : Placed holds (.branch place condition body)

def Function.Placed (holds : Place → Prop) (function : Function) : Prop :=
  (∃ place, holds place ∧ place.offset = function.offset) ∧
    ∀ node ∈ function.body, node.Placed holds

structure Program.Placed (holds : Place → Prop) (program : Program) : Prop where
  body : ∀ node ∈ program.body, node.Placed holds
  functions : ∀ function ∈ program.functions, function.Placed holds

structure Draft.Placed (holds : Place → Prop) (draft : Draft) : Prop where
  body : ∀ node ∈ draft.body, node.Placed holds
  blocks : ∀ block ∈ draft.blocks, holds block.place ∧ ∀ node ∈ block.body, node.Placed holds
  functions : ∀ function ∈ draft.functions, function.Placed holds

def LogicalLine.Placed (holds : Place → Prop) (line : LogicalLine) : Prop :=
  isComment line.content = true ∨ holds line.place

variable {holds : Place → Prop} {draft next : Draft} {error : ParseError}

namespace Draft.Placed

theorem empty : Draft.empty.Placed holds := by
  constructor <;> simp [Draft.empty]

theorem add {node : Node} (placed : draft.Placed holds) (inner : node.Placed holds) :
    (draft.add node).Placed holds := by
  obtain ⟨body, blocks, functions⟩ := placed
  unfold Draft.add
  split
  · rename_i none
    refine ⟨?_, blocks, functions⟩
    simpa [or_imp, forall_and] using ⟨body, inner⟩
  · rename_i block outer found
    rw [found, List.forall_mem_cons] at blocks
    refine ⟨body, List.forall_mem_cons.mpr ⟨⟨blocks.1.1, ?_⟩, blocks.2⟩, functions⟩
    simpa [or_imp, forall_and] using ⟨blocks.1.2, inner⟩

theorem close (placed : draft.Placed holds) (closed : draft.close = .ok next) :
    next.Placed holds := by
  obtain ⟨body, blocks, functions⟩ := placed
  cases close_closes closed with
  | loop found =>
    rw [found, List.forall_mem_cons] at blocks
    exact add ⟨body, blocks.2, functions⟩ (.loop blocks.1.1 blocks.1.2)
  | branch found =>
    rw [found, List.forall_mem_cons] at blocks
    exact add ⟨body, blocks.2, functions⟩ (.branch blocks.1.1 blocks.1.2)
  | @function block _ _ _ found =>
    rw [found, List.forall_mem_cons] at blocks
    refine ⟨body, blocks.2, fun function member => ?_⟩
    rcases List.mem_append.mp member with known | new
    · exact functions function known
    · rw [List.mem_singleton.mp new]
      exact ⟨⟨block.place, blocks.1.1, rfl⟩, blocks.1.2⟩

theorem addStatement {place : Place} {statement : Statement} (placed : draft.Placed holds)
    (here : holds place) (added : draft.addStatement place statement = .ok next) :
    next.Placed holds := by
  cases statement with
  | action action =>
    cases added
    exact placed.add (.action here)
  | poll =>
    cases added
    exact placed.add (.poll here)
  | opening opener =>
    cases added
    exact ⟨placed.body, List.forall_mem_cons.mpr ⟨⟨here, by simp⟩, placed.blocks⟩,
      placed.functions⟩
  | closing => exact placed.close added

theorem addLines {lines : List LogicalLine} (placed : draft.Placed holds)
    (here : ∀ line ∈ lines, line.Placed holds) (added : draft.addLines lines = .ok next) :
    next.Placed holds := by
  refine addLines_keeps (fun line member content _ _ _ _ _ takes before => ?_) placed added
  exact before.addStatement ((here line member).resolve_left (by simp [content])) takes

end Draft.Placed

theorem addLine_error {line : LogicalLine} (failed : draft.addLine line = .error error) :
    isComment line.content = false ∧ error.line = line.place.line := by
  unfold Draft.addLine at failed
  split at failed
  · cases failed
  · rename_i statement
    refine ⟨by simpa using statement, ?_⟩
    dsimp only at failed
    cases added : draft.addContent ⟨line.offset, line.first + 1⟩ line.content with
    | error fault =>
      rw [added] at failed
      cases failed
      rfl
    | ok after =>
      rw [added] at failed
      cases failed

theorem addLines_error {lines : List LogicalLine} (here : ∀ line ∈ lines, line.Placed holds)
    (failed : draft.addLines lines = .error error) : ∃ place, holds place ∧ error.line = place.line := by
  induction lines generalizing draft with
  | nil => cases failed
  | cons line lines ih =>
    obtain ⟨head, tail⟩ := List.forall_mem_cons.mp here
    rw [Draft.addLines] at failed
    split at failed
    · rename_i other first
      cases failed
      obtain ⟨statement, same⟩ := addLine_error first
      exact ⟨line.place, head.resolve_left (by simp [statement]), same⟩
    · exact ih tail failed

theorem parse_placed {text : List Char} (here : ∀ line ∈ logicalLines text, line.Placed holds) :
    (∀ program, parse text = .ok program → program.Placed holds) ∧
      ∀ error, parse text = .error error → ∃ place, holds place ∧ error.line = place.line := by
  unfold parse
  cases added : Draft.empty.addLines (logicalLines text) with
  | error problem =>
    refine ⟨fun program read => (by cases read), fun error failed => ?_⟩
    cases failed
    exact addLines_error here added
  | ok draft =>
    have placed := Draft.Placed.empty.addLines here added
    change (∀ program, draft.finish = .ok program → _) ∧ ∀ error, draft.finish = .error error → _
    unfold Draft.finish
    split
    · refine ⟨fun program read => ?_, fun error failed => by cases failed⟩
      cases read
      exact ⟨placed.body, placed.functions⟩
    · rename_i block outer found
      refine ⟨fun program read => (by cases read), fun error failed => ?_⟩
      cases failed
      have inside := placed.blocks
      rw [found] at inside
      exact ⟨block.place, (inside block (by simp)).1, rfl⟩

theorem joinFrom_first {lines : List PhysicalLine} {index : Nat} {gathered : Option LogicalLine}
    (before : ∀ logical ∈ gathered, logical.first < index) :
    ∀ line ∈ joinFrom index gathered lines, line.first < index + lines.length := by
  induction lines generalizing index gathered with
  | nil =>
    intro line member
    exact before line (by simpa [joinFrom] using member)
  | cons first lines ih =>
    have here : (extend gathered index first).first < index + 1 := by
      cases gathered with
      | none => exact Nat.lt_succ_self index
      | some logical => exact Nat.lt_succ_of_lt (before logical rfl)
    have later : index + (lines.length + 1) = index + 1 + lines.length := by omega
    intro line member
    rw [List.length_cons, later]
    unfold joinFrom at member
    dsimp only at member
    split at member
    · exact ih (by simpa using here) line member
    · rcases List.mem_cons.mp member with rfl | member
      · omega
      · exact ih (by simp) line member

structure Place.Within (text : List Char) (place : Place) : Prop where
  offset : place.offset < byteLength text
  counted : 1 ≤ place.line
  line : place.line ≤ (physicalLines text).length

theorem logicalLines_within (text : List Char) :
    ∀ line ∈ logicalLines text, line.Placed (Place.Within text) := by
  have within := linesFrom_inside 0 (linePieces text)
  rw [linePieces_flatten, Nat.zero_add] at within
  obtain ⟨joined, left, inside, pending, joins⟩ :=
    joinFrom_append (physicalLines text) 0 none (by simp) within
  have whole := joins []
  rw [List.append_nil] at whole
  have first : ∀ line ∈ joinFrom 0 none (physicalLines text),
      line.first < 0 + (physicalLines text).length := joinFrom_first (by simp)
  intro line member
  have begins : line.first < (physicalLines text).length := by
    have bound := first line member
    omega
  rw [logicalLines, whole] at member
  have starts : line.Within (byteLength text) := by
    rcases List.mem_append.mp member with inner | last
    · exact inside line inner
    · exact .inr (pending line (by simpa [joinFrom] using last))
  exact starts.imp id fun offset => ⟨offset, Nat.succ_pos _, begins⟩

end Metronome.Script
