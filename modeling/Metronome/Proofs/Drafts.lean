import Metronome.Script.Parser

namespace Metronome.Script

open Metronome.Text

variable {draft next : Draft}

/-- What the end of a block leaves: the statement that the block was, in what is around it, or one
function more. -/
inductive Draft.Closes (draft : Draft) : Draft → Prop where
  | loop {block : OpenBlock} {outer : List OpenBlock} {condition : Expr}
      (found : draft.blocks = block :: outer) (opener : block.opener = .loop condition) :
      Closes draft (Draft.add { draft with blocks := outer } (.loop block.place condition block.body))
  | branch {block : OpenBlock} {outer : List OpenBlock} {condition : Expr}
      (found : draft.blocks = block :: outer) (opener : block.opener = .branch condition) :
      Closes draft
        (Draft.add { draft with blocks := outer } (.branch block.place condition block.body))
  | function {block : OpenBlock} {outer : List OpenBlock} {name : String} {parameters : List String}
      (found : draft.blocks = block :: outer) (opener : block.opener = .function name parameters) :
      Closes draft { draft with
        blocks := outer
        functions := draft.functions ++ [⟨name, parameters, block.body, block.place.offset⟩] }

theorem Draft.close_closes (closed : draft.close = .ok next) : draft.Closes next := by
  unfold Draft.close at closed
  split at closed
  · cases closed
  · rename_i block outer found
    dsimp only at closed
    split at closed
    · rename_i condition opener
      cases closed
      exact .loop found opener
    · rename_i condition opener
      cases closed
      exact .branch found opener
    · rename_i name parameters opener
      cases closed
      exact .function found opener

def LogicalLine.place (line : LogicalLine) : Place :=
  ⟨line.offset, line.first + 1⟩

theorem addLine_statement {line : LogicalLine}
    (added : draft.addLine line = .ok next) (statement : isComment line.content = false) :
    ∃ tokens stated, Token.scan line.content = .ok tokens ∧
      Statement.ofTokens draft.context tokens = .ok stated ∧
      draft.addStatement line.place stated = .ok next := by
  unfold Draft.addLine at added
  rw [if_neg (by simp [statement])] at added
  dsimp only [Draft.addContent] at added
  cases scanned : Token.scan line.content with
  | error fault =>
    rw [scanned] at added
    cases added
  | ok tokens =>
    rw [scanned] at added
    cases stated : Statement.ofTokens draft.context tokens with
    | error fault =>
      simp only [stated] at added
      cases added
    | ok statement =>
      simp only [stated] at added
      refine ⟨tokens, statement, rfl, stated, ?_⟩
      change (draft.addStatement _ statement).mapError _ = _ at added
      cases ends : draft.addStatement ⟨line.offset, line.first + 1⟩ statement with
      | error fault =>
        rw [ends] at added
        cases added
      | ok after =>
        rw [ends] at added
        cases added
        exact ends

theorem addLine_cases {line : LogicalLine} (added : draft.addLine line = .ok next) :
    (isComment line.content = true ∧ next = draft) ∨
      isComment line.content = false ∧ ∃ tokens statement,
        Statement.ofTokens draft.context tokens = .ok statement ∧
        draft.addStatement line.place statement = .ok next := by
  cases comment : isComment line.content with
  | true =>
    rw [Draft.addLine, if_pos comment] at added
    cases added
    exact .inl ⟨rfl, rfl⟩
  | false =>
    obtain ⟨tokens, statement, -, reads, takes⟩ := addLine_statement added comment
    exact .inr ⟨rfl, tokens, statement, reads, takes⟩

theorem addLines_append {lines more : List LogicalLine}
    (added : draft.addLines (lines ++ more) = .ok next) :
    ∃ middle, draft.addLines lines = .ok middle ∧ middle.addLines more = .ok next := by
  induction lines generalizing draft with
  | nil => exact ⟨draft, rfl, added⟩
  | cons line lines ih =>
    rw [List.cons_append, Draft.addLines] at added
    rw [Draft.addLines]
    split at added
    · cases added
    · exact ih added

theorem addLines_cons {line : LogicalLine} {lines : List LogicalLine}
    (added : draft.addLines (line :: lines) = .ok next) :
    ∃ middle, draft.addLine line = .ok middle ∧ middle.addLines lines = .ok next := by
  rw [Draft.addLines] at added
  split at added
  · cases added
  · rename_i middle first
    exact ⟨middle, first, added⟩

/-- What each statement of some lines keeps holds when they have been read. -/
theorem addLines_keeps {holds : Draft → Prop} {lines : List LogicalLine}
    (each : ∀ line ∈ lines, isComment line.content = false →
      ∀ {draft next : Draft} {tokens : List Token} {statement : Statement},
        Statement.ofTokens draft.context tokens = .ok statement →
        draft.addStatement line.place statement = .ok next → holds draft → holds next)
    (first : holds draft) (added : draft.addLines lines = .ok next) : holds next := by
  induction lines generalizing draft with
  | nil =>
    cases added
    exact first
  | cons line lines ih =>
    obtain ⟨middle, here, rest⟩ := addLines_cons added
    refine ih (fun later member => each later (List.mem_cons_of_mem _ member)) ?_ rest
    rcases addLine_cases here with ⟨-, rfl⟩ | ⟨statement, tokens, stated, reads, takes⟩
    · exact first
    · exact each line List.mem_cons_self statement reads takes first

end Metronome.Script
