import Metronome.Proofs.Places

namespace Metronome.Script

open Metronome.Text

/-- The last line of a text goes on in the line that comes next. -/
def isUnfinished (text : List Char) : Bool :=
  (physicalLines text).getLast?.any (continues ·.content)

def ended (text : List Char) : List Char :=
  if text = [] || text.getLast? = some '\n' then text else text ++ ['\n']

theorem wrap_eq (source : List Char) :
    ProgramText.wrap source pollLoop = ⟨ended source ++ pollLoop, 0, byteLength (ended source)⟩ :=
  rfl

theorem ended_whole (text : List Char) : ended text = [] ∨ (ended text).getLast? = some '\n' := by
  unfold ended
  split
  · rename_i whole
    simpa using whole
  · simp

theorem linePieces_feed {text : List Char} (some_char : text ≠ [])
    (open_end : text.getLast? ≠ some '\n') :
    ∃ pieces last, linePieces text = pieces ++ [last] ∧ last.getLast? ≠ some '\n' ∧
      linePieces (text ++ ['\n']) = pieces ++ [last ++ ['\n']] := by
  induction text with
  | nil => exact absurd rfl some_char
  | cons c rest ih =>
    cases rest with
    | nil =>
      have other : c ≠ '\n' := by simpa using open_end
      exact ⟨[], [c], by simp [linePieces, other], open_end, by simp [linePieces, other]⟩
    | cons d rest =>
      obtain ⟨pieces, last, split, unended, feed⟩ := ih (by simp) (by simpa using open_end)
      by_cases newline : c = '\n'
      · refine ⟨[c] :: pieces, last, ?_, unended, ?_⟩
        · rw [linePieces, if_pos newline, split]
          rfl
        · rw [List.cons_append, linePieces, if_pos newline, feed]
          rfl
      · cases pieces with
        | nil =>
          refine ⟨[], c :: last, ?_, ?_, ?_⟩
          · rw [linePieces, if_neg newline, split]
            rfl
          · cases last with
            | nil => simpa using newline
            | cons => simpa using unended
          · rw [List.cons_append, linePieces, if_neg newline, feed]
            rfl
        | cons first pieces =>
          refine ⟨(c :: first) :: pieces, last, ?_, unended, ?_⟩
          · rw [linePieces, if_neg newline, split]
            rfl
          · rw [List.cons_append, linePieces, if_neg newline, feed]
            rfl

theorem lineContent_feed {piece : List Char} (unended : piece.getLast? ≠ some '\n') :
    lineContent (piece ++ ['\n']) = lineContent piece := by
  have kept : dropFinal '\n' piece = piece := by
    rw [dropFinal, if_neg unended]
  rw [lineContent, dropFinal_append, lineContent, kept]

theorem physicalLines_ended (text : List Char) : physicalLines (ended text) = physicalLines text := by
  unfold ended
  split
  · rfl
  · rename_i unended
    simp only [Bool.or_eq_true, decide_eq_true_eq, not_or] at unended
    obtain ⟨pieces, last, split, open_end, feed⟩ := linePieces_feed unended.1 unended.2
    rw [physicalLines, physicalLines, split, feed, linesFrom_append, linesFrom_append, linesFrom,
      linesFrom, lineContent_feed open_end]
    rfl

theorem joinFrom_finished {lines : List PhysicalLine} {index : Nat} {gathered : Option LogicalLine}
    (finished : ∀ line ∈ lines.getLast?, continues line.content = false)
    (complete : gathered = none ∨ lines ≠ []) (more : List PhysicalLine) :
    joinFrom index gathered (lines ++ more) =
      joinFrom index gathered lines ++ joinFrom (index + lines.length) none more := by
  -- The induction is on the lines; only an unfinished line hands what is gathered to the next one.
  induction lines generalizing index gathered with
  | nil =>
    rw [complete.resolve_right (by simp)]
    rfl
  | cons line lines ih =>
    have later : index + (lines.length + 1) = index + 1 + lines.length := by omega
    have rest : ∀ last ∈ lines.getLast?, continues last.content = false := by
      intro last member
      refine finished last ?_
      cases lines with
      | nil => cases member
      | cons => simpa using member
    rw [List.cons_append, joinFrom, joinFrom, List.length_cons, later]
    by_cases goesOn : continues line.content = true
    · have some_line : lines ≠ [] := by
        rintro rfl
        rw [finished line (by simp)] at goesOn
        cases goesOn
      rw [if_pos goesOn, if_pos goesOn, ih rest (.inr some_line)]
    · rw [if_neg goesOn, if_neg goesOn, ih rest (.inl rfl), List.cons_append]

theorem logicalLines_wrapped {source : List Char} (finished : isUnfinished source = false) :
    logicalLines (ended source ++ pollLoop) =
      logicalLines source ++
        joinFrom (physicalLines source).length none
          (linesFrom (byteLength (ended source)) (linePieces pollLoop)) := by
  have ends : ∀ line ∈ (physicalLines source).getLast?, continues line.content = false := by
    intro line member
    rw [isUnfinished, Option.mem_def.mp member] at finished
    exact finished
  rw [logicalLines, physicalLines_append (ended_whole source), physicalLines_ended,
    joinFrom_finished ends (.inl rfl), Nat.zero_add]
  rfl

def pollNode (offset line : Nat) : Node :=
  .loop ⟨offset, line⟩ .always [.poll ⟨offset + 13, line + 1⟩]

theorem addLine_of_tokens {draft : Draft} {line : LogicalLine} {tokens : List Token}
    {statement : Statement} (content : isComment line.content = false)
    (scanned : Token.scan line.content = .ok tokens)
    (stated : Statement.ofTokens draft.context tokens = .ok statement) :
    draft.addLine line =
      (draft.addStatement line.place statement).mapError (⟨line.place.line, ·⟩) := by
  rw [Draft.addLine, if_neg (by simp [content])]
  dsimp only [Draft.addContent]
  rw [scanned]
  dsimp only
  rw [stated]
  rfl

theorem addLines_pollLoop (draft : Draft) (index offset : Nat) :
    draft.addLines (joinFrom index none (linesFrom offset (linePieces pollLoop))) =
      .ok (draft.add (pollNode offset (index + 1))) := by
  have opens : draft.addLine ⟨"while true".toList, offset, index, index⟩ =
      .ok { draft with blocks := ⟨.loop .always, ⟨offset, index + 1⟩, []⟩ :: draft.blocks } := by
    rw [addLine_of_tokens rfl scan_while rfl]
    rfl
  have polls : ∀ draft : Draft,
      draft.addLine ⟨"poll".toList, offset + 13, index + 1, index + 1⟩ =
        .ok (draft.add (.poll ⟨offset + 13, index + 2⟩)) := by
    intro draft
    rw [addLine_of_tokens rfl scan_poll rfl]
    rfl
  have closes : ∀ draft : Draft,
      draft.addLine ⟨"end".toList, offset + 18, index + 2, index + 2⟩ =
        draft.close.mapError (⟨index + 3, ·⟩) := by
    intro draft
    rw [addLine_of_tokens rfl scan_end rfl]
    rfl
  rw [joinFrom_pollLoop]
  change draft.addLines [⟨"while true".toList, offset, index, index⟩, _, _] = _
  simp only [Draft.addLines, opens, polls, closes]
  rfl

theorem addLines_bind (draft : Draft) (lines more : List LogicalLine) :
    draft.addLines (lines ++ more) = (draft.addLines lines).bind (·.addLines more) := by
  induction lines generalizing draft with
  | nil => rfl
  | cons line lines ih =>
    rw [List.cons_append, Draft.addLines, Draft.addLines]
    cases draft.addLine line with
    | error error => rfl
    | ok next => exact ih next

theorem finish_add (draft : Draft) (node : Node) :
    (draft.add node).finish =
      draft.finish.map fun program => { program with body := program.body ++ [node] } := by
  obtain ⟨body, blocks, functions⟩ := draft
  cases blocks <;> rfl

/-- A finished text with the generated lines after it reads as the text alone, with the loop after
its statements. -/
theorem parse_wrapped {source : List Char} (finished : isUnfinished source = false) :
    parse (ended source ++ pollLoop) =
      (parse source).map fun program => { program with
        body := program.body ++
          [pollNode (byteLength (ended source)) ((physicalLines source).length + 1)] } := by
  unfold parse
  rw [logicalLines_wrapped finished, addLines_bind]
  cases Draft.empty.addLines (logicalLines source) with
  | error error => rfl
  | ok draft =>
    change (draft.addLines _).bind Draft.finish = _
    rw [addLines_pollLoop]
    exact finish_add _ _

theorem load_wrapped {source : List Char} (finished : isUnfinished source = false) :
    load source = (parse source).map fun program =>
      ⟨.ofProgram ⟨program.body ++
          [pollNode (byteLength (ended source)) ((physicalLines source).length + 1)],
        program.functions⟩, .wrap source pollLoop⟩ := by
  rw [load, loadText, wrap_eq, parse_wrapped finished]
  cases parse source <;> rfl

theorem outside_wrapped {source : List Char} {offset : Nat}
    (outside : byteLength (ended source) ≤ offset) :
    (ProgramText.wrap source pollLoop).lineMap.userLine offset = none := by
  rw [wrap_eq, ProgramText.lineMap, LineMap.ofText, LineMap.userLine]
  exact if_pos (by simp [outside])

/-- A finished text is accepted with the generated loop just if it is accepted alone. The program then
has the same functions and, after the same statements, the loop; they stand in the user's text, the
loop outside of it. A text that is not accepted has the same error both ways, on a line of its own. -/
theorem load_adds_pollLoop {source : List Char} (finished : isUnfinished source = false) :
    (∀ bare, loadBare source = .ok bare → ∃ program outer inner,
      bare = ⟨.ofProgram program, .whole source⟩ ∧ program.Placed (Place.Within source) ∧
        load source = .ok ⟨.ofProgram
          ⟨program.body ++ [.loop outer .always [.poll inner]], program.functions⟩,
          .wrap source pollLoop⟩ ∧
        ∀ place ∈ [outer, inner],
          (ProgramText.wrap source pollLoop).lineMap.userLine place.offset = none) ∧
      ∀ error, loadBare source = .error error →
        load source = .error error ∧ 1 ≤ error.line ∧
          error.line ≤ (physicalLines source).length := by
  obtain ⟨placed, wrong⟩ := parse_placed (logicalLines_within source)
  rw [load_wrapped finished, loadBare, loadText]
  change (∀ bare, (parse source).map _ = _ → _) ∧ ∀ error, (parse source).map _ = _ → _
  cases read : parse source with
  | ok program =>
    refine ⟨fun bare same => ?_, fun error failed => by cases failed⟩
    cases same
    refine ⟨program, ⟨byteLength (ended source), (physicalLines source).length + 1⟩,
      ⟨byteLength (ended source) + 13, (physicalLines source).length + 2⟩, rfl, placed program read,
      rfl, ?_⟩
    intro place member
    rcases List.mem_cons.mp member with rfl | member
    · exact outside_wrapped (Nat.le_refl _)
    · rw [List.mem_singleton.mp member]
      exact outside_wrapped (Nat.le_add_right _ _)
  | error error =>
    refine ⟨fun bare same => (by cases same), fun other failed => ?_⟩
    cases failed
    obtain ⟨place, within, same⟩ := wrong error read
    exact ⟨rfl, same ▸ within.counted, same ▸ within.line⟩

def openEnded : List Char := "func f\n  print 1\nend\ncall f".toList

theorem openEnded_adds_pollLoop : isUnfinished openEnded = false ∧ ∃ program outer inner,
    loadBare openEnded = .ok ⟨.ofProgram program, .whole openEnded⟩ ∧
      program.Placed (Place.Within openEnded) ∧
      load openEnded = .ok ⟨.ofProgram
        ⟨program.body ++ [.loop outer .always [.poll inner]], program.functions⟩,
        .wrap openEnded pollLoop⟩ ∧
      ∀ place ∈ [outer, inner],
        (ProgramText.wrap openEnded pollLoop).lineMap.userLine place.offset = none := by
  have finished : isUnfinished openEnded = false := by decide +kernel
  refine ⟨finished, ?_⟩
  cases bare : loadBare openEnded with
  | ok loaded =>
    obtain ⟨program, outer, inner, rfl, placed, wrapped, outside⟩ :=
      (load_adds_pollLoop finished).1 loaded bare
    exact ⟨program, outer, inner, rfl, placed, wrapped, outside⟩
  | error problem =>
    have accepted : (loadBare openEnded).toOption.isSome = true := by decide +kernel
    rw [bare] at accepted
    cases accepted

def unfinished : List Char := "print 1 \\".toList

/-- The generated loop's first line is taken for a part of the user's last one. -/
theorem unfinished_takes_pollLoop :
    (∃ bare, loadBare unfinished = .ok bare) ∧
      ∃ error, load unfinished = .error error ∧ error.line = 1 ∧
        error.message = "unexpected `while`" := by
  constructor
  · have accepted : (loadBare unfinished).toOption.isSome = true := by decide +kernel
    cases bare : loadBare unfinished with
    | ok loaded => exact ⟨loaded, rfl⟩
    | error problem =>
      rw [bare] at accepted
      cases accepted
  · have refused : (match load unfinished with
      | .ok _ => false
      | .error error => error.line == 1 && error.message == "unexpected `while`") = true := by
      decide +kernel
    cases wrapped : load unfinished with
    | ok loaded =>
      rw [wrapped] at refused
      cases refused
    | error problem =>
      rw [wrapped] at refused
      simp only [Bool.and_eq_true, beq_iff_eq] at refused
      exact ⟨problem, rfl, refused⟩

end Metronome.Script
