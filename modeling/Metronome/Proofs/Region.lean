import Metronome.Proofs.Drafts
import Metronome.Proofs.Shape
import Mathlib.Data.List.TakeWhile

namespace Metronome

open Metronome.Text

namespace Text

theorem byteLength_dropFinal_le (c : Char) (text : List Char) :
    byteLength (dropFinal c text) ≤ byteLength text := by
  unfold dropFinal
  split
  · rename_i last
    obtain ⟨before, rfl⟩ := List.getLast?_eq_some_iff.mp last
    rw [List.dropLast_concat, byteLength_append]
    omega
  · exact Nat.le_refl _

theorem byteLength_lineContent_le (piece : List Char) :
    byteLength (lineContent piece) ≤ byteLength piece :=
  Nat.le_trans (byteLength_dropFinal_le _ _) (byteLength_dropFinal_le _ _)

theorem linesFrom_inside (offset : Nat) (pieces : List (List Char)) :
    ∀ line ∈ linesFrom offset pieces,
      line.offset + byteLength line.content ≤ offset + byteLength pieces.flatten := by
  induction pieces generalizing offset with
  | nil => simp [linesFrom]
  | cons piece pieces ih =>
    intro line member
    rw [List.flatten_cons, byteLength_append]
    rcases List.mem_cons.mp member with rfl | later
    · have within := byteLength_lineContent_le piece
      dsimp only
      omega
    · have within := ih (offset + byteLength piece) line later
      omega

theorem linesFrom_append (offset : Nat) (pieces more : List (List Char)) :
    linesFrom offset (pieces ++ more) =
      linesFrom offset pieces ++ linesFrom (offset + byteLength pieces.flatten) more := by
  induction pieces generalizing offset with
  | nil => simp [linesFrom, byteLength]
  | cons piece pieces ih =>
    rw [List.cons_append, linesFrom, ih, linesFrom, List.flatten_cons, byteLength_append,
      Nat.add_assoc, List.cons_append]

theorem linePieces_append {text : List Char} (whole : text = [] ∨ text.getLast? = some '\n')
    (more : List Char) : linePieces (text ++ more) = linePieces text ++ linePieces more := by
  induction text with
  | nil => rfl
  | cons c rest ih =>
    have last : (c :: rest).getLast? = some '\n' := by simpa using whole
    by_cases feed : c = '\n'
    · have wholeRest : rest = [] ∨ rest.getLast? = some '\n' := by
        cases rest with
        | nil => exact .inl rfl
        | cons d rest => exact .inr (by simpa using last)
      rw [List.cons_append, linePieces, if_pos feed, ih wholeRest, linePieces, if_pos feed,
        List.cons_append]
    · cases rest with
      | nil => simp_all
      | cons d rest =>
        have split := ih (.inr (by simpa using last))
        have some_piece : linePieces (d :: rest) ≠ [] := by
          intro none
          have same := linePieces_flatten (d :: rest)
          rw [none] at same
          cases same
        obtain ⟨piece, pieces, found⟩ := List.exists_cons_of_ne_nil some_piece
        rw [List.cons_append, linePieces, if_neg feed, split, linePieces.eq_2 c, if_neg feed, found]
        rfl

theorem physicalLines_append {text : List Char} (whole : text = [] ∨ text.getLast? = some '\n')
    (more : List Char) :
    physicalLines (text ++ more) =
      physicalLines text ++ linesFrom (byteLength text) (linePieces more) := by
  rw [physicalLines, linePieces_append whole, linesFrom_append, linePieces_flatten, Nat.zero_add,
    physicalLines]

theorem byteLength_takeWhile_lt {keep : Char → Bool} {text : List Char} {c : Char}
    (member : c ∈ text) (drops : keep c = false) :
    byteLength (text.takeWhile keep) < byteLength text := by
  induction text with
  | nil => cases member
  | cons first rest ih =>
    have positive := first.utf8Size_pos
    rw [List.takeWhile_cons]
    split
    · rename_i kept
      rcases List.mem_cons.mp member with rfl | later
      · rw [drops] at kept
        cases kept
      · have shorter := ih later
        simp only [byteLength] at shorter ⊢
        omega
    · simp only [byteLength]
      omega

end Text

namespace Script

def LogicalLine.Within (bound : Nat) (line : LogicalLine) : Prop :=
  isComment line.content = true ∨ line.offset < bound

theorem continues_backslash {line : List Char} (goesOn : continues line = true) : '\\' ∈ line := by
  have some_backslash : finalBackslashes (dropEndWhile isLineBlank line) ≠ 0 := by
    intro none
    rw [continues, none] at goesOn
    cases goesOn
  obtain ⟨c, found⟩ := List.exists_mem_of_length_pos (Nat.pos_of_ne_zero some_backslash)
  have backslash := List.mem_takeWhile_imp found
  have inside : c ∈ dropEndWhile isLineBlank line :=
    List.mem_reverse.mp ((List.takeWhile_prefix _).mem found)
  have member : c ∈ line :=
    List.mem_reverse.mp ((List.dropWhile_suffix _).mem (List.mem_reverse.mp inside))
  rwa [eq_of_beq backslash] at member

theorem isBlank_backslash : isBlank '\\' = false := by decide

theorem startOffset_lt {line : PhysicalLine} {bound : Nat} {c : Char}
    (within : line.offset + byteLength line.content ≤ bound) (member : c ∈ line.content)
    (visible : isBlank c = false) : startOffset line < bound := by
  have shorter := byteLength_takeWhile_lt member visible
  rw [startOffset]
  omega

theorem trim_blank {text : List Char} (blank : ∀ c ∈ text, isBlank c = true) : trim text = [] := by
  have nothing : trimStart text = [] := by
    rw [trimStart, List.dropWhile_eq_nil_iff]
    exact blank
  rw [trim, nothing]
  rfl

theorem isComment_trim_blank {text : List Char} (blank : ∀ c ∈ text, isBlank c = true) :
    isComment (trim text) = true := by
  rw [trim_blank blank]
  decide

theorem extend_within {gathered : Option LogicalLine} {bound : Nat} {line : PhysicalLine}
    (index : Nat) (before : ∀ logical ∈ gathered, logical.offset < bound)
    (within : line.offset + byteLength line.content ≤ bound) :
    (extend gathered index line).Within bound ∧
      (continues line.content = true → (extend gathered index line).offset < bound) := by
  cases gathered with
  | some logical => exact ⟨.inr (before logical rfl), fun _ => before logical rfl⟩
  | none =>
    have unfinished : continues line.content = true → startOffset line < bound := fun goesOn =>
      startOffset_lt within (continues_backslash goesOn) isBlank_backslash
    refine ⟨?_, unfinished⟩
    by_cases blank : ∀ c ∈ line.content, isBlank c = true
    · by_cases goesOn : continues line.content = true
      · exact .inr (unfinished goesOn)
      · left
        change isComment (contribution line.content) = true
        rw [contribution, if_neg goesOn]
        exact isComment_trim_blank blank
    · obtain ⟨c, member, visible⟩ : ∃ c ∈ line.content, isBlank c = false := by
        simpa using blank
      exact .inr (startOffset_lt within member visible)

theorem joinFrom_append {bound : Nat} (lines : List PhysicalLine) (index : Nat)
    (gathered : Option LogicalLine)
    (before : ∀ logical ∈ gathered, logical.offset < bound)
    (within : ∀ line ∈ lines, line.offset + byteLength line.content ≤ bound) :
    ∃ (joined : List LogicalLine) (left : Option LogicalLine),
      (∀ line ∈ joined, line.Within bound) ∧ (∀ logical ∈ left, logical.offset < bound) ∧
        ∀ more, joinFrom index gathered (lines ++ more) =
          joined ++ joinFrom (index + lines.length) left more := by
  induction lines generalizing index gathered with
  | nil => exact ⟨[], gathered, by simp, before, fun _ => rfl⟩
  | cons line lines ih =>
    obtain ⟨inside, unfinished⟩ := extend_within index before (within line (by simp))
    have later : ∀ line ∈ lines, line.offset + byteLength line.content ≤ bound :=
      fun line member => within line (by simp [member])
    by_cases goesOn : continues line.content = true
    · obtain ⟨joined, left, inner, pending, joins⟩ :=
        ih (index + 1) (some (extend gathered index line))
          (by simpa using unfinished goesOn) later
      refine ⟨joined, left, inner, pending, fun more => ?_⟩
      rw [List.cons_append, joinFrom, if_pos goesOn, joins, List.length_cons]
      congr 2
      omega
    · obtain ⟨joined, left, inner, pending, joins⟩ :=
        ih (index + 1) none (by simp) later
      refine ⟨extend gathered index line :: joined, left, ?_, pending, fun more => ?_⟩
      · intro line member
        rcases List.mem_cons.mp member with rfl | member
        · exact inside
        · exact inner line member
      · rw [List.cons_append, joinFrom, if_neg goesOn, joins, List.length_cons, List.cons_append]
        congr 3
        omega

/-- What has been read holds only polls and their loop outside the user's text. -/
structure Draft.Tame (lines : LineMap) (draft : Draft) : Prop where
  body : ∀ node ∈ draft.body, node.Tame lines
  blocks : ∀ block ∈ draft.blocks,
    lines.Holds block.place.offset ∧ ∀ node ∈ block.body, node.Tame lines
  functions : TameFunctions lines draft.functions

namespace Draft.Tame

variable {lines : LineMap} {draft next : Draft}

theorem empty : Draft.empty.Tame lines := by
  constructor <;> simp [Draft.empty, TameFunctions]

theorem add {node : Node} (tame : draft.Tame lines) (inner : node.Tame lines) :
    (draft.add node).Tame lines := by
  obtain ⟨body, blocks, functions⟩ := tame
  unfold Draft.add
  split
  · rename_i none
    refine ⟨?_, blocks, functions⟩
    simpa [or_imp, forall_and] using ⟨body, inner⟩
  · rename_i block outer found
    rw [found, List.forall_mem_cons] at blocks
    refine ⟨body, List.forall_mem_cons.mpr ⟨⟨blocks.1.1, ?_⟩, blocks.2⟩, functions⟩
    simpa [or_imp, forall_and] using ⟨blocks.1.2, inner⟩

theorem close (tame : draft.Tame lines) (closed : draft.close = .ok next) : next.Tame lines := by
  obtain ⟨body, blocks, functions⟩ := tame
  cases close_closes closed with
  | loop found =>
    rw [found, List.forall_mem_cons] at blocks
    exact add ⟨body, blocks.2, functions⟩ (.loop blocks.1.1 blocks.1.2)
  | branch found =>
    rw [found, List.forall_mem_cons] at blocks
    exact add ⟨body, blocks.2, functions⟩ (.branch blocks.1.1 blocks.1.2)
  | function found =>
    rw [found, List.forall_mem_cons] at blocks
    refine ⟨body, blocks.2, fun function member => ?_⟩
    rcases List.mem_append.mp member with known | new
    · exact functions function known
    · rw [List.mem_singleton.mp new]
      exact blocks.1.2

theorem addStatement {place : Place} {statement : Statement} (tame : draft.Tame lines)
    (user : lines.Holds place.offset) (added : draft.addStatement place statement = .ok next) :
    next.Tame lines := by
  cases statement with
  | action action =>
    cases added
    exact tame.add (.action user)
  | poll =>
    cases added
    exact tame.add .poll
  | opening opener =>
    cases added
    exact ⟨tame.body, List.forall_mem_cons.mpr ⟨⟨user, by simp⟩, tame.blocks⟩, tame.functions⟩
  | closing => exact tame.close added

end Draft.Tame

theorem Draft.Tame.addLine {lines : LineMap} {draft next : Draft} {line : LogicalLine}
    {bound : Nat} (holds : ∀ offset, offset < bound → lines.Holds offset)
    (tame : draft.Tame lines) (within : line.Within bound)
    (added : draft.addLine line = .ok next) : next.Tame lines := by
  rcases addLine_cases added with ⟨-, rfl⟩ | ⟨content, -, statement, -, takes⟩
  · exact tame
  · exact tame.addStatement (holds _ (within.resolve_left (by simp [content]))) takes

theorem Draft.Tame.addLines {map : LineMap} {draft next : Draft} {lines : List LogicalLine}
    {bound : Nat} (holds : ∀ offset, offset < bound → map.Holds offset) (tame : draft.Tame map)
    (within : ∀ line ∈ lines, line.Within bound) (added : draft.addLines lines = .ok next) :
    next.Tame map := by
  refine addLines_keeps (fun line member content _ _ _ _ _ takes before => ?_) tame added
  exact before.addStatement (holds _ ((within line member).resolve_left (by simp [content]))) takes

def Token.name? : Token → Option String
  | .word name => some name
  | _ => none

theorem words_of_names {tokens : List Token} {names : List String}
    (read : tokens.map Token.name? = names.map some) : tokens = names.map .word := by
  induction tokens generalizing names with
  | nil => simpa using read.symm
  | cons token tokens ih =>
    cases names with
    | nil => cases read
    | cons name names =>
      obtain ⟨first, rest⟩ := List.cons.inj read
      cases token with
      | word other =>
        cases first
        rw [List.map_cons, ih rest]
      | _ => cases first

theorem scan_words {line : List Char} {names : List String}
    (read : (Token.scan line).toOption.map (·.map Token.name?) = some (names.map some)) :
    Token.scan line = .ok (names.map .word) := by
  cases scanned : Token.scan line with
  | error problem =>
    rw [scanned] at read
    cases read
  | ok tokens =>
    rw [scanned] at read
    rw [words_of_names (Option.some.inj read)]

theorem scan_while : Token.scan "while true".toList = .ok [.word "while", .word "true"] := by
  have read : (Token.scan "while true".toList).toOption.map (·.map Token.name?) =
      some (["while", "true"].map some) := by
    decide +kernel
  exact scan_words read

theorem scan_poll : Token.scan "poll".toList = .ok [.word "poll"] := by
  have read : (Token.scan "poll".toList).toOption.map (·.map Token.name?) =
      some (["poll"].map some) := by
    decide +kernel
  exact scan_words read

theorem scan_end : Token.scan "end".toList = .ok [.word "end"] := by
  have read : (Token.scan "end".toList).toOption.map (·.map Token.name?) =
      some (["end"].map some) := by
    decide +kernel
  exact scan_words read

theorem pollLoop_lines (offset : Nat) :
    linesFrom offset (linePieces pollLoop) =
      [⟨offset, "while true".toList⟩, ⟨offset + 11, "  poll".toList⟩,
        ⟨offset + 18, "end".toList⟩] := by
  rfl

theorem joinFrom_pollLoop (index offset : Nat) (left : Option LogicalLine) :
    joinFrom index left (linesFrom offset (linePieces pollLoop)) =
      [extend left index ⟨offset, "while true".toList⟩,
        ⟨"poll".toList, offset + 13, index + 1, index + 1⟩,
        ⟨"end".toList, offset + 18, index + 2, index + 2⟩] := by
  rw [pollLoop_lines]
  rfl

theorem addLine_while {draft next : Draft} {offset index : Nat}
    (added : draft.addLine ⟨"while true".toList, offset, index, index⟩ = .ok next) :
    next = { draft with blocks := ⟨.loop .always, ⟨offset, index + 1⟩, []⟩ :: draft.blocks } := by
  obtain ⟨tokens, stated, scanned, reads, added⟩ := addLine_statement added (by rfl)
  rw [scan_while] at scanned
  cases scanned
  cases reads
  cases added
  rfl

theorem addLine_poll {draft next : Draft} {offset index : Nat}
    (added : draft.addLine ⟨"poll".toList, offset, index, index⟩ = .ok next) :
    next = draft.add (.poll ⟨offset, index + 1⟩) := by
  obtain ⟨tokens, stated, scanned, reads, added⟩ := addLine_statement added (by rfl)
  rw [scan_poll] at scanned
  cases scanned
  cases reads
  cases added
  rfl

theorem addLine_end {draft next : Draft} {offset index : Nat}
    (added : draft.addLine ⟨"end".toList, offset, index, index⟩ = .ok next) :
    draft.close = .ok next := by
  obtain ⟨tokens, stated, scanned, reads, added⟩ := addLine_statement added (by rfl)
  rw [scan_end] at scanned
  cases scanned
  cases reads
  exact added

/-- The generated lines keep a draft tame, also where they end the user's last line or a block that
the user left open. -/
theorem Draft.Tame.pollLoop {map : LineMap} {draft next : Draft} {left : Option LogicalLine}
    {bound index offset : Nat} (holds : ∀ offset, offset < bound → map.Holds offset)
    (tame : draft.Tame map) (pending : ∀ logical ∈ left, logical.offset < bound)
    (added : draft.addLines (joinFrom index left (linesFrom offset (linePieces pollLoop))) =
      .ok next) : next.Tame map := by
  rw [joinFrom_pollLoop] at added
  obtain ⟨first, opened, added⟩ := addLines_cons added
  obtain ⟨second, polled, added⟩ := addLines_cons added
  obtain ⟨third, closed, added⟩ := addLines_cons added
  cases added
  have closes := addLine_end closed
  rw [addLine_poll polled] at closes
  cases left with
  | none =>
    rw [addLine_while opened] at closes
    cases closes
    exact tame.add .pollLoop
  | some logical =>
    have within : (extend (some logical) index ⟨offset, "while true".toList⟩).Within bound :=
      .inr (pending logical rfl)
    exact ((tame.addLine holds within opened).add .poll).close closes

theorem holds_lineMap (text : List Char) {length offset : Nat} (inside : offset < length) :
    (LineMap.ofText text 0 length).Holds offset := by
  unfold LineMap.Holds LineMap.userLine LineMap.ofText
  rw [if_neg (by simpa using inside)]
  rfl

theorem parse_tame {map : LineMap} {text : List Char} {program : Program}
    (tame : ∀ draft, Draft.empty.addLines (logicalLines text) = .ok draft → draft.Tame map)
    (read : parse text = .ok program) :
    (∀ node ∈ program.body, node.Tame map) ∧ TameFunctions map program.functions := by
  unfold parse at read
  cases added : Draft.empty.addLines (logicalLines text) with
  | error error =>
    rw [added] at read
    cases read
  | ok draft =>
    rw [added] at read
    change draft.finish = _ at read
    obtain ⟨body, -, functions⟩ := tame draft added
    unfold Draft.finish at read
    split at read
    · cases read
      exact ⟨body, functions⟩
    · cases read

/-- A machine and its text that were read from a source, with or without the generated loop. -/
inductive Accepted (loaded : Loaded) : Prop where
  | polling {source : List Char} (read : load source = .ok loaded)
  | bare {source : List Char} (read : loadBare source = .ok loaded)

theorem loadText_machine {text : ProgramText} {loaded : Loaded}
    (read : loadText text = .ok loaded) :
    ∃ program, parse text.text = .ok program ∧ loaded = ⟨.ofProgram program, text⟩ := by
  unfold loadText at read
  cases parsed : parse text.text with
  | error error =>
    rw [parsed] at read
    cases read
  | ok program =>
    rw [parsed] at read
    cases read
    exact ⟨program, rfl, rfl⟩

theorem Accepted.program {loaded : Loaded} (accepted : Accepted loaded) :
    ∃ program, loaded.machine = .ofProgram program ∧
      (∀ node ∈ program.body, node.Tame loaded.text.lineMap) ∧
      TameFunctions loaded.text.lineMap program.functions := by
  cases accepted with
  | @polling source read =>
    obtain ⟨program, parsed, rfl⟩ := loadText_machine read
    refine ⟨program, rfl, parse_tame (fun draft added => ?_) parsed⟩
    dsimp only [ProgramText.wrap, ProgramText.lineMap] at added ⊢
    generalize ended : (if (decide (source = []) || decide (source.getLast? = some '\n')) = true
      then source else source ++ ['\n']) = user at added ⊢
    have whole : user = [] ∨ user.getLast? = some '\n' := by
      rw [← ended]
      split
      · rename_i kept
        simpa using kept
      · simp
    have within := linesFrom_inside 0 (linePieces user)
    rw [linePieces_flatten, Nat.zero_add] at within
    obtain ⟨joined, left, inside, pending, joins⟩ :=
      joinFrom_append (physicalLines user) 0 none (by simp) within
    rw [logicalLines, physicalLines_append whole, joins] at added
    obtain ⟨middle, first, rest⟩ := addLines_append added
    have holds : ∀ offset, offset < byteLength user →
        (LineMap.ofText (user ++ pollLoop) 0 (byteLength user)).Holds offset :=
      fun offset inside => holds_lineMap _ inside
    exact (Draft.Tame.empty.addLines holds inside first).pollLoop holds pending rest
  | @bare source read =>
    obtain ⟨program, parsed, rfl⟩ := loadText_machine read
    refine ⟨program, rfl, parse_tame (fun draft added => ?_) parsed⟩
    dsimp only [ProgramText.whole, ProgramText.lineMap] at added ⊢
    have within := linesFrom_inside 0 (linePieces source)
    rw [linePieces_flatten, Nat.zero_add] at within
    obtain ⟨joined, left, inside, pending, joins⟩ :=
      joinFrom_append (physicalLines source) 0 none (by simp) within
    have joins := joins []
    rw [List.append_nil] at joins
    rw [logicalLines, joins] at added
    obtain ⟨middle, first, rest⟩ := addLines_append added
    have holds : ∀ offset, offset < byteLength source →
        (LineMap.ofText source 0 (byteLength source)).Holds offset :=
      fun offset inside => holds_lineMap _ inside
    refine (Draft.Tame.empty.addLines holds inside first).addLines holds ?_ rest
    intro line member
    exact .inr (pending line (by simpa [joinFrom] using member))

end Script

end Metronome
