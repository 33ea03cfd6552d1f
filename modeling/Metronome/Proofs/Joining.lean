import Metronome.Proofs.Region
import Metronome.Proofs.Scanning
import Mathlib.Data.List.Forall2

namespace Metronome.Script

open Metronome.Text

/-- What a line adds to its statement, blanks around it included: the line, or what stands before the
backslash by which it goes on in the next one. -/
def piece (line : List Char) : List Char :=
  if continues line then (dropEndWhile isLineBlank line).dropLast else line

theorem contribution_eq (line : List Char) : contribution line = trim (piece line) := rfl

def joinPieces (gathered : List Char) (lines : List PhysicalLine) : List Char :=
  lines.foldl (fun gathered line => appendPiece gathered (contribution line.content)) gathered

def joined (index : Nat) (first : PhysicalLine) (more : List PhysicalLine) : LogicalLine :=
  ⟨joinPieces (contribution first.content) more, startOffset first, index, index + more.length⟩

/-- Lines in runs, and the logical lines that the runs make. -/
inductive Joins : Nat → List PhysicalLine → List LogicalLine → Prop where
  | nil {index : Nat} : Joins index [] []
  | run {index : Nat} {first : PhysicalLine} {more after : List PhysicalLine}
      {logical : List LogicalLine}
      (goesOn : ∀ line ∈ (first :: more).dropLast, continues line.content = true)
      (ends : after ≠ [] → ∀ last ∈ (first :: more).getLast?, continues last.content = false)
      (later : Joins (index + 1 + more.length) after logical) :
      Joins index (first :: (more ++ after)) (joined index first more :: logical)

theorem extend_joined (index : Nat) (first : PhysicalLine) (more : List PhysicalLine)
    (line : PhysicalLine) :
    extend (some (joined index first more)) (index + 1 + more.length) line =
      joined index first (more ++ [line]) := by
  have last : index + 1 + more.length = index + (more.length + 1) := by omega
  simp [extend, joined, joinPieces, last]

/-- Joining makes a logical line of each run. While a run is being gathered, all its lines go on. -/
theorem joinFrom_runs (lines : List PhysicalLine) :
    (∀ index, Joins index lines (joinFrom index none lines)) ∧
      ∀ index first more, (∀ line ∈ first :: more, continues line.content = true) →
        Joins index (first :: (more ++ lines))
          (joinFrom (index + 1 + more.length) (some (joined index first more)) lines) := by
  -- The two go together: a line that goes on leads from the first to the second, and the line that
  -- ends the run back to the first.
  induction lines with
  | nil =>
    refine ⟨fun index => .nil, fun index first more goesOn => ?_⟩
    exact .run (fun line member => goesOn line (List.dropLast_subset _ member))
      (fun some_line => absurd rfl some_line) .nil
  | cons line lines ih =>
    obtain ⟨fresh, gathering⟩ := ih
    constructor
    · intro index
      rw [joinFrom]
      change Joins index (line :: lines) (if _ then joinFrom _ (some (joined index line [])) lines
        else joined index line [] :: _)
      split
      · rename_i goesOn
        exact gathering index line [] (by simpa using goesOn)
      · rename_i ends
        have alone : ∀ last ∈ [line].getLast?, continues last.content = false := by
          rintro last ⟨⟩
          simpa using ends
        exact @Joins.run index line [] lines _ (by simp) (fun _ => alone) (fresh (index + 1))
    · intro index first more goesOn
      rw [joinFrom, extend_joined]
      have split_line : more ++ line :: lines = more ++ [line] ++ lines := by simp
      rw [split_line]
      split
      · rename_i goesOnHere
        have later := gathering index first (more ++ [line]) (by
          intro other member
          rcases List.mem_append.mp (List.cons_append ▸ member : other ∈ (first :: more) ++ [line])
            with before | here
          · exact goesOn other before
          · rw [List.mem_singleton.mp here]
            exact goesOnHere)
        rwa [List.length_append, List.length_singleton, ← Nat.add_assoc] at later
      · rename_i ends
        refine .run ?_ ?_ ?_
        · rw [← List.cons_append, List.dropLast_concat]
          exact goesOn
        · intro _ last found
          rw [← List.cons_append, List.getLast?_concat] at found
          cases found
          simpa using ends
        · rw [List.length_append, List.length_singleton, ← Nat.add_assoc]
          exact fresh _

theorem logicalLines_joins (text : List Char) :
    Joins 0 (physicalLines text) (logicalLines text) :=
  (joinFrom_runs (physicalLines text)).1 0

theorem Joins.of_mem {index : Nat} {lines : List PhysicalLine} {logical : List LogicalLine}
    (joins : Joins index lines logical) {line : LogicalLine} (member : line ∈ logical) :
    ∃ before first more after, lines = before ++ first :: (more ++ after) ∧
      line = joined (index + before.length) first more ∧
        (∀ other ∈ (first :: more).dropLast, continues other.content = true) ∧
        ∀ last ∈ before.getLast?, continues last.content = false := by
  induction joins with
  | nil => cases member
  | @run index first more after logical goesOn ends later ih =>
    rcases List.mem_cons.mp member with rfl | member
    · exact ⟨[], first, more, after, rfl, rfl, goesOn, nofun⟩
    · obtain ⟨before, start, rest, others, rfl, rfl, inner, stops⟩ := ih member
      refine ⟨first :: (more ++ before), start, rest, others, by simp, ?_, inner, ?_⟩
      · congr 1
        simp only [List.length_cons, List.length_append]
        omega
      · intro last found
        rw [← List.cons_append, List.getLast?_append] at found
        rcases Option.or_eq_some_iff.mp found with here | ⟨-, earlier⟩
        · exact stops last here
        · exact ends (by simp) last earlier

theorem Joins.ordered {index : Nat} {lines : List PhysicalLine} {logical : List LogicalLine}
    (joins : Joins index lines logical) :
    (∀ line ∈ logical, index ≤ line.first) ∧ logical.Pairwise fun line other =>
      line.first < other.first := by
  induction joins with
  | nil => exact ⟨by simp, .nil⟩
  | @run index first more after logical goesOn ends later ih =>
    obtain ⟨bound, ordered⟩ := ih
    have beyond : ∀ line ∈ logical, index < line.first := by
      intro line member
      have := bound line member
      omega
    refine ⟨List.forall_mem_cons.mpr ⟨Nat.le_refl index, ?_⟩, List.pairwise_cons.mpr ⟨beyond, ordered⟩⟩
    exact fun line member => Nat.le_of_lt (beyond line member)

def LogicalLine.pieces (text : List Char) (line : LogicalLine) : List (List Char) :=
  (((physicalLines text).drop line.first).take (line.last + 1 - line.first)).map (piece ·.content)

theorem pieces_joined {text : List Char} {before more after : List PhysicalLine}
    {first : PhysicalLine} (split : physicalLines text = before ++ first :: (more ++ after)) :
    (joined before.length first more).pieces text = (first :: more).map (piece ·.content) := by
  have count : before.length + more.length + 1 - before.length = (first :: more).length := by
    rw [List.length_cons]
    omega
  simp only [LogicalLine.pieces, joined]
  rw [split, List.drop_left, count, ← List.cons_append, List.take_left]

open Token (scan)

theorem scan_append {left : List Char} {tokens : List Token} (scanned : scan left = .ok tokens)
    (right : List Char) : scan (left ++ ' ' :: right) = (scan right).map (tokens ++ ·) :=
  Token.scanFrom_append (by decide) scanned

theorem scan_appendPiece {gathered added : List Char} {tokens more : List Token}
    (scanned : scan gathered = .ok tokens) (next : scan added = .ok more) :
    scan (appendPiece gathered added) = .ok (tokens ++ more) := by
  unfold appendPiece
  split
  · rename_i nothing
    rw [nothing, scan, Token.scanFrom] at scanned
    cases scanned
    exact next
  · rw [scan_append scanned, next]
    rfl

theorem scan_joinPieces {lines : List PhysicalLine} {rows : List (List Token)}
    (scanned : List.Forall₂ (fun text tokens => scan text = .ok tokens)
      (lines.map (piece ·.content)) rows)
    {gathered : List Char} {tokens : List Token} (before : scan gathered = .ok tokens) :
    scan (joinPieces gathered lines) = .ok (tokens ++ rows.flatten) := by
  induction lines generalizing gathered tokens rows with
  | nil =>
    cases scanned
    simpa [joinPieces] using before
  | cons line lines ih =>
    cases scanned with
    | @cons _ row _ rows here later =>
      have next : scan (contribution line.content) = .ok row := by
        rw [contribution_eq, Token.scan_trim, here]
      have joins := ih later (scan_appendPiece before next)
      rwa [List.append_assoc, ← List.flatten_cons] at joins

/-- A text that can be scanned keeps its tokens in front of a space and another text, whose tokens
follow, or whose fault is the fault of the whole. So a statement over any number of lines, each piece of
which can be scanned alone, has the tokens of its pieces in their order. -/
theorem joining_keeps_tokens :
    (∀ (left right : List Char) (tokens : List Token), scan left = .ok tokens →
      scan (left ++ [' '] ++ right) = (scan right).map (tokens ++ ·)) ∧
      ∀ (text : List Char) (line : LogicalLine) (rows : List (List Token)),
        line ∈ logicalLines text →
        List.Forall₂ (fun text tokens => scan text = .ok tokens) (line.pieces text) rows →
        scan line.content = .ok rows.flatten := by
  constructor
  · intro left right tokens scanned
    rw [List.append_assoc]
    exact scan_append scanned right
  · intro text line rows member scanned
    obtain ⟨before, first, more, after, split, rfl, -⟩ :=
      (logicalLines_joins text).of_mem member
    rw [Nat.zero_add] at scanned ⊢
    rw [pieces_joined split] at scanned
    cases scanned with
    | @cons _ row _ rows here later =>
      have begins : scan (contribution first.content) = .ok row := by
        rw [contribution_eq, Token.scan_trim, here]
      exact scan_joinPieces later begins

def reminding : List Char := "timeout beep \\\n  -1 \\\n  left".toList

theorem reminding_keeps_tokens :
    scan "timeout beep".toList = .ok [.word "timeout", .word "beep"] ∧
      scan ("timeout beep".toList ++ [' '] ++ "-1".toList) =
        .ok [.word "timeout", .word "beep", .number (.int (-1))] ∧
      ⟨"timeout beep -1 left".toList, 0, 0, 2⟩ ∈ logicalLines reminding ∧
      List.Forall₂ (fun text tokens => scan text = .ok tokens)
        (LogicalLine.pieces reminding ⟨"timeout beep -1 left".toList, 0, 0, 2⟩)
        [[.word "timeout", .word "beep"], [.number (.int (-1))], [.word "left"]] ∧
      scan "timeout beep -1 left".toList =
        .ok [.word "timeout", .word "beep", .number (.int (-1)), .word "left"] := by
  have command : scan "timeout beep".toList = .ok [.word "timeout", .word "beep"] :=
    @scan_words _ ["timeout", "beep"] (by decide +kernel)
  have number : scan "-1".toList = .ok [.number (.int (-1))] := by
    have one : Token.scanOne false '-' ['1'] = .ok (.number (.int (-1)), []) := rfl
    change Token.scanFrom false ['-', '1'] = _
    rw [Token.scanFrom_visible (by decide), one]
    change (Token.scanFrom true []).map _ = _
    rw [Token.scanFrom]
    rfl
  have operand : scan "left".toList = .ok [.word "left"] :=
    @scan_words _ ["left"] (by decide +kernel)
  have member : (⟨"timeout beep -1 left".toList, 0, 0, 2⟩ : LogicalLine) ∈ logicalLines reminding := by
    decide +kernel
  have pieces : LogicalLine.pieces reminding ⟨"timeout beep -1 left".toList, 0, 0, 2⟩ =
      ["timeout beep ".toList, "  -1 ".toList, "  left".toList] := by
    decide +kernel
  have rows : List.Forall₂ (fun text tokens => scan text = .ok tokens)
      (LogicalLine.pieces reminding ⟨"timeout beep -1 left".toList, 0, 0, 2⟩)
      [[.word "timeout", .word "beep"], [.number (.int (-1))], [.word "left"]] := by
    rw [pieces]
    refine .cons ?_ (.cons ?_ (.cons ?_ .nil))
    · rw [← Token.scan_trim]
      exact command
    · rw [← Token.scan_trim]
      exact number
    · rw [← Token.scan_trim]
      exact operand
  refine ⟨command, ?_, member, rows, joining_keeps_tokens.2 _ _ _ member rows⟩
  rw [joining_keeps_tokens.1 _ _ _ command, number]
  rfl

end Metronome.Script
