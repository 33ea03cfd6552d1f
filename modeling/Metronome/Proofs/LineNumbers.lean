import Metronome.Proofs.Nesting

namespace Metronome

open Metronome.Text

namespace Text

/-- A line feed stands only at the end of a piece, and at the end of every piece but the last. -/
structure Lined (pieces : List (List Char)) : Prop where
  plain : ∀ piece ∈ pieces, '\n' ∉ piece.dropLast
  ended : ∀ piece ∈ pieces.dropLast, piece.getLast? = some '\n'

theorem Lined.feed {pieces : List (List Char)} (lined : Lined pieces) :
    Lined (['\n'] :: pieces) where
  plain := List.forall_mem_cons.mpr ⟨by simp, lined.plain⟩
  ended piece member := by
    cases pieces with
    | nil => cases member
    | cons first more =>
      rw [List.dropLast_cons_of_ne_nil (List.cons_ne_nil first more)] at member
      rcases List.mem_cons.mp member with rfl | later
      · rfl
      · exact lined.ended piece later

theorem Lined.push {c : Char} {first : List Char} {more : List (List Char)} (other : c ≠ '\n')
    (lined : Lined (first :: more)) : Lined ((c :: first) :: more) where
  plain := by
    obtain ⟨head, tail⟩ := List.forall_mem_cons.mp lined.plain
    refine List.forall_mem_cons.mpr ⟨?_, tail⟩
    cases first with
    | nil => simp
    | cons d first =>
      rw [List.dropLast_cons_of_ne_nil (List.cons_ne_nil d first), List.mem_cons, not_or]
      exact ⟨other.symm, head⟩
  ended piece member := by
    cases more with
    | nil => cases member
    | cons next more =>
      have ended := lined.ended
      rw [List.dropLast_cons_of_ne_nil (List.cons_ne_nil next more)] at member ended
      obtain ⟨head, tail⟩ := List.forall_mem_cons.mp ended
      rcases List.mem_cons.mp member with rfl | later
      · rw [List.getLast?_cons, head]
        rfl
      · exact tail piece later

theorem linePieces_lined (text : List Char) : Lined (linePieces text) := by
  induction text with
  | nil => exact ⟨by simp [linePieces], by simp [linePieces]⟩
  | cons c rest ih =>
    by_cases feed : c = '\n'
    · rw [linePieces, if_pos feed, feed]
      exact ih.feed
    · rw [linePieces, if_neg feed]
      cases pieces : linePieces rest with
      | nil => exact ⟨by simp, by simp⟩
      | cons first more => exact (pieces ▸ ih).push feed

theorem Lined.before {left right : List (List Char)} (lined : Lined (left ++ right))
    (more : right ≠ []) {piece : List Char} (member : piece ∈ left) :
    '\n' ∉ piece.dropLast ∧ piece.getLast? = some '\n' := by
  refine ⟨lined.plain piece (List.mem_append_left right member), lined.ended piece ?_⟩
  rw [List.dropLast_append_of_ne_nil more]
  exact List.mem_append_left _ member

theorem Lined.after {left right : List (List Char)} (lined : Lined (left ++ right)) :
    Lined right where
  plain piece member := lined.plain piece (List.mem_append_right left member)
  ended piece member := by
    refine lined.ended piece ?_
    rw [List.dropLast_append_of_ne_nil]
    · exact List.mem_append_right left member
    · rintro rfl
      cases member

theorem linesFrom_split {start : Nat} {pieces : List (List Char)} {before after : List PhysicalLine}
    (split : linesFrom start pieces = before ++ after) :
    ∃ left right, pieces = left ++ right ∧ left.length = before.length ∧
      linesFrom (start + byteLength left.flatten) right = after := by
  induction before generalizing start pieces with
  | nil => exact ⟨[], pieces, rfl, rfl, split⟩
  | cons first before ih =>
    cases pieces with
    | nil => cases split
    | cons piece pieces =>
      obtain ⟨left, right, rfl, length, same⟩ := ih (List.cons.inj split).2
      refine ⟨piece :: left, right, rfl, congrArg (· + 1) length, ?_⟩
      rw [← same, List.flatten_cons, byteLength_append, Nat.add_assoc]

theorem linesFrom_cons {start : Nat} {pieces : List (List Char)} {first : PhysicalLine}
    {rest : List PhysicalLine} (lines : linesFrom start pieces = first :: rest) :
    ∃ piece more, pieces = piece :: more ∧ first = ⟨start, lineContent piece⟩ ∧
      linesFrom (start + byteLength piece) more = rest := by
  cases pieces with
  | nil => cases lines
  | cons piece more =>
    cases lines
    exact ⟨piece, more, rfl, rfl, rfl⟩

theorem physicalLines_split {text : List Char} {before after : List PhysicalLine}
    {first : PhysicalLine} (split : physicalLines text = before ++ first :: after) :
    ∃ left piece right, linePieces text = left ++ piece :: right ∧ left.length = before.length ∧
      first = ⟨byteLength left.flatten, lineContent piece⟩ ∧
      linesFrom (byteLength left.flatten + byteLength piece) right = after := by
  obtain ⟨left, row, pieces, count, lines⟩ := linesFrom_split split
  rw [Nat.zero_add] at lines
  obtain ⟨piece, right, rfl, same, rest⟩ := linesFrom_cons lines
  exact ⟨left, piece, right, pieces, count, same, rest⟩

end Text

variable {text : List Char}

theorem lineStartsFrom_append (start : Nat) (left right : List Char) :
    lineStartsFrom start (left ++ right) =
      lineStartsFrom start left ++ lineStartsFrom (start + byteLength left) right := by
  induction left generalizing start with
  | nil => rfl
  | cons c left ih =>
    simp only [List.cons_append, lineStartsFrom, byteLength, ih, Nat.add_assoc]
    split <;> rfl

theorem lineStartsFrom_plain (plain : '\n' ∉ text) (start : Nat) : lineStartsFrom start text = [] := by
  induction text generalizing start with
  | nil => rfl
  | cons c rest ih =>
    rw [List.mem_cons, not_or] at plain
    rw [lineStartsFrom, if_neg fun feed => plain.1 feed.symm, ih plain.2]

theorem le_of_mem_lineStarts {start next : Nat} {c : Char} {rest : List Char}
    (member : next ∈ lineStartsFrom start (c :: rest)) : start + c.utf8Size ≤ next := by
  induction rest generalizing start c with
  | nil =>
    rw [lineStartsFrom] at member
    split at member
    · exact Nat.le_of_eq (List.mem_singleton.mp member).symm
    · cases member
  | cons d rest ih =>
    rw [lineStartsFrom] at member
    split at member
    · rcases List.mem_cons.mp member with rfl | later
      · exact Nat.le_refl _
      · exact Nat.le_trans (Nat.le_add_right _ _) (ih later)
    · exact Nat.le_trans (Nat.le_add_right _ _) (ih member)

theorem countP_inside {piece : List Char} (plain : '\n' ∉ piece.dropLast) {start offset : Nat}
    (inside : offset < start + byteLength piece) (more : List Char) :
    (lineStartsFrom start (piece ++ more)).countP (· ≤ offset) = 0 := by
  rw [List.countP_eq_zero]
  intro next member reached
  simp only [decide_eq_true_eq] at reached
  rcases List.eq_nil_or_concat piece with rfl | ⟨body, last, rfl⟩
  · cases more with
    | nil => cases member
    | cons c more =>
      have beyond := le_of_mem_lineStarts member
      rw [byteLength] at inside
      omega
  · rw [List.concat_eq_append, List.dropLast_concat] at plain
    rw [List.concat_eq_append, List.append_assoc, lineStartsFrom_append,
      lineStartsFrom_plain plain] at member
    have beyond := le_of_mem_lineStarts member
    rw [List.concat_eq_append, byteLength_append] at inside
    simp only [byteLength] at inside
    omega

theorem countP_before {pieces : List (List Char)}
    (ended : ∀ piece ∈ pieces, '\n' ∉ piece.dropLast ∧ piece.getLast? = some '\n')
    {start offset : Nat} (reached : start + byteLength pieces.flatten ≤ offset) :
    (lineStartsFrom start pieces.flatten).countP (· ≤ offset) = pieces.length := by
  induction pieces generalizing start with
  | nil => rfl
  | cons piece pieces ih =>
    obtain ⟨⟨plain, last⟩, later⟩ := List.forall_mem_cons.mp ended
    obtain ⟨body, rfl⟩ := List.getLast?_eq_some_iff.mp last
    rw [List.dropLast_concat] at plain
    rw [List.flatten_cons, byteLength_append] at reached
    have rest : (lineStartsFrom (start + byteLength (body ++ ['\n'])) pieces.flatten).countP
        (· ≤ offset) = pieces.length := ih later (by omega)
    rw [byteLength_append] at reached
    have here : start + byteLength body + '\n'.utf8Size ≤ offset := by
      simp only [byteLength] at reached
      omega
    rw [List.flatten_cons, lineStartsFrom_append, List.countP_append, rest, lineStartsFrom_append,
      lineStartsFrom_plain plain, List.nil_append, List.length_cons, Nat.add_comm]
    simp [lineStartsFrom, here]

theorem absoluteLine_ofText (text : List Char) (start length offset : Nat) :
    (LineMap.ofText text start length).absoluteLine offset =
      (lineStartsFrom 0 text).countP (· ≤ offset) := by
  rw [LineMap.absoluteLine, LineMap.ofText, List.countP_cons_of_pos (by simp), Nat.add_sub_cancel]

theorem absoluteLine_piece {left right : List (List Char)} {piece : List Char}
    (split : linePieces text = left ++ piece :: right) {offset : Nat}
    (reached : byteLength left.flatten ≤ offset)
    (inside : offset < byteLength left.flatten + byteLength piece) (start length : Nat) :
    (LineMap.ofText text start length).absoluteLine offset = left.length := by
  have lined := linePieces_lined text
  rw [split] at lined
  have whole : text = left.flatten ++ (piece ++ right.flatten) := by
    rw [← List.flatten_cons, ← List.flatten_append, ← split, linePieces_flatten]
  rw [absoluteLine_ofText, whole, lineStartsFrom_append, List.countP_append,
    countP_before (fun _ member => lined.before (List.cons_ne_nil piece right) member) (by omega),
    countP_inside (lined.plain piece (by simp)) (by omega), Nat.add_zero]

theorem absoluteLine_zero (text : List Char) (start length : Nat) :
    (LineMap.ofText text start length).absoluteLine 0 = 0 := by
  rw [absoluteLine_ofText, List.countP_eq_zero]
  intro next member reached
  cases text with
  | nil => cases member
  | cons c rest =>
    have beyond := le_of_mem_lineStarts member
    have positive := c.utf8Size_pos
    simp only [decide_eq_true_eq] at reached
    omega

namespace Script

theorem visible_first {index : Nat} {first : PhysicalLine} {more : List PhysicalLine}
    (goesOn : ∀ line ∈ (first :: more).dropLast, continues line.content = true)
    (content : isComment (joined index first more).content = false) :
    ∃ c ∈ first.content, isBlank c = false := by
  by_cases unfinished : continues first.content = true
  · exact ⟨'\\', continues_backslash unfinished, isBlank_backslash⟩
  · cases more with
    | cons second more =>
      exact absurd (goesOn first (by simp)) unfinished
    | nil =>
      by_contra blank
      change isComment (contribution first.content) = false at content
      rw [contribution, if_neg unfinished, isComment_trim_blank (by simpa using blank)] at content
      cases content

theorem userLine_line {text : List Char} {line : LogicalLine} (member : line ∈ logicalLines text)
    (content : isComment line.content = false) (length : Nat) :
    (LineMap.ofText text 0 length).userLine line.offset =
      if line.offset < length then some line.place.line else none := by
  obtain ⟨before, first, more, after, split, rfl, goesOn, -⟩ :=
    (logicalLines_joins text).of_mem member
  obtain ⟨c, inside, visible⟩ := visible_first goesOn content
  obtain ⟨left, piece, right, pieces, count, same, -⟩ := physicalLines_split split
  have within : first.offset + byteLength first.content ≤
      byteLength left.flatten + byteLength piece := by
    have shorter := byteLength_lineContent_le piece
    rw [same]
    dsimp only
    omega
  have ends := startOffset_lt within inside visible
  have starts : byteLength left.flatten ≤ startOffset first := by
    rw [startOffset, same]
    dsimp only
    omega
  have line_number := absoluteLine_piece pieces starts ends 0 length
  rw [LineMap.userLine]
  change (if (decide (_ < 0) || decide (0 + length ≤ startOffset first)) = true then none else
    some ((LineMap.ofText text 0 length).absoluteLine (startOffset first) -
      (LineMap.ofText text 0 length).absoluteLine 0 + 1)) =
    if startOffset first < length then some (0 + before.length + 1) else none
  rw [line_number, absoluteLine_zero, count, Nat.zero_add, Nat.zero_add, Nat.sub_zero]
  by_cases user : startOffset first < length
  · rw [if_pos user, if_neg (by simp [user])]
  · rw [if_neg user, if_pos (by simpa using user)]

/-- The statements and functions of a text have the lines that a map gives for the bytes at which they
start; a function has the line that opens it. -/
structure Program.Numbered (program : Program) (text : List Char) (map : LineMap) : Prop where
  statements : ∀ visit ∈ program.walk, map.userLine visit.place.offset = some visit.place.line
  functions : ∀ function ∈ program.functions, ∃ line ∈ logicalLines text,
    line.States (.opening (.function function.name function.parameters)) ∧
      line.offset = function.offset ∧ map.userLine function.offset = some (line.first + 1)

/-- A text is numbered by the map of any text that has its lines, up to its end at least. -/
theorem parse_numbered {text whole : List Char} {program : Program} {length : Nat}
    (read : parse text = .ok program) (kept : ∀ line ∈ logicalLines text, line ∈ logicalLines whole)
    (long : byteLength text ≤ length) :
    program.Numbered text (LineMap.ofText whole 0 length) := by
  have numbers : ∀ line ∈ logicalLines text, ∀ {statement}, line.States statement →
      (LineMap.ofText whole 0 length).userLine line.offset = some line.place.line := by
    intro line member statement stated
    have within := (logicalLines_within text line member).resolve_left (by simp [stated.1])
    have inside : line.offset < length := Nat.lt_of_lt_of_le within.offset long
    rw [userLine_line (kept line member) stated.1, if_pos inside]
  constructor
  · intro visit member
    obtain ⟨line, inside, same, stated⟩ := visit_stated read member
    rw [← same]
    exact numbers line inside stated
  · intro function member
    obtain ⟨line, inside, same, stated⟩ := function_stated read member
    refine ⟨line, inside, stated, same, ?_⟩
    rw [← same]
    exact numbers line inside stated

theorem byteLength_ended (source : List Char) :
    byteLength source ≤ byteLength (ended source) := by
  unfold ended
  split
  · exact Nat.le_refl _
  · rw [byteLength_append]
    exact Nat.le_add_right _ _

/-- Every statement and function of a text that is accepted has the line of the byte at which it starts.
With the generated loop after it, a statement in the user's region has its line and every other none; and
if the user's last line does not go on in the next one, the user's own statements and functions are the
ones in the region, and the loop and its poll have no line. -/
theorem lines_agree (text : List Char) :
    (∀ program, parse text = .ok program →
      program.Numbered text (LineMap.ofText text 0 (byteLength text))) ∧
      ∀ loaded, load text = .ok loaded → ∃ program,
        parse loaded.text.text = .ok program ∧
        loaded = ⟨.ofProgram program, .wrap text pollLoop⟩ ∧
        (∀ visit ∈ program.walk, loaded.text.lineMap.userLine visit.place.offset =
          if visit.place.offset < loaded.text.userLength then some visit.place.line else none) ∧
        (isUnfinished text = false → ∃ own outer inner, parse text = .ok own ∧
          program = ⟨own.body ++ [.loop outer .always [.poll inner]], own.functions⟩ ∧
          own.Numbered text loaded.text.lineMap ∧
          ∀ place ∈ [outer, inner], loaded.text.lineMap.userLine place.offset = none) := by
  constructor
  · exact fun program read => parse_numbered read (fun _ member => member) (Nat.le_refl _)
  · intro loaded read
    obtain ⟨program, parsed, rfl⟩ := loadText_machine read
    refine ⟨program, parsed, rfl, ?_, ?_⟩
    · intro visit member
      obtain ⟨line, inside, same, stated⟩ := visit_stated parsed member
      rw [← same]
      exact userLine_line inside stated.1 _
    · intro finished
      rw [wrap_eq, parse_wrapped finished] at parsed
      obtain ⟨own, alone, rfl⟩ := map_eq_ok.mp parsed
      refine ⟨own, _, _, alone, rfl, parse_numbered alone ?_ (byteLength_ended text), ?_⟩
      · intro line member
        change line ∈ logicalLines (ended text ++ pollLoop)
        rw [logicalLines_wrapped finished]
        exact List.mem_append_left _ member
      · intro place member
        rcases List.mem_cons.mp member with rfl | member
        · exact outside_wrapped (Nat.le_refl _)
        · rw [List.mem_singleton.mp member]
          exact outside_wrapped (Nat.le_add_right _ _)

def carriageReturns : List Char :=
  "set n = 1\r\n\r\n\tprint \\\r\n  \"é\"\r\nfunc f\r\n  return\r\nend".toList

theorem carriageReturns_lines_agree : isUnfinished carriageReturns = false ∧
    ∃ own outer inner, parse carriageReturns = .ok own ∧
      own.Numbered carriageReturns (LineMap.ofText carriageReturns 0 (byteLength carriageReturns)) ∧
      load carriageReturns = .ok ⟨.ofProgram
        ⟨own.body ++ [.loop outer .always [.poll inner]], own.functions⟩,
        .wrap carriageReturns pollLoop⟩ ∧
      own.Numbered carriageReturns (ProgramText.wrap carriageReturns pollLoop).lineMap ∧
      (∀ place ∈ [outer, inner],
        (ProgramText.wrap carriageReturns pollLoop).lineMap.userLine place.offset = none) ∧
      own.body.map (·.place) = [⟨0, 1⟩, ⟨14, 3⟩] ∧ own.functions.map (·.offset) = [31] := by
  have finished : isUnfinished carriageReturns = false := by decide +kernel
  have accepted : ((load carriageReturns).toOption.map fun _ => ()) = some () := by decide +kernel
  have starts : ((parse carriageReturns).toOption.map fun program =>
      (program.body.map (·.place), program.functions.map (·.offset))) =
        some ([⟨0, 1⟩, ⟨14, 3⟩], [31]) := by
    decide +kernel
  obtain ⟨loaded, loads, -⟩ := toOption_map_eq_some accepted
  obtain ⟨own, read, seen⟩ := toOption_map_eq_some starts
  obtain ⟨program, -, rfl, -, alone⟩ := (lines_agree carriageReturns).2 loaded loads
  obtain ⟨other, outer, inner, again, rfl, numbered, outside⟩ := alone finished
  obtain rfl : own = other := Except.ok.inj (read.symm.trans again)
  obtain ⟨body, functions⟩ := Prod.mk.inj seen
  exact ⟨finished, own, outer, inner, read, (lines_agree carriageReturns).1 own read, loads, numbered,
    outside, body, functions⟩

/-- A line that holds nothing and goes on in the next one puts the generated loop on the user's line. -/
theorem loneBackslash_numbers_pollLoop : parse ['\\'] = .ok ⟨[], []⟩ ∧
    load ['\\'] = .ok ⟨.ofProgram ⟨[.loop ⟨0, 1⟩ .always [.poll ⟨15, 3⟩]], []⟩,
      .wrap ['\\'] pollLoop⟩ ∧
    (ProgramText.wrap ['\\'] pollLoop).lineMap.userLine 0 = some 1 := by
  have nothing : logicalLines ['\\'] = [⟨[], 0, 0, 0⟩] := by decide +kernel
  have lines : logicalLines (ProgramText.wrap ['\\'] pollLoop).text =
      [⟨"while true".toList, 0, 0, 1⟩, ⟨"poll".toList, 15, 2, 2⟩, ⟨"end".toList, 20, 3, 3⟩] := by
    decide +kernel
  refine ⟨?_, ?_, by decide +kernel⟩
  · rw [parse, nothing]
    rfl
  · have opens : Draft.empty.addLine ⟨"while true".toList, 0, 0, 1⟩ =
        .ok ⟨[], [⟨.loop .always, ⟨0, 1⟩, []⟩], []⟩ := by
      rw [addLine_of_tokens rfl scan_while rfl]
      rfl
    have polls : Draft.addLine ⟨[], [⟨.loop .always, ⟨0, 1⟩, []⟩], []⟩ ⟨"poll".toList, 15, 2, 2⟩ =
        .ok ⟨[], [⟨.loop .always, ⟨0, 1⟩, [.poll ⟨15, 3⟩]⟩], []⟩ := by
      rw [addLine_of_tokens rfl scan_poll rfl]
      rfl
    have closes : Draft.addLine ⟨[], [⟨.loop .always, ⟨0, 1⟩, [.poll ⟨15, 3⟩]⟩], []⟩
        ⟨"end".toList, 20, 3, 3⟩ = .ok ⟨[.loop ⟨0, 1⟩ .always [.poll ⟨15, 3⟩]], [], []⟩ := by
      rw [addLine_of_tokens rfl scan_end rfl]
      rfl
    rw [load, loadText, parse, lines]
    simp only [Draft.addLines, opens, polls, closes]
    rfl

end Script

end Metronome
