import Metronome.Proofs.TextLines

/-!
Where keywords stand. The offset of a statement is the byte of its keyword, unless the statement begins
with lines that hold nothing but the backslash by which they go on: then it is the byte of the first of
these, and only such lines and blanks stand in front of the keyword.
-/
namespace Metronome

open Metronome.Text

namespace Script

def Action.keyword : Action → String
  | .print _ => "print"
  | .set _ _ => "set"
  | .call _ => "call"
  | .ret _ => "return"
  | .timeout _ _ _ => "timeout"

def Statement.keyword : Statement → String
  | .action simple => simple.keyword
  | .poll => "poll"
  | .opening block => block.keyword
  | .closing => "end"

theorem Statement.Written.keyword {statement : Statement} {tokens : List Token}
    (written : statement.Written tokens) : ∃ rest, tokens = .word statement.keyword :: rest := by
  cases written <;> exact ⟨_, rfl⟩

/-- A text that begins with a keyword, or with a backslash, blanks over the end of one line, and a text
that leads to the keyword. -/
inductive LeadsTo (keyword : List Char) : List Char → Prop where
  | here {rest : List Char} : LeadsTo keyword (keyword ++ rest)
  | continued {gap rest : List Char} (blank : ∀ c ∈ gap, isBlank c = true)
      (one_line : gap.count '\n' = 1) (later : LeadsTo keyword rest) :
      LeadsTo keyword ('\\' :: (gap ++ rest))

def LeadsFrom (text : List Char) (offset : Nat) (keyword : String) : Prop :=
  ∃ before after, text = before ++ after ∧ byteLength before = offset ∧
    LeadsTo keyword.toList after

namespace Token

variable {afterOperand : Bool} {c : Char} {name : String} {text rest after : List Char}
  {tokens : List Token}

theorem scanOperator_word : scanOperator c rest ≠ .ok (.word name, after) := by
  unfold scanOperator
  split <;> simp

theorem scanOne_word (scanned : scanOne afterOperand c rest = .ok (.word name, after)) :
    (c :: rest).takeWhile isWordPart = name.toList := by
  unfold scanOne at scanned
  split at scanned
  · dsimp only at scanned
    split at scanned <;> cases scanned
  · split at scanned
    · rename_i starts
      cases scanned
      have part : isWordPart c = true := by
        simp only [isWordStart, isWordPart, Bool.or_eq_true] at starts ⊢
        tauto
      rw [List.takeWhile_cons_of_pos part, String.toList_ofList]
    · split at scanned
      · split at scanned <;> cases scanned
      · exact absurd scanned scanOperator_word

theorem scanFrom_word (scanned : scanFrom afterOperand text = .ok (.word name :: tokens)) :
    (trimStart text).takeWhile isWordPart = name.toList := by
  fun_induction scanFrom afterOperand text with
  | case1 => cases scanned
  | case2 afterOperand c rest skipped ih =>
    rw [trimStart, List.dropWhile_cons_of_pos skipped]
    exact ih scanned
  | case3 => cases scanned
  | case4 => cases scanned
  | case5 afterOperand c rest visible token after first more later ih =>
    cases scanned
    rw [trimStart, List.dropWhile_cons_of_neg visible]
    exact scanOne_word first

end Token

theorem piece_append (line : List Char) : ∃ rest, line = piece line ++ rest := by
  obtain ⟨blanks, same, -⟩ := dropEndWhile_append isLineBlank line
  unfold piece
  split
  · obtain ⟨last, kept⟩ := List.dropLast_prefix (dropEndWhile isLineBlank line)
    exact ⟨last ++ blanks, by rw [← List.append_assoc, kept, ← same]⟩
  · exact ⟨[], (List.append_nil line).symm⟩

theorem contribution_front {line : List Char} (some_content : contribution line ≠ []) :
    ∃ rest, trimStart line = contribution line ++ rest := by
  obtain ⟨rest, whole⟩ := piece_append line
  obtain ⟨blanks, front, -⟩ := dropEndWhile_append isBlank (trimStart (piece line))
  have visible : trimStart (piece line) ≠ [] := by
    intro nothing
    rw [contribution_eq, trim, nothing] at some_content
    exact some_content rfl
  refine ⟨blanks ++ rest, ?_⟩
  rw [contribution_eq, trim, ← List.append_assoc, ← front, ← trimStart_append visible, ← whole]

theorem continues_ends {line : List Char} (goesOn : continues line = true) :
    ∃ body, dropEndWhile isLineBlank line = body ++ ['\\'] := by
  rcases List.eq_nil_or_concat (dropEndWhile isLineBlank line) with nothing | ⟨body, c, ends⟩
  · rw [continues, nothing] at goesOn
    cases goesOn
  · rw [List.concat_eq_append] at ends
    by_cases backslash : c = '\\'
    · exact ⟨body, backslash ▸ ends⟩
    · rw [continues, ends] at goesOn
      simp [finalBackslashes, backslash] at goesOn

theorem trimStart_of_trim {text : List Char} (nothing : trim text = []) : trimStart text = [] := by
  by_contra visible
  obtain ⟨c, rest, starts⟩ := List.exists_cons_of_ne_nil visible
  rw [trim, starts, dropEndWhile, List.reverse_eq_nil_iff, List.dropWhile_eq_nil_iff] at nothing
  have blank := nothing c (by simp)
  rw [trimStart_visible starts] at blank
  cases blank

theorem trimStart_bare {line : List Char} (goesOn : continues line = true)
    (nothing : contribution line = []) :
    ∃ gap, trimStart line = '\\' :: gap ∧ ∀ c ∈ gap, isBlank c = true := by
  obtain ⟨blanks, same, spaces⟩ := dropEndWhile_append isLineBlank line
  obtain ⟨body, ends⟩ := continues_ends goesOn
  rw [contribution, if_pos goesOn, ends, List.dropLast_concat] at nothing
  have blank : body.dropWhile isBlank = [] := trimStart_of_trim nothing
  refine ⟨blanks, ?_, fun c member => ?_⟩
  · rw [same, ends, List.append_assoc, trimStart, List.dropWhile_append, blank]
    rfl
  · have space := spaces c member
    simp only [isLineBlank, Bool.or_eq_true, beq_iff_eq] at space
    rcases space with rfl | rfl <;> decide

theorem joinPieces_append {gathered : List Char} (some_content : gathered ≠ [])
    (lines : List PhysicalLine) : ∃ more, joinPieces gathered lines = gathered ++ more ∧
      ∀ c ∈ more.head?, c = ' ' := by
  induction lines generalizing gathered with
  | nil => exact ⟨[], (List.append_nil gathered).symm, by simp⟩
  | cons line lines ih =>
    obtain ⟨more, joins, -⟩ :=
      @ih (appendPiece gathered (contribution line.content)) (by simp [appendPiece, some_content])
    refine ⟨' ' :: (contribution line.content ++ more), ?_, by simp⟩
    rw [joinPieces, List.foldl_cons, ← joinPieces, joins, appendPiece, if_neg some_content]
    simp

theorem keyword_front {first : PhysicalLine} {more : List PhysicalLine} {keyword : String}
    {tokens : List Token} (some_content : contribution first.content ≠ [])
    (scanned : Token.scan (joinPieces (contribution first.content) more) =
      .ok (.word keyword :: tokens)) :
    ∃ rest, trimStart first.content = keyword.toList ++ rest := by
  obtain ⟨added, joins, spaced⟩ := joinPieces_append some_content more
  obtain ⟨rest, front⟩ := contribution_front some_content
  obtain ⟨c, content, starts⟩ := List.exists_cons_of_ne_nil some_content
  have visible : isBlank c = false := by
    rw [starts] at front
    exact trimStart_visible front
  have word := Token.scanFrom_word scanned
  have untrimmed : trimStart (c :: content ++ added) = c :: content ++ added := by
    rw [List.cons_append, trimStart, List.dropWhile_cons_of_neg (by simp [visible])]
  rw [joins, starts, untrimmed] at word
  have inside : (c :: content).takeWhile Token.isWordPart = keyword.toList := by
    rw [← word]
    cases added with
    | nil => rw [List.append_nil]
    | cons space added =>
      obtain rfl := spaced space rfl
      exact (takeWhile_append_stop (by decide +kernel) _ _).symm
  refine ⟨(c :: content).dropWhile Token.isWordPart ++ rest, ?_⟩
  rw [front, starts, ← List.append_assoc, ← inside, List.takeWhile_append_dropWhile]

theorem flatten_first {start : Nat} {pieces : List (List Char)} {first : PhysicalLine}
    {after : List PhysicalLine} (lined : Lined pieces)
    (lines : linesFrom start pieces = first :: after) :
    ∃ ending next more, pieces.flatten =
        first.content.takeWhile isBlank ++ (trimStart first.content ++ ending ++ more.flatten) ∧
      '\n' ∉ first.content ∧ Lined more ∧ linesFrom next more = after ∧
      (∀ c ∈ ending, isBlank c = true) ∧ (more ≠ [] → ending.count '\n' = 1) := by
  obtain ⟨piece, more, rfl, same, later⟩ := linesFrom_cons lines
  obtain ⟨ending, whole, blank, plain⟩ := lineContent_append (lined.plain piece (by simp))
  have content : first.content = lineContent piece := by rw [same]
  rw [← content] at whole plain
  refine ⟨ending, _, more, ?_, plain, @Lined.after [piece] more lined, later, blank, ?_⟩
  · rw [List.flatten_cons, ← List.append_assoc, ← List.append_assoc, takeWhile_trimStart, ← whole]
  · intro some_more
    have feeds : piece.count '\n' = 1 := by
      obtain ⟨inner, last⟩ := @Lined.before [piece] more lined some_more piece (by simp)
      exact count_feed inner last
    rwa [whole, List.count_append, List.count_eq_zero_of_not_mem plain, Nat.zero_add] at feeds

variable {start : Nat} {pieces : List (List Char)} {first : PhysicalLine}
  {more after : List PhysicalLine} {keyword : String} {tokens : List Token}

theorem leadsTo_here (lined : Lined pieces) (lines : linesFrom start pieces = first :: after)
    (some_content : contribution first.content ≠ [])
    (scanned : Token.scan (joinPieces (contribution first.content) more) =
      .ok (.word keyword :: tokens)) :
    ∃ rest, pieces.flatten = first.content.takeWhile isBlank ++ rest ∧
      LeadsTo keyword.toList rest := by
  obtain ⟨ending, -, others, text, -⟩ := flatten_first lined lines
  obtain ⟨rest, front⟩ := keyword_front some_content scanned
  rw [front, List.append_assoc, List.append_assoc] at text
  exact ⟨_, text, .here⟩

theorem leadsTo_run (lined : Lined pieces)
    (lines : linesFrom start pieces = first :: (more ++ after))
    (goesOn : ∀ line ∈ (first :: more).dropLast, continues line.content = true)
    (scanned : Token.scan (joinPieces (contribution first.content) more) =
      .ok (.word keyword :: tokens)) :
    ∃ rest, pieces.flatten = first.content.takeWhile isBlank ++ rest ∧
      LeadsTo keyword.toList rest := by
  -- The induction is on the lines after the first, which is left behind if it adds nothing.
  induction more generalizing start pieces first with
  | nil =>
    refine leadsTo_here lined lines (fun nothing => ?_) scanned
    rw [joinPieces, List.foldl_nil, nothing, Token.scan, Token.scanFrom] at scanned
    cases scanned
  | cons second more ih =>
    by_cases nothing : contribution first.content = []
    · obtain ⟨ending, next, others, text, plain, inner, later, blank, feed⟩ :=
        flatten_first lined lines
      obtain ⟨gap, bare, spaces⟩ := trimStart_bare (goesOn first (by simp)) nothing
      rw [nothing] at scanned
      obtain ⟨rest, front, leads⟩ :=
        ih inner later (fun line member => goesOn line (by simp [member])) scanned
      have some_line : others ≠ [] := by
        rintro rfl
        cases later
      have none_before : '\n' ∉ gap := by
        intro member
        have inside : '\n' ∈ trimStart first.content := bare ▸ List.mem_cons_of_mem _ member
        exact plain ((List.dropWhile_suffix isBlank).mem inside)
      have none_after : '\n' ∉ second.content.takeWhile isBlank := by
        obtain ⟨-, -, -, -, unbroken, -⟩ := flatten_first inner later
        exact fun member => unbroken ((List.takeWhile_prefix isBlank).mem member)
      rw [bare, front] at text
      refine ⟨'\\' :: (gap ++ ending ++ second.content.takeWhile isBlank ++ rest), ?_, ?_⟩
      · simpa using text
      · refine .continued ?_ ?_ leads
        · simp only [List.mem_append]
          rintro c ((before | between) | after)
          · exact spaces c before
          · exact blank c between
          · exact List.mem_takeWhile_imp after
        · rw [List.count_append, List.count_append, feed some_line,
            List.count_eq_zero_of_not_mem none_before, List.count_eq_zero_of_not_mem none_after]
    · exact leadsTo_here lined lines nothing scanned

/-- The byte of the first character on a line, counted from one, that is no blank; the line before it
does not go on in this one. -/
def BeginsAt (text : List Char) (line offset : Nat) : Prop :=
  (∃ earlier blanks after, text = earlier ++ blanks ++ after ∧
      byteLength (earlier ++ blanks) = offset ∧
      (earlier = [] ∨ earlier.getLast? = some '\n') ∧ earlier.count '\n' + 1 = line ∧
      (∀ c ∈ blanks, isBlank c = true ∧ c ≠ '\n') ∧ ∃ c ∈ after.head?, isBlank c = false) ∧
    (1 < line → ∃ last, LineAt text (line - 2) last ∧ ¬ EndsOdd last)

theorem keyword_visible (statement : Statement) :
    statement.keyword.toList.head?.any (!isBlank ·) = true := by
  cases statement with
  | action simple =>
    cases simple <;> simp only [Statement.keyword, Action.keyword] <;> decide +kernel
  | opening block =>
    cases block <;> simp only [Statement.keyword, Opener.keyword] <;> decide +kernel
  | _ => decide +kernel

theorem LeadsTo.visible {statement : Statement} {text : List Char}
    (leads : LeadsTo statement.keyword.toList text) : ∃ c ∈ text.head?, isBlank c = false := by
  cases leads with
  | here =>
    have visible := keyword_visible statement
    cases word : statement.keyword.toList with
    | nil =>
      rw [word] at visible
      cases visible
    | cons c rest =>
      rw [word] at visible
      exact ⟨c, rfl, by simpa using visible⟩
  | continued => exact ⟨'\\', rfl, by decide⟩

theorem lineAt_before {text : List Char} {before after : List PhysicalLine}
    (split : physicalLines text = before ++ after) (some_line : after ≠ [])
    (stops : ∀ last ∈ before.getLast?, continues last.content = false)
    (later : 0 < before.length) :
    ∃ last, LineAt text (before.length - 1) last ∧ ¬ EndsOdd last := by
  obtain ⟨last, found⟩ : ∃ last, before.getLast? = some last :=
    ⟨_, List.getLast?_eq_some_getLast (List.ne_nil_of_length_pos later)⟩
  have more := List.length_pos_iff.mpr some_line
  have here : (physicalLines text)[before.length - 1]? = some last := by
    rw [split, List.getElem?_append_left (by omega), ← List.getLast?_eq_getElem?, found]
  refine ⟨last.content, physicalLines_lineAt here ?_, ?_⟩
  · rw [← length_physicalLines, split, List.length_append]
    omega
  · rw [← continues_iff, stops last found]
    exact Bool.false_ne_true

/-- A statement begins on its first line, and from there the text leads to its keyword. -/
theorem line_begins {text : List Char} {line : LogicalLine} {statement : Statement}
    (member : line ∈ logicalLines text) (stated : line.States statement) :
    BeginsAt text line.place.line line.offset ∧ LeadsFrom text line.offset statement.keyword := by
  obtain ⟨-, tokens, scanned, written⟩ := stated
  obtain ⟨others, rfl⟩ := written.keyword
  obtain ⟨before, first, more, after, split, rfl, goesOn, stops⟩ :=
    (logicalLines_joins text).of_mem member
  obtain ⟨left, piece, right, pieces, count, same, later⟩ := physicalLines_split split
  have lines : linesFrom (byteLength left.flatten) (piece :: right) = first :: (more ++ after) := by
    rw [linesFrom, same, later]
  have lined := linePieces_lined text
  rw [pieces] at lined
  have whole : ∀ piece ∈ left, '\n' ∉ piece.dropLast ∧ piece.getLast? = some '\n' :=
    fun _ inside => lined.before (List.cons_ne_nil piece right) inside
  obtain ⟨rest, front, leads⟩ := leadsTo_run lined.after lines goesOn scanned
  obtain ⟨-, -, -, -, plain, -⟩ := flatten_first lined.after lines
  have cut : text = left.flatten ++ first.content.takeWhile isBlank ++ rest := by
    rw [List.append_assoc, ← front, ← List.flatten_append, ← pieces, linePieces_flatten]
  have offset : byteLength (left.flatten ++ first.content.takeWhile isBlank) = startOffset first := by
    rw [byteLength_append, startOffset, same]
  refine ⟨⟨⟨left.flatten, _, rest, cut, offset, getLast?_flatten whole, ?_, ?_, leads.visible⟩, ?_⟩,
    _, rest, cut, offset, leads⟩
  · rw [count_flatten whole, count]
    exact congrArg (· + 1) (Nat.zero_add _).symm
  · intro c blank
    refine ⟨List.mem_takeWhile_imp blank, ?_⟩
    rintro rfl
    exact plain ((List.takeWhile_prefix isBlank).mem blank)
  · intro later
    change 1 < 0 + before.length + 1 at later
    have number : (joined (0 + before.length) first more).place.line - 2 = before.length - 1 := by
      change 0 + before.length + 1 - 2 = _
      omega
    rw [number]
    exact lineAt_before split (List.cons_ne_nil _ _) stops (by omega)

/-- Every statement that has a node, and every function, begins at its offset: at the first byte that is no
blank on its line, which no line before it goes on to. From there the text leads to the keyword: the keyword
begins there, or the first of the lines in front of it that hold only the backslash by which they go on. -/
theorem offsets_lead_to_keywords {text : List Char} {program : Program}
    (read : parse text = .ok program) :
    (∀ visit ∈ program.walk, BeginsAt text visit.place.line visit.place.offset ∧
        LeadsFrom text visit.place.offset visit.statement.keyword) ∧
      ∀ function ∈ program.functions, (∃ line, BeginsAt text line function.offset) ∧
        LeadsFrom text function.offset "func" := by
  constructor
  · intro visit member
    obtain ⟨line, inside, same, stated⟩ := visit_stated read member
    rw [← same]
    exact line_begins inside stated
  · intro function member
    obtain ⟨line, inside, same, stated⟩ := function_stated read member
    rw [← same]
    obtain ⟨begins, leads⟩ := line_begins inside stated
    exact ⟨⟨_, begins⟩, leads⟩

def delayed : List Char := "\\ \r\n\t\\\n  print \"é\"\nfunc f\n  return\nend\n".toList

theorem delayed_leads_to_keywords : ∃ program, parse delayed = .ok program ∧
    (∀ visit ∈ program.walk, BeginsAt delayed visit.place.line visit.place.offset ∧
      LeadsFrom delayed visit.place.offset visit.statement.keyword) ∧
    (∀ function ∈ program.functions, (∃ line, BeginsAt delayed line function.offset) ∧
      LeadsFrom delayed function.offset "func") ∧
    program.body.map (·.place.offset) = [0] ∧ program.functions.map (·.offset) = [20] := by
  have starts : ((parse delayed).toOption.map fun program =>
      (program.body.map (·.place.offset), program.functions.map (·.offset))) =
        some ([0], [20]) := by
    decide +kernel
  obtain ⟨program, read, seen⟩ := toOption_map_eq_some starts
  obtain ⟨body, functions⟩ := Prod.mk.inj seen
  obtain ⟨statements, openings⟩ := offsets_lead_to_keywords read
  exact ⟨program, read, statements, openings, body, functions⟩

/-- The offset of a statement under a line with nothing but a backslash is not its keyword's. -/
theorem bareLine_precedes_keyword :
    parse "\\\npoll\n".toList = .ok ⟨[.poll ⟨0, 1⟩], []⟩ ∧
      ¬ "poll".toList <+: "\\\npoll\n".toList := by
  have lines : logicalLines "\\\npoll\n".toList = [⟨"poll".toList, 0, 0, 1⟩] := by decide +kernel
  have polls : Draft.empty.addLine ⟨"poll".toList, 0, 0, 1⟩ = .ok ⟨[.poll ⟨0, 1⟩], [], []⟩ := by
    rw [addLine_of_tokens rfl scan_poll rfl]
    rfl
  refine ⟨?_, by decide⟩
  rw [parse, lines]
  simp only [Draft.addLines, polls]
  rfl

end Script

end Metronome
