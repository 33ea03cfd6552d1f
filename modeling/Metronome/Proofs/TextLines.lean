import Metronome.Proofs.LineNumbers

namespace Metronome

open Metronome.Text

namespace Text

theorem dropEndWhile_append (drop : Char → Bool) (text : List Char) :
    ∃ dropped, text = dropEndWhile drop text ++ dropped ∧ ∀ c ∈ dropped, drop c = true := by
  refine ⟨(text.reverse.takeWhile drop).reverse, ?_, ?_⟩
  · rw [dropEndWhile, ← List.reverse_append, List.takeWhile_append_dropWhile, List.reverse_reverse]
  · exact fun c member => List.mem_takeWhile_imp (List.mem_reverse.mp member)

theorem dropFinal_front (c : Char) (text : List Char) : dropFinal c text <+: text := by
  unfold dropFinal
  split
  · exact List.dropLast_prefix text
  · exact List.prefix_refl text

theorem takeWhile_trimStart (text : List Char) : text.takeWhile isBlank ++ trimStart text = text :=
  List.takeWhile_append_dropWhile

theorem trimStart_append {left : List Char} (visible : trimStart left ≠ []) (right : List Char) :
    trimStart (left ++ right) = trimStart left ++ right := by
  have kept : (left.dropWhile isBlank).isEmpty = false := by
    rw [List.isEmpty_eq_false_iff]
    exact visible
  rw [trimStart, List.dropWhile_append, kept]
  rfl

theorem trimStart_visible {text rest : List Char} {c : Char} (starts : trimStart text = c :: rest) :
    isBlank c = false := by
  have first := List.head?_dropWhile_not isBlank text
  rw [← trimStart, starts] at first
  exact first

theorem lineContent_append {piece : List Char} (plain : '\n' ∉ piece.dropLast) :
    ∃ ending, piece = lineContent piece ++ ending ∧ (∀ c ∈ ending, isBlank c = true) ∧
      '\n' ∉ lineContent piece := by
  have unreturned : ∀ text : List Char, ∃ ending, text = dropFinal '\r' text ++ ending ∧
      ∀ c ∈ ending, isBlank c = true := by
    intro text
    unfold dropFinal
    split
    · rename_i last
      obtain ⟨body, rfl⟩ := List.getLast?_eq_some_iff.mp last
      exact ⟨['\r'], by simp, List.forall_mem_singleton.mpr (by decide)⟩
    · exact ⟨[], by simp, by simp⟩
  by_cases last : piece.getLast? = some '\n'
  · obtain ⟨body, rfl⟩ := List.getLast?_eq_some_iff.mp last
    rw [List.dropLast_concat] at plain
    rw [lineContent, dropFinal_append]
    obtain ⟨ending, same, blank⟩ := unreturned body
    refine ⟨ending ++ ['\n'], ?_, ?_, ?_⟩
    · rw [← List.append_assoc, ← same]
    · intro c member
      rcases List.mem_append.mp member with before | feed
      · exact blank c before
      · rw [List.mem_singleton.mp feed]
        decide
    · exact fun member => plain ((dropFinal_front _ _).mem member)
  · have kept : dropFinal '\n' piece = piece := if_neg last
    rw [lineContent, kept]
    obtain ⟨ending, same, blank⟩ := unreturned piece
    refine ⟨ending, same, blank, fun member => ?_⟩
    have inside := (dropFinal_front _ _).mem member
    rcases List.eq_nil_or_concat piece with rfl | ⟨body, c, rfl⟩
    · cases inside
    · simp only [List.concat_eq_append, List.dropLast_concat, List.mem_append,
        List.mem_singleton] at plain inside
      rcases inside with before | rfl
      · exact plain before
      · exact last (by simp)

theorem count_feed {piece : List Char} (plain : '\n' ∉ piece.dropLast)
    (last : piece.getLast? = some '\n') : piece.count '\n' = 1 := by
  obtain ⟨body, rfl⟩ := List.getLast?_eq_some_iff.mp last
  rw [List.dropLast_concat] at plain
  rw [List.count_append, List.count_eq_zero_of_not_mem plain]
  rfl

def lineCount (text : List Char) : Nat :=
  text.count '\n' + if text = [] ∨ text.getLast? = some '\n' then 0 else 1

/-- A line of a text with its number, its end left out. -/
def LineAt (text : List Char) (p : Nat) (line : List Char) : Prop :=
  ∃ before ending after, text = before ++ line ++ ending ++ after ∧
    before.count '\n' = p ∧ (before = [] ∨ before.getLast? = some '\n') ∧ '\n' ∉ line ∧
    (ending = ['\r', '\n'] ∨ ending = ['\n'] ∧ line.getLast? ≠ some '\r')

theorem linePieces_eq_nil {text : List Char} (nothing : linePieces text = []) : text = [] := by
  have whole := linePieces_flatten text
  rw [nothing] at whole
  exact whole.symm

theorem lineCount_feed (text : List Char) : lineCount ('\n' :: text) = lineCount text + 1 := by
  cases text with
  | nil => rfl
  | cons c rest =>
    simp only [lineCount, List.count_cons_self, List.getLast?_cons_cons, reduceCtorEq, false_or]
    omega

theorem lineCount_plain {c : Char} (other : c ≠ '\n') {text : List Char} (more : text ≠ []) :
    lineCount (c :: text) = lineCount text := by
  obtain ⟨d, rest, rfl⟩ := List.exists_cons_of_ne_nil more
  simp [lineCount, List.count_cons, other]

theorem length_linePieces (text : List Char) : (linePieces text).length = lineCount text := by
  induction text with
  | nil => rfl
  | cons c rest ih =>
    by_cases feed : c = '\n'
    · rw [linePieces, if_pos feed, feed, lineCount_feed, List.length_cons, ih]
    · rw [linePieces, if_neg feed]
      cases pieces : linePieces rest with
      | nil =>
        rw [linePieces_eq_nil pieces]
        simp [lineCount, feed]
      | cons first more =>
        have some_text : rest ≠ [] := by
          rintro rfl
          cases pieces
        rw [lineCount_plain feed some_text, ← ih, pieces]
        rfl

theorem length_physicalLines (text : List Char) : (physicalLines text).length = lineCount text := by
  rw [physicalLines, length_linesFrom, length_linePieces]

theorem count_flatten {pieces : List (List Char)}
    (ended : ∀ piece ∈ pieces, '\n' ∉ piece.dropLast ∧ piece.getLast? = some '\n') :
    pieces.flatten.count '\n' = pieces.length := by
  induction pieces with
  | nil => rfl
  | cons piece pieces ih =>
    obtain ⟨⟨plain, last⟩, later⟩ := List.forall_mem_cons.mp ended
    rw [List.flatten_cons, List.count_append, count_feed plain last, ih later, List.length_cons,
      Nat.add_comm]

theorem getLast?_flatten {pieces : List (List Char)}
    (ended : ∀ piece ∈ pieces, '\n' ∉ piece.dropLast ∧ piece.getLast? = some '\n') :
    pieces.flatten = [] ∨ pieces.flatten.getLast? = some '\n' := by
  rcases List.eq_nil_or_concat pieces with rfl | ⟨before, piece, rfl⟩
  · exact .inl rfl
  · have last := (ended piece (by simp)).2
    refine .inr ?_
    rw [List.concat_eq_append, List.flatten_append, List.flatten_singleton, List.getLast?_append, last]
    rfl

theorem lineContent_feed_split (body : List Char) :
    ∃ ending, body ++ ['\n'] = lineContent (body ++ ['\n']) ++ ending ∧
      (ending = ['\r', '\n'] ∨
        ending = ['\n'] ∧ (lineContent (body ++ ['\n'])).getLast? ≠ some '\r') := by
  rw [lineContent, dropFinal_append]
  by_cases returned : body.getLast? = some '\r'
  · obtain ⟨front, rfl⟩ := List.getLast?_eq_some_iff.mp returned
    exact ⟨['\r', '\n'], by simp [dropFinal_append], .inl rfl⟩
  · rw [dropFinal, if_neg returned]
    exact ⟨['\n'], rfl, .inr ⟨rfl, returned⟩⟩

theorem Lined.lineAt {left right : List (List Char)} {piece : List Char}
    (lined : Lined (left ++ piece :: right)) (more : right ≠ []) :
    LineAt (left ++ piece :: right).flatten left.length (lineContent piece) := by
  have whole : ∀ piece ∈ left, '\n' ∉ piece.dropLast ∧ piece.getLast? = some '\n' :=
    fun _ member => lined.before (List.cons_ne_nil piece right) member
  obtain ⟨plain, last⟩ :=
    @Lined.before [piece] right lined.after more piece (List.mem_singleton_self piece)
  obtain ⟨body, rfl⟩ := List.getLast?_eq_some_iff.mp last
  obtain ⟨ending, same, ends⟩ := lineContent_feed_split body
  rw [List.dropLast_concat] at plain
  have kept : '\n' ∉ lineContent (body ++ ['\n']) := by
    rw [lineContent, dropFinal_append]
    exact fun member => plain ((dropFinal_front _ _).mem member)
  refine ⟨left.flatten, ending, right.flatten, ?_, count_flatten whole, getLast?_flatten whole,
    kept, ends⟩
  rw [List.flatten_append, List.flatten_cons, List.append_assoc left.flatten, ← same,
    List.append_assoc left.flatten]

theorem physicalLines_lineAt {text : List Char} {p : Nat} {line : PhysicalLine}
    (here : (physicalLines text)[p]? = some line) (more : p + 1 < lineCount text) :
    LineAt text p line.content := by
  rw [← length_physicalLines] at more
  obtain ⟨bound, found⟩ := List.getElem?_eq_some_iff.mp here
  have split : physicalLines text =
      (physicalLines text).take p ++ line :: (physicalLines text).drop (p + 1) := by
    rw [← found, List.getElem_cons_drop, List.take_append_drop]
  obtain ⟨left, piece, right, pieces, count, same, rest⟩ := physicalLines_split split
  have number : left.length = p := by
    rw [count, List.length_take]
    omega
  have some_right : right ≠ [] := by
    rintro rfl
    have short := congrArg List.length rest
    rw [List.length_drop] at short
    simp only [linesFrom, List.length_nil] at short
    omega
  have lined := linePieces_lined text
  rw [pieces] at lined
  have stands := lined.lineAt some_right
  rw [← pieces, linePieces_flatten, number] at stands
  rw [same]
  exact stands

end Text

namespace Script

/-- A line ends in an odd number of backslashes, spaces and tabs after them left out. -/
def EndsOdd (line : List Char) : Prop :=
  ∃ front count blanks, line = front ++ List.replicate count '\\' ++ blanks ∧
    front.getLast? ≠ some '\\' ∧ count % 2 = 1 ∧ ∀ c ∈ blanks, c = ' ' ∨ c = '\t'

theorem finalBackslashes_split (text : List Char) :
    ∃ front, text = front ++ List.replicate (finalBackslashes text) '\\' ∧
      front.getLast? ≠ some '\\' := by
  refine ⟨(text.reverse.dropWhile (· == '\\')).reverse, ?_, ?_⟩
  · have same : text.reverse.takeWhile (· == '\\') =
        List.replicate (finalBackslashes text) '\\' :=
      List.eq_replicate_of_mem fun c member => by simpa using List.mem_takeWhile_imp member
    rw [← List.reverse_replicate, ← same, ← List.reverse_append, List.takeWhile_append_dropWhile,
      List.reverse_reverse]
  · rw [List.getLast?_reverse]
    intro backslash
    have other := List.head?_dropWhile_not (· == '\\') text.reverse
    rw [backslash] at other
    cases other

theorem finalBackslashes_replicate {front : List Char} (other : front.getLast? ≠ some '\\')
    (count : Nat) : finalBackslashes (front ++ List.replicate count '\\') = count := by
  have stops : front.reverse.takeWhile (· == '\\') = [] := by
    rcases List.eq_nil_or_concat front with rfl | ⟨front, c, rfl⟩
    · rfl
    · rw [List.concat_eq_append, List.getLast?_concat, Ne, Option.some_inj] at other
      rw [List.concat_eq_append, List.reverse_concat, List.takeWhile_cons_of_neg (by simpa using other)]
  rw [finalBackslashes, List.reverse_append, List.reverse_replicate,
    List.takeWhile_append_of_pos (by simp), stops, List.append_nil, List.length_replicate]

theorem dropEndWhile_blanks {drop : Char → Bool} {front blanks : List Char} {c : Char}
    (kept : drop c = false) (dropped : ∀ d ∈ blanks, drop d = true) :
    dropEndWhile drop (front ++ [c] ++ blanks) = front ++ [c] := by
  rw [dropEndWhile, List.reverse_append,
    List.dropWhile_append_of_pos (fun d member => dropped d (List.mem_reverse.mp member)),
    List.reverse_concat, List.dropWhile_cons_of_neg (by simp [kept])]
  simp

theorem isLineBlank_iff {c : Char} : isLineBlank c = true ↔ c = ' ' ∨ c = '\t' := by
  simp [isLineBlank]

theorem continues_iff {line : List Char} : continues line = true ↔ EndsOdd line := by
  constructor
  · intro goesOn
    obtain ⟨blanks, same, spaces⟩ := dropEndWhile_append isLineBlank line
    obtain ⟨front, ends, other⟩ := finalBackslashes_split (dropEndWhile isLineBlank line)
    rw [ends] at same
    exact ⟨front, _, blanks, same, other, eq_of_beq goesOn,
      fun c member => isLineBlank_iff.mp (spaces c member)⟩
  · rintro ⟨front, count, blanks, rfl, other, odd, spaces⟩
    obtain ⟨less, rfl⟩ : ∃ less, count = less + 1 := ⟨count - 1, by omega⟩
    rw [continues, List.replicate_succ', ← List.append_assoc,
      dropEndWhile_blanks (by decide) fun c member => isLineBlank_iff.mpr (spaces c member),
      List.append_assoc, ← List.replicate_succ', finalBackslashes_replicate other, odd]
    rfl

end Script

end Metronome
