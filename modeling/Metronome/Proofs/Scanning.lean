import Metronome.Script.Token
import Mathlib.Data.List.Induction

namespace Metronome

namespace Text

def blankCodes : List Nat :=
  [9, 10, 11, 12, 13, 0x20, 0x85, 0xA0, 0x1680, 0x2000, 0x2001, 0x2002, 0x2003, 0x2004, 0x2005,
    0x2006, 0x2007, 0x2008, 0x2009, 0x200A, 0x2028, 0x2029, 0x202F, 0x205F, 0x3000]

theorem mem_blankCodes {c : Char} (blank : isBlank c = true) : c.toNat ∈ blankCodes := by
  simp only [isBlank, Bool.or_eq_true, Bool.and_eq_true, decide_eq_true_eq, beq_iff_eq] at blank
  simp only [blankCodes, List.mem_cons, List.not_mem_nil, or_false]
  omega

theorem inRanges_eq_false {table : Array (Nat × Nat)} {codePoint : Nat}
    (apart : ∀ range ∈ table.toList,
      (Nat.blt codePoint range.1 || Nat.blt range.2 codePoint) = true) :
    inRanges table codePoint = false := by
  rw [inRanges, Array.any_eq_false]
  intro index bound
  have beyond := apart table[index] (Array.getElem_mem_toList bound)
  simp only [Bool.or_eq_true, Nat.blt_eq] at beyond
  simp only [Bool.and_eq_true, decide_eq_true_eq]
  omega

theorem blankCodes_apart :
    ((letterRanges.toList ++ numberRanges.toList).all fun range =>
      blankCodes.all fun code => Nat.blt code range.1 || Nat.blt range.2 code) = true := by
  decide +kernel

theorem blankCodes_ascii :
    (blankCodes.all fun code =>
      !(Char.ofNat code).isAlpha && !(Char.ofNat code).isDigit &&
        ['_', '.', '=', '"'].all (Char.ofNat code != ·)) = true := by
  decide +kernel

theorem takeWhile_append_stop {keep : Char → Bool} {c : Char} (stop : keep c = false)
    (text more : List Char) : (text ++ c :: more).takeWhile keep = text.takeWhile keep := by
  induction text with
  | nil => simp [stop]
  | cons first rest ih => simp only [List.cons_append, List.takeWhile_cons, ih]

theorem dropWhile_append_stop {keep : Char → Bool} {c : Char} (stop : keep c = false)
    (text more : List Char) :
    (text ++ c :: more).dropWhile keep = text.dropWhile keep ++ c :: more := by
  induction text with
  | nil => simp [stop]
  | cons first rest ih =>
    simp only [List.cons_append, List.dropWhile_cons, ih]
    split <;> rfl

end Text

namespace Script.Token

open Metronome.Text

/-- No token but a text literal goes on over the character, and it ends none of them. -/
structure Separates (c : Char) : Prop where
  word : isWordPart c = false
  number : isNumberPart c = false
  digit : c.isDigit = false
  equals : c ≠ '='
  quote : c ≠ '"'

theorem separates_of_isBlank {c : Char} (blank : isBlank c = true) : Separates c := by
  have code := mem_blankCodes blank
  have apart : ∀ range ∈ letterRanges.toList ++ numberRanges.toList,
      (Nat.blt c.toNat range.1 || Nat.blt range.2 c.toNat) = true := fun range member =>
    List.all_eq_true.mp (List.all_eq_true.mp blankCodes_apart range member) c.toNat code
  have letter := inRanges_eq_false fun range member =>
    apart range (List.mem_append_left numberRanges.toList member)
  have number := inRanges_eq_false fun range member =>
    apart range (List.mem_append_right letterRanges.toList member)
  have ascii := List.all_eq_true.mp blankCodes_ascii c.toNat code
  simp only [Char.ofNat_toNat, Bool.and_eq_true, Bool.not_eq_true', List.all_cons, List.all_nil,
    bne_iff_ne, and_true] at ascii
  obtain ⟨⟨alpha, digit⟩, underscore, point, equals, quote⟩ := ascii
  refine ⟨?_, ?_, digit, equals, quote⟩
  · simp [isWordPart, isLetter, isNumber, alpha, digit, letter, number, underscore]
  · simp [isNumberPart, digit, point]

variable {afterOperand : Bool} {c blank : Char} {rest after more : List Char} {token : Token}
  {fault : TokenFault}

theorem startsNumber_append (separates : Separates blank) :
    startsNumber afterOperand c (rest ++ blank :: more) = startsNumber afterOperand c rest := by
  cases rest with
  | nil => simp [startsNumber, separates.digit]
  | cons first rest => rfl

theorem scanText_plain {held : List Char} (quote : c ≠ '"') (backslash : c ≠ '\\') :
    scanText held (c :: rest) = scanText (c :: held) rest := by
  rw [scanText]
  · exact quote
  · exact fun last _ => backslash last
  · exact fun _ _ last _ => backslash last

theorem ne_backslash (alone : c = '\\' → rest = [] → False)
    (escape : ∀ next after, c = '\\' → rest = next :: after → False) : c ≠ '\\' := by
  intro backslash
  cases rest with
  | nil => exact alone backslash rfl
  | cons next after => exact escape next after backslash rfl

theorem scanText_append {held text read after : List Char}
    (scanned : scanText held text = some (read, after)) (more : List Char) :
    scanText held (text ++ more) = some (read, after ++ more) := by
  fun_induction scanText held text with
  | case1 => cases scanned
  | case2 held rest =>
    cases scanned
    rfl
  | case3 => cases scanned
  | case4 held c rest ih => exact ih scanned
  | case5 held c rest quote alone escape ih =>
    rw [List.cons_append, scanText_plain quote (ne_backslash alone escape)]
    exact ih scanned

theorem scanOperator_append (separates : Separates blank) :
    scanOperator c (rest ++ blank :: more) =
      (scanOperator c rest).map fun read => (read.1, read.2 ++ blank :: more) := by
  have other := separates.equals
  cases rest with
  | nil | cons first rest =>
    unfold scanOperator
    split <;> simp_all [Except.map]

theorem scanOne_append (separates : Separates blank)
    (scanned : scanOne afterOperand c rest = .ok (token, after)) :
    scanOne afterOperand c (rest ++ blank :: more) = .ok (token, after ++ blank :: more) := by
  unfold scanOne at scanned ⊢
  rw [startsNumber_append separates]
  split at scanned
  · rename_i number
    rw [if_pos number]
    dsimp only at scanned ⊢
    rw [takeWhile_append_stop separates.number, dropWhile_append_stop separates.number]
    split at scanned
    · cases scanned
      rfl
    · cases scanned
  · rename_i number
    rw [if_neg number]
    split at scanned
    · rename_i word
      cases scanned
      rw [if_pos word, takeWhile_append_stop separates.word, dropWhile_append_stop separates.word]
    · rename_i word
      rw [if_neg word]
      split at scanned
      · rename_i quote
        rw [if_pos quote]
        split at scanned
        · rename_i found
          cases scanned
          rw [scanText_append found]
        · cases scanned
      · rename_i quote
        rw [if_neg quote]
        rw [scanOperator_append separates, scanned]
        rfl

theorem scanText_none {held text : List Char} (open_end : scanText held text = none)
    (blank : c ≠ '"') : scanText held (text ++ [c]) = none := by
  fun_induction scanText held text with
  | case1 held =>
    by_cases backslash : c = '\\'
    · rw [backslash]
      rfl
    · rw [List.nil_append, scanText_plain blank backslash]
      rfl
  | case2 => cases open_end
  | case3 held =>
    rw [List.cons_append, List.nil_append, scanText, scanText]
  | case4 held first rest ih => exact ih open_end
  | case5 held first rest quote alone escape ih =>
    rw [List.cons_append, scanText_plain quote (ne_backslash alone escape)]
    exact ih open_end

theorem scanOne_error (separates : Separates blank)
    (failed : scanOne afterOperand c rest = .error fault) :
    scanOne afterOperand c (rest ++ [blank]) = .error fault := by
  unfold scanOne at failed ⊢
  rw [startsNumber_append separates]
  split at failed
  · rename_i number
    rw [if_pos number]
    dsimp only at failed ⊢
    rw [takeWhile_append_stop separates.number]
    split at failed
    · cases failed
    · exact failed
  · rename_i number
    rw [if_neg number]
    split at failed
    · cases failed
    · rename_i word
      rw [if_neg word]
      split at failed
      · rename_i opened
        rw [if_pos opened]
        split at failed
        · cases failed
        · rename_i unclosed
          rw [scanText_none unclosed separates.quote]
          exact failed
      · rename_i opened
        rw [if_neg opened]
        rw [scanOperator_append separates, failed]
        rfl

variable {left right text : List Char} {tokens : List Token}

theorem scanFrom_blank (space : isBlank c = true) :
    scanFrom afterOperand (c :: rest) = scanFrom false rest := by
  rw [scanFrom, if_pos space]

theorem scanFrom_visible (visible : isBlank c = false) :
    scanFrom afterOperand (c :: rest) =
      (scanOne afterOperand c rest).bind fun read =>
        (scanFrom read.1.isOperand read.2).map (read.1 :: ·) := by
  rw [scanFrom, if_neg (by simp [visible])]
  split
  · rename_i failed
    rw [failed]
    rfl
  · rename_i token after scanned
    rw [scanned]
    change _ = (scanFrom token.isOperand after).map (token :: ·)
    cases scanFrom token.isOperand after <;> rfl

theorem scanFrom_token (separates : Separates blank) (visible : isBlank c = false)
    (first : scanOne afterOperand c rest = .ok (token, after)) (more : List Char) :
    scanFrom afterOperand (c :: rest ++ blank :: more) =
      (scanFrom token.isOperand (after ++ blank :: more)).map (token :: ·) := by
  rw [List.cons_append, scanFrom_visible visible, scanOne_append separates first]
  rfl

/-- A text that can be scanned keeps its tokens in front of a blank, and what follows the blank is
scanned as if nothing stood before it. -/
theorem scanFrom_append (space : isBlank blank = true)
    (scanned : scanFrom afterOperand left = .ok tokens) :
    scanFrom afterOperand (left ++ blank :: right) = (scan right).map (tokens ++ ·) := by
  have separates := separates_of_isBlank space
  fun_induction scanFrom afterOperand left generalizing tokens with
  | case1 afterOperand =>
    cases scanned
    rw [List.nil_append, scanFrom_blank space]
    cases read : scanFrom false right <;> simp [scan, read, Except.map]
  | case2 afterOperand c rest skipped ih =>
    rw [List.cons_append, scanFrom_blank skipped]
    exact ih scanned
  | case3 => cases scanned
  | case4 => cases scanned
  | case5 afterOperand c rest visible token after first more later ih =>
    cases scanned
    rw [scanFrom_token separates (by simpa using visible) first, ih later]
    cases scan right <;> rfl

theorem scanFrom_append_blank (space : isBlank blank = true) :
    scanFrom afterOperand (text ++ [blank]) = scanFrom afterOperand text := by
  have separates := separates_of_isBlank space
  fun_induction scanFrom afterOperand text with
  | case1 afterOperand => rw [List.nil_append, scanFrom_blank space, scanFrom]
  | case2 afterOperand c rest skipped ih => rw [List.cons_append, scanFrom_blank skipped, ih]
  | case3 afterOperand c rest visible fault failed =>
    rw [List.cons_append, scanFrom_visible (by simpa using visible),
      scanOne_error separates failed]
    rfl
  | case4 afterOperand c rest visible token after first fault failed ih =>
    rw [scanFrom_token separates (by simpa using visible) first, ih, failed]
    rfl
  | case5 afterOperand c rest visible token after first more later ih =>
    rw [scanFrom_token separates (by simpa using visible) first, ih, later]
    rfl

theorem scanFrom_dropEndWhile (text : List Char) :
    scanFrom afterOperand (dropEndWhile isBlank text) = scanFrom afterOperand text := by
  induction text using List.reverseRecOn with
  | nil => rfl
  | append_singleton text c ih =>
    by_cases space : isBlank c = true
    · rw [scanFrom_append_blank space, ← ih]
      simp [dropEndWhile, space]
    · simp [dropEndWhile, space]

theorem scan_trim (text : List Char) : scan (trim text) = scan text := by
  rw [trim, scan, scanFrom_dropEndWhile]
  induction text with
  | nil => rfl
  | cons c rest ih =>
    by_cases space : isBlank c = true
    · rw [scan, scanFrom_blank space, trimStart, List.dropWhile_cons_of_pos space]
      exact ih
    · rw [trimStart, List.dropWhile_cons_of_neg space]
      rfl

end Script.Token

end Metronome
