import Metronome.Value.Depth
import Metronome.Value.Reading
import Metronome.Value.Writing

namespace Metronome.Json

open Metronome.Decimal (digitValue maxUnsigned)
open Metronome.Value (escapedChar hexDigit writeText writeItems writeFields)

theorem control_unescaped (n : Nat) (low : n < 32) :
    hexUnit? '0' '0' (hexDigit (n / 16)) (hexDigit (n % 16)) = some n ∧
      charOf? n = some (Char.ofNat n) := by
  revert n
  decide

theorem readText_escapedChar (c : Char) (held rest : List Char) :
    readText held (escapedChar c ++ rest) = readText (c :: held) rest := by
  unfold escapedChar
  split
  · rfl
  · rfl
  · rfl
  · rfl
  · rfl
  · rfl
  · rfl
  · rename_i quote escape _ _ _ _ _
    split
    · -- an escaped control character is no half of a pair
      rename_i low
      obtain ⟨unit, char⟩ := control_unescaped c.toNat low
      have single : (0xD800 ≤ c.toNat && c.toNat < 0xDC00) = false := by
        simp only [Bool.and_eq_false_iff, decide_eq_false_iff_not]
        omega
      simp only [List.cons_append, List.nil_append, readText, unit, single, char, Char.ofNat_toNat]
      rfl
    · rename_i high
      rw [List.singleton_append, readText, if_neg high]
      · exact quote
      · exact fun _ _ _ _ _ same _ => escape same
      · exact fun _ _ same _ => escape same

theorem readText_flatMap (text held rest : List Char) :
    readText held (text.flatMap escapedChar ++ '"' :: rest) =
      some (String.ofList (held.reverse ++ text), rest) := by
  induction text generalizing held with
  | nil =>
    rw [List.append_nil]
    rfl
  | cons c text ih =>
    rw [List.flatMap_cons, List.append_assoc, readText_escapedChar, ih, List.reverse_cons,
      List.append_assoc, List.singleton_append]

theorem toList_writeText (text : String) (rest : List Char) :
    (writeText text).toList ++ rest = '"' :: (text.toList.flatMap escapedChar ++ '"' :: rest) := by
  simp [writeText]

theorem readText_writeText (text : String) (rest : List Char) :
    readText [] (text.toList.flatMap escapedChar ++ '"' :: rest) = some (text, rest) := by
  rw [readText_flatMap, List.reverse_nil, List.nil_append, String.ofList_toList]

/-- What can follow a value in a list or in an object. -/
inductive Closed : List Char → Prop where
  | comma (rest : List Char) : Closed (',' :: rest)
  | bracket (rest : List Char) : Closed (']' :: rest)
  | brace (rest : List Char) : Closed ('\x7d' :: rest)

theorem le_ofDigitChars (digits : List Char) (n : Nat) : n ≤ Nat.ofDigitChars 10 digits n := by
  induction digits generalizing n with
  | nil => exact Nat.le_refl n
  | cons c digits ih =>
    rw [Nat.ofDigitChars_cons]
    have more := ih (10 * n + (c.toNat - '0'.toNat))
    omega

theorem readWhole_digits (negative : Bool) {digits rest : List Char} (closed : Closed rest)
    (n : Nat) (all : ∀ c ∈ digits, c.isDigit = true)
    (fits : Nat.ofDigitChars 10 digits n ≤ maxUnsigned) :
    readWhole negative n 0 (digits ++ rest) =
      some (wholeNumeral negative (Nat.ofDigitChars 10 digits n), rest) := by
  induction digits generalizing n with
  | nil => cases closed <;> rfl
  | cons c digits ih =>
    rw [Nat.ofDigitChars_cons] at fits ⊢
    have digit := all c List.mem_cons_self
    -- The number read so far only grows, so no digit is dropped on the way.
    have small : ¬10 * n + digitValue c > maxUnsigned := by
      have more := le_ofDigitChars digits (10 * n + (c.toNat - '0'.toNat))
      unfold digitValue
      omega
    rw [List.cons_append, readWhole, if_pos digit]
    simp only [Nat.lt_irrefl, decide_false, small, Bool.or_self, Bool.false_eq_true, if_false]
    exact ih _ (fun other member => all other (List.mem_cons_of_mem _ member)) fits

theorem toDigits_zero_head {n : Nat} {digits : List Char}
    (starts : Nat.toDigits 10 n = '0' :: digits) : digits = [] := by
  induction n using Nat.strongRecOn generalizing digits with
  | ind n ih =>
    by_cases small : n < 10
    · rw [Nat.toDigits_of_lt_base small] at starts
      exact (List.cons.inj starts).2.symm
    · rw [Nat.toDigits_of_base_le (by omega) (by omega)] at starts
      cases front : Nat.toDigits 10 (n / 10) with
      | nil => exact absurd front Nat.toDigits_ne_nil
      | cons c more =>
        rw [front, List.cons_append] at starts
        obtain ⟨rfl, -⟩ := List.cons.inj starts
        have value := Nat.ofDigitChars_ten_toDigits (n := n / 10)
        rw [front, ih (n / 10) (by omega) front] at value
        change 0 = n / 10 at value
        omega

theorem readNumeral_toDigits (negative : Bool) {n : Nat} {rest : List Char} (closed : Closed rest)
    (fits : n ≤ maxUnsigned) :
    readNumeral negative (Nat.toDigits 10 n ++ rest) = some (wholeNumeral negative n, rest) := by
  have value := Nat.ofDigitChars_ten_toDigits (n := n)
  have all : ∀ c ∈ Nat.toDigits 10 n, c.isDigit = true :=
    fun c member => Nat.isDigit_of_mem_toDigits (by decide) (by decide) member
  cases digits : Nat.toDigits 10 n with
  | nil => exact absurd digits Nat.toDigits_ne_nil
  | cons c more =>
    rw [digits] at value all
    by_cases zero : c = '0'
    · -- a leading zero stands by itself
      subst zero
      obtain rfl := toDigits_zero_head digits
      obtain rfl : 0 = n := value
      cases closed <;> rfl
    · have digit := all c List.mem_cons_self
      rw [Nat.ofDigitChars_cons, Nat.mul_zero, Nat.zero_add] at value
      have within : Nat.ofDigitChars 10 more (digitValue c) ≤ maxUnsigned :=
        Nat.le_trans (Nat.le_of_eq value) fits
      have reads := readWhole_digits negative closed (digitValue c)
        (fun other member => all other (List.mem_cons_of_mem _ member)) within
      unfold readNumeral
      simp only [List.cons_append, digit, zero, Bool.not_true, Bool.false_eq_true, if_false, reads]
      exact congrArg (fun n => some (wholeNumeral negative n, rest)) value

/-- Reading gives the value back, whatever follows it in a list or an object. -/
def ReadsBack (depth : Nat) (value : Value) : Prop :=
  ∀ rest, Closed rest → readValue depth (value.write.toList ++ rest) = some (value, rest)

/-- Whole numbers are read back where they fit 64 bits, with a sign or without one. What doubles are
read back is a matter of how they are rounded. -/
def LegibleNumeral : Numeral → Prop
  | .int n => Numeral.inSigned n = true ∨ Numeral.inUnsigned n = true
  | .float x => ∀ depth, ReadsBack depth (.number (.float x))

theorem readValue_quote (depth : Nat) (rest : List Char) :
    readValue depth ('"' :: rest) =
      (readText [] rest).map fun (held, rest) => (.text held, rest) := by
  unfold readValue
  rfl

theorem readValue_minus (depth : Nat) (rest : List Char) :
    readValue depth ('-' :: rest) =
      (readNumeral true rest).map fun (held, rest) => (.number held, rest) := by
  unfold readValue
  rfl

theorem readValue_bracket (depth : Nat) (rest : List Char) :
    readValue (depth + 1) ('[' :: rest) =
      (readList (readValue depth) rest).map fun (items, rest) => (.list items, rest) := by
  rw [readValue.eq_def]
  rfl

theorem readValue_brace (depth : Nat) (rest : List Char) :
    readValue (depth + 1) ('\x7b' :: rest) =
      (readObject (readValue depth) rest).map fun (fields, rest) => (.ofFields fields, rest) := by
  rw [readValue.eq_def]
  rfl

theorem readValue_digit (depth : Nat) {c : Char} (digit : c.isDigit = true) (rest : List Char) :
    readValue depth (c :: rest) =
      (readNumeral false (c :: rest)).map fun (held, rest) => (.number held, rest) := by
  unfold readValue
  split
  case h_8 => rfl
  all_goals
    rename_i same
    obtain ⟨rfl, -⟩ := List.cons.inj same
    exact absurd digit (by decide)

theorem readsBack_nat (depth n : Nat) (fits : n ≤ maxUnsigned) : ReadsBack depth (.ofNat n) := by
  intro rest closed
  have written : (Value.ofNat n).write.toList = Nat.toDigits 10 n := Nat.toList_repr
  have reads := readNumeral_toDigits false closed fits
  rw [written]
  cases digits : Nat.toDigits 10 n with
  | nil => exact absurd digits Nat.toDigits_ne_nil
  | cons c more =>
    have digit : c.isDigit = true :=
      Nat.isDigit_of_mem_toDigits (by decide) (by decide) (digits ▸ List.mem_cons_self)
    rw [digits, List.cons_append] at reads
    rw [List.cons_append, readValue_digit depth digit, reads]
    rfl

theorem readsBack_negative (depth n : Nat) (fits : n < Nat.pow 2 63) :
    ReadsBack depth (.ofInt (Int.negSucc n)) := by
  intro rest closed
  have written : (Value.ofInt (Int.negSucc n)).write.toList = '-' :: Nat.toDigits 10 (n + 1) := by
    change ("-" ++ (n + 1).repr).toList = _
    rw [String.toList_append, Nat.toList_repr]
    rfl
  have signed : wholeNumeral true (n + 1) = .int (Int.negSucc n) := by
    have small : ¬n + 1 > Nat.pow 2 63 := Nat.not_lt_of_le fits
    simp only [wholeNumeral, small, Bool.not_true, Bool.false_eq_true, if_false, Nat.succ_ne_zero,
      decide_false, Bool.or_self]
    rfl
  have within : n + 1 ≤ maxUnsigned := Nat.le_trans fits (by decide)
  rw [written, List.cons_append, readValue_minus, readNumeral_toDigits true closed within, signed]
  rfl

theorem readsBack_number {numeral : Numeral} (legible : LegibleNumeral numeral) (depth : Nat) :
    ReadsBack depth (.number numeral) := by
  cases numeral with
  | float x => exact legible depth
  | int n =>
    have wider : Nat.pow 2 63 ≤ Nat.pow 2 64 := by decide
    have within : -(Nat.pow 2 63 : Int) ≤ n ∧ n < Nat.pow 2 64 := by
      simp only [LegibleNumeral, Numeral.inSigned, Numeral.inUnsigned, Bool.and_eq_true,
        decide_eq_true_eq] at legible
      omega
    obtain ⟨low, high⟩ := within
    cases n with
    | ofNat n => exact readsBack_nat depth n (Nat.le_pred_of_lt (Int.ofNat_lt.mp high))
    | negSucc n => exact readsBack_negative depth n (by omega)

theorem readsBack_text (depth : Nat) (text : String) : ReadsBack depth (.text text) := by
  intro rest _
  rw [Value.write, toList_writeText, readValue_quote, readText_writeText]
  rfl

theorem readValue_none (depth : Nat) {c : Char} (rest : List Char)
    (other : c ∈ [' ', '\n', '\t', '\r', ',', ']', '\x7d']) :
    readValue depth (c :: rest) = none := by
  simp only [List.mem_cons, List.not_mem_nil, or_false] at other
  rcases other with rfl | rfl | rfl | rfl | rfl | rfl | rfl <;> unfold readValue <;> rfl

theorem skipBlanks_value {depth : Nat} {text : List Char} {r : Value × List Char}
    (reads : readValue depth text = some r) : skipBlanks text = text := by
  cases text with
  | nil => rfl
  | cons c rest =>
    apply List.dropWhile_cons_of_neg
    intro blank
    have other : c ∈ [' ', '\n', '\t', '\r', ',', ']', '\x7d'] := by
      simp only [isJsonBlank, Bool.or_eq_true, beq_iff_eq] at blank
      rcases blank with ((rfl | rfl) | rfl) | rfl <;> decide
    rw [readValue_none depth rest other] at reads
    cases reads

theorem skipBlanks_closed {rest : List Char} (closed : Closed rest) : skipBlanks rest = rest := by
  cases closed <;> rfl

theorem toList_writeItems (item next : Value) (items : List Value) :
    (writeItems (item :: next :: items)).toList =
      item.write.toList ++ ',' :: (writeItems (next :: items)).toList := by
  rw [writeItems, String.toList_append, String.toList_append, List.append_assoc]
  · rfl
  · exact nofun

theorem length_le_writeItems (items : List Value) :
    items.length ≤ (writeItems items).toList.length + 1 := by
  induction items with
  | nil => exact Nat.zero_le _
  | cons item items ih =>
    cases items with
    | nil => exact Nat.le_add_left _ _
    | cons next items =>
      simp only [toList_writeItems, List.length_append, List.length_cons] at ih ⊢
      omega

theorem readItems_last {depth : Nat} {item : Value} (readable : ReadsBack depth item) (fuel : Nat)
    (rest : List Char) :
    readItems (readValue depth) (fuel + 1) (item.write.toList ++ ']' :: rest) =
      some ([item], rest) := by
  have reads := readable _ (.bracket rest)
  unfold readItems
  rw [skipBlanks_value reads, reads]
  rfl

theorem readItems_more {depth fuel : Nat} {item : Value} (readable : ReadsBack depth item)
    {text rest : List Char} {items : List Value}
    (more : readItems (readValue depth) fuel text = some (items, rest)) :
    readItems (readValue depth) (fuel + 1) (item.write.toList ++ ',' :: text) =
      some (item :: items, rest) := by
  have reads := readable _ (.comma text)
  unfold readItems
  rw [skipBlanks_value reads, reads]
  simp only [Option.bind_eq_bind, Option.bind_some, skipBlanks_closed (.comma _), more]

theorem readItems_writeItems {depth : Nat} {item : Value} {items : List Value}
    (readable : ∀ other ∈ item :: items, ReadsBack depth other) {fuel : Nat}
    (enough : items.length < fuel) (rest : List Char) :
    readItems (readValue depth) fuel ((writeItems (item :: items)).toList ++ ']' :: rest) =
      some (item :: items, rest) := by
  obtain ⟨fuel, rfl⟩ := Nat.exists_eq_add_one_of_ne_zero (Nat.ne_zero_of_lt enough)
  induction items generalizing item fuel with
  | nil => exact readItems_last (readable item List.mem_cons_self) fuel rest
  | cons next items ih =>
    have fewer : items.length < fuel := Nat.lt_of_succ_lt_succ enough
    obtain ⟨fuel, rfl⟩ := Nat.exists_eq_add_one_of_ne_zero (Nat.ne_zero_of_lt fewer)
    rw [toList_writeItems, List.append_assoc, List.cons_append]
    exact readItems_more (readable item List.mem_cons_self)
      (ih (fun other member => readable other (List.mem_cons_of_mem _ member)) fuel fewer)

theorem toList_writeField (name : String) (value : Value) (rest : List Char) :
    (writeFields [(name, value)]).toList ++ rest =
      '"' :: (name.toList.flatMap escapedChar ++ '"' :: ':' :: (value.write.toList ++ rest)) := by
  rw [writeFields, String.toList_append, String.toList_append, List.append_assoc, List.append_assoc,
    toList_writeText]
  rfl

theorem toList_writeFields (name : String) (value : Value) (next : String × Value)
    (fields : List (String × Value)) (rest : List Char) :
    (writeFields ((name, value) :: next :: fields)).toList ++ rest =
      (writeFields [(name, value)]).toList ++
        ',' :: ((writeFields (next :: fields)).toList ++ rest) := by
  rw [writeFields, writeFields]
  · simp only [String.toList_append, List.append_assoc]
    rfl
  · exact nofun

theorem length_le_writeFields (fields : List (String × Value)) :
    fields.length ≤ (writeFields fields).toList.length + 1 := by
  induction fields with
  | nil => exact Nat.zero_le _
  | cons field fields ih =>
    cases fields with
    | nil => exact Nat.le_add_left _ _
    | cons next fields =>
      have written := congrArg List.length (toList_writeFields field.1 field.2 next fields [])
      simp only [List.append_nil, List.length_append, List.length_cons] at ih written ⊢
      rw [written]
      omega

theorem skipBlanks_cons {c : Char} (solid : isJsonBlank c = false) (text : List Char) :
    skipBlanks (c :: text) = c :: text :=
  List.dropWhile_cons_of_neg (ne_true_of_eq_false solid)

theorem readFields_last {depth : Nat} {name : String} {value : Value}
    (readable : ReadsBack depth value) (fuel : Nat) (rest : List Char) :
    readFields (readValue depth) (fuel + 1)
        ((writeFields [(name, value)]).toList ++ '\x7d' :: rest) =
      some ([(name, value)], rest) := by
  have reads := readable _ (.brace rest)
  unfold readFields
  rw [toList_writeField]
  simp (disch := decide) only [skipBlanks_cons, readText_writeText, Option.bind_eq_bind,
    Option.bind_some, skipBlanks_value reads, reads]

theorem readFields_more {depth fuel : Nat} {name : String} {value : Value}
    (readable : ReadsBack depth value) {text rest : List Char} {fields : List (String × Value)}
    (more : readFields (readValue depth) fuel text = some (fields, rest)) :
    readFields (readValue depth) (fuel + 1) ((writeFields [(name, value)]).toList ++ ',' :: text) =
      some ((name, value) :: fields, rest) := by
  have reads := readable _ (.comma text)
  unfold readFields
  rw [toList_writeField]
  simp (disch := decide) only [skipBlanks_cons, readText_writeText, Option.bind_eq_bind,
    Option.bind_some, skipBlanks_value reads, reads, more]

theorem readFields_writeFields {depth : Nat} {field : String × Value}
    {fields : List (String × Value)} (readable : ∀ other ∈ field :: fields, ReadsBack depth other.2)
    {fuel : Nat} (enough : fields.length < fuel) (rest : List Char) :
    readFields (readValue depth) fuel ((writeFields (field :: fields)).toList ++ '\x7d' :: rest) =
      some (field :: fields, rest) := by
  obtain ⟨fuel, rfl⟩ := Nat.exists_eq_add_one_of_ne_zero (Nat.ne_zero_of_lt enough)
  induction fields generalizing field fuel with
  | nil => exact readFields_last (readable field List.mem_cons_self) fuel rest
  | cons next fields ih =>
    have fewer : fields.length < fuel := Nat.lt_of_succ_lt_succ enough
    obtain ⟨fuel, rfl⟩ := Nat.exists_eq_add_one_of_ne_zero (Nat.ne_zero_of_lt fewer)
    rw [toList_writeFields]
    exact readFields_more (readable field List.mem_cons_self)
      (ih (fun other member => readable other (List.mem_cons_of_mem _ member)) fuel fewer)

theorem writeItems_starts (item : Value) (items : List Value) (rest : List Char) :
    ∃ tail, Closed tail ∧
      (writeItems (item :: items)).toList ++ ']' :: rest = item.write.toList ++ tail := by
  cases items with
  | nil => exact ⟨']' :: rest, .bracket rest, rfl⟩
  | cons next items =>
    refine ⟨',' :: ((writeItems (next :: items)).toList ++ ']' :: rest), .comma _, ?_⟩
    rw [toList_writeItems, List.append_assoc, List.cons_append]

theorem readList_writeItems {depth : Nat} {items : List Value}
    (readable : ∀ item ∈ items, ReadsBack depth item) (rest : List Char) :
    readList (readValue depth) ((writeItems items).toList ++ ']' :: rest) = some (items, rest) := by
  cases items with
  | nil => rfl
  | cons item items =>
    obtain ⟨tail, closed, starts⟩ := writeItems_starts item items rest
    have first := readable item List.mem_cons_self tail closed
    have enough : items.length < ((writeItems (item :: items)).toList ++ ']' :: rest).length := by
      have written := length_le_writeItems (item :: items)
      rw [List.length_cons] at written
      rw [List.length_append, List.length_cons]
      omega
    have reads := readItems_writeItems readable enough rest
    rw [← starts] at first
    unfold readList
    rw [skipBlanks_value first]
    split
    · -- an item does not start with the bracket of an empty list
      rename_i same
      rw [same, readValue_none depth _ (by decide)] at first
      cases first
    · exact reads

theorem writeFields_starts (field : String × Value) (fields : List (String × Value))
    (rest : List Char) :
    ∃ more, (writeFields (field :: fields)).toList ++ rest = '"' :: more := by
  obtain ⟨name, value⟩ := field
  cases fields with
  | nil => exact ⟨_, toList_writeField name value rest⟩
  | cons next fields =>
    rw [toList_writeFields, toList_writeField]
    exact ⟨_, rfl⟩

theorem readObject_writeFields {depth : Nat} {fields : List (String × Value)}
    (readable : ∀ field ∈ fields, ReadsBack depth field.2) (rest : List Char) :
    readObject (readValue depth) ((writeFields fields).toList ++ '\x7d' :: rest) =
      some (fields, rest) := by
  cases fields with
  | nil => rfl
  | cons field fields =>
    obtain ⟨more, starts⟩ := writeFields_starts field fields ('\x7d' :: rest)
    have enough : fields.length <
        ((writeFields (field :: fields)).toList ++ '\x7d' :: rest).length := by
      have written := length_le_writeFields (field :: fields)
      rw [List.length_cons] at written
      rw [List.length_append, List.length_cons]
      omega
    have reads := readFields_writeFields readable enough rest
    unfold readObject
    rw [starts] at reads ⊢
    rw [skipBlanks_cons rfl]
    exact reads

def Ordered (fields : List (String × Value)) : Prop :=
  fields.Pairwise fun field later => field.1 < later.1

theorem insertField_last {name : String} {value : Value} {fields : List (String × Value)}
    (earlier : ∀ field ∈ fields, field.1 < name) :
    Value.insertField name value fields = fields ++ [(name, value)] := by
  induction fields with
  | nil => rfl
  | cons field fields ih =>
    have before := earlier field List.mem_cons_self
    have other : name ≠ field.1 := by
      intro same
      rw [same] at before
      exact String.lt_irrefl _ before
    rw [Value.insertField, if_neg other, if_neg (String.lt_asymm before),
      ih fun later member => earlier later (List.mem_cons_of_mem _ member)]
    rfl

theorem ofFields_ordered {fields : List (String × Value)} (ordered : Ordered fields) :
    Value.ofFields fields = .object fields := by
  have inserts : ∀ later held : List (String × Value), Ordered (held ++ later) →
      later.foldl (fun held field => Value.insertField field.1 field.2 held) held =
        held ++ later := by
    intro later
    induction later with
    | nil => exact fun held _ => (List.append_nil held).symm
    | cons field later ih =>
      intro held sorted
      have earlier : ∀ other ∈ held, other.1 < field.1 := fun other member =>
        (List.pairwise_append.mp sorted).2.2 other member field List.mem_cons_self
      rw [List.append_cons] at sorted ⊢
      rw [List.foldl_cons, insertField_last earlier, ih _ sorted]
  exact congrArg Value.object (inserts fields [] ordered)

mutual

/-- A value that its own text stands for: its numbers can be read back, and its objects have their
fields in order. -/
def Legible : Value → Prop
  | .number numeral => LegibleNumeral numeral
  | .list items => LegibleItems items
  | .object fields => Ordered fields ∧ LegibleFields fields
  | .null | .bool _ | .text _ => True

def LegibleItems : List Value → Prop
  | [] => True
  | item :: items => Legible item ∧ LegibleItems items

def LegibleFields : List (String × Value) → Prop
  | [] => True
  | (_, value) :: fields => Legible value ∧ LegibleFields fields

end

theorem readsBack_list {depth : Nat} {items : List Value}
    (readable : ∀ item ∈ items, ReadsBack depth item) : ReadsBack (depth + 1) (.list items) := by
  intro rest _
  have written : (Value.list items).write.toList ++ rest =
      '[' :: ((writeItems items).toList ++ ']' :: rest) := by
    rw [Value.write, String.toList_append, String.toList_append, List.append_assoc,
      List.append_assoc]
    rfl
  rw [written, readValue_bracket, readList_writeItems readable]
  rfl

theorem readsBack_object {depth : Nat} {fields : List (String × Value)} (ordered : Ordered fields)
    (readable : ∀ field ∈ fields, ReadsBack depth field.2) :
    ReadsBack (depth + 1) (.object fields) := by
  intro rest _
  have written : (Value.object fields).write.toList ++ rest =
      '\x7b' :: ((writeFields fields).toList ++ '\x7d' :: rest) := by
    rw [Value.write, String.toList_append, String.toList_append, List.append_assoc,
      List.append_assoc]
    rfl
  rw [written, readValue_brace, readObject_writeFields readable]
  exact congrArg (fun value => some (value, rest)) (ofFields_ordered ordered)

mutual

/-- A legible value that is not nested too deeply is read back. -/
theorem readsBack : ∀ (value : Value), Legible value → ∀ {depth : Nat}, value.depth ≤ depth →
    ReadsBack depth value
  | .null, _, _, _ => by
    intro rest _
    unfold readValue
    rfl
  | .bool value, _, _, _ => by
    intro rest _
    cases value <;> (unfold readValue; rfl)
  | .number _, legible, depth, _ => readsBack_number legible depth
  | .text text, _, depth, _ => readsBack_text depth text
  | .list items, legible, depth + 1, shallow =>
    readsBack_list (readsBack_items items legible (Nat.le_of_succ_le_succ shallow))
  | .object fields, legible, depth + 1, shallow =>
    readsBack_object legible.1 (readsBack_fields fields legible.2 (Nat.le_of_succ_le_succ shallow))

theorem readsBack_items : ∀ (items : List Value), LegibleItems items → ∀ {depth : Nat},
    Value.depthItems items ≤ depth → ∀ item ∈ items, ReadsBack depth item
  | [], _, _, _ => nofun
  | item :: items, legible, _, shallow => by
    obtain ⟨first, others⟩ := Nat.max_le.mp shallow
    intro other member
    rcases List.mem_cons.mp member with same | member
    · rw [same]
      exact readsBack item legible.1 first
    · exact readsBack_items items legible.2 others other member

theorem readsBack_fields : ∀ (fields : List (String × Value)), LegibleFields fields →
    ∀ {depth : Nat}, Value.depthFields fields ≤ depth → ∀ field ∈ fields, ReadsBack depth field.2
  | [], _, _, _ => nofun
  | (name, value) :: fields, legible, _, shallow => by
    obtain ⟨first, others⟩ := Nat.max_le.mp shallow
    intro other member
    rcases List.mem_cons.mp member with same | member
    · rw [same]
      exact readsBack value legible.1 first
    · exact readsBack_fields fields legible.2 others other member

end

end Metronome.Json
