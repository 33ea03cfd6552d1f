import Metronome.Proofs.LineNumbers

namespace Metronome

open Metronome.Text

theorem lt_of_mem_lineStarts {start next : Nat} {text : List Char}
    (member : next ∈ lineStartsFrom start text) : start < next := by
  cases text with
  | nil => cases member
  | cons c rest =>
    have beyond := le_of_mem_lineStarts member
    have positive := c.utf8Size_pos
    omega

theorem lineStartsFrom_ordered (start : Nat) (text : List Char) :
    (lineStartsFrom start text).Pairwise (· < ·) := by
  induction text generalizing start with
  | nil => exact .nil
  | cons c rest ih =>
    rw [lineStartsFrom]
    split
    · exact List.pairwise_cons.mpr ⟨fun next => lt_of_mem_lineStarts, ih _⟩
    · exact ih _

theorem lineStartsFrom_count (start : Nat) (text : List Char) :
    (lineStartsFrom start text).length = text.count '\n' := by
  induction text generalizing start with
  | nil => rfl
  | cons c rest ih =>
    by_cases feed : c = '\n'
    · rw [lineStartsFrom, if_pos feed, feed, List.count_cons_self, List.length_cons, ih]
    · rw [lineStartsFrom, if_neg feed, List.count_cons_of_ne feed, ih]

theorem le_of_mem_lineStartsFrom {start next : Nat} {text : List Char}
    (member : next ∈ lineStartsFrom start text) : next ≤ start + byteLength text := by
  induction text generalizing start with
  | nil => cases member
  | cons c rest ih =>
    rw [lineStartsFrom] at member
    rw [byteLength]
    split at member
    · rcases List.mem_cons.mp member with rfl | later
      · omega
      · have bound := ih later
        omega
    · have bound := ih member
      omega

theorem length_le_byteLength (text : List Char) : text.length ≤ byteLength text := by
  induction text with
  | nil => exact Nat.zero_le _
  | cons c rest ih =>
    have positive := c.utf8Size_pos
    rw [byteLength, List.length_cons]
    omega

theorem getElem_le_iff_lt_countP {starts : List Nat} (ordered : starts.Pairwise (· < ·)) {i : Nat}
    (inside : i < starts.length) (bound : Nat) :
    starts[i] ≤ bound ↔ i < starts.countP (· ≤ bound) := by
  induction starts generalizing i with
  | nil => cases inside
  | cons first starts ih =>
    obtain ⟨ahead, later⟩ := List.pairwise_cons.mp ordered
    by_cases reached : first ≤ bound
    · rw [List.countP_cons_of_pos (by simpa using reached)]
      cases i with
      | zero => exact iff_of_true reached (Nat.succ_pos _)
      | succ i => rw [List.getElem_cons_succ, ih later, Nat.add_lt_add_iff_right]
    · have none : (first :: starts).countP (· ≤ bound) = 0 := by
        rw [List.countP_eq_zero]
        intro next member le
        simp only [decide_eq_true_eq] at le
        rcases List.mem_cons.mp member with rfl | more
        · exact reached le
        · exact reached ((ahead next more).le.trans le)
      rw [none]
      refine iff_of_false (fun le => ?_) (Nat.not_lt_zero i)
      have least : first ≤ (first :: starts)[i] := by
        rcases List.mem_cons.mp (List.getElem_mem inside) with same | more
        · exact same.ge
        · exact (ahead _ more).le
      exact reached (least.trans le)

namespace LineMap

structure Ordered (map : LineMap) : Prop where
  ascending : map.starts.Pairwise (· < ·)
  first : map.starts.head? = some 0

theorem ordered_ofText (text : List Char) (start length : Nat) : (ofText text start length).Ordered :=
  ⟨List.pairwise_cons.mpr ⟨fun _ => lt_of_mem_lineStarts, lineStartsFrom_ordered 0 text⟩, rfl⟩

theorem absoluteLine_mono (map : LineMap) {offset later : Nat} (le : offset ≤ later) :
    map.absoluteLine offset ≤ map.absoluteLine later := by
  refine Nat.sub_le_sub_right (List.countP_mono_left fun start _ reached => ?_) 1
  simp only [decide_eq_true_eq] at reached ⊢
  exact reached.trans le

theorem absoluteLine_feeds (left right : List Char) (start length : Nat) :
    (ofText (left ++ right) start length).absoluteLine (byteLength left) = left.count '\n' := by
  have before : (lineStartsFrom 0 left).countP (· ≤ byteLength left) = left.count '\n' := by
    rw [← lineStartsFrom_count 0 left, List.countP_eq_length]
    intro next member
    have bound := le_of_mem_lineStartsFrom member
    simpa using bound
  have after : (lineStartsFrom (0 + byteLength left) right).countP (· ≤ byteLength left) = 0 := by
    rw [List.countP_eq_zero]
    intro next member reached
    have beyond := lt_of_mem_lineStarts member
    simp only [decide_eq_true_eq] at reached
    omega
  rw [absoluteLine_ofText, lineStartsFrom_append, List.countP_append, before, after, Nat.add_zero]

variable {map : LineMap} {offset line : Nat}

namespace Ordered

variable (ordered : map.Ordered)

include ordered

theorem countP_pos (offset : Nat) : 0 < map.starts.countP (· ≤ offset) := by
  rw [List.countP_pos_iff]
  exact ⟨0, List.mem_of_mem_head? ordered.first, by simp⟩

theorem absoluteLine_lt (offset : Nat) : map.absoluteLine offset < map.starts.length := by
  have some_line := ordered.countP_pos offset
  have bound : map.starts.countP (· ≤ offset) ≤ map.starts.length := List.countP_le_length
  unfold absoluteLine
  omega

theorem reaches_iff {i : Nat} (inside : i < map.starts.length) (offset : Nat) :
    map.starts[i] ≤ offset ↔ i ≤ map.absoluteLine offset := by
  have some_line := ordered.countP_pos offset
  rw [getElem_le_iff_lt_countP ordered.ascending inside, absoluteLine]
  omega

theorem absoluteLine_max {i : Nat} (inside : i < map.starts.length)
    (later : map.absoluteLine offset ≤ i) :
    map.absoluteLine (max map.starts[i] offset) = i := by
  have reached := (ordered.reaches_iff inside _).mp (Nat.le_max_left map.starts[i] offset)
  by_contra different
  have bound := ordered.absoluteLine_lt (max map.starts[i] offset)
  have next : i + 1 < map.starts.length := by omega
  have passed := (ordered.reaches_iff next (max map.starts[i] offset)).mpr (by omega)
  have ascends := List.pairwise_iff_getElem.mp ordered.ascending i (i + 1) inside next (by omega)
  have early := (ordered.reaches_iff next offset).mp (by omega)
  omega

end Ordered

def InRegion (map : LineMap) (offset : Nat) : Prop :=
  map.userStart ≤ offset ∧ offset < map.userStart + map.userLength

theorem userLine_outside (outside : ¬ map.InRegion offset) : map.userLine offset = none := by
  rw [userLine, if_pos]
  rw [InRegion] at outside
  simp only [Bool.or_eq_true, decide_eq_true_eq]
  omega

theorem userLine_inside (inside : map.InRegion offset) : map.userLine offset =
    some (map.absoluteLine offset - map.absoluteLine map.userStart + 1) := by
  rw [userLine, if_neg]
  obtain ⟨after, before⟩ := inside
  simp only [Bool.or_eq_true, decide_eq_true_eq]
  omega

theorem userLine_eq_some : map.userLine offset = some line ↔
    map.InRegion offset ∧ map.absoluteLine offset + 1 = map.absoluteLine map.userStart + line := by
  by_cases inside : map.InRegion offset
  · have later := map.absoluteLine_mono inside.1
    rw [userLine_inside inside, Option.some_inj, and_iff_right inside]
    omega
  · rw [userLine_outside inside]
    exact iff_of_false nofun fun found => inside found.1

theorem userLineStart_eq_some : map.userLineStart line = some offset ↔
    1 ≤ line ∧ ∃ start,
      map.starts[(map.absoluteLine map.userStart + (line - 1)) % UInt64.size]? = some start ∧
      max start map.userStart = offset ∧ offset < map.userStart + map.userLength := by
  unfold userLineStart
  by_cases zero : line = 0
  · rw [if_pos zero]
    exact iff_of_false nofun fun found => by omega
  · rw [if_neg zero, and_iff_right (Nat.one_le_iff_ne_zero.mpr zero)]
    cases map.starts[(map.absoluteLine map.userStart + (line - 1)) % UInt64.size]? with
    | none => simp
    | some start =>
      simp only [Option.ite_none_right_eq_some, Option.some_inj, exists_eq_left']
      constructor
      · rintro ⟨inside, rfl⟩
        exact ⟨rfl, inside⟩
      · rintro ⟨rfl, inside⟩
        exact ⟨inside, rfl⟩

/-- The sum of the lines before the region and those before a line leaves 64 bits. -/
def Overflows (map : LineMap) (line : Nat) : Prop :=
  UInt64.size ≤ map.absoluteLine map.userStart + (line - 1)

theorem userLineStart_of_fits (fits : ¬ map.Overflows line) : map.userLineStart line = some offset ↔
    1 ≤ line ∧ ∃ start, map.starts[map.absoluteLine map.userStart + (line - 1)]? = some start ∧
      max start map.userStart = offset ∧ offset < map.userStart + map.userLength := by
  rw [userLineStart_eq_some, Nat.mod_eq_of_lt (Nat.lt_of_not_le fits)]

theorem userLine_le_count (found : map.userLine offset = some line) :
    1 ≤ line ∧ line ≤ map.userLineCount := by
  obtain ⟨⟨after, before⟩, number⟩ := userLine_eq_some.mp found
  have later := map.absoluteLine_mono after
  have last : map.absoluteLine offset ≤
      map.absoluteLine (map.userStart + map.userLength - 1) := map.absoluteLine_mono (by omega)
  rw [userLineCount, if_neg (by omega)]
  omega

namespace Ordered

variable (ordered : map.Ordered)

include ordered

theorem first_byte {start : Nat} (positive : 1 ≤ line)
    (here : map.starts[map.absoluteLine map.userStart + (line - 1)]? = some start)
    (before : max start map.userStart < map.userStart + map.userLength) :
    map.userLine (max start map.userStart) = some line ∧
      ∀ other, map.userLine other = some line → max start map.userStart ≤ other := by
  obtain ⟨inside, rfl⟩ := List.getElem?_eq_some_iff.mp here
  constructor
  · have number := ordered.absoluteLine_max inside (Nat.le_add_right _ _)
    exact userLine_eq_some.mpr ⟨⟨Nat.le_max_right _ _, before⟩, by omega⟩
  · intro other same
    obtain ⟨⟨after, -⟩, number⟩ := userLine_eq_some.mp same
    exact Nat.max_le.mpr ⟨(ordered.reaches_iff inside other).mpr (by omega), after⟩

theorem exists_start (positive : 1 ≤ line) (bound : line ≤ map.userLineCount) :
    ∃ start, map.starts[map.absoluteLine map.userStart + (line - 1)]? = some start ∧
      max start map.userStart < map.userStart + map.userLength := by
  unfold userLineCount at bound
  split at bound
  · omega
  · have later : map.absoluteLine map.userStart ≤
        map.absoluteLine (map.userStart + map.userLength - 1) := map.absoluteLine_mono (by omega)
    have reached : map.absoluteLine map.userStart + (line - 1) ≤
        map.absoluteLine (map.userStart + map.userLength - 1) := by omega
    have inside := reached.trans_lt (ordered.absoluteLine_lt _)
    have before := (ordered.reaches_iff inside _).mpr reached
    exact ⟨_, List.getElem?_eq_getElem inside, by omega⟩

theorem userLine_userLineStart (fits : ¬ map.Overflows line)
    (found : map.userLineStart line = some offset) :
    map.userLine offset = some line ∧ ∀ other, map.userLine other = some line → offset ≤ other := by
  obtain ⟨positive, start, here, rfl, before⟩ := (userLineStart_of_fits fits).mp found
  exact ordered.first_byte positive here before

theorem userLineStart_isSome (fits : ¬ map.Overflows line) :
    (map.userLineStart line).isSome = true ↔ 1 ≤ line ∧ line ≤ map.userLineCount := by
  constructor
  · intro some_start
    obtain ⟨offset, found⟩ := Option.isSome_iff_exists.mp some_start
    exact userLine_le_count (ordered.userLine_userLineStart fits found).1
  · rintro ⟨positive, bound⟩
    obtain ⟨start, here, before⟩ := ordered.exists_start positive bound
    have found := (userLineStart_of_fits fits).mpr ⟨positive, start, here, rfl, before⟩
    rw [found]
    rfl

theorem userLineStart_wraps (wraps : map.Overflows line) (positive : 1 ≤ line)
    (word : line < UInt64.size) :
    map.userLineStart line = if 0 < map.userLength then some map.userStart else none := by
  have leaves : UInt64.size ≤ map.absoluteLine map.userStart + (line - 1) := wraps
  have wrapped : (map.absoluteLine map.userStart + (line - 1)) % UInt64.size <
      map.absoluteLine map.userStart := by
    rw [Nat.mod_eq_sub_mod leaves]
    have le := Nat.mod_le (map.absoluteLine map.userStart + (line - 1) - UInt64.size) UInt64.size
    omega
  have inside := wrapped.trans (ordered.absoluteLine_lt _)
  have early := (ordered.reaches_iff inside map.userStart).mpr wrapped.le
  rw [userLineStart, if_neg (Nat.one_le_iff_ne_zero.mp positive), List.getElem?_eq_getElem inside]
  simp only [Nat.max_eq_right early, Nat.lt_add_right_iff_pos]

end Ordered

theorem not_overflows_of_le_count (text : List Char) (start length : Nat)
    (short : byteLength text < UInt64.size)
    (bound : line ≤ (ofText text start length).userLineCount) :
    ¬ (ofText text start length).Overflows line := by
  have ordered := ordered_ofText text start length
  have feeds : (lineStartsFrom 0 text).length ≤ byteLength text := by
    rw [lineStartsFrom_count]
    exact (List.count_le_length).trans (length_le_byteLength text)
  have starts : (ofText text start length).starts.length = (lineStartsFrom 0 text).length + 1 := rfl
  unfold Overflows
  by_cases positive : 1 ≤ line
  · obtain ⟨first, here, -⟩ := ordered.exists_start positive bound
    obtain ⟨inside, -⟩ := List.getElem?_eq_some_iff.mp here
    omega
  · have inside := ordered.absoluteLine_lt (ofText text start length).userStart
    omega

/-- The lines of a region. Its bytes have the numbers of their lines, which go up with the line feeds, take
every value from one to the number of lines, and are absent outside. Where the sum does not leave 64 bits,
as for every line that exists, exactly these lines have a start, which is the first byte on the line;
beyond that, every other number is given the start of the region, unless it is empty. -/
theorem userLine_inverse (text : List Char) (start length : Nat) :
    let map := ofText text start length
    (∀ line, ¬ map.Overflows line →
        ((map.userLineStart line).isSome = true ↔ 1 ≤ line ∧ line ≤ map.userLineCount)) ∧
      (∀ line offset, ¬ map.Overflows line → map.userLineStart line = some offset →
        map.userLine offset = some line ∧ ∀ other, map.userLine other = some line → offset ≤ other) ∧
      (∀ line, map.Overflows line → 1 ≤ line → line < UInt64.size →
        map.userLineStart line = if 0 < length then some start else none) ∧
      (byteLength text < UInt64.size → ∀ line, line ≤ map.userLineCount → ¬ map.Overflows line) ∧
      (∀ offset, (map.userLine offset).isSome = true ↔ start ≤ offset ∧ offset < start + length) ∧
      (∀ offset later, start ≤ offset → offset ≤ later → later < start + length →
        ∃ line next, map.userLine offset = some line ∧ map.userLine later = some next ∧
          line ≤ next) ∧
      (∀ line, (∃ offset, map.userLine offset = some line) ↔ 1 ≤ line ∧ line ≤ map.userLineCount) ∧
      ∀ before inside after, text = before ++ inside ++ after → byteLength before = start →
        byteLength inside < length →
        map.userLine (start + byteLength inside) = some (inside.count '\n' + 1) := by
  intro map
  have ordered : map.Ordered := ordered_ofText text start length
  refine ⟨fun line => ordered.userLineStart_isSome, fun line offset =>
    ordered.userLine_userLineStart, fun line => ordered.userLineStart_wraps, fun short line =>
    not_overflows_of_le_count text start length short, fun offset => ?_,
    fun offset later after le before => ?_,
    fun line => ⟨fun ⟨offset, found⟩ => userLine_le_count found, fun bounds => ?_⟩, ?_⟩
  · by_cases inside : map.InRegion offset
    · rw [userLine_inside inside]
      exact iff_of_true rfl inside
    · rw [userLine_outside inside]
      exact iff_of_false nofun inside
  · have first : map.InRegion offset := ⟨after, le.trans_lt before⟩
    have second : map.InRegion later := ⟨after.trans le, before⟩
    refine ⟨_, _, userLine_inside first, userLine_inside second, ?_⟩
    exact Nat.add_le_add_right (Nat.sub_le_sub_right (map.absoluteLine_mono le) _) 1
  · obtain ⟨start, here, before⟩ := ordered.exists_start bounds.1 bounds.2
    exact ⟨_, (ordered.first_byte bounds.1 here before).1⟩
  · rintro before inside after rfl rfl short
    have region : map.InRegion (byteLength before + byteLength inside) :=
      ⟨Nat.le_add_right _ _, Nat.add_lt_add_left short _⟩
    have origin : map.absoluteLine (byteLength before) = before.count '\n' := by
      have feeds := absoluteLine_feeds before (inside ++ after) (byteLength before) length
      rwa [← List.append_assoc] at feeds
    have here : map.absoluteLine (byteLength before + byteLength inside) =
        (before ++ inside).count '\n' := by
      have feeds := absoluteLine_feeds (before ++ inside) after (byteLength before) length
      rwa [byteLength_append] at feeds
    refine userLine_eq_some.mpr ⟨region, ?_⟩
    change _ = map.absoluteLine (byteLength before) + _
    rw [origin, here, List.count_append]
    omega

def midline : LineMap := .ofText "ab\n\ncde\nf".toList 1 4

theorem midline_inverse :
    midline.userLineCount = 3 ∧
      (¬ midline.Overflows 3 ∧ midline.userLineStart 3 = some 4 ∧ midline.userLine 4 = some 3 ∧
        ∀ other, midline.userLine other = some 3 → 4 ≤ other) ∧
      (1 ≤ 3 ∧ 3 ≤ 4 ∧ 4 < 1 + 4 ∧ ∃ line next, midline.userLine 3 = some line ∧
        midline.userLine 4 = some next ∧ line ≤ next) ∧
      byteLength "a".toList = 1 ∧ byteLength "b\n".toList < 4 ∧
        midline.userLine (1 + byteLength "b\n".toList) = some 2 := by
  obtain ⟨-, starts, -, fits, -, ascends, -, feeds⟩ := userLine_inverse "ab\n\ncde\nf".toList 1 4
  have third : midline.userLineStart 3 = some 4 := by decide +kernel
  have count : midline.userLineCount = 3 := by decide +kernel
  have small : ¬ midline.Overflows 3 := fits (by decide +kernel) 3 count.ge
  have second : byteLength "b\n".toList < 4 := by decide +kernel
  have first : byteLength "a".toList = 1 := by decide +kernel
  exact ⟨count, ⟨small, third, starts 3 4 small third⟩,
    ⟨by decide, by decide, by decide, ascends 3 4 (by decide) (by decide) (by decide)⟩,
    first, second, feeds "a".toList "b\n".toList "\ncde\nf".toList (by decide +kernel) first second⟩

/-- Of a region with one line, the greatest number is given the start of that line. -/
theorem greatest_line_wraps :
    let map := ofText "a\nb\nc\n".toList 4 2
    map.userLineCount = 1 ∧ map.userLineStart 18446744073709551615 = some 4 ∧
      map.userLine 4 = some 1 := by
  decide +kernel

end LineMap

end Metronome
