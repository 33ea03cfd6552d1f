import Metronome.Proofs.TextLines

namespace Metronome

open Metronome.Text

namespace Script

def LogicalLine.range (line : LogicalLine) : List Nat :=
  List.range' line.first (line.last + 1 - line.first)

theorem LogicalLine.mem_range {line : LogicalLine} {p : Nat} :
    p ∈ line.range ↔ line.first ≤ p ∧ p ≤ line.last := by
  rw [range, List.mem_range'_1]
  omega

theorem range_joined (index : Nat) (first : PhysicalLine) (more : List PhysicalLine) :
    (joined index first more).range = List.range' index (more.length + 1) := by
  have count : index + more.length + 1 - index = more.length + 1 := by omega
  rw [LogicalLine.range, joined, count]

namespace Joins

variable {index : Nat} {lines : List PhysicalLine} {logical : List LogicalLine}

theorem covers (joins : Joins index lines logical) :
    logical.flatMap LogicalLine.range = List.range' index lines.length := by
  induction joins with
  | nil => rfl
  | @run index first more after logical goesOn ends later ih =>
    have count : (first :: (more ++ after)).length = (more.length + 1) + after.length := by
      rw [List.length_cons, List.length_append]
      omega
    have next : index + 1 + more.length = index + (more.length + 1) := by omega
    rw [List.flatMap_cons, range_joined, ih, count, next, List.range'_append_1]

theorem first_le_last (joins : Joins index lines logical) :
    ∀ line ∈ logical, line.first ≤ line.last := by
  intro line member
  obtain ⟨before, first, more, after, -, rfl, -⟩ := joins.of_mem member
  exact Nat.le_add_right _ _

/-- Two neighbours are in the same run exactly when the first of them goes on. -/
theorem shares (joins : Joins index lines logical) {p : Nat} {line : PhysicalLine}
    (here : lines[p]? = some line) (next : p + 1 < lines.length) :
    (∃ other ∈ logical, index + p ∈ other.range ∧ index + p + 1 ∈ other.range) ↔
      continues line.content = true := by
  induction joins generalizing p with
  | nil => cases here
  | @run index first more after logical goesOn ends later ih =>
    rw [← List.cons_append] at here
    rw [List.length_cons, List.length_append] at next
    have ahead := later.ordered.1
    rw [List.exists_mem_cons_iff, range_joined]
    simp only [List.mem_range'_1]
    -- Inside a run a line goes on, the last one of it does not, and the others are in later runs.
    rcases Nat.lt_trichotomy p more.length with inside | last | beyond
    · have among : line ∈ (first :: more).dropLast := by
        rw [List.getElem?_append_left (Nat.lt_succ_of_lt inside)] at here
        have kept : (first :: more).dropLast[p]? = some line := by
          rw [List.getElem?_dropLast, if_pos (by simpa using inside), here]
        exact List.mem_of_getElem? kept
      exact iff_of_true (.inl (by omega)) (goesOn line among)
    · subst last
      have final : line ∈ (first :: more).getLast? := by
        rw [List.getElem?_append_left (by simp)] at here
        rw [List.getLast?_eq_getElem?]
        exact here
      have some_after : after ≠ [] := by
        rintro rfl
        simp at next
      have ended := ends some_after line final
      refine iff_of_false ?_ (by simp [ended])
      rintro (within | ⟨other, member, reached, -⟩)
      · omega
      · have bound := ahead other member
        rw [LogicalLine.mem_range] at reached
        omega
    · obtain ⟨q, rfl⟩ : ∃ q, p = more.length + 1 + q := ⟨p - (more.length + 1), by omega⟩
      have run : (first :: more).length = more.length + 1 := rfl
      rw [List.getElem?_append_right (by omega), run, Nat.add_sub_cancel_left] at here
      have shift : index + (more.length + 1 + q) = index + 1 + more.length + q := by omega
      rw [shift, ← ih here (by omega)]
      constructor
      · rintro (within | found)
        · omega
        · exact found
      · exact .inr

end Joins

theorem indices_match {logical : List LogicalLine}
    (ranges : ∀ line ∈ logical, line.first ≤ line.last) (start : Nat) :
    List.Forall₂ (fun p index => ∃ i line, index = start + i ∧ logical[i]? = some line ∧
        p ∈ line.range)
      (logical.flatMap LogicalLine.range)
      ((logical.zipIdx start).flatMap fun (line, index) =>
        List.replicate (line.last - line.first + 1) index) := by
  induction logical generalizing start with
  | nil => exact .nil
  | cons line logical ih =>
    obtain ⟨order, later⟩ := List.forall_mem_cons.mp ranges
    rw [List.flatMap_cons, List.zipIdx_cons, List.flatMap_cons]
    refine List.rel_append ?_ ?_
    · rw [List.forall₂_iff_get]
      refine ⟨?_, fun i reached _ => ?_⟩
      · rw [LogicalLine.range, List.length_range', List.length_replicate]
        omega
      · refine ⟨0, line, ?_, rfl, List.get_mem _ _⟩
        simp
    · refine (ih later (start + 1)).imp ?_
      rintro p _ ⟨i, other, rfl, found, member⟩
      exact ⟨i + 1, other, by omega, found, member⟩

theorem index_unique {logical : List LogicalLine} {n p i j : Nat}
    (covers : logical.flatMap LogicalLine.range = List.range n) {line other : LogicalLine}
    (here : logical[i]? = some line) (there : logical[j]? = some other)
    (left : p ∈ line.range) (right : p ∈ other.range) : i = j := by
  have apart : logical.Pairwise fun line other => line.range.Disjoint other.range :=
    (List.nodup_flatMap.mp (covers ▸ List.nodup_range)).2
  obtain ⟨bound, rfl⟩ := List.getElem?_eq_some_iff.mp here
  obtain ⟨limit, rfl⟩ := List.getElem?_eq_some_iff.mp there
  rw [List.pairwise_iff_getElem] at apart
  rcases Nat.lt_trichotomy i j with less | same | greater
  · exact absurd right (apart i j bound limit less left)
  · exact same
  · exact absurd left (apart j i limit bound greater right)

/-- The ranges of a text's logical lines cover the numbers of its lines in order, each once. The indices
have for each line the one logical line that holds it, and a line is in one with the next line exactly
when it ends in an odd number of backslashes. -/
theorem lines_partitioned (text : List Char) :
    let logical := logicalLines text
    let indices := logicalIndices logical
    logical.flatMap LogicalLine.range = List.range (lineCount text) ∧
      (∀ line ∈ logical, line.first ≤ line.last) ∧
      indices.length = lineCount text ∧
      (∀ p < lineCount text, ∃ i line, indices[p]? = some i ∧ logical[i]? = some line ∧
        p ∈ line.range ∧ ∀ j other, logical[j]? = some other → p ∈ other.range → j = i) ∧
      ∀ p, p + 1 < lineCount text → ∃ line, LineAt text p line ∧
        ((∃ other ∈ logical, p ∈ other.range ∧ p + 1 ∈ other.range) ↔ EndsOdd line) := by
  intro logical indices
  have joins := logicalLines_joins text
  have ordered := joins.first_le_last
  have covers : logical.flatMap LogicalLine.range = List.range (lineCount text) := by
    rw [joins.covers, length_physicalLines, List.range_eq_range']
  have matched := indices_match ordered 0
  have length : indices.length = lineCount text := by
    rw [← List.length_range (n := lineCount text), ← covers]
    exact matched.length_eq.symm
  refine ⟨covers, ordered, length, fun p inside => ?_, fun p inside => ?_⟩
  · rw [covers, List.forall₂_iff_get] at matched
    obtain ⟨i, line, same, found, member⟩ :=
      matched.2 p (by simpa using inside) (length.symm ▸ inside)
    rw [Nat.zero_add] at same
    rw [List.get_eq_getElem, List.getElem_range] at member
    refine ⟨i, line, ?_, found, member, fun j other there holds => ?_⟩
    · rw [← same]
      exact List.getElem?_eq_getElem _
    · exact index_unique covers there found holds member
  · have bound : p < (physicalLines text).length := by
      rw [length_physicalLines]
      omega
    have here := List.getElem?_eq_getElem bound
    refine ⟨_, physicalLines_lineAt here inside, ?_⟩
    rw [← continues_iff, ← joins.shares here (by rwa [length_physicalLines]), Nat.zero_add]

def summing : List Char := "print 1 + \\ \n   2\r\nprint 3 \\\\\nprint 4 \\".toList

theorem summing_partitioned :
    lineCount summing = 4 ∧ logicalIndices (logicalLines summing) = [0, 0, 1, 2] ∧
      (1 < lineCount summing ∧ ∃ i line, (logicalIndices (logicalLines summing))[1]? = some i ∧
        (logicalLines summing)[i]? = some line ∧ 1 ∈ line.range ∧
        ∀ j other, (logicalLines summing)[j]? = some other → 1 ∈ other.range → j = i) ∧
      0 + 1 < lineCount summing ∧ ∃ line, LineAt summing 0 line ∧
        ((∃ other ∈ logicalLines summing, 0 ∈ other.range ∧ 0 + 1 ∈ other.range) ↔ EndsOdd line) := by
  have count : lineCount summing = 4 := by decide +kernel
  have second : 1 < lineCount summing := by
    rw [count]
    decide
  obtain ⟨-, -, -, finds, shares⟩ := lines_partitioned summing
  exact ⟨count, by decide +kernel, ⟨second, finds 1 second⟩, second, shares 0 second⟩

end Script

end Metronome
