import Metronome.Proofs.Doubles
import Metronome.Value.Operators

namespace Metronome

def Operator.relation? : Operator → Option (Int → Int → Bool)
  | .eq => some fun l r => l == r
  | .ne => some fun l r => l != r
  | .lt => some fun l r => l < r
  | .le => some fun l r => l ≤ r
  | .gt => some fun l r => l > r
  | .ge => some fun l r => l ≥ r
  | _ => none

theorem Operator.relation_congr {op : Operator} {relation : Int → Int → Bool}
    (compares : op.relation? = some relation) {a b c d : Int} (less : a < b ↔ c < d)
    (greater : b < a ↔ d < c) : relation a b = relation c d := by
  rw [Bool.eq_iff_iff]
  cases op <;> cases compares
  case eq => rw [beq_iff_eq, beq_iff_eq]; omega
  case ne => rw [bne_iff_ne, bne_iff_ne]; omega
  all_goals rw [decide_eq_true_iff, decide_eq_true_iff]; omega

namespace Numeral

variable {n : Int}

theorem inSigned_iff : inSigned n = true ↔ -2 ^ 63 ≤ n ∧ n < 2 ^ 63 := by
  rw [inSigned, Bool.and_eq_true, decide_eq_true_iff, decide_eq_true_iff]
  exact Iff.rfl

theorem log2_of_inSigned (fits : inSigned n = true) : n.natAbs.log2 ≤ 900 := by
  obtain ⟨low, high⟩ := inSigned_iff.mp fits
  have bound : n.natAbs.log2 < 64 := Decimal.log2_lt_of_lt (by decide) (by omega)
  omega

theorem nearestDouble_near (fits : inSigned n = true) :
    n - 512 ≤ Decimal.nearestDouble n ∧ Decimal.nearestDouble n ≤ n + 512 := by
  obtain ⟨low, high⟩ := inSigned_iff.mp fits
  rcases Int.lt_or_eq_of_le low with inside | rfl
  · have bits : n.natAbs.log2 < 63 := Decimal.log2_lt_of_lt (by decide) (by omega)
    have last : 2 ^ (n.natAbs.log2 - 52) ≤ 2 ^ 10 := Nat.pow_le_pow_right (by decide) (by omega)
    have near := Decimal.nearestMagnitude_near n.natAbs
    obtain ⟨a, rfl | rfl⟩ := Int.eq_nat_or_neg n <;>
      simp only [Decimal.nearestDouble_neg, Decimal.nearestDouble_natCast, Int.natAbs_neg,
        Int.natAbs_natCast] at * <;> omega
  · decide +kernel

end Numeral

namespace Value

open Decimal

variable {l r : Int}

theorem order?_ofInt (left : Numeral.inSigned l = true) (right : Numeral.inSigned r = true) :
    (ofInt l).order? (ofInt r) = some (compare (nearestDouble l) (nearestDouble r)) := by
  have wide := Numeral.log2_of_inSigned left
  have wide' := Numeral.log2_of_inSigned right
  change orderOfFloats (Float.ofInt l) (Float.ofInt r) = _
  rw [orderOfFloats]
  simp only [ofInt_lt_ofInt wide wide', ofInt_lt_ofInt wide' wide, ofInt_beq_ofInt wide wide', beq_iff_eq]
  rcases lt_trichotomy (nearestDouble l) (nearestDouble r) with less | same | greater
  · rw [if_pos less, compare_lt_iff_lt.mpr less]
  · rw [if_neg same.not_lt, if_pos same, compare_eq_iff_eq.mpr same]
  · rw [if_neg greater.not_gt, if_neg greater.ne', if_pos greater, compare_gt_iff_gt.mpr greater]

/-- A comparison of whole numbers of 64 bits is the comparison of the doubles nearest to them. -/
theorem apply_comparison (left : Numeral.inSigned l = true) (right : Numeral.inSigned r = true)
    {op : Operator} {relation : Int → Int → Bool} (compares : op.relation? = some relation) :
    apply op (ofInt l) (ofInt r) = .ok (bool (relation (nearestDouble l) (nearestDouble r))) := by
  have equal : (ofInt l).equal (ofInt r) = (nearestDouble l == nearestDouble r) :=
    ofInt_beq_ofInt (Numeral.log2_of_inSigned left) (Numeral.log2_of_inSigned right)
  cases op <;> cases compares
  case eq => rw [apply, equal]
  case ne => rw [apply, equal]; rfl
  all_goals
    rw [apply, order?_ofInt left right]
    refine congrArg (fun holds => Except.ok (bool holds)) ?_
    rw [Bool.eq_iff_iff, decide_eq_true_iff]
  case lt => exact Ordering.isLT_iff_eq_lt.trans compare_lt_iff_lt
  case le => exact Int.isLE_compare
  case gt => exact Ordering.isGT_iff_eq_gt.trans compare_gt_iff_gt
  case ge => exact Int.isGE_compare

theorem finiteResult_ne_ofInt (x : Float) (n : Int) : finiteResult x ≠ .ok (ofInt n) := by
  rw [finiteResult, ofFloat?]
  split_ifs <;> nofun

theorem apply_sub (left : Numeral.inSigned l = true) (right : Numeral.inSigned r = true) :
    apply .sub (ofInt l) (ofInt r) = if Numeral.inSigned (l - r) then .ok (ofInt (l - r))
      else finiteResult (Float.ofInt l - Float.ofInt r) := by
  have whole {n : Int} (fits : Numeral.inSigned n = true) : (ofInt n).signed? = some n := if_pos fits
  rw [apply, arithmetic, whole left, whole right]
  dsimp only [exactResult]
  split_ifs <;> rfl

theorem apply_sub_eq_zero (left : Numeral.inSigned l = true) (right : Numeral.inSigned r = true) :
    apply .sub (ofInt l) (ofInt r) = .ok (ofInt 0) ↔ l = r := by
  rw [apply_sub left right]
  split_ifs with fits
  · constructor
    · intro same
      have zero : l - r = 0 := by injection same with value; injection value with number; injection number
      omega
    · rintro rfl
      rw [Int.sub_self]
  · refine ⟨fun same => absurd same (finiteResult_ne_ofInt _ 0), ?_⟩
    rintro rfl
    rw [Int.sub_self] at fits
    exact absurd rfl fits

/-- A division that leaves no remainder is exact; only the least number divided by minus one has a
quotient beyond 64 bits. -/
theorem apply_div (left : Numeral.inSigned l = true) (right : Numeral.inSigned r = true)
    (divides : r ∣ l) (nonzero : r ≠ 0) (defined : l ≠ -2 ^ 63 ∨ r ≠ -1) :
    apply .div (ofInt l) (ofInt r) = .ok (ofInt (l / r)) := by
  have whole {n : Int} (fits : Numeral.inSigned n = true) : (ofInt n).signed? = some n := if_pos fits
  have fits : Numeral.inSigned (l / r) = true := by
    obtain ⟨low, high⟩ := Numeral.inSigned_iff.mp left
    obtain ⟨q, rfl⟩ := divides
    rw [Int.mul_ediv_cancel_left _ nonzero, Numeral.inSigned_iff]
    have small : q.natAbs ≤ (r * q).natAbs := by
      rw [Int.natAbs_mul]
      exact Nat.le_mul_of_pos_left _ (Int.natAbs_pos.mpr nonzero)
    by_contra beyond
    obtain rfl : q = 2 ^ 63 := by omega
    omega
  rw [apply, arithmetic, whole left, whole right]
  dsimp only [exactResult]
  rw [if_neg nonzero, if_pos (Int.emod_eq_zero_of_dvd divides), if_pos fits]

def ComparesExactly (l r : Int) : Prop :=
  ∀ op relation, op.relation? = some relation →
    apply op (ofInt l) (ofInt r) = .ok (bool (relation l r))

theorem comparesExactly_iff (left : Numeral.inSigned l = true) (right : Numeral.inSigned r = true) :
    ComparesExactly l r ↔ l = r ∨ nearestDouble l ≠ nearestDouble r := by
  constructor
  · intro kept
    by_contra! apart
    have seen := (kept .eq _ rfl).symm.trans (apply_comparison left right rfl)
    simp [apart] at seen
  · intro apart op relation compares
    rw [apply_comparison left right compares]
    have forward := nearestDouble_mono (l := l) (r := r)
    have backward := nearestDouble_mono (l := r) (r := l)
    rw [op.relation_congr compares (c := l) (d := r)] <;> omega

theorem one_of_three (left : Numeral.inSigned l = true) (right : Numeral.inSigned r = true) :
    ∃! op, op ∈ [Operator.lt, .eq, .gt] ∧ apply op (ofInt l) (ofInt r) = .ok (bool true) := by
  have holds {op : Operator} {relation : Int → Int → Bool} (compares : op.relation? = some relation) :
      apply op (ofInt l) (ofInt r) = .ok (bool true) ↔
        relation (nearestDouble l) (nearestDouble r) = true := by
    rw [apply_comparison left right compares, Except.ok.injEq, bool.injEq]
  have less := (@holds .lt _ rfl).trans decide_eq_true_iff
  have equal := (@holds .eq _ rfl).trans beq_iff_eq
  have greater := (@holds .gt _ rfl).trans decide_eq_true_iff
  simp only [List.mem_cons, List.not_mem_nil, or_false]
  rcases lt_trichotomy (nearestDouble l) (nearestDouble r) with below | same | above
  · refine ⟨.lt, ⟨.inl rfl, less.mpr below⟩, ?_⟩
    rintro _ ⟨rfl | rfl | rfl, seen⟩
    · rfl
    · exact absurd (equal.mp seen) below.ne
    · exact absurd (greater.mp seen) below.not_gt
  · refine ⟨.eq, ⟨.inr (.inl rfl), equal.mpr same⟩, ?_⟩
    rintro _ ⟨rfl | rfl | rfl, seen⟩
    · exact absurd (less.mp seen) same.not_lt
    · rfl
    · exact absurd (greater.mp seen) same.not_gt
  · refine ⟨.gt, ⟨.inr (.inr rfl), greater.mpr above⟩, ?_⟩
    rintro _ ⟨rfl | rfl | rfl, seen⟩
    · exact absurd (less.mp seen) above.not_gt
    · exact absurd (equal.mp seen) above.ne'
    · rfl

/-- Comparisons of whole numbers of 64 bits are the exact comparisons of the doubles nearest to them. They
hold of the numbers themselves unless two different numbers have the same nearest double, which takes a
number beyond `2 ^ 53` and a difference of at most 1024. Exactly one of `<`, `==` and `>` is true in any
case, and no order is reversed; the difference of the numbers is zero for equal numbers only. -/
theorem comparisons_follow_nearest {l r : Int} (left : Numeral.inSigned l = true)
    (right : Numeral.inSigned r = true) :
    (∀ op relation, op.relation? = some relation →
      apply op (ofInt l) (ofInt r) = .ok (bool (relation (nearestDouble l) (nearestDouble r)))) ∧
    (ComparesExactly l r ↔ l = r ∨ nearestDouble l ≠ nearestDouble r) ∧
    (l.natAbs ≤ 2 ^ 53 ∧ r.natAbs ≤ 2 ^ 53 ∨ 1024 < (l - r).natAbs → ComparesExactly l r) ∧
    (l ≤ r → nearestDouble l ≤ nearestDouble r) ∧
    (∃! op, op ∈ [Operator.lt, .eq, .gt] ∧ apply op (ofInt l) (ofInt r) = .ok (bool true)) ∧
    (apply .sub (ofInt l) (ofInt r) = .ok (ofInt 0) ↔ l = r) := by
  refine ⟨fun op relation compares => apply_comparison left right compares,
    comparesExactly_iff left right, ?_, nearestDouble_mono, one_of_three left right,
    apply_sub_eq_zero left right⟩
  intro apart
  rw [comparesExactly_iff left right]
  rcases apart with ⟨short, short'⟩ | far
  · rw [nearestDouble_of_le short, nearestDouble_of_le short']
    exact em _
  · have near := Numeral.nearestDouble_near left
    have near' := Numeral.nearestDouble_near right
    right
    omega

theorem extremes_compared : Numeral.inSigned (-2 ^ 63) = true ∧ Numeral.inSigned (2 ^ 63 - 1) = true ∧
    ComparesExactly (-2 ^ 63) (2 ^ 63 - 1) ∧
    apply .lt (ofInt (-2 ^ 63)) (ofInt (2 ^ 63 - 1)) = .ok (bool true) := by
  have least : Numeral.inSigned (-2 ^ 63) = true := by decide
  have greatest : Numeral.inSigned (2 ^ 63 - 1) = true := by decide
  have kept := (comparisons_follow_nearest least greatest).2.2.1 (.inr (by decide))
  exact ⟨least, greatest, kept, kept .lt _ rfl⟩

/-- Two neighbours that every comparison takes for equal, although their difference is one. -/
theorem neighbours_compare_equal :
    ¬ ComparesExactly (2 ^ 53 + 1) (2 ^ 53) ∧
    apply .eq (ofInt (2 ^ 53 + 1)) (ofInt (2 ^ 53)) = .ok (bool true) ∧
    apply .gt (ofInt (2 ^ 53 + 1)) (ofInt (2 ^ 53)) = .ok (bool false) ∧
    apply .sub (ofInt (2 ^ 53 + 1)) (ofInt (2 ^ 53)) = .ok (ofInt 1) := by
  have next : Numeral.inSigned (2 ^ 53 + 1) = true := by decide
  have last : Numeral.inSigned (2 ^ 53) = true := by decide
  have same : nearestDouble (2 ^ 53 + 1) = nearestDouble (2 ^ 53) := by decide +kernel
  refine ⟨?_, ?_, ?_, ?_⟩
  · rw [comparesExactly_iff next last, same]
    decide
  · rw [apply_comparison next last rfl, same]
    rfl
  · rw [apply_comparison next last rfl, same]
    rfl
  · rw [apply_sub next last]
    rfl

end Value

end Metronome
