import Metronome.Decimal.Binary64
import Mathlib.Algebra.Order.Ring.Int

namespace Metronome.Decimal

theorem roundHalfEven_one (n : Nat) : roundHalfEven n 1 = n := by
  simp [roundHalfEven, Nat.mod_one]

theorem roundHalfEven_mul {factor : Nat} (positive : 0 < factor) (n d : Nat) :
    roundHalfEven (n * factor) (d * factor) = roundHalfEven n d := by
  have shorter : 2 * (n % d * factor) < d * factor ↔ 2 * (n % d) < d := by
    rw [← Nat.mul_assoc]
    exact Nat.mul_lt_mul_right positive
  have longer : d * factor < 2 * (n % d * factor) ↔ d < 2 * (n % d) := by
    rw [← Nat.mul_assoc]
    exact Nat.mul_lt_mul_right positive
  simp only [roundHalfEven, Nat.mul_div_mul_right n d positive, Nat.mul_mod_mul_right, gt_iff_lt,
    shorter, longer]

theorem div_le_roundHalfEven (n d : Nat) : n / d ≤ roundHalfEven n d := by
  unfold roundHalfEven
  dsimp only
  split_ifs <;> omega

theorem roundHalfEven_le (n d : Nat) : roundHalfEven n d ≤ n / d + 1 := by
  unfold roundHalfEven
  dsimp only
  split_ifs <;> omega

theorem roundHalfEven_near {d : Nat} (positive : 0 < d) (n : Nat) :
    2 * n ≤ 2 * (roundHalfEven n d * d) + d ∧ 2 * (roundHalfEven n d * d) ≤ 2 * n + d := by
  have whole := Nat.div_add_mod' n d
  have rest := Nat.mod_lt n positive
  have above : (n / d + 1) * d = n / d * d + d := Nat.succ_mul _ _
  unfold roundHalfEven
  dsimp only
  split_ifs <;> omega

theorem roundHalfEven_mono {n m : Nat} (le : n ≤ m) (d : Nat) :
    roundHalfEven n d ≤ roundHalfEven m d := by
  have quotients := Nat.div_le_div_right (c := d) le
  rcases Nat.lt_or_eq_of_le quotients with less | same
  · exact (roundHalfEven_le n d).trans (Nat.le_trans less (div_le_roundHalfEven m d))
  · have remainders : n % d ≤ m % d := by
      have left := Nat.div_add_mod n d
      have right := Nat.div_add_mod m d
      rw [same] at left
      omega
    unfold roundHalfEven
    dsimp only
    rw [same]
    split_ifs <;> omega

theorem log2_lt_of_lt {n k : Nat} (positive : 0 < k) (less : n < 2 ^ k) : n.log2 < k := by
  by_cases zero : n = 0
  · rw [zero, Nat.log2_zero]
    exact positive
  · exact (Nat.log2_lt zero).mpr less

/-- The magnitude of the double that is nearest to a whole number; a half goes to the one whose last bit
is even. -/
def nearestMagnitude (n : Nat) : Nat :=
  roundHalfEven n (2 ^ (n.log2 - 52)) * 2 ^ (n.log2 - 52)

theorem nearestMagnitude_of_lt {n : Nat} (short : n < 2 ^ 53) : nearestMagnitude n = n := by
  have bits : n.log2 - 52 = 0 := by
    have bound := log2_lt_of_lt (by decide) short
    omega
  rw [nearestMagnitude, bits, Nat.pow_zero, roundHalfEven_one, Nat.mul_one]

theorem nearestMagnitude_of_le {n : Nat} (short : n ≤ 2 ^ 53) : nearestMagnitude n = n := by
  rcases Nat.lt_or_eq_of_le short with less | rfl
  · exact nearestMagnitude_of_lt less
  · decide +kernel

theorem roundHalfEven_bounds {n : Nat} (large : 52 ≤ n.log2) :
    2 ^ 52 ≤ roundHalfEven n (2 ^ (n.log2 - 52)) ∧
      roundHalfEven n (2 ^ (n.log2 - 52)) ≤ 2 ^ 53 := by
  have some_bits : n ≠ 0 := by
    rintro rfl
    simp at large
  have positive : 0 < 2 ^ (n.log2 - 52) := Nat.two_pow_pos _
  have low : 2 ^ 52 ≤ n / 2 ^ (n.log2 - 52) := by
    rw [Nat.le_div_iff_mul_le positive, ← Nat.pow_add, Nat.add_sub_of_le large]
    exact Nat.log2_self_le some_bits
  have high : n / 2 ^ (n.log2 - 52) < 2 ^ 53 := by
    rw [Nat.div_lt_iff_lt_mul positive, ← Nat.pow_add]
    have split : 53 + (n.log2 - 52) = n.log2 + 1 := by omega
    rw [split]
    exact Nat.lt_log2_self
  exact ⟨low.trans (div_le_roundHalfEven _ _), (roundHalfEven_le _ _).trans high⟩

theorem nearestMagnitude_bounds {n : Nat} (large : 52 ≤ n.log2) :
    2 ^ n.log2 ≤ nearestMagnitude n ∧ nearestMagnitude n ≤ 2 ^ (n.log2 + 1) := by
  obtain ⟨low, high⟩ := roundHalfEven_bounds large
  have lower : 2 ^ n.log2 = 2 ^ 52 * 2 ^ (n.log2 - 52) := by
    rw [← Nat.pow_add, Nat.add_sub_of_le large]
  have upper : 2 ^ (n.log2 + 1) = 2 ^ 53 * 2 ^ (n.log2 - 52) := by
    rw [Nat.pow_succ, lower]
    omega
  rw [lower, upper]
  exact ⟨Nat.mul_le_mul_right _ low, Nat.mul_le_mul_right _ high⟩

theorem nearestMagnitude_mono {n m : Nat} (le : n ≤ m) : nearestMagnitude n ≤ nearestMagnitude m := by
  by_cases short : m < 2 ^ 53
  · rw [nearestMagnitude_of_lt short, nearestMagnitude_of_lt (le.trans_lt short)]
    exact le
  have some_bits : m ≠ 0 := by omega
  have large : 52 ≤ m.log2 := by
    have bound := (Nat.le_log2 some_bits).mpr (Nat.not_lt.mp short)
    omega
  obtain ⟨low, -⟩ := nearestMagnitude_bounds large
  by_cases small : n < 2 ^ 53
  · rw [nearestMagnitude_of_lt small]
    have bound := (Nat.le_log2 some_bits).mpr (Nat.not_lt.mp short)
    exact small.le.trans ((Nat.pow_le_pow_right (by decide) bound).trans low)
  have more_bits : n ≠ 0 := by omega
  have wide : 52 ≤ n.log2 := by
    have bound := (Nat.le_log2 more_bits).mpr (Nat.not_lt.mp small)
    omega
  have bits : n.log2 ≤ m.log2 := (Nat.le_log2 some_bits).mpr ((Nat.log2_self_le more_bits).trans le)
  rcases Nat.lt_or_eq_of_le bits with less | same
  · exact (nearestMagnitude_bounds wide).2.trans
      ((Nat.pow_le_pow_right (by decide) less).trans low)
  · rw [nearestMagnitude, nearestMagnitude, same]
    exact Nat.mul_le_mul_right _ (roundHalfEven_mono le _)

theorem log2_mul_two_pow {n : Nat} (some_bits : n ≠ 0) (shift : Nat) :
    (n * 2 ^ shift).log2 = n.log2 + shift := by
  have positive := Nat.two_pow_pos shift
  rw [Nat.log2_eq_iff (Nat.mul_ne_zero some_bits positive.ne'), Nat.pow_add, Nat.add_right_comm,
    Nat.pow_add]
  exact ⟨Nat.mul_le_mul_right _ (Nat.log2_self_le some_bits),
    Nat.mul_lt_mul_of_pos_right Nat.lt_log2_self positive⟩

theorem nearestMagnitude_mul {n : Nat} (some_bits : n ≠ 0) (large : 52 ≤ n.log2) (shift : Nat) :
    nearestMagnitude (n * 2 ^ shift) = nearestMagnitude n * 2 ^ shift := by
  have bits := log2_mul_two_pow some_bits shift
  have split : n.log2 + shift - 52 = n.log2 - 52 + shift := by omega
  rw [nearestMagnitude, bits, split, Nat.pow_add, roundHalfEven_mul (Nat.two_pow_pos _),
    ← Nat.mul_assoc, ← nearestMagnitude]

theorem nearestMagnitude_near (n : Nat) :
    2 * n ≤ 2 * nearestMagnitude n + 2 ^ (n.log2 - 52) ∧
      2 * nearestMagnitude n ≤ 2 * n + 2 ^ (n.log2 - 52) :=
  roundHalfEven_near (Nat.two_pow_pos _) n

def nearestDouble (n : Int) : Int :=
  n.sign * nearestMagnitude n.natAbs

theorem nearestDouble_natCast (n : Nat) : nearestDouble n = nearestMagnitude n := by
  cases n with
  | zero => rfl
  | succ n => exact Int.one_mul _

theorem nearestDouble_neg (n : Int) : nearestDouble (-n) = -nearestDouble n := by
  rw [nearestDouble, nearestDouble, Int.natAbs_neg, Int.sign_neg, Int.neg_mul]

theorem nearestDouble_of_le {n : Int} (short : n.natAbs ≤ 2 ^ 53) : nearestDouble n = n := by
  rw [nearestDouble, nearestMagnitude_of_le short, Int.sign_mul_natAbs]

theorem nearestDouble_mono {l r : Int} (le : l ≤ r) : nearestDouble l ≤ nearestDouble r := by
  obtain ⟨a, rfl | rfl⟩ := Int.eq_nat_or_neg l <;> obtain ⟨b, rfl | rfl⟩ := Int.eq_nat_or_neg r <;>
    simp only [nearestDouble_neg, nearestDouble_natCast]
  · exact Int.ofNat_le.mpr (nearestMagnitude_mono (by omega))
  · have both : a = 0 ∧ b = 0 := by omega
    rw [both.1, both.2]
    decide
  · omega
  · exact Int.neg_le_neg (Int.ofNat_le.mpr (nearestMagnitude_mono (by omega)))

end Metronome.Decimal
