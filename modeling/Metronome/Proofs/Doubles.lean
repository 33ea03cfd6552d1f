import Metronome.Proofs.Rounding
import Mathlib

namespace Metronome.Decimal

open Float.Model Float.Model.UnpackedFloat

theorem shiftRight_exact (m shift : Nat) : (ExtendedMantissa.mk m false false) >>> (shift + 1) =
    ⟨m / 2 ^ (shift + 1), m / 2 ^ shift % 2 != 0, m % 2 ^ shift != 0⟩ := by
  induction shift with
  | zero => simp [HShiftRight.hShiftRight, Nat.repeat, ExtendedMantissa.shiftRightOne, Nat.mod_one]
  | succ shift ih =>
    change ExtendedMantissa.shiftRightOne (ExtendedMantissa.mk m false false >>> (shift + 1)) = _
    rw [ih, ExtendedMantissa.shiftRightOne, Nat.div_div_eq_div_mul, ← Nat.pow_succ]
    congr 1
    have split := Nat.mod_pow_succ (b := 2) (k := shift) (x := m)
    have positive := Nat.two_pow_pos shift
    rcases Nat.mod_two_eq_zero_or_one (m / 2 ^ shift) with even | odd
    · rw [even, Nat.mul_zero, Nat.add_zero] at split
      rw [split, even]
      simp
    · rw [odd, Nat.mul_one] at split
      rw [odd]
      have some_bits : m % 2 ^ (shift + 1) ≠ 0 := by omega
      simp [some_bits]

theorem roundedMantissa_shift (m shift : Nat) :
    (ExtendedMantissa.mk m false false >>> shift).roundedMantissa = roundHalfEven m (2 ^ shift) := by
  cases shift with
  | zero =>
    rw [Nat.pow_zero, roundHalfEven_one]
    rfl
  | succ shift =>
    have split := Nat.mod_pow_succ (b := 2) (k := shift) (x := m)
    have rest := Nat.mod_lt m (Nat.two_pow_pos shift)
    have double : 2 ^ (shift + 1) = 2 * 2 ^ shift := Nat.pow_succ'
    rw [shiftRight_exact, roundHalfEven]
    rcases Nat.mod_two_eq_zero_or_one (m / 2 ^ shift) with even | odd
    · rw [even, Nat.mul_zero, Nat.add_zero] at split
      rw [even, split, if_pos (by omega)]
      cases m % 2 ^ shift != 0 <;> rfl
    · rw [odd, Nat.mul_one] at split
      rw [odd, split, if_neg (by omega)]
      by_cases tie : m % 2 ^ shift = 0
      · rw [tie, if_neg (by omega)]
        change m / 2 ^ (shift + 1) + m / 2 ^ (shift + 1) % 2 = _
        split <;> omega
      · rw [if_pos (by omega), bne_iff_ne.mpr tie]
        rfl

theorem shiftToTargetExponent_exact {m : Nat} (large : 52 ≤ m.log2) {e : Int} (normal : -1074 ≤ e) :
    shiftToTargetExponent Format.binary64 m e .exact =
      (ExtendedMantissa.mk m false false >>> (m.log2 - 52), e + ↑(m.log2 - 52)) := by
  have target : Format.binary64.targetExponent (totalExponent m e) = e + ↑(m.log2 - 52) := by
    change max ((m.log2 : Int) + 1 + e - 53) (-1074) = _
    omega
  have amount : (e + ↑(m.log2 - 52) - e).toNat = m.log2 - 52 := by omega
  rw [shiftToTargetExponent, target, shiftToExponent, amount]
  rfl

theorem roundWithAccuracy_of_shift (sign : Sign) {m : Nat} (large : 52 ≤ m.log2) {e final : Int}
    (normal : -1074 ≤ e) {shifted : ExtendedMantissa}
    (again : shiftToTargetExponent Format.binary64 (roundHalfEven m (2 ^ (m.log2 - 52)))
      (e + ↑(m.log2 - 52)) .exact = (shifted, final)) (positive : 0 < shifted.mantissa) :
    roundWithAccuracy Format.binary64 sign m e .exact =
      .finite sign shifted.mantissa final positive := by
  rw [roundWithAccuracy, shiftToTargetExponent_exact large normal]
  dsimp only
  simp only [roundedMantissa_shift, again]
  exact dif_neg positive.ne'

theorem roundWithAccuracy_exact (sign : Sign) {m : Nat} (large : 52 ≤ m.log2) {e : Int}
    (normal : -1074 ≤ e) :
    ∃ rounded shift : Nat, ∃ positive : 0 < rounded,
      roundWithAccuracy Format.binary64 sign m e .exact = .finite sign rounded (e + ↑shift) positive ∧
      2 ^ 52 ≤ rounded ∧ rounded < 2 ^ 53 ∧ m.log2 - 52 ≤ shift ∧ shift ≤ m.log2 - 51 ∧
      rounded * 2 ^ shift = nearestMagnitude m := by
  obtain ⟨low, high⟩ := roundHalfEven_bounds large
  rcases Nat.lt_or_eq_of_le high with less | carried
  · have bits : (roundHalfEven m (2 ^ (m.log2 - 52))).log2 = 52 :=
      (Nat.log2_eq_iff (by omega)).mpr ⟨low, less⟩
    have again := @shiftToTargetExponent_exact (roundHalfEven m (2 ^ (m.log2 - 52))) (by omega)
      (e + ↑(m.log2 - 52)) (by omega)
    rw [bits, Nat.sub_self, Int.natCast_zero, Int.add_zero] at again
    have positive : 0 < roundHalfEven m (2 ^ (m.log2 - 52)) := by omega
    exact ⟨_, m.log2 - 52, positive, roundWithAccuracy_of_shift sign large normal again positive,
      low, less, Nat.le_refl _, by omega, rfl⟩
  · -- The number has become too long by one bit, which is shifted out again.
    have again := @shiftToTargetExponent_exact (2 ^ 53) (by rw [Nat.log2_two_pow]; decide)
      (e + ((m.log2 - 52 : Nat) : Int)) (by omega)
    have exponent : e + ↑(m.log2 - 52) + ((53 - 52 : Nat) : Int) = e + ↑(m.log2 - 51) := by omega
    have split : m.log2 - 51 = m.log2 - 52 + 1 := by omega
    rw [Nat.log2_two_pow, exponent] at again
    rw [← carried] at again
    have halved : (ExtendedMantissa.mk (2 ^ 53) false false >>> (53 - 52)).mantissa = 2 ^ 52 := rfl
    refine ⟨2 ^ 52, m.log2 - 51, by decide, ?_, Nat.le_refl _, by decide, by omega, Nat.le_refl _, ?_⟩
    · rw [roundWithAccuracy_of_shift sign large normal again (by rw [carried, halved]; decide)]
      simp only [carried, halved]
    · rw [nearestMagnitude, carried, split, Nat.pow_succ]
      omega

/-- A double that is a whole number: zero, or a number of 53 bits times a power of two with which it is
far from infinite. -/
inductive Stands : UnpackedFloat → Int → Prop where
  | zero (sign : Sign) : Stands (.zero sign) 0
  | finite {sign : Sign} {m k : Nat} {n : Int} {positive : 0 < m} (low : 2 ^ 52 ≤ m)
      (high : m < 2 ^ 53) (short : k ≤ 1000) (same : n * 2 ^ 52 = sign.apply ↑(m * 2 ^ k)) :
      Stands (.finite sign m (↑k - 52) positive) n

theorem compare_congr {α β : Type} [LinearOrder α] [LinearOrder β] {a b : α} {c d : β}
    (less : a < b ↔ c < d) (greater : b < a ↔ d < c) : compare a b = compare c d := by
  rcases lt_trichotomy a b with below | rfl | above
  · rw [compare_lt_iff_lt.mpr below, compare_lt_iff_lt.mpr (less.mp below)]
  · have same : c = d := le_antisymm (not_lt.mp (greater.not.mp (lt_irrefl a)))
      (not_lt.mp (less.not.mp (lt_irrefl a)))
    rw [compare_eq_iff_eq.mpr rfl, compare_eq_iff_eq.mpr same]
  · rw [compare_gt_iff_gt.mpr above, compare_gt_iff_gt.mpr (greater.mp above)]

/-- Numbers of 53 bits times powers of two are ordered by the powers first. -/
theorem compare_scaled {m m' k k' : Nat} (low : 2 ^ 52 ≤ m) (high : m < 2 ^ 53)
    (low' : 2 ^ 52 ≤ m') (high' : m' < 2 ^ 53) :
    (compare k k').then (compare m m') = compare (m * 2 ^ k) (m' * 2 ^ k') := by
  have shorter : ∀ {m m' k k' : Nat}, m < 2 ^ 53 → 2 ^ 52 ≤ m' → k < k' →
      m * 2 ^ k < m' * 2 ^ k' := by
    intro m m' k k' high low less
    have more : 2 ^ 53 * 2 ^ k ≤ 2 ^ 52 * 2 ^ k' := by
      rw [← Nat.pow_add, ← Nat.pow_add]
      exact Nat.pow_le_pow_right (by decide) (by omega)
    calc m * 2 ^ k < 2 ^ 53 * 2 ^ k := Nat.mul_lt_mul_of_pos_right high (Nat.two_pow_pos k)
      _ ≤ 2 ^ 52 * 2 ^ k' := more
      _ ≤ m' * 2 ^ k' := Nat.mul_le_mul_right _ low
  rcases Nat.lt_trichotomy k k' with less | rfl | greater
  · rw [compare_lt_iff_lt.mpr less, compare_lt_iff_lt.mpr (shorter high low' less)]
    rfl
  · have positive := Nat.two_pow_pos k
    rw [compare_eq_iff_eq.mpr rfl]
    rcases Nat.lt_trichotomy m m' with below | rfl | above
    · rw [compare_lt_iff_lt.mpr below,
        compare_lt_iff_lt.mpr (Nat.mul_lt_mul_of_pos_right below positive)]
      rfl
    · rw [compare_eq_iff_eq.mpr rfl, compare_eq_iff_eq.mpr rfl]
      rfl
    · rw [compare_gt_iff_gt.mpr above,
        compare_gt_iff_gt.mpr (Nat.mul_lt_mul_of_pos_right above positive)]
      rfl
  · rw [compare_gt_iff_gt.mpr greater, compare_gt_iff_gt.mpr (shorter high' low greater)]
    rfl

theorem pack_finite (sign : Sign) {m k : Nat} {positive : 0 < m} (low : 2 ^ 52 ≤ m)
    (high : m < 2 ^ 53) (short : k ≤ 1000) :
    UnpackedFloat.pack Format.binary64 (.finite sign m (↑k - 52) positive) =
      packComponents Format.binary64 sign (BitVec.ofNat 11 (k + 1023)) (BitVec.ofNat 52 m) := by
  have bits : m.log2 = 52 := (Nat.log2_eq_iff positive.ne').mpr ⟨low, high⟩
  have biased : ((k : Int) - 52 + ↑Format.binary64.exponentBias +
      ↑Format.binary64.mantissaBitsWithoutImplicit).toNat = k + 1023 := by
    have bias : Format.binary64.exponentBias = 1023 := rfl
    rw [bias]
    dsimp only
    omega
  have bounded : ¬ 2 ^ Format.binary64.exponentBits ≤ k + 1023 + 1 := by
    dsimp only
    omega
  rw [UnpackedFloat.pack]
  simp only [biased, if_neg bounded, bits]
  exact if_pos rfl

theorem unpack_packComponents (sign : Sign) {m k : Nat} {positive : 0 < m} (low : 2 ^ 52 ≤ m)
    (high : m < 2 ^ 53) (short : k ≤ 1000) :
    UnpackedFloat.unpack Format.binary64
      (packComponents Format.binary64 sign (BitVec.ofNat 11 (k + 1023)) (BitVec.ofNat 52 m)) =
      .finite sign m (↑k - 52) positive := by
  have exponent : (BitVec.ofNat 11 (k + 1023)).toNat = k + 1023 := by
    rw [BitVec.toNat_ofNat]
    omega
  have not_infinite : BitVec.ofNat 11 (k + 1023) ≠ -1#11 := by
    intro same
    have number := congrArg BitVec.toNat same
    rw [exponent] at number
    simp at number
    omega
  have normal : BitVec.ofNat 11 (k + 1023) ≠ 0#11 := by
    intro same
    have number := congrArg BitVec.toNat same
    rw [exponent] at number
    simp at number
  have mantissa : (1#1 ++ BitVec.ofNat 52 m).toNat = m := by
    rw [BitVec.toNat_append, ← Nat.shiftLeft_add_eq_or_of_lt (BitVec.isLt _), BitVec.toNat_ofNat]
    simp [Nat.shiftLeft_eq]
    omega
  have lowered : ((k + 1023 : Nat) : Int) -
      (↑Format.binary64.exponentBias + ↑Format.binary64.mantissaBitsWithoutImplicit) = k - 52 := by
    have bias : Format.binary64.exponentBias = 1023 := rfl
    rw [bias]
    dsimp only
    omega
  rw [UnpackedFloat.unpack]
  simp only [unpackMantissa_packComponents, unpackExponent_packComponents, unpackSign_packComponents,
    Sign.ofBitVec_toBitVec, not_infinite, normal, if_false, exponent, mantissa]
  simp only [lowered]

namespace Stands

variable {x y : UnpackedFloat} {n n' : Int}

theorem pack_unpack (stands : Stands x n) : (Float.Model.pack x).unpack = x := by
  cases stands with
  | zero sign => exact unpack_packedZero
  | finite low high short same =>
    change UnpackedFloat.unpack Format.binary64 (UnpackedFloat.pack Format.binary64 _) = _
    rw [pack_finite _ low high short, unpack_packComponents _ low high short]

theorem neg (stands : Stands x n) : Stands x.neg (-n) := by
  cases stands with
  | zero sign => exact .zero _
  | @finite sign m k _ positive low high short same =>
    refine .finite low high short ?_
    rw [Int.neg_mul, same]
    cases sign
    · exact Int.neg_neg _
    · rfl

theorem neg_of_apply {m k : Nat} (positive : 0 < m)
    (same : n * 2 ^ 52 = Sign.negative.apply ↑(m * 2 ^ k)) : n < 0 := by
  have size : 0 < m * 2 ^ k := Nat.mul_pos positive (Nat.two_pow_pos k)
  change n * 2 ^ 52 = -↑(m * 2 ^ k) at same
  omega

theorem pos_of_apply {m k : Nat} (positive : 0 < m)
    (same : n * 2 ^ 52 = Sign.positive.apply ↑(m * 2 ^ k)) : 0 < n := by
  have size : 0 < m * 2 ^ k := Nat.mul_pos positive (Nat.two_pow_pos k)
  change n * 2 ^ 52 = ↑(m * 2 ^ k) at same
  omega

theorem compare_eq (left : Stands x n) (right : Stands y n') :
    x.compare y = some (compare n n') := by
  cases left with
  | zero =>
    cases right with
    | zero => rfl
    | @finite sign _ _ _ positive _ _ _ same =>
      cases sign with
      | negative => exact congrArg some (compare_gt_iff_gt.mpr (neg_of_apply positive same)).symm
      | positive => exact congrArg some (compare_lt_iff_lt.mpr (pos_of_apply positive same)).symm
  | @finite sign m k _ positive low high _ same =>
    cases right with
    | zero =>
      cases sign with
      | negative => exact congrArg some (compare_lt_iff_lt.mpr (neg_of_apply positive same)).symm
      | positive => exact congrArg some (compare_gt_iff_gt.mpr (pos_of_apply positive same)).symm
    | @finite sign' m' k' _ positive' low' high' _ same' =>
      have magnitudes : (compare ((k : Int) - 52) (k' - 52)).then (compare m m') =
          compare (m * 2 ^ k) (m' * 2 ^ k') := by
        rw [← compare_scaled low high low' high',
          compare_congr (c := k) (d := k') (by omega) (by omega)]
      cases sign with
      | negative =>
        cases sign' with
        | negative =>
          change n * 2 ^ 52 = -↑(m * 2 ^ k) at same
          change n' * 2 ^ 52 = -↑(m' * 2 ^ k') at same'
          refine congrArg some (Eq.trans (congrArg Ordering.swap magnitudes) ?_)
          rw [Nat.compare_swap]
          exact compare_congr (by omega) (by omega)
        | positive =>
          have less := (neg_of_apply positive same).trans (pos_of_apply positive' same')
          exact congrArg some (compare_lt_iff_lt.mpr less).symm
      | positive =>
        cases sign' with
        | negative =>
          have greater := (neg_of_apply positive' same').trans (pos_of_apply positive same)
          exact congrArg some (compare_gt_iff_gt.mpr greater).symm
        | positive =>
          change n * 2 ^ 52 = ↑(m * 2 ^ k) at same
          change n' * 2 ^ 52 = ↑(m' * 2 ^ k') at same'
          refine congrArg some (magnitudes.trans ?_)
          exact compare_congr (by omega) (by omega)

def one : UnpackedFloat :=
  .finite .positive (2 ^ 52) (-52) (by decide)

theorem mul_one (stands : Stands x n) : UnpackedFloat.mul Format.binary64 x one = x := by
  cases stands with
  | zero sign => cases sign <;> rfl
  | @finite sign m k _ positive low high short same =>
    have bits : m.log2 = 52 := (Nat.log2_eq_iff positive.ne').mpr ⟨low, high⟩
    have more_bits : (m * 2 ^ 52).log2 = 104 := by rw [log2_mul_two_pow positive.ne', bits]
    obtain ⟨rounded, shift, some_bits, result, rounded_low, rounded_high, shift_low, shift_high,
      value⟩ := roundWithAccuracy_exact sign (m := m * 2 ^ 52) (e := k - 52 + -52) (by omega) (by omega)
    rw [nearestMagnitude_mul positive.ne' bits.ge, nearestMagnitude_of_lt high] at value
    have kept : shift = 52 := by
      by_contra other
      have carried : shift = 53 := by omega
      rw [carried] at value
      omega
    subst kept
    have same_bits : rounded = m := Nat.mul_right_cancel (Nat.two_pow_pos 52) value
    subst same_bits
    have final : (k : Int) - 52 + -52 + ↑(52 : Nat) = k - 52 := by omega
    change roundWithAccuracy Format.binary64 (sign * .positive) (rounded * 2 ^ 52) (k - 52 + -52)
      .exact = _
    have same_sign : sign * .positive = sign := by cases sign <;> rfl
    rw [same_sign, result]
    simp only [final]

theorem round (sign : Sign) {m j : Nat} (large : 52 ≤ m.log2) (whole : 104 ≤ j + m.log2)
    (short : j + m.log2 ≤ 1103) (same : n * 2 ^ 104 = sign.apply ↑(nearestMagnitude m * 2 ^ j)) :
    Stands (roundWithAccuracy Format.binary64 sign m (j - 104) .exact) n := by
  obtain ⟨rounded, shift, positive, result, low, high, shift_low, shift_high, value⟩ :=
    roundWithAccuracy_exact sign large (e := j - 104) (by omega)
  obtain ⟨k, exponent⟩ := Nat.exists_eq_add_of_le (show 52 ≤ shift + j by omega)
  have final : (j : Int) - 104 + shift = k - 52 := by omega
  rw [result]
  simp only [final]
  refine .finite low high (by omega) ?_
  rw [← value, Nat.mul_assoc, ← Nat.pow_add, exponent, Nat.pow_add, Nat.mul_left_comm] at same
  cases sign <;> dsimp only [Sign.apply] at same ⊢ <;> omega

end Stands

section Converting

variable {n : Nat}

theorem unpacked_ofNat (positive : 0 < n) (bits : n.log2 ≤ 52) :
    UnpackedFloat.ofNat Format.binary64 n =
      roundWithAccuracy Format.binary64 .positive (n * 2 ^ (52 - n.log2))
        (((52 + n.log2 : Nat) : Int) - 104) .exact := by
  have target : Format.binary64.targetExponent (totalExponent n 0) = (n.log2 : Int) - 52 := by
    change max ((n.log2 : Int) + 1 + 0 - 53) (-1074) = _
    omega
  have amount : (0 - ((n.log2 : Int) - 52)).toNat = 52 - n.log2 := by omega
  have exponent : (0 : Int) - ↑(52 - n.log2) = ↑(52 + n.log2) - 104 := by omega
  rw [UnpackedFloat.ofNat, UnpackedFloat.ofInt, UnpackedFloat.normalize,
    compare_gt_iff_gt.mpr (show (0 : Int) < n by omega)]
  dsimp only
  rw [Int.toNat_natCast, UnpackedFloat.round, target, decreaseExponent, amount, exponent,
    Nat.shiftLeft_eq]

theorem toModel_ofNat_short (short : n < 2 ^ 53) :
    (Float.ofNat n).toModel = Float.Model.pack (UnpackedFloat.mul Format.binary64
      (Float.Model.pack (UnpackedFloat.ofNat Format.binary64 n)).unpack Stands.one) := by
  have kept : n.toUInt64.toNat = n := UInt64.toNat_ofNat_of_lt (short.trans (by decide))
  have unit : (Float.ofBits 4607182418800017408).toModel.unpack = Stands.one := rfl
  change (Float.ofScientific n false 0).toModel = _
  rw [Float.ofScientific, dif_pos ⟨short, by decide⟩, ← unit]
  change Float.Model.pack (UnpackedFloat.mul Format.binary64 (Float.Model.pack
    (UnpackedFloat.ofNat Format.binary64 n.toUInt64.toNat)).unpack _) = _
  rw [kept]
  rfl

theorem toModel_ofNat_long (long : 2 ^ 53 ≤ n) :
    (Float.ofNat n).toModel = Float.Model.pack
      (roundWithAccuracy Format.binary64 .positive (n * 2 ^ 53) (((51 : Nat) : Int) - 104) .exact) := by
  have some_bits : n ≠ 0 := by omega
  have finite : ¬ (0 : Int) > 2 ^ Format.binary64.exponentBits := by decide
  have some_size : ¬ (0 : Int) < -(2 ^ Format.binary64.exponentBits + ↑n.log2) := by
    have size : (0 : Int) < 2 ^ Format.binary64.exponentBits := by decide
    omega
  have width : Format.binary64.mantissaBits = 53 := rfl
  change (Float.ofScientific n false 0).toModel = _
  rw [Float.ofScientific, dif_neg (fun ⟨short, _⟩ => short.not_ge long)]
  change Float.Model.pack (UnpackedFloat.ofScientific Format.binary64 n 0) = _
  rw [UnpackedFloat.ofScientific, dif_neg some_bits, if_neg finite, if_neg some_size,
    if_pos (Int.le_refl 0)]
  simp only [width, UnpackedFloat.mul, Nat.shiftLeft_eq, Int.toNat_zero, Nat.pow_zero, Nat.mul_one]
  rfl

namespace Stands

theorem ofNat_short (short : n < 2 ^ 53) : Stands (UnpackedFloat.ofNat Format.binary64 n) n := by
  rcases Nat.eq_zero_or_pos n with rfl | positive
  · exact .zero _
  have bound := (Nat.log2_lt positive.ne').mpr short
  have bits : (n * 2 ^ (52 - n.log2)).log2 = 52 := by
    rw [log2_mul_two_pow positive.ne']
    omega
  have shorter : n * 2 ^ (52 - n.log2) < 2 ^ 53 :=
    (Nat.log2_lt (Nat.mul_pos positive (Nat.two_pow_pos _)).ne').mp (by omega)
  have split : 52 - n.log2 + (52 + n.log2) = 104 := by omega
  rw [unpacked_ofNat positive (by omega)]
  refine round _ (by omega) (by omega) (by omega) ?_
  rw [nearestMagnitude_of_lt shorter, Nat.mul_assoc, ← Nat.pow_add, split]
  exact (Nat.cast_mul n (2 ^ 104)).symm

theorem ofNat_long (long : 2 ^ 53 ≤ n) (bounded : n.log2 ≤ 900) :
    Stands (roundWithAccuracy Format.binary64 .positive (n * 2 ^ 53) (((51 : Nat) : Int) - 104) .exact)
      (nearestMagnitude n) := by
  have some_bits : n ≠ 0 := by omega
  have large : 53 ≤ n.log2 := (Nat.le_log2 some_bits).mpr long
  have bits : (n * 2 ^ 53).log2 = n.log2 + 53 := log2_mul_two_pow some_bits 53
  refine round _ (by omega) (by omega) (by omega) ?_
  rw [nearestMagnitude_mul some_bits (by omega), Nat.mul_assoc, ← Nat.pow_add]
  exact (Nat.cast_mul (nearestMagnitude n) (2 ^ 104)).symm

theorem ofNat (bounded : n.log2 ≤ 900) :
    Stands (Float.ofNat n).toModel.unpack (nearestMagnitude n) := by
  rcases Nat.lt_or_ge n (2 ^ 53) with short | long
  · have whole := ofNat_short short
    rw [toModel_ofNat_short short, whole.pack_unpack, whole.mul_one, whole.pack_unpack,
      nearestMagnitude_of_lt short]
    exact whole
  · have whole := ofNat_long long bounded
    rw [toModel_ofNat_long long, whole.pack_unpack]
    exact whole

end Stands

end Converting

/-- The double of a whole number stands for the whole number of 53 bits that is nearest to it. -/
theorem Stands.ofInt {n : Int} (bounded : n.natAbs.log2 ≤ 900) :
    Stands (Float.ofInt n).toModel.unpack (nearestDouble n) := by
  cases n with
  | ofNat n =>
    rw [Int.ofNat_eq_natCast, nearestDouble_natCast]
    exact Stands.ofNat bounded
  | negSucc n =>
    have whole := (Stands.ofNat bounded).neg
    rw [Int.negSucc_eq, ← Int.natCast_succ, nearestDouble_neg, nearestDouble_natCast]
    change Stands (Float.Model.pack (Float.ofNat (n + 1)).toModel.unpack.neg).unpack _
    exact whole.pack_unpack.symm ▸ whole

section Comparing

variable {l r : Int}

theorem ofInt_lt_ofInt (left : l.natAbs.log2 ≤ 900) (right : r.natAbs.log2 ≤ 900) :
    Float.ofInt l < Float.ofInt r ↔ nearestDouble l < nearestDouble r := by
  change Float.lt (Float.ofInt l) (Float.ofInt r) = true ↔ _
  rw [Float.lt, decide_eq_true_iff]
  change (UnpackedFloat.compare _ _ == some Ordering.lt) = true ↔ _
  rw [(Stands.ofInt left).compare_eq (Stands.ofInt right), beq_iff_eq, Option.some_inj,
    compare_lt_iff_lt]

theorem ofInt_beq_ofInt (left : l.natAbs.log2 ≤ 900) (right : r.natAbs.log2 ≤ 900) :
    (Float.ofInt l == Float.ofInt r) = (nearestDouble l == nearestDouble r) := by
  change (UnpackedFloat.compare _ _ == some Ordering.eq) = _
  rw [(Stands.ofInt left).compare_eq (Stands.ofInt right), Bool.eq_iff_iff, beq_iff_eq, beq_iff_eq,
    Option.some_inj, compare_eq_iff_eq]

end Comparing

end Metronome.Decimal
