import Risc32.Device.ByteLane

namespace Risc32

theorem getLsbD_laneMask (i : Nat) : (0xFF : Word).getLsbD i = decide (i < 8) := by
  have hmask : (0xFF : Word) = (BitVec.allOnes 8).setWidth 32 := rfl
  rw [hmask, BitVec.getLsbD_setWidth, BitVec.getLsbD_allOnes]
  simp only [Bool.and_eq_right_iff_imp, decide_eq_true_eq]
  omega

theorem toNat_alignedOffset (offset : Word) : (alignedOffset offset).toNat = offset.toNat / 4 * 4 := by
  have hshifts : alignedOffset offset = offset >>> 2 <<< 2 := by
    apply BitVec.eq_of_getLsbD_eq
    intro i hi
    have hmask : (3 : Word) = (BitVec.allOnes 2).setWidth 32 := rfl
    simp only [alignedOffset, hmask, BitVec.getLsbD_and, BitVec.getLsbD_not, BitVec.getLsbD_setWidth,
      BitVec.getLsbD_allOnes, BitVec.getLsbD_shiftLeft, BitVec.getLsbD_ushiftRight, hi]
    grind
  have hoffset := offset.isLt
  rw [hshifts, BitVec.toNat_shiftLeft, BitVec.toNat_ushiftRight, Nat.shiftLeft_eq, Nat.shiftRight_eq_div_pow]
  omega

theorem laneByte_eq (offset word : Word) : laneByte offset word = Word.byte word (3 - offset.toNat % 4) := by
  apply BitVec.eq_of_getLsbD_eq
  intro i hi
  have hshift : 8 * (3 - (3 - offset.toNat % 4)) = laneShift offset := by
    unfold laneShift
    omega
  rw [laneByte, Word.byte, hshift, BitVec.getLsbD_setWidth, BitVec.getLsbD_ushiftRight,
    BitVec.getLsbD_extractLsb']

/-- Bit by bit, the byte takes the place of its lane. -/
theorem getLsbD_mergeLane (offset word : Word) (value : Byte) {i : Nat} (hi : i < 32) :
    (mergeLane offset word value).getLsbD i =
      if i / 8 = offset.toNat % 4 then value.getLsbD (i % 8) else word.getLsbD i := by
  simp only [mergeLane, laneShift, BitVec.getLsbD_or, BitVec.getLsbD_and, BitVec.getLsbD_not,
    BitVec.getLsbD_shiftLeft, BitVec.getLsbD_setWidth, getLsbD_laneMask, hi]
  split
  case isTrue hlane =>
    have habove : ¬ i < 8 * (offset.toNat % 4) := by omega
    have hindex : i - 8 * (offset.toNat % 4) = i % 8 := by omega
    have hbit : i % 8 < 8 := by omega
    have hword : i % 8 < 32 := by omega
    simp [habove, hindex, hbit, hword]
  case isFalse hlane =>
    by_cases hbelow : i < 8 * (offset.toNat % 4)
    · simp [hbelow]
    · have hbeyond : 8 ≤ i - 8 * (offset.toNat % 4) := by omega
      simp [hbelow, Nat.not_lt_of_le hbeyond, BitVec.getLsbD_of_ge value _ hbeyond]

theorem byte_mergeLane (offset word : Word) (value : Byte) {i : Nat} (hi : i < 4) :
    Word.byte (mergeLane offset word value) i =
      if i = 3 - offset.toNat % 4 then value else Word.byte word i := by
  apply BitVec.eq_of_getLsbD_eq
  intro j hj
  have hlane : (8 * (3 - i) + j) / 8 = offset.toNat % 4 ↔ i = 3 - offset.toNat % 4 := by omega
  have hbit : (8 * (3 - i) + j) % 8 = j := by omega
  rw [Word.byte, BitVec.getLsbD_extractLsb', getLsbD_mergeLane _ _ _ (by omega), hbit]
  by_cases h : i = 3 - offset.toNat % 4
  · simp only [if_pos h, if_pos (hlane.2 h), hj, decide_true, Bool.true_and]
  · simp only [if_neg h, if_neg (mt hlane.1 h), Word.byte, BitVec.getLsbD_extractLsb']

end Risc32
