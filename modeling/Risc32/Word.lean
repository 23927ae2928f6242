namespace Risc32

/-- Registers, addresses and encoded instructions are all 32 bits wide, and arithmetic on them
    wraps. -/
abbrev Word := BitVec 32

abbrev Byte := BitVec 8

/-- How many addresses a word can name. Sizes and end addresses are natural numbers throughout,
    because the end of the last region is itself no address. -/
def addressCount : Nat := 0x100000000

/-- Addresses that do not wrap are added as numbers. -/
theorem toNat_add_of_fits {address : Word} {i : Nat} (h : address.toNat + i < addressCount) :
    (address + BitVec.ofNat 32 i).toNat = address.toNat + i := by
  simp only [addressCount, BitVec.toNat_add, BitVec.toNat_ofNat] at h ⊢
  omega

/-- The word whose low `bits` bits are set. -/
def lowMask (bits : Nat) : Word :=
  (1#32 <<< bits) - 1#32

/-- The low `bits` bits of `x`, with zeros above them. -/
def lowField {n : Nat} (bits : Nat) (x : BitVec n) : Word :=
  x.setWidth 32 &&& lowMask bits

/-- The low `bits` bits of `x`, read as a two's complement number and widened to a word: the highest
    of them is repeated above the field. Higher bits of `x` do not matter. -/
def signExtend {n : Nat} (bits : Nat) (x : BitVec n) : Word :=
  if lowField bits x &&& (1#32 <<< (bits - 1)) = 0 then lowField bits x
  else lowField bits x ||| (BitVec.allOnes 32 <<< bits)

theorem getLsbD_lowMask {bits : Nat} (hbits : bits < 32) (i : Nat) :
    (lowMask bits).getLsbD i = decide (i < bits) := by
  have hpow : 2 ^ bits < 2 ^ 32 := Nat.pow_lt_pow_right (by decide) hbits
  have hpositive : 0 < 2 ^ bits := Nat.two_pow_pos bits
  have hmask : (lowMask bits).toNat = 2 ^ bits - 1 := by
    rw [lowMask, BitVec.toNat_sub, BitVec.toNat_shiftLeft, BitVec.toNat_ofNat, Nat.shiftLeft_eq]
    omega
  rw [BitVec.getLsbD, hmask, Nat.testBit_two_pow_sub_one]

theorem getLsbD_lowField {n bits : Nat} (hbits : bits < 32) (x : BitVec n) (i : Nat) :
    (lowField bits x).getLsbD i = (x.setWidth bits).getLsbD i := by
  rw [lowField, BitVec.getLsbD_and, getLsbD_lowMask hbits, BitVec.getLsbD_setWidth, BitVec.getLsbD_setWidth]
  grind

/-- The test on the highest bit of the field tells the sign. -/
theorem lowField_and_eq_zero_iff {n bits : Nat} (hpositive : 0 < bits) (hbits : bits < 32) (x : BitVec n) :
    lowField bits x &&& (1#32 <<< (bits - 1)) = 0 ↔ (x.setWidth bits).msb = false := by
  have htop : BitVec.twoPow 32 (bits - 1) ≠ 0 := by
    intro h
    have hbit := congrArg (BitVec.getLsbD · (bits - 1)) h
    simp only [BitVec.getLsbD_twoPow, BitVec.ofNat_eq_ofNat, BitVec.getLsbD_zero] at hbit
    grind
  change _ &&& BitVec.twoPow 32 (bits - 1) = 0 ↔ _
  rw [BitVec.and_twoPow, getLsbD_lowField hbits, BitVec.msb_eq_getLsbD_last]
  cases (x.setWidth bits).getLsbD (bits - 1)
  · simp
  · simpa using htop

/-- Masks and shifts widen a field as two's complement numbers are widened. -/
theorem signExtend_eq {n bits : Nat} (hpositive : 0 < bits) (hbits : bits < 32) (x : BitVec n) :
    signExtend bits x = (x.setWidth bits).signExtend 32 := by
  apply BitVec.eq_of_getLsbD_eq
  intro i hi
  rw [BitVec.getLsbD_signExtend, signExtend]
  cases hmsb : (x.setWidth bits).msb with
  | false =>
    rw [if_pos ((lowField_and_eq_zero_iff hpositive hbits x).2 hmsb), getLsbD_lowField hbits]
    grind
  | true =>
    rw [if_neg (by rw [lowField_and_eq_zero_iff hpositive hbits, hmsb]; decide), BitVec.getLsbD_or,
      getLsbD_lowField hbits, BitVec.getLsbD_shiftLeft, BitVec.getLsbD_allOnes]
    grind

/-- What lies above the field does not matter. -/
theorem signExtend_congr {n m bits : Nat} (hpositive : 0 < bits) (hbits : bits < 32) {x : BitVec n}
    {y : BitVec m} (h : x.setWidth bits = y.setWidth bits) : signExtend bits x = signExtend bits y := by
  rw [signExtend_eq hpositive hbits, signExtend_eq hpositive hbits, h]

namespace Word

/-- Byte `i` of a word in memory order. Memory is big-endian: byte 0 is the most significant. -/
def byte (word : Word) (i : Nat) : Byte :=
  word.extractLsb' (8 * (3 - i)) 8

/-- The word that lies in memory as the bytes `b0`, `b1`, `b2`, `b3`. -/
def ofBytes (b0 b1 b2 b3 : Byte) : Word :=
  b0 ++ b1 ++ b2 ++ b3

theorem ofBytes_byte (word : Word) :
    ofBytes (byte word 0) (byte word 1) (byte word 2) (byte word 3) = word := by
  apply BitVec.eq_of_getLsbD_eq
  intro i hi
  simp only [ofBytes, byte, BitVec.getLsbD_append, BitVec.getLsbD_extractLsb']
  grind

/-- Words with the same bytes are the same. -/
theorem eq_of_byte_eq {a b : Word} (h : ∀ i < 4, byte a i = byte b i) : a = b := by
  rw [← ofBytes_byte a, ← ofBytes_byte b, h 0 (by omega), h 1 (by omega), h 2 (by omega), h 3 (by omega)]

theorem byte_ofBytes (b0 b1 b2 b3 : Byte) {i : Nat} (hi : i < 4) :
    byte (ofBytes b0 b1 b2 b3) i = [b0, b1, b2, b3].getD i 0 := by
  apply BitVec.eq_of_getLsbD_eq
  intro j hj
  simp only [ofBytes, byte, BitVec.getLsbD_append, BitVec.getLsbD_extractLsb', hj, decide_true,
    Bool.true_and]
  have hcases : i = 0 ∨ i = 1 ∨ i = 2 ∨ i = 3 := by omega
  obtain rfl | rfl | rfl | rfl := hcases
  · have hj0 : 8 * (3 - 0) + j - 8 - 8 - 8 = j := by omega
    rw [if_neg (by omega), if_neg (by omega), if_neg (by omega), hj0]
    rfl
  · have hj1 : 8 * (3 - 1) + j - 8 - 8 = j := by omega
    rw [if_neg (by omega), if_neg (by omega), if_pos (by omega), hj1]
    rfl
  · have hj2 : 8 * (3 - 2) + j - 8 = j := by omega
    rw [if_neg (by omega), if_pos (by omega), hj2]
    rfl
  · have hj3 : 8 * (3 - 3) + j = j := by omega
    rw [if_pos (by omega), hj3]
    rfl

end Word

end Risc32
