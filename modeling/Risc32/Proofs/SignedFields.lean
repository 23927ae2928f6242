import Mathlib.Algebra.Group.Int.Defs
import Mathlib.Algebra.Group.Nat.Defs
import Risc32.Arithmetic
import Risc32.Instruction

namespace Risc32

/-- The low `bits` bits of a word stand for the number in two's complement: it lies in the range of their
    width and differs from the word by a multiple of what they can count. -/
structure Denotes (bits : Nat) (value : Word) (number : Int) : Prop where
  lower : -2 ^ (bits - 1) ≤ number
  upper : number < 2 ^ (bits - 1)
  congruent : (2 ^ bits : Int) ∣ number - value.toNat

variable {bits : Nat}

/-- There is just one such number: the balanced remainder. -/
theorem denotes_iff (hpositive : 0 < bits) {value : Word} {number : Int} :
    Denotes bits value number ↔ (value.toNat : Int).bmod (2 ^ bits) = number := by
  have hhalves : (2 : Int) ^ (bits - 1) + 2 ^ (bits - 1) = ((2 ^ bits : Nat) : Int) := by
    exact_mod_cast Nat.two_pow_pred_add_two_pow_pred hpositive
  have hcast : ((2 ^ bits : Nat) : Int) = 2 ^ bits := Int.natCast_pow 2 bits
  rw [Int.bmod_eq_iff (Nat.two_pow_pos bits)]
  constructor
  · rintro ⟨hlower, hupper, hcongruent⟩
    exact ⟨by omega, by omega, hcast ▸ hcongruent⟩
  · rintro ⟨hlower, hupper, hcongruent⟩
    exact ⟨by omega, by omega, hcast ▸ hcongruent⟩

theorem toInt_signExtend (hpositive : 0 < bits) (hbits : bits < 32) (value : Word) :
    (signExtend bits value).toInt = (value.toNat : Int).bmod (2 ^ bits) := by
  rw [signExtend_eq hpositive hbits, BitVec.toInt_signExtend_of_le (by omega), BitVec.toInt_setWidth]

/-- The field itself is kept, so that it can be widened again. -/
theorem setWidth_signExtend (hpositive : 0 < bits) (hbits : bits < 32) (value : Word) :
    (signExtend bits value).setWidth bits = value.setWidth bits := by
  apply BitVec.eq_of_getLsbD_eq
  intro i hi
  have hword : i < 32 := by omega
  rw [signExtend_eq hpositive hbits, BitVec.getLsbD_setWidth, BitVec.getLsbD_signExtend, if_pos hi]
  simp only [hi, hword, decide_true, Bool.true_and]

theorem signExtend_eq_iff (hpositive : 0 < bits) (hbits : bits < 32) {first second : Word} :
    signExtend bits first = signExtend bits second ↔ ∀ i < bits, first.getLsbD i = second.getLsbD i := by
  constructor
  · intro h i hi
    have hwidth : first.setWidth bits = second.setWidth bits := by
      rw [← setWidth_signExtend hpositive hbits first, h, setWidth_signExtend hpositive hbits]
    have hbit := congrArg (BitVec.getLsbD · i) hwidth
    simpa only [BitVec.getLsbD_setWidth, hi, decide_true, Bool.true_and] using hbit
  · intro h
    refine signExtend_congr hpositive hbits (BitVec.eq_of_getLsbD_eq fun i hi => ?_)
    simp only [BitVec.getLsbD_setWidth, h i hi]

/-- Adding words adds the numbers that they stand for, the second one signed, up to a multiple of what a word
    can count. -/
theorem toNat_add_eq_emod (base word : Word) :
    ((base + word).toNat : Int) = (base.toNat + word.toInt) % 2 ^ 32 := by
  rw [BitVec.toNat_add, BitVec.toInt_eq_toNat_bmod]
  have hcongruent : (2 ^ 32 : Int) ∣ (word.toNat : Int).bmod (2 ^ 32) - word.toNat :=
    Int.dvd_bmod_sub_self
  omega

/-- The operands of an instruction lie in the low bits of its word. -/
theorem Instruction.signExtend_field (i : Instruction) (hpositive : 0 < bits) (hbits : bits ≤ 24) :
    signExtend bits i.field = signExtend bits i.word := by
  refine signExtend_congr hpositive (by omega) (BitVec.eq_of_getLsbD_eq fun j hj => ?_)
  have hlow : j < 24 := by omega
  rw [BitVec.getLsbD_setWidth, BitVec.getLsbD_setWidth, word, BitVec.getLsbD_append, if_pos hlow]

/-- Sign extension is exact at every width below that of a word, and for every word. The widened field stands
    for the only number in the range of its width that is congruent to the word. Hence it depends on the bits
    of the field alone, and widening it again changes nothing. Added to a base as an offset or a displacement,
    or to an operand as an immediate, it adds that number modulo `2 ^ 32`. The signed operands of an
    instruction are such fields of its word. -/
theorem signExtend_exact (hpositive : 0 < bits) (hbits : bits < 32) (value : Word) :
    let field := signExtend bits value
    (∀ number : Int, Denotes bits value number ↔ number = field.toInt) ∧
    (∀ other : Word, signExtend bits other = field ↔ ∀ i < bits, other.getLsbD i = value.getLsbD i) ∧
    signExtend bits field = field ∧
    (∀ base : Word, ((effectiveAddress base field).toNat : Int) = (base.toNat + field.toInt) % 2 ^ 32 ∧
      ((AluOp.add.compute base field).result.toNat : Int) = (base.toNat + field.toInt) % 2 ^ 32) ∧
    ∀ i : Instruction, i.immediate = signExtend 19 i.word ∧ i.offset = signExtend 14 i.word ∧
      i.displacement = signExtend 24 i.word := by
  intro field
  refine ⟨fun number => ?_, fun other => signExtend_eq_iff hpositive hbits, ?_, fun base => ?_, fun i => ?_⟩
  · rw [denotes_iff hpositive, ← toInt_signExtend hpositive hbits, eq_comm]
  · exact signExtend_congr hpositive hbits (setWidth_signExtend hpositive hbits value)
  · exact ⟨toNat_add_eq_emod base field, toNat_add_eq_emod base field⟩
  · exact ⟨i.signExtend_field (by decide) (by decide), i.signExtend_field (by decide) (by decide),
      i.signExtend_field (by decide) (by decide)⟩

/-- The offset of a load from four bytes below its base register. Loading from address zero, it wraps to the
    last word of the address space. -/
theorem signExtend_exact_offset :
    let load : Word := 0x04193FFC
    Denotes 14 load (-4) ∧ signExtend 14 (0xFFFFFFFC : Word) = signExtend 14 load ∧
      ((effectiveAddress 0 (signExtend 14 load)).toNat : Int) = 0xFFFFFFFC := by
  intro load
  obtain ⟨hdenotes, hfield, -, hadded, -⟩ := signExtend_exact (show 0 < 14 by decide) (by decide) load
  have hnumber : -4 = (signExtend 14 load).toInt := by decide
  refine ⟨(hdenotes (-4)).2 hnumber, (hfield 0xFFFFFFFC).2 (by decide), ?_⟩
  rw [(hadded 0).1, ← hnumber]
  rfl

end Risc32
