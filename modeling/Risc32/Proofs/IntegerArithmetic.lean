import Mathlib.Algebra.Group.Int.Defs
import Mathlib.Algebra.Group.Nat.Defs
import Risc32.Proofs.Machine.Computing
import Risc32.Proofs.Machine.Footprint

namespace Risc32

/-- Quotient and remainder of words read as numbers without a sign. -/
def UnsignedDivision (a b quotient remainder : Word) : Prop :=
  a.toNat = quotient.toNat * b.toNat + remainder.toNat ∧ remainder.toNat < b.toNat

/-- Quotient and remainder of words read as signed numbers: the quotient is truncated towards zero, so that
    the remainder takes the sign of the dividend. -/
def SignedDivision (a b quotient remainder : Word) : Prop :=
  a.toInt = quotient.toInt * b.toInt + remainder.toInt ∧ remainder.toInt.natAbs < b.toInt.natAbs ∧
    (remainder.toInt = 0 ∨ remainder.toInt.sign = a.toInt.sign)

/-- The one signed quotient that no word can hold. -/
def QuotientTooLarge (a b : Word) : Prop :=
  a.toInt = -2 ^ 31 ∧ b.toInt = -1

theorem unsignedDivision (a : Word) {b : Word} (hb : b ≠ 0) : UnsignedDivision a b (a / b) (a % b) := by
  have hpos : 0 < b.toNat := Nat.pos_of_ne_zero (BitVec.toNat_ne.1 hb)
  refine ⟨?_, ?_⟩
  · rw [BitVec.toNat_udiv, BitVec.toNat_umod, Nat.mul_comm, Nat.div_add_mod]
  · rw [BitVec.toNat_umod]
    exact Nat.mod_lt _ hpos

theorem signedDivision {a b : Word} (hb : b ≠ 0) (hfits : ¬ QuotientTooLarge a b) :
    SignedDivision a b (a.sdiv b) (a.srem b) := by
  have hoperands : a ≠ BitVec.intMin 32 ∨ b ≠ -1#32 := by
    rw [Decidable.or_iff_not_imp_left, Decidable.not_not]
    rintro rfl rfl
    exact hfits ⟨rfl, rfl⟩
  have hquotient := BitVec.toInt_sdiv_of_ne_or_ne a b hoperands
  have hremainder := BitVec.toInt_srem a b
  have hdivisor : b.toInt ≠ 0 := BitVec.toInt_ne.2 hb
  refine ⟨?_, ?_, ?_⟩
  · rw [hquotient, hremainder, Int.mul_comm, Int.mul_tdiv_add_tmod]
  · rw [hremainder, Int.natAbs_tmod]
    exact Nat.mod_lt _ (Int.natAbs_pos.2 hdivisor)
  · rw [hremainder, Int.sign_tmod]
    by_cases hdvd : b.toInt ∣ a.toInt
    · exact .inl (Int.tmod_eq_zero_of_dvd hdvd)
    · exact .inr (if_neg hdvd)

/-- The quotient that is too large wraps, and nothing remains. -/
theorem sdiv_of_quotientTooLarge {a b : Word} (h : QuotientTooLarge a b) :
    (a.sdiv b).toInt = -2 ^ 31 ∧ (a.srem b).toInt = 0 := by
  obtain ⟨ha, hb⟩ := h
  have hmin : a = BitVec.intMin 32 := BitVec.eq_of_toInt_eq ha
  have hone : b = -1#32 := BitVec.eq_of_toInt_eq hb
  subst hmin hone
  refine ⟨?_, ?_⟩
  · rw [BitVec.intMin_sdiv_neg_one]
    rfl
  · rw [BitVec.toInt_srem, hb, Int.tmod_neg, Int.tmod_one]

/-- Signed and unsigned products have the same low word. -/
theorem ofInt_mul_toInt (a b : Word) : BitVec.ofInt 32 (a.toInt * b.toInt) = a * b := by
  rw [BitVec.ofInt_mul, BitVec.ofInt_toInt, BitVec.ofInt_toInt]

theorem toNat_shiftLeft_eq (a : Word) (k : Nat) : (a <<< k).toNat = a.toNat * 2 ^ k % 2 ^ 32 := by
  rw [BitVec.toNat_shiftLeft, Nat.shiftLeft_eq]

theorem toNat_shiftRight_eq (a : Word) (k : Nat) : (a >>> k).toNat = a.toNat / 2 ^ k := by
  rw [BitVec.toNat_ushiftRight, Nat.shiftRight_eq_div_pow]

/-- A signed shift to the right rounds towards minus infinity. -/
theorem toInt_sshiftRight_eq (a : Word) (k : Nat) : (a.sshiftRight k).toInt = a.toInt.fdiv (2 ^ k) := by
  rw [BitVec.toInt_sshiftRight, Int.shiftRight_eq_div_pow, Int.natCast_pow]
  exact (Int.fdiv_eq_ediv_of_nonneg _ (Int.pow_nonneg (by decide))).symm

namespace AluOp

theorem divides_iff {op : AluOp} : op.divides = true ↔ op ∈ [div, divUnsigned, rem, remUnsigned] := by
  cases op <;> simp [divides]

theorem eval_eq_error_iff {op : AluOp} {a b : Word} {fault : Fault} :
    op.eval a b = .error fault ↔ fault = .divideByZero ∧ op.divides = true ∧ b = 0 := by
  simp only [eval, Bool.and_eq_true, beq_iff_eq]
  by_cases hzero : op.divides = true ∧ b = 0
  · rw [if_pos hzero, Except.error.injEq, eq_comm]
    exact (and_iff_left hzero).symm
  · rw [if_neg hzero]
    exact iff_of_false (by simp) fun h => hzero h.2

/-- Whatever the operation, a divisor other than zero is no obstacle. -/
theorem eval_of_ne_zero (op : AluOp) (a : Word) {b : Word} (hb : b ≠ 0) :
    op.eval a b = .ok (op.compute a b) := by
  rw [eval, beq_eq_false_iff_ne.2 hb, Bool.and_false]
  rfl

theorem eq_compute_of_eval {op : AluOp} {a b : Word} {computed : Computed}
    (heval : op.eval a b = .ok computed) : computed = op.compute a b := by
  unfold eval at heval
  split at heval
  · cases heval
  · cases heval
    rfl

/-- Only sums and differences report an overflow. -/
theorem compute_overflow {op : AluOp} (hadd : op ≠ .add) (hsub : op ≠ .sub) (a b : Word) (flags : Flags) :
    ((op.compute a b).update.apply flags).overflow = flags.overflow := by
  have hkept : .overflow ∉ (op.compute a b).update.conditions := by
    rw [compute_conditions]
    cases op with
    | add => exact absurd rfl hadd
    | sub => exact absurd rfl hsub
    | _ => simp [conditions]
  exact FlagsUpdate.apply_condition hkept

end AluOp

namespace Machine

/-- What the operations on two words come to. The results are the ones that are committed when an instruction
    is executed, on every machine that holds the words in the registers named. -/
structure ComputesIntegers (a b : Word) : Prop where
  divideByZero : ∀ op ∈ [AluOp.div, .divUnsigned, .rem, .remUnsigned],
    op.eval a b = .error .divideByZero ↔ b = 0
  noOtherFault : ∀ (op : AluOp) fault, op.eval a b = .error fault →
    fault = .divideByZero ∧ op ∈ [AluOp.div, .divUnsigned, .rem, .remUnsigned]
  unsigned : b ≠ 0 → ∃ quotient remainder,
    AluOp.divUnsigned.eval a b = .ok (.ofProduct quotient) ∧
    AluOp.remUnsigned.eval a b = .ok (.ofProduct remainder) ∧ UnsignedDivision a b quotient remainder
  signed : b ≠ 0 → ∃ quotient remainder,
    AluOp.div.eval a b = .ok (.ofProduct quotient) ∧ AluOp.rem.eval a b = .ok (.ofProduct remainder) ∧
    (¬ QuotientTooLarge a b → SignedDivision a b quotient remainder) ∧
    (QuotientTooLarge a b → quotient.toInt = -2 ^ 31 ∧ remainder.toInt = 0)
  product : ∃ product : Word,
    AluOp.mul.eval a b = .ok (.ofProduct product) ∧ AluOp.mulUnsigned.eval a b = .ok (.ofProduct product) ∧
    product.toNat = a.toNat * b.toNat % 2 ^ 32
  shifts : ∃ left right signed : Word,
    AluOp.shiftLeft.eval a b = .ok (.ofBits left) ∧ left.toNat = a.toNat * 2 ^ (b.toNat % 32) % 2 ^ 32 ∧
    AluOp.shiftRight.eval a b = .ok (.ofBits right) ∧ right.toNat = a.toNat / 2 ^ (b.toNat % 32) ∧
    AluOp.shiftRightSigned.eval a b = .ok (.ofBits signed) ∧ signed.toInt = a.toInt.fdiv (2 ^ (b.toNat % 32))
  overflow : ∀ (op : AluOp) computed (flags : Flags), op ≠ .add → op ≠ .sub → op.eval a b = .ok computed →
    (computed.update.apply flags).overflow = flags.overflow
  executed : ∀ (δ : Type) [Device δ] (m : Machine δ) (i : Instruction) (op : AluOp), i.opcode = .alu op →
    m.registers.get i.r1 = a → m.registers.get i.r2 = b →
    (execute i).run m =
      if m.admitsAll [i.r0, i.r1, i.r2] then
        match op.eval a b with
        | .ok computed => .ok .next (m.committed i.r0 computed)
        | .error fault => .error fault m
      else .error .privilege m

/-- The operations on any two words are those of the integers. A division faults exactly when the divisor is
    zero, and nothing else faults. Quotient and remainder belong together, for numbers with and without a sign;
    the one signed quotient that is too large wraps. Both products are the product modulo two to the power of
    32. A shift multiplies or divides by the power of two that the low five bits of the second operand name,
    rounding down. None of these operations touches the overflow flag. -/
theorem integer_arithmetic (a b : Word) : ComputesIntegers a b where
  divideByZero op hop := by
    rw [AluOp.eval_eq_error_iff, AluOp.divides_iff]
    simp only [hop, true_and]
  noOtherFault op fault hfault := by
    obtain ⟨rfl, hdivides, -⟩ := AluOp.eval_eq_error_iff.1 hfault
    exact ⟨rfl, AluOp.divides_iff.1 hdivides⟩
  unsigned hb :=
    ⟨_, _, AluOp.eval_of_ne_zero _ a hb, AluOp.eval_of_ne_zero _ a hb, unsignedDivision a hb⟩
  signed hb :=
    ⟨_, _, AluOp.eval_of_ne_zero _ a hb, AluOp.eval_of_ne_zero _ a hb, signedDivision hb,
      sdiv_of_quotientTooLarge⟩
  product := ⟨a * b, by rw [← ofInt_mul_toInt]; rfl, rfl, BitVec.toNat_mul a b⟩
  shifts :=
    ⟨_, _, _, rfl, toNat_shiftLeft_eq a _, rfl, toNat_shiftRight_eq a _, rfl, toInt_sshiftRight_eq a _⟩
  overflow op computed flags hadd hsub heval := by
    obtain rfl := AluOp.eq_compute_of_eval heval
    exact AluOp.compute_overflow hadd hsub a b flags
  executed δ _ m i op hopcode ha hb := by
    subst ha hb
    exact run_alu hopcode m

end Machine

end Risc32
