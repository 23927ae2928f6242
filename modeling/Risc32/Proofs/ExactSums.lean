import Mathlib.Algebra.Group.Int.Defs
import Risc32.Instruction.Operands
import Risc32.Peripheral
import Risc32.Proofs.Machine.Computing

namespace Risc32

/-- What becomes of a number that an addition or a subtraction comes to: the word congruent to it, and
    overflow when no word stands for the number. -/
def Computed.ofSum (exact : Int) : Computed :=
  .ofArithmetic (BitVec.ofInt 32 exact) (decide (exact < -2 ^ 31 ∨ 2 ^ 31 ≤ exact))

theorem addWithFlags_eq_ofSum (a b : Word) : addWithFlags a b = .ofSum (a.toInt + b.toInt) := by
  rw [addWithFlags, addOverflows_add, Computed.ofSum, BitVec.ofInt_add, BitVec.ofInt_toInt,
    BitVec.ofInt_toInt, BitVec.saddOverflow]
  congr 1
  grind

theorem subWithFlags_eq_ofSum (a b : Word) : subWithFlags a b = .ofSum (a.toInt - b.toInt) := by
  rw [subWithFlags, subOverflows_sub, Computed.ofSum, Int.sub_eq_add_neg, BitVec.ofInt_add, BitVec.ofInt_neg,
    BitVec.ofInt_toInt, BitVec.ofInt_toInt, BitVec.ssubOverflow, BitVec.sub_eq_add_neg]
  congr 1
  grind

/-- An immediate operand stands for the number in its field. -/
theorem Instruction.toInt_immediate (i : Instruction) :
    i.immediate.toInt = (i.field.setWidth 19).toInt := by
  rw [immediate_eq, BitVec.toInt_signExtend_of_le (by decide)]

/-- A sum or a difference of signed numbers that an instruction computes: the registers that it names, the one
    that takes the result, if any does, and the exact value. -/
structure ExactSum where
  named : List Register
  destination : Option Register
  value : Int
deriving DecidableEq, Repr

/-- The sum or difference that an instruction computes on a machine. -/
def Instruction.sum? {δ : Type} (i : Instruction) (m : Machine δ) : Option ExactSum :=
  let number (r : Register) : Int := (m.registers.get r).toInt
  match i.opcode with
  | .alu .add => some ⟨[i.r0, i.r1, i.r2], some i.r0, number i.r1 + number i.r2⟩
  | .alu .sub => some ⟨[i.r0, i.r1, i.r2], some i.r0, number i.r1 - number i.r2⟩
  | .immediate .add => some ⟨[i.r0], some i.r0, number i.r0 + (i.field.setWidth 19).toInt⟩
  | .compare => some ⟨[i.r0, i.r1], none, number i.r0 - number i.r1⟩
  | _ => none

namespace Machine

variable {δ : Type} {i : Instruction}

/-- The machine after a sum or a difference has been computed: the result is where it belongs, the condition
    flags describe it, and everything else is as before. -/
structure Summed (sum : ExactSum) (result : Word) (before after : Machine δ) : Prop where
  congruent : (result.toNat : Int) = sum.value % 2 ^ 32
  registers : ∀ r, after.registers.get r =
    if sum.destination = some r then if r = .zero then 0 else result else before.registers.get r
  zero : after.flags.zero = true ↔ result = 0
  negative : after.flags.negative = true ↔ result.toInt < 0
  overflow : after.flags.overflow = true ↔ sum.value < -2 ^ 31 ∨ 2 ^ 31 ≤ sum.value
  rest : after =
    { before with
      registers := after.registers
      flags := { after.flags with privileged := before.flags.privileged } }

/-- A machine whose flags report the number, and whose registers have taken the result where it belongs, holds
    the sum. -/
theorem Summed.of_reported {m : Machine δ} {sum : ExactSum} {file : RegisterFile}
    (hfile : ∀ r, file.get r = if sum.destination = some r then
      if r = .zero then 0 else BitVec.ofInt 32 sum.value else m.registers.get r) :
    Summed sum (BitVec.ofInt 32 sum.value) m
      { m with registers := file, flags := (Computed.ofSum sum.value).update.apply m.flags } where
  congruent := by
    rw [BitVec.toNat_ofInt]
    exact Int.toNat_of_nonneg (Int.emod_nonneg _ (by decide))
  registers := hfile
  zero := beq_iff_eq
  negative := by
    show (BitVec.ofInt 32 sum.value).msb = true ↔ _
    rw [BitVec.msb_eq_toInt, decide_eq_true_iff]
  overflow := decide_eq_true_iff
  rest := rfl

theorem summed_committed (m : Machine δ) (named : List Register) (r : Register) (value : Int) :
    Summed ⟨named, some r, value⟩ (BitVec.ofInt 32 value) m (m.committed r (.ofSum value)) := by
  refine .of_reported fun s => ?_
  by_cases hs : r = s
  · subst hs
    rw [if_pos rfl]
    exact RegisterFile.get_set _ _ _
  · rw [if_neg (by simpa using hs)]
    exact RegisterFile.get_set_of_ne _ _ hs

/-- A comparison reports the difference and writes it nowhere. -/
theorem summed_reported (m : Machine δ) (named : List Register) (value : Int) :
    Summed ⟨named, none, value⟩ (BitVec.ofInt 32 value) m
      { m with flags := (Computed.ofSum value).update.apply m.flags } := by
  refine .of_reported fun r => ?_
  rw [if_neg (by simp)]

variable [Device δ]

/-- Either the instruction is refused, or the sum is there afterwards. -/
theorem ends_of_run {m after : Machine δ} {sum : ExactSum} {result : Word}
    (hrun : (execute i).run m =
      if m.admitsAll sum.named then .ok .next after else .error .privilege m)
    (hsummed : Summed sum result m after) :
    if m.admitsAll sum.named then
      ∃ result after, (execute i).run m = .ok .next after ∧ Summed sum result m after
    else (execute i).run m = .error .privilege m := by
  rw [hrun]
  split
  · exact ⟨result, after, rfl, hsummed⟩
  · rfl

/-- An addition, a subtraction or a comparison is exact on every machine, whichever registers it names and
    whether or not they are the same. It is refused, without an effect, exactly when the running code may not
    name one of them. Otherwise the result is the word congruent to the exact sum or difference of the signed
    numbers in the operands, and the flags tell whether this word is zero, whether it is negative, and whether
    the exact number is out of its range. -/
theorem sum_exact (m : Machine δ) {sum : ExactSum} (hsum : i.sum? m = some sum) :
    if m.admitsAll sum.named then
      ∃ result after, (execute i).run m = .ok .next after ∧ Summed sum result m after
    else (execute i).run m = .error .privilege m := by
  unfold Instruction.sum? at hsum
  split at hsum
  next hopcode =>
    cases hsum
    refine ends_of_run ?_ (summed_committed m _ _ _)
    rw [run_alu hopcode, ← addWithFlags_eq_ofSum]
    rfl
  next hopcode =>
    cases hsum
    refine ends_of_run ?_ (summed_committed m _ _ _)
    rw [run_alu hopcode, ← subWithFlags_eq_ofSum]
    rfl
  next hopcode =>
    cases hsum
    refine ends_of_run ?_ (summed_committed m _ _ _)
    rw [run_immediate hopcode, ← i.toInt_immediate, ← addWithFlags_eq_ofSum]
    rfl
  next hopcode =>
    cases hsum
    refine ends_of_run ?_ (summed_reported m _ _)
    rw [run_comparison hopcode, ← subWithFlags_eq_ofSum]
  next => cases hsum

/-- Adding minus one to the least number, in the register that takes the result, wraps to the greatest one. -/
theorem sum_exact_wrapped :
    let built : Machine Peripheral := assemble .standard ⟨0, 1, 1⟩ (Memory.zeros 64) (Memory.zeros 0)
    let m := { built with registers := built.registers.set ⟨3⟩ (BitVec.intMin 32) }
    let i : Instruction := ⟨.immediate .add, (Operands.immediate ⟨3⟩ (-1)).field⟩
    i.sum? m = some ⟨[⟨3⟩], some ⟨3⟩, -2 ^ 31 - 1⟩ ∧
    ∃ after, (execute i).run m = .ok .next after ∧ after.registers.get ⟨3⟩ = BitVec.intMax 32 ∧
      after.flags.negative = false ∧ after.flags.overflow = true := by
  intro built m i
  have hsum : i.sum? m = some ⟨[⟨3⟩], some ⟨3⟩, -2 ^ 31 - 1⟩ := by decide +kernel
  have hends := sum_exact m hsum
  rw [if_pos (by decide +kernel)] at hends
  obtain ⟨result, after, hrun, hsummed⟩ := hends
  have hresult : result = BitVec.intMax 32 := by
    apply BitVec.eq_of_toNat_eq
    have hcongruent := hsummed.congruent
    rw [show (-2 ^ 31 - 1 : Int) % 2 ^ 32 = (BitVec.intMax 32).toNat by decide] at hcongruent
    exact Int.ofNat.inj hcongruent
  subst hresult
  refine ⟨hsum, after, hrun, hsummed.registers ⟨3⟩, ?_, hsummed.overflow.2 (by decide)⟩
  rw [Bool.eq_false_iff, ne_eq, hsummed.negative]
  decide

end Machine

end Risc32
