import Mathlib.Algebra.Group.Int.Defs
import Risc32.Instruction.Operands
import Risc32.Peripheral
import Risc32.Proofs.Machine.Computing

namespace Risc32

namespace Condition

/-- What the condition says about two numbers that have been compared. Overflow is a property of their
    difference: that no word can hold it. -/
def relates (a b : Int) : Condition → Bool
  | always => true
  | equal => a = b
  | notEqual => a ≠ b
  | less => a < b
  | greater => a > b
  | lessOrEqual => a ≤ b
  | greaterOrEqual => a ≥ b
  | overflow => a - b < -2 ^ 31 ∨ 2 ^ 31 ≤ a - b
  | noOverflow => -2 ^ 31 ≤ a - b ∧ a - b < 2 ^ 31

/-- The conditions that learn the order of two numbers from the sign of their difference. -/
def readsSign : Condition → Bool
  | less | greater | lessOrEqual | greaterOrEqual => true
  | _ => false

end Condition

/-- A difference shows the order of its operands in its sign, unless it overflows: then the sign is the
    opposite one. -/
theorem msb_sub_eq (a b : Word) : (a - b).msb = (decide (a.toInt < b.toInt) ^^ a.ssubOverflow b) := by
  have ha := a.toInt_lt
  have hb := b.toInt_lt
  have hale := a.le_toInt
  have hble := b.le_toInt
  rw [BitVec.msb_eq_toInt, BitVec.toInt_sub, BitVec.ssubOverflow, Int.bmod]
  grind

theorem sub_beq_zero (a b : Word) : (a - b == 0) = decide (a.toInt = b.toInt) := by
  have hzero : a - b = 0 ↔ a = b := by grind
  rw [Bool.eq_iff_iff, beq_iff_eq, decide_eq_true_iff, hzero, BitVec.toInt_inj]

/-- Words that are equal have a difference of zero, which does not overflow. -/
theorem toInt_ne_of_ssubOverflow {a b : Word} (h : a.ssubOverflow b = true) : a.toInt ≠ b.toInt := by
  intro heq
  simp [BitVec.ssubOverflow, heq] at h

/-- After a comparison a condition holds when it is true of the numbers compared, but for those that read
    the sign of a difference that has overflowed. -/
theorem Condition.holds_compared (condition : Condition) (flags : Flags) (a b : Word) :
    condition.holds ((subWithFlags a b).update.apply flags) =
      (condition.relates a.toInt b.toInt ^^ (condition.readsSign && a.ssubOverflow b)) := by
  have hflags : (subWithFlags a b).update.apply flags =
      { flags with
        zero := decide (a.toInt = b.toInt)
        negative := decide (a.toInt < b.toInt) ^^ a.ssubOverflow b
        overflow := a.ssubOverflow b } := by
    rw [← sub_beq_zero, ← msb_sub_eq, ← subOverflows_sub]
    rfl
  have hne := toInt_ne_of_ssubOverflow (a := a) (b := b)
  rw [hflags]
  cases condition with
  | always => rfl
  | equal => simp [holds, relates, readsSign]
  | notEqual => simp [holds, relates, readsSign]
  | overflow => simp [holds, relates, readsSign, BitVec.ssubOverflow, or_comm]
  | noOverflow =>
    simp only [holds, relates, readsSign, BitVec.ssubOverflow]
    grind
  | less => simp [holds, relates, readsSign]
  | _ =>
    simp only [holds, relates, readsSign, Bool.true_and]
    cases hoverflow : a.ssubOverflow b <;> grind

namespace Machine

variable {δ : Type} [Device δ] {m : Machine δ} {i : Instruction}

/-- A comparison of registers that the code may read does nothing but set the condition flags. -/
theorem run_compare (hopcode : i.opcode = .compare)
    (hfirst : RegisterFile.admits m.flags.privileged i.r0 = true)
    (hsecond : RegisterFile.admits m.flags.privileged i.r1 = true) :
    (execute i).run m = .ok .next
      { m with
        flags := (subWithFlags (m.registers.get i.r0) (m.registers.get i.r1)).update.apply m.flags } := by
  have hadmitted : m.admitsAll [i.r0, i.r1] = true := by
    rw [admitsAll_cons, admitsAll_cons, hfirst, hsecond]
    rfl
  rw [run_comparison hopcode, if_pos hadmitted]

theorem run_jump {condition : Condition} (hopcode : i.opcode = .jump condition) (m : Machine δ) :
    (execute i).run m = .ok .next
      (if condition.holds m.flags then m.setPc (effectiveAddress m.pc i.displacement) else m) := by
  simp only [execute, hopcode, Opcode.isPrivileged, Bool.false_eq_true, if_false, executeJump,
    EStateM.run_bind, EStateM.run_pure, EStateM.run_get]
  cases condition.holds m.flags <;> rfl

/-- A comparison of two registers that the code may read succeeds, whatever the machine, and a jump that
    follows it goes by the numbers that the registers held. It is taken exactly when its condition is true of
    them, unless the condition reads the sign of their difference and the difference overflows: in that case
    it is taken exactly when its condition is false. -/
theorem compare_then_jump (m : Machine δ) (compare jump : Instruction) {condition : Condition}
    (hcompare : compare.opcode = .compare) (hjump : jump.opcode = .jump condition)
    (hfirst : RegisterFile.admits m.flags.privileged compare.r0 = true)
    (hsecond : RegisterFile.admits m.flags.privileged compare.r1 = true) :
    let a := m.registers.get compare.r0
    let b := m.registers.get compare.r1
    let taken := condition.relates a.toInt b.toInt ^^ (condition.readsSign && a.ssubOverflow b)
    ∃ after, (execute compare).run m = .ok .next after ∧ after = { m with flags := after.flags } ∧
      (execute jump).run after = .ok .next
        (if taken then after.setPc (effectiveAddress after.pc jump.displacement) else after) := by
  intro a b taken
  refine ⟨_, run_compare hcompare hfirst hsecond, rfl, ?_⟩
  rw [run_jump hjump, Condition.holds_compared]

/-- A machine whose first two registers hold the given words. -/
def holding (a b : Word) : Machine Peripheral :=
  let built := assemble .standard ⟨0, 1, 1⟩ (Memory.zeros 64) (Memory.zeros 0)
  { built with registers := (built.registers.set ⟨0⟩ a).set ⟨1⟩ b }

/-- A comparison of the first two registers. -/
def compareHeld : Instruction :=
  ⟨.compare, (Operands.registers ⟨0⟩ ⟨1⟩ .zero).field⟩

/-- Minus three is less than five, and the jump is taken. -/
theorem compare_then_jump_less :
    let m := holding (-3) 5
    (m.registers.get compareHeld.r0).toInt < (m.registers.get compareHeld.r1).toInt ∧
    ∃ after, (execute compareHeld).run m = .ok .next after ∧
      (execute ⟨.jump .less, 8⟩).run after = .ok .next (after.setPc (effectiveAddress after.pc 8)) := by
  intro m
  obtain ⟨after, hcompare, -, hjump⟩ :=
    compare_then_jump m compareHeld ⟨.jump .less, 8⟩ rfl rfl rfl rfl
  exact ⟨by decide, after, hcompare, hjump⟩

/-- The least number is less than one, but no word holds their difference: the jump is not taken. -/
theorem jump_on_less_misled :
    let m := holding (BitVec.intMin 32) 1
    (m.registers.get compareHeld.r0).toInt < (m.registers.get compareHeld.r1).toInt ∧
    ∃ after, (execute compareHeld).run m = .ok .next after ∧
      (execute ⟨.jump .less, 8⟩).run after = .ok .next after ∧
      after.pc ≠ effectiveAddress after.pc 8 :=
  ⟨by decide, _, rfl, rfl, by decide⟩

end Machine

end Risc32
