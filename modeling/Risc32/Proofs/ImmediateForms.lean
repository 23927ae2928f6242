import Risc32.Instruction.Operands
import Risc32.Peripheral
import Risc32.Proofs.Machine.Computing

namespace Risc32.Machine

variable {δ : Type} [Device δ]

/-- No operation with an immediate operand divides, so its result always exists. -/
theorem eval_toAluOp (op : ImmediateOp) (a b : Word) :
    op.toAluOp.eval a b = .ok (op.compute a b) := by
  have hdivides : op.toAluOp.divides = false := by cases op <;> rfl
  rw [AluOp.eval, hdivides, Bool.false_and, if_neg Bool.false_ne_true, compute_toAluOp]

/-- An operation with an immediate operand is named for the operation on registers that it stands for, and
    has the same effect on every machine, the same fault included, when the second register may be read and
    holds the immediate, which is a signed field of 19 bits. The first operand and the destination are one
    register, which may be any. -/
theorem immediate_eq_registers {op : ImmediateOp} {i j : Instruction} {m : Machine δ}
    (himmediate : i.opcode = .immediate op) (hregisters : j.opcode = .alu op.toAluOp)
    (hdestination : j.r0 = i.r0) (hfirst : j.r1 = i.r0)
    (hreadable : RegisterFile.admits m.flags.privileged j.r2 = true)
    (hvalue : m.registers.get j.r2 = (i.field.setWidth 19).signExtend 32) :
    i.opcode.mnemonic = j.opcode.mnemonic ++ "I" ∧ (execute i).run m = (execute j).run m := by
  refine ⟨?_, ?_⟩
  · rw [himmediate, hregisters]
    cases op <;> rfl
  · have hadmitted : m.admitsAll [j.r0, j.r1, j.r2] = m.admitsAll [i.r0] := by
      simp only [admitsAll_cons, admitsAll_nil, hdestination, hfirst, hreadable, Bool.and_true, Bool.and_self]
    rw [run_immediate himmediate, run_alu hregisters, hadmitted, hvalue, hfirst, hdestination, eval_toAluOp,
      i.immediate_eq]

/-- Shifting the program counter to the right by an immediate whose low five bits count, and by a register. -/
theorem immediate_eq_registers_shift :
    let built : Machine Peripheral := assemble .standard ⟨0, 1, 1⟩ (Memory.zeros 64) (Memory.zeros 0)
    let m := { built with registers := (built.registers.setPc 0xFFFF0000).set ⟨2⟩ (-28) }
    let i : Instruction := ⟨.immediate .shiftRightSigned, (Operands.immediate .programCounter (-28)).field⟩
    let j : Instruction :=
      ⟨.alu .shiftRightSigned, (Operands.registers .programCounter .programCounter ⟨2⟩).field⟩
    (execute i).run m = (execute j).run m ∧
      ∃ after, (execute j).run m = .ok .next after ∧ after.pc = 0xFFFFF000 := by
  intro built m i j
  have hfields : j.r0 = i.r0 ∧ j.r1 = i.r0 := by decide +kernel
  have hsecond : RegisterFile.admits m.flags.privileged j.r2 = true ∧
      m.registers.get j.r2 = (i.field.setWidth 19).signExtend 32 := by
    decide +kernel
  obtain ⟨-, hsame⟩ := immediate_eq_registers rfl rfl hfields.1 hfields.2 hsecond.1 hsecond.2
  exact ⟨hsame, _, rfl, by decide +kernel⟩

end Risc32.Machine
