import Risc32.Machine.Execute

namespace Risc32

/-- An immediate operand is a signed field of 19 bits. -/
theorem Instruction.immediate_eq (i : Instruction) : i.immediate = (i.field.setWidth 19).signExtend 32 :=
  signExtend_eq (by decide) (by decide) i.field

namespace Machine

variable {δ : Type} {i : Instruction}

/-- Whether the running code may name all of the registers. -/
def admitsAll (m : Machine δ) (registers : List Register) : Bool :=
  registers.all (RegisterFile.admits m.flags.privileged)

/-- The machine in which a result has been written to a register and reported in the flags. -/
def committed (m : Machine δ) (r : Register) (computed : Computed) : Machine δ :=
  { m with
    registers := m.registers.set r computed.result
    flags := computed.update.apply m.flags }

theorem admitsAll_cons (m : Machine δ) (r : Register) (rest : List Register) :
    m.admitsAll (r :: rest) = (RegisterFile.admits m.flags.privileged r && m.admitsAll rest) :=
  rfl

theorem admitsAll_nil (m : Machine δ) : m.admitsAll [] = true :=
  rfl

theorem run_commit (r : Register) (computed : Computed) (m : Machine δ) :
    (commit r computed).run m =
      if RegisterFile.admits m.flags.privileged r then .ok () (m.committed r computed)
      else .error .privilege m := by
  rw [commit, EStateM.run_bind, run_writeRegister]
  cases RegisterFile.admits m.flags.privileged r <;> rfl

variable [Device δ]

/-- An operation on two registers ends in its result, in a division by zero or in the refusal of one of the
    three registers. -/
theorem run_alu {op : AluOp} (hopcode : i.opcode = .alu op) (m : Machine δ) :
    (execute i).run m =
      if m.admitsAll [i.r0, i.r1, i.r2] then
        match op.eval (m.registers.get i.r1) (m.registers.get i.r2) with
        | .ok computed => .ok .next (m.committed i.r0 computed)
        | .error fault => .error fault m
      else .error .privilege m := by
  simp only [execute, hopcode, Opcode.isPrivileged, Bool.false_eq_true, if_false, executeAlu,
    EStateM.run_bind, EStateM.run_pure, run_requireAdmitted, run_readRegister, admitsAll_cons, admitsAll_nil]
  obtain h0 | h0 := (RegisterFile.admits m.flags.privileged i.r0).eq_false_or_eq_true
  · obtain h1 | h1 := (RegisterFile.admits m.flags.privileged i.r1).eq_false_or_eq_true
    · obtain h2 | h2 := (RegisterFile.admits m.flags.privileged i.r2).eq_false_or_eq_true
      · simp only [h0, h1, h2, if_true, Bool.and_self]
        cases op.eval (m.registers.get i.r1) (m.registers.get i.r2) with
        | error fault => simp only [Exec.run_lift_error]
        | ok computed => simp only [Exec.run_lift_ok, run_commit, h0, if_true]
      · simp [h0, h1, h2]
    · simp [h0, h1]
  · simp [h0]

/-- An operation with an immediate operand reads the register that it writes. -/
theorem run_immediate {op : ImmediateOp} (hopcode : i.opcode = .immediate op) (m : Machine δ) :
    (execute i).run m =
      if m.admitsAll [i.r0] then
        .ok .next (m.committed i.r0 (op.compute (m.registers.get i.r0) i.immediate))
      else .error .privilege m := by
  simp only [execute, hopcode, Opcode.isPrivileged, Bool.false_eq_true, if_false, executeImmediate,
    EStateM.run_bind, EStateM.run_pure, run_readRegister, admitsAll_cons, admitsAll_nil]
  obtain h0 | h0 := (RegisterFile.admits m.flags.privileged i.r0).eq_false_or_eq_true
  · simp only [h0, if_true, Bool.and_self, run_commit]
  · simp [h0]

/-- A comparison is a subtraction that writes no register. -/
theorem run_comparison (hopcode : i.opcode = .compare) (m : Machine δ) :
    (execute i).run m =
      if m.admitsAll [i.r0, i.r1] then
        .ok .next
          { m with
            flags := (subWithFlags (m.registers.get i.r0) (m.registers.get i.r1)).update.apply m.flags }
      else .error .privilege m := by
  simp only [execute, hopcode, Opcode.isPrivileged, Bool.false_eq_true, if_false, EStateM.run_bind,
    EStateM.run_pure, run_readRegister, admitsAll_cons, admitsAll_nil]
  obtain h0 | h0 := (RegisterFile.admits m.flags.privileged i.r0).eq_false_or_eq_true
  · obtain h1 | h1 := (RegisterFile.admits m.flags.privileged i.r1).eq_false_or_eq_true
    · simp only [h0, h1, if_true, Bool.and_self]
      rfl
    · simp [h0, h1]
  · simp [h0]

end Machine

end Risc32
