import Risc32.Machine.Execute

namespace Risc32.Machine

variable {δ : Type} [Device δ] {m : Machine δ} {i : Instruction}

theorem run_getSavedPc (hopcode : i.opcode = .getSavedPc) (hprivileged : m.flags.privileged = true) :
    (execute i).run m = .ok .next { m with registers := m.registers.set i.r0 m.savedPc } := by
  simp only [execute, hopcode, Opcode.isPrivileged, if_true, EStateM.run_bind, EStateM.run_get,
    run_requirePrivilege, hprivileged, run_writeRegister, RegisterFile.admits, Bool.true_or]
  rfl

theorem run_getSavedFlags (hopcode : i.opcode = .getSavedFlags) (hprivileged : m.flags.privileged = true) :
    (execute i).run m = .ok .next { m with registers := m.registers.set i.r0 m.savedFlags } := by
  simp only [execute, hopcode, Opcode.isPrivileged, if_true, EStateM.run_bind, EStateM.run_get,
    run_requirePrivilege, hprivileged, run_writeRegister, RegisterFile.admits, Bool.true_or]
  rfl

theorem run_setFlags (hopcode : i.opcode = .setFlags) (hprivileged : m.flags.privileged = true) :
    (execute i).run m = .ok .next { m with flags := m.flags.restore (m.registers.get i.r0) } := by
  simp only [execute, hopcode, Opcode.isPrivileged, if_true, EStateM.run_bind, run_requirePrivilege,
    hprivileged, run_readRegister, RegisterFile.admits, Bool.true_or]
  rfl

theorem run_leavePrivileged (hopcode : i.opcode = .leavePrivileged)
    (hprivileged : m.flags.privileged = true) :
    (execute i).run m = .ok .next
      (setPc { m with flags := { m.flags with privileged := false } } (m.registers.get i.r0)) := by
  simp only [execute, hopcode, Opcode.isPrivileged, if_true, EStateM.run_bind, run_requirePrivilege,
    hprivileged, run_readRegister, RegisterFile.admits, Bool.true_or]
  rfl

end Risc32.Machine
