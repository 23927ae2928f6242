import Risc32.Flags.Update
import Risc32.Machine

namespace Risc32

/-- A computation on a machine that may end in a fault. What it did before the fault stays done:
    a device that was asked has been asked. -/
abbrev Exec (δ : Type) := EStateM Fault (Machine δ)

namespace Exec

variable {δ α : Type}

/-- The value, or the fault that stands in its place. -/
def lift : Except Fault α → Exec δ α
  | .ok value => pure value
  | .error fault => throw fault

@[simp]
theorem run_lift_ok (value : α) (m : Machine δ) : (lift (.ok value) : Exec δ α).run m = .ok value m := rfl

@[simp]
theorem run_lift_error (fault : Fault) (m : Machine δ) :
    (lift (.error fault) : Exec δ α).run m = .error fault m := rfl

end Exec

namespace Machine

variable {δ : Type}

def requirePrivilege : Exec δ Unit := do
  let m ← get
  unless m.flags.privileged do
    throw .privilege

/-- Faults if the running code may not name the register. -/
def requireAdmitted (r : Register) : Exec δ Unit := do
  let m ← get
  unless RegisterFile.admits m.flags.privileged r do
    throw .privilege

def readRegister (r : Register) : Exec δ Word := do
  let m ← get
  Exec.lift (m.registers.read m.flags.privileged r)

def writeRegister (r : Register) (value : Word) : Exec δ Unit := do
  let m ← get
  let registers ← Exec.lift (m.registers.write m.flags.privileged r value)
  set { m with registers := registers }

def updateFlags (update : FlagsUpdate) : Exec δ Unit :=
  modify fun m => { m with flags := update.apply m.flags }

def jumpTo (address : Word) : Exec δ Unit :=
  modify fun m => m.setPc address

/-- Asks the bus and keeps what becomes of it. -/
def askBus {α : Type} (question : Bus δ → α × Bus δ) : Exec δ α :=
  modifyGet fun m =>
    let answer := question m.bus
    (answer.1, { m with bus := answer.2 })

theorem run_requirePrivilege (m : Machine δ) :
    requirePrivilege.run m = if m.flags.privileged then .ok () m else .error .privilege m := by
  by_cases h : m.flags.privileged <;> simp [requirePrivilege, h]

theorem run_requireAdmitted (r : Register) (m : Machine δ) :
    (requireAdmitted r).run m =
      if RegisterFile.admits m.flags.privileged r then .ok () m else .error .privilege m := by
  by_cases h : RegisterFile.admits m.flags.privileged r <;> simp [requireAdmitted, h]

theorem run_readRegister (r : Register) (m : Machine δ) :
    (readRegister r).run m =
      if RegisterFile.admits m.flags.privileged r then .ok (m.registers.get r) m
      else .error .privilege m := by
  by_cases h : RegisterFile.admits m.flags.privileged r <;> simp [readRegister, RegisterFile.read, h]

theorem run_writeRegister (r : Register) (value : Word) (m : Machine δ) :
    (writeRegister r value).run m =
      if RegisterFile.admits m.flags.privileged r then .ok () { m with registers := m.registers.set r value }
      else .error .privilege m := by
  by_cases h : RegisterFile.admits m.flags.privileged r <;> simp [writeRegister, RegisterFile.write, h]

end Machine

end Risc32
