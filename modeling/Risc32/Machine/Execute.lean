import Risc32.Arithmetic
import Risc32.Instruction
import Risc32.Machine.Stack

namespace Risc32

/-- What an instruction asks for beside its own effect. -/
inductive Flow where
  | next
  | softwareInterrupt (index : Word)
  | halt
  | kill
deriving DecidableEq, Repr

namespace Machine

variable {δ : Type} [Device δ]

def loadAt (width : Width) (address : Word) : Exec δ Word :=
  match width with
  | .word => readWord address
  | .byte => return (← readByte address).setWidth 32

def storeAt (width : Width) (address value : Word) : Exec δ Unit :=
  match width with
  | .word => writeWord address value
  | .byte => writeByte address (Word.byte value 3)

/-- Writes a computed result to a register and reports it in the flags. -/
def commit (r : Register) (computed : Computed) : Exec δ Unit := do
  writeRegister r computed.result
  updateFlags computed.update

def executeAlu (op : AluOp) (i : Instruction) : Exec δ Unit := do
  requireAdmitted i.r0
  let a ← readRegister i.r1
  let b ← readRegister i.r2
  commit i.r0 (← Exec.lift (op.eval a b))

def executeImmediate (op : ImmediateOp) (i : Instruction) : Exec δ Unit := do
  let a ← readRegister i.r0
  commit i.r0 (op.compute a i.immediate)

def executeLoad (width : Width) (i : Instruction) : Exec δ Unit := do
  requireAdmitted i.r0
  let address := effectiveAddress (← readRegister i.r1) i.offset
  writeRegister i.r0 (← loadAt width address)

def executeStore (width : Width) (i : Instruction) : Exec δ Unit := do
  let value ← readRegister i.r0
  let address := effectiveAddress (← readRegister i.r1) i.offset
  storeAt width address value

def executeJump (condition : Condition) (i : Instruction) : Exec δ Unit := do
  let m ← get
  if condition.holds m.flags then
    jumpTo (effectiveAddress m.pc i.displacement)

/-- Calls leave the address behind them on the stack. -/
def callTo (target : Word) : Exec δ Unit := do
  push (← get).pc
  jumpTo target

/-- An index without a slot is illegal even while interrupts are masked; with a slot it does nothing
    then. -/
def executeInterrupt (i : Instruction) : Exec δ Flow := do
  let m ← get
  if (m.vectors.softwareSlot? i.index).isNone then
    throw .illegalInstruction
  if m.interruptsMasked then
    return .next
  return .softwareInterrupt i.index

omit [Device δ] in
theorem run_executeInterrupt (i : Instruction) (m : Machine δ) :
    (executeInterrupt i).run m =
      if (m.vectors.softwareSlot? i.index).isNone then .error .illegalInstruction m
      else if m.interruptsMasked then .ok .next m
      else .ok (.softwareInterrupt i.index) m := by
  simp only [executeInterrupt, EStateM.run_bind, EStateM.run_get]
  by_cases hslot : (m.vectors.softwareSlot? i.index).isNone
  · simp only [hslot, if_true]
    rfl
  · by_cases hmasked : m.interruptsMasked
    · simp only [hslot, hmasked]
      rfl
    · simp only [hslot, hmasked]
      rfl

/-- Executes an instruction that has been fetched: the program counter already points behind it. -/
def execute (i : Instruction) : Exec δ Flow := do
  if i.opcode.isPrivileged then
    requirePrivilege
  match i.opcode with
  | .nop => return .next
  | .move =>
    writeRegister i.r0 (← readRegister i.r1)
    return .next
  | .loadUpper =>
    writeRegister i.r0 (i.upper ++ 0#16)
    return .next
  | .loadLower =>
    writeRegister i.r0 (i.upper.setWidth 32)
    return .next
  | .load width =>
    executeLoad width i
    return .next
  | .store width =>
    executeStore width i
    return .next
  | .alu op =>
    executeAlu op i
    return .next
  | .complement =>
    commit i.r0 (.ofBits (~~~(← readRegister i.r1)))
    return .next
  | .immediate op =>
    executeImmediate op i
    return .next
  | .compare =>
    updateFlags (subWithFlags (← readRegister i.r0) (← readRegister i.r1)).update
    return .next
  | .jump condition =>
    executeJump condition i
    return .next
  | .jumpRegister =>
    jumpTo (← readRegister i.r0)
    return .next
  | .call =>
    callTo (effectiveAddress (← get).pc i.displacement)
    return .next
  | .callRegister =>
    callTo (← readRegister i.r0)
    return .next
  | .ret =>
    jumpTo (← pop)
    return .next
  | .interrupt => executeInterrupt i
  | .push =>
    push (← readRegister i.r0)
    return .next
  | .pop =>
    requireAdmitted i.r0
    writeRegister i.r0 (← pop)
    return .next
  | .setWindowOffset =>
    writeRegister .windowOffset (← readRegister i.r0)
    return .next
  | .setWindowBound =>
    writeRegister .windowBound (← readRegister i.r0)
    return .next
  | .leavePrivileged =>
    let target ← readRegister i.r0
    modify fun m => { m with flags := { m.flags with privileged := false } }
    jumpTo target
    return .next
  | .maskInterrupts =>
    modify fun m => { m with interruptsMasked := true }
    return .next
  | .unmaskInterrupts =>
    modify fun m => { m with interruptsMasked := false }
    return .next
  | .getSavedFlags =>
    writeRegister i.r0 (← get).savedFlags
    return .next
  | .getSavedPc =>
    writeRegister i.r0 (← get).savedPc
    return .next
  | .setFlags =>
    let packed ← readRegister i.r0
    modify fun m => { m with flags := m.flags.restore packed }
    return .next
  | .halt => return .halt
  | .kill => return .kill

end Machine

end Risc32
