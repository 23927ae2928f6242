import Risc32.Trap.Cause

namespace Risc32

/-- The table holds one handler address per slot: shared slots, one per fault, then the software
    and the hardware interrupts. -/
structure VectorTable where
  base : Word
  software : Nat
  hardware : Nat
deriving DecidableEq, Repr

namespace VectorTable

/-- Serves a fault of privileged code, and every fault whose own slot is empty. -/
def panicSlot : Nat := 1

/-- Serves an interrupt that has no slot of its own or whose slot is empty. -/
def unhandledSlot : Nat := 2

/-- The first slot behind those of the faults. -/
def firstSoftwareSlot : Nat := 11

def slotBytes : Nat := 4

def slots (table : VectorTable) : Nat :=
  firstSoftwareSlot + table.software + table.hardware

/-- The first address behind the table, which may lie outside the address space: a configuration
    is checked against it. -/
def endAddress (table : VectorTable) : Nat :=
  table.base.toNat + table.slots * slotBytes

def slotAddress (table : VectorTable) (slot : Nat) : Word :=
  table.base + BitVec.ofNat 32 (slot * slotBytes)

def softwareSlot? (table : VectorTable) (index : Word) : Option Nat :=
  if index.toNat < table.software then some (firstSoftwareSlot + index.toNat) else none

def hardwareSlot? (table : VectorTable) (index : Word) : Option Nat :=
  if index.toNat < table.hardware then some (firstSoftwareSlot + table.software + index.toNat) else none

/-- The slot that serves the cause. A fault of privileged code cannot be left to the handler that
    may have raised it. -/
def slotFor (table : VectorTable) (privileged : Bool) : TrapCause → Nat
  | .fault fault => if privileged then panicSlot else fault.vectorSlot
  | .software index => (table.softwareSlot? index).getD unhandledSlot
  | .hardware index => (table.hardwareSlot? index).getD unhandledSlot

/-- The slot that is tried when the first one holds no handler. -/
def fallbackFor : TrapCause → Nat
  | .fault _ => panicSlot
  | .software _ => unhandledSlot
  | .hardware _ => unhandledSlot

end VectorTable

end Risc32
