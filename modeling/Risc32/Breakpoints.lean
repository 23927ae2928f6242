import Risc32.AddressSet

namespace Risc32

/-- Breakpoints on virtual and on physical addresses. The two sets do not influence each other. -/
structure Breakpoints where
  virtualAddresses : AddressSet := {}
  physicalAddresses : AddressSet := {}
deriving DecidableEq, Repr

namespace Breakpoints

def isEmpty (breakpoints : Breakpoints) : Bool :=
  breakpoints.virtualAddresses.isEmpty && breakpoints.physicalAddresses.isEmpty

def insertVirtual (breakpoints : Breakpoints) (address : Word) : Breakpoints :=
  { breakpoints with virtualAddresses := breakpoints.virtualAddresses.insert address }

def eraseVirtual (breakpoints : Breakpoints) (address : Word) : Breakpoints :=
  { breakpoints with virtualAddresses := breakpoints.virtualAddresses.erase address }

def insertPhysical (breakpoints : Breakpoints) (address : Word) : Breakpoints :=
  { breakpoints with physicalAddresses := breakpoints.physicalAddresses.insert address }

def erasePhysical (breakpoints : Breakpoints) (address : Word) : Breakpoints :=
  { breakpoints with physicalAddresses := breakpoints.physicalAddresses.erase address }

end Breakpoints

/-- One change to a set of breakpoints. -/
inductive BreakpointEdit where
  | addVirtual (address : Word)
  | removeVirtual (address : Word)
  | addPhysical (address : Word)
  | removePhysical (address : Word)
deriving DecidableEq, Repr

namespace BreakpointEdit

/-- The breakpoints after the edit. -/
def apply (breakpoints : Breakpoints) : BreakpointEdit → Breakpoints
  | addVirtual address => breakpoints.insertVirtual address
  | removeVirtual address => breakpoints.eraseVirtual address
  | addPhysical address => breakpoints.insertPhysical address
  | removePhysical address => breakpoints.erasePhysical address

/-- Whether the edit changes anything: a breakpoint is set once, and only a set one can be removed. -/
def isEffective (breakpoints : Breakpoints) : BreakpointEdit → Bool
  | addVirtual address => !breakpoints.virtualAddresses.contains address
  | removeVirtual address => breakpoints.virtualAddresses.contains address
  | addPhysical address => !breakpoints.physicalAddresses.contains address
  | removePhysical address => breakpoints.physicalAddresses.contains address

end BreakpointEdit

end Risc32
