import Risc32.Machine.Physical

namespace Risc32.Machine

variable {δ : Type}

/-- How many virtual addresses are admitted. -/
def windowSize (m : Machine δ) : Nat :=
  if m.registers.get .windowBound = 0 then addressCount else (m.registers.get .windowBound).toNat

/-- Where a virtual address lies, whether it is admitted or not. -/
def relocate (m : Machine δ) (address : Word) : Word :=
  m.registers.get .windowOffset + address

/-- Where an admitted virtual address lies. -/
def resolve (m : Machine δ) (address : Word) : Except Fault Word :=
  if address.toNat < m.windowSize then .ok (m.relocate address) else .error .memory

variable [Device δ]

def readByte (address : Word) : Exec δ Byte := do
  let m ← get
  readPhysicalByte (← Exec.lift (m.resolve address))

def writeByte (address : Word) (value : Byte) : Exec δ Unit := do
  let m ← get
  writePhysicalByte (← Exec.lift (m.resolve address)) value

/-- Where a virtual word lies, if all of it is admitted and it is an aligned word of one device: such
    a word goes to the device in one piece. -/
def deviceWord? (m : Machine δ) (address : Word) : Option Word :=
  let target := m.relocate address
  if address.toNat + 3 < m.windowSize && target.toNat % 4 == 0 && m.layout.region target == .mmio
      && m.bus.mapsWord target then
    some target
  else
    none

def readWord (address : Word) : Exec δ Word := do
  let m ← get
  match m.deviceWord? address with
  | some target => askBus (·.readWord target)
  | none => readBytes readByte address

def writeWord (address value : Word) : Exec δ Unit := do
  let m ← get
  match m.deviceWord? address with
  | some target => askBus (·.writeWord target value)
  | none => writeBytes writeByte address value

theorem run_readByte (address : Word) (m : Machine δ) :
    (readByte address).run m =
      if address.toNat < m.windowSize then (readPhysicalByte (m.relocate address)).run m
      else .error .memory m := by
  by_cases h : address.toNat < m.windowSize <;> simp [readByte, resolve, h]

theorem run_writeByte (address : Word) (value : Byte) (m : Machine δ) :
    (writeByte address value).run m =
      if address.toNat < m.windowSize then (writePhysicalByte (m.relocate address) value).run m
      else .error .memory m := by
  by_cases h : address.toNat < m.windowSize <;> simp [writeByte, resolve, h]

theorem run_readWord (address : Word) (m : Machine δ) :
    (readWord address).run m =
      match m.deviceWord? address with
      | some target => .ok (m.bus.readWord target).1 { m with bus := (m.bus.readWord target).2 }
      | none => (readBytes readByte address).run m := by
  simp only [readWord, EStateM.run_bind, EStateM.run_get]
  cases m.deviceWord? address <;> rfl

theorem run_writeWord (address value : Word) (m : Machine δ) :
    (writeWord address value).run m =
      match m.deviceWord? address with
      | some target => .ok () { m with bus := (m.bus.writeWord target value).2 }
      | none => (writeBytes writeByte address value).run m := by
  simp only [writeWord, EStateM.run_bind, EStateM.run_get]
  cases m.deviceWord? address <;> rfl

end Risc32.Machine
