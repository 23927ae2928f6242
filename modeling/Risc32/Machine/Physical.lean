import Risc32.Machine.Exec

namespace Risc32.Machine

variable {δ : Type}

/-- The address `i` bytes on. Words do not wrap around the end of the address space. -/
def following (address : Word) (i : Nat) : Exec δ Word :=
  if address.toNat + i < addressCount then pure (address + BitVec.ofNat 32 i) else throw .memory

/-- Reads a word byte by byte. The last byte comes first, so that a word that runs past a bound faults
    before any of its bytes is touched. -/
def readBytes (readAt : Word → Exec δ Byte) (address : Word) : Exec δ Word := do
  let b3 ← readAt (← following address 3)
  let b2 ← readAt (← following address 2)
  let b1 ← readAt (← following address 1)
  let b0 ← readAt address
  return Word.ofBytes b0 b1 b2 b3

/-- Writes a word byte by byte, the last byte first. -/
def writeBytes (writeAt : Word → Byte → Exec δ Unit) (address value : Word) : Exec δ Unit := do
  writeAt (← following address 3) (Word.byte value 3)
  writeAt (← following address 2) (Word.byte value 2)
  writeAt (← following address 1) (Word.byte value 1)
  writeAt address (Word.byte value 0)

variable [Device δ]

/-- Main memory may end before its part of the map does. An address in between is the only one that
    faults. -/
def readPhysicalByte (address : Word) : Exec δ Byte := do
  let m ← get
  match m.layout.region address with
  | .ram =>
    match m.ram.get? address.toNat with
    | some byte => return byte
    | none => throw .memory
  | .rom =>
    match m.rom.get? (address.toNat - m.layout.romStart) with
    | some byte => return byte
    | none => throw .memory
  | .mmio => askBus (·.readByte address)

/-- Writes to read-only memory are dropped with a notice. -/
def writePhysicalByte (address : Word) (value : Byte) : Exec δ Unit := do
  let m ← get
  match m.layout.region address with
  | .ram =>
    if address.toNat < m.ram.size then
      modify fun m => { m with ram := m.ram.put address.toNat value }
    else
      throw .memory
  | .rom => modify fun m => m.note (.romWriteDropped address value)
  | .mmio => askBus (·.writeByte address value)

def readPhysicalWord (address : Word) : Exec δ Word :=
  readBytes readPhysicalByte address

omit [Device δ] in
/-- A word is read when its four bytes are read without an effect. -/
theorem run_readBytes {readAt : Word → Exec δ Byte} {m : Machine δ} {address : Word} (b : Nat → Byte)
    (hend : address.toNat + 3 < addressCount)
    (hbytes : ∀ i < 4, (readAt (address + BitVec.ofNat 32 i)).run m = .ok (b i) m) :
    (readBytes readAt address).run m = .ok (Word.ofBytes (b 0) (b 1) (b 2) (b 3)) m := by
  have hfirst : (readAt address).run m = .ok (b 0) m := by
    have h := hbytes 0 (by omega)
    rwa [BitVec.add_zero] at h
  simp only [readBytes, following, hend, show address.toNat + 2 < addressCount by omega,
    show address.toNat + 1 < addressCount by omega, if_true, EStateM.run_bind, EStateM.run_pure,
    hbytes 3 (by omega), hbytes 2 (by omega), hbytes 1 (by omega), hfirst]

theorem run_readPhysicalByte (address : Word) (m : Machine δ) :
    (readPhysicalByte address).run m =
      match m.layout.region address with
      | .ram => (m.ram.get? address.toNat).elim (.error .memory m) (.ok · m)
      | .rom => (m.rom.get? (address.toNat - m.layout.romStart)).elim (.error .memory m) (.ok · m)
      | .mmio => .ok (m.bus.readByte address).1 { m with bus := (m.bus.readByte address).2 } := by
  simp only [readPhysicalByte, EStateM.run_bind, EStateM.run_get]
  cases m.layout.region address with
  | ram => cases m.ram.get? address.toNat <;> rfl
  | rom => cases m.rom.get? (address.toNat - m.layout.romStart) <;> rfl
  | mmio => rfl

theorem run_writePhysicalByte (address : Word) (value : Byte) (m : Machine δ) :
    (writePhysicalByte address value).run m =
      match m.layout.region address with
      | .ram =>
        if address.toNat < m.ram.size then .ok () { m with ram := m.ram.put address.toNat value }
        else .error .memory m
      | .rom => .ok () (m.note (.romWriteDropped address value))
      | .mmio => .ok () { m with bus := (m.bus.writeByte address value).2 } := by
  simp only [writePhysicalByte, EStateM.run_bind, EStateM.run_get]
  cases m.layout.region address with
  | ram => by_cases hram : address.toNat < m.ram.size <;> simp [hram]
  | rom => rfl
  | mmio => rfl

end Risc32.Machine
