import Risc32.Memory
import Risc32.Device
import Risc32.Peripheral.Event

namespace Risc32

/-- A store of bytes that records its accesses. A word is four of them, the most significant first, as in main
    memory. -/
structure ByteStore where
  base : Word
  contents : Memory
  /-- The newest comes first. -/
  events : List PeripheralEvent := []
deriving DecidableEq, Repr

namespace ByteStore

/-- A store of `size` bytes, the first of them given. -/
def create (base size : Word) (contents : List Byte) : ByteStore where
  base := base
  contents := ⟨((contents.take size.toNat).rightpad size.toNat 0).toArray⟩

def size (store : ByteStore) : Word :=
  BitVec.ofNat 32 store.contents.size

def record (store : ByteStore) (event : PeripheralEvent) : ByteStore :=
  { store with events := event :: store.events }

/-- Bytes behind the last one read as zero. -/
def byte (store : ByteStore) (index : Nat) : Byte :=
  (store.contents.get? index).getD 0

def readByte (offset : Word) (store : ByteStore) : Response ByteStore Byte :=
  { value := store.byte offset.toNat, device := store.record (.readByte offset) }

def writeByte (offset : Word) (value : Byte) (store : ByteStore) : Response ByteStore Unit :=
  { value := ()
    device := { store.record (.writeByte offset value) with
      contents := store.contents.put offset.toNat value } }

def readWord (offset : Word) (store : ByteStore) : Response ByteStore Word :=
  { value := Word.ofBytes (store.byte offset.toNat) (store.byte (offset.toNat + 1))
      (store.byte (offset.toNat + 2)) (store.byte (offset.toNat + 3))
    device := store.record (.readWord offset) }

def writeWord (offset value : Word) (store : ByteStore) : Response ByteStore Unit :=
  { value := ()
    device := { store.record (.writeWord offset value) with
      contents := store.contents.putAll offset.toNat
        [Word.byte value 0, Word.byte value 1, Word.byte value 2, Word.byte value 3] } }

instance : Device ByteStore where
  base := base
  size := size
  readWord _ := readWord
  writeWord _ := writeWord
  readByte _ := readByte
  writeByte _ := writeByte

end ByteStore

end Risc32
