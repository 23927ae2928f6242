import Risc32.Device.ByteLane

namespace Risc32

/-- How a device takes part in the bus. Offsets count from its base, and `now` is the time in
    microseconds. A device that defines no byte accesses gets them from its words. -/
class Device (δ : Type) where
  base : δ → Word
  size : δ → Word
  readWord : (now : Nat) → (offset : Word) → δ → Response δ Word
  writeWord : (now : Nat) → (offset value : Word) → δ → Response δ Unit
  readByte : (now : Nat) → (offset : Word) → δ → Response δ Byte :=
    fun now => readByteByWord (readWord now)
  writeByte : (now : Nat) → (offset : Word) → (value : Byte) → δ → Response δ Unit :=
    fun now => writeByteByWord (readWord now) (writeWord now)
  tick : (now : Nat) → δ → Response δ Unit := fun _ device => ⟨(), device, [], []⟩

/-- Whether an address lies in the window of a device. A window that reaches past the last address
    ends there. -/
def Device.serves {δ : Type} [Device δ] (address : Word) (device : δ) : Bool :=
  (base device).toNat ≤ address.toNat && address.toNat - (base device).toNat < (size device).toNat

end Risc32
