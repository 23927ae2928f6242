import Risc32.Peripheral

namespace Risc32

namespace Device

variable {δ : Type} [Device δ]

/-- Where a device lies: its base and its size. -/
def window (device : δ) : Word × Word :=
  (base device, size device)

/-- No access changes where a device of the type lies. -/
class Stationary (δ : Type) [Device δ] : Prop where
  readWord (now : Nat) (offset : Word) (device : δ) :
    window (readWord now offset device).device = window device
  writeWord (now : Nat) (offset value : Word) (device : δ) :
    window (writeWord now offset value device).device = window device
  readByte (now : Nat) (offset : Word) (device : δ) :
    window (readByte now offset device).device = window device
  writeByte (now : Nat) (offset : Word) (value : Byte) (device : δ) :
    window (writeByte now offset value device).device = window device

theorem serves_of_window {first second : δ} (h : window second = window first) (address : Word) :
    serves address second = serves address first := by
  obtain ⟨hbase, hsize⟩ := Prod.mk.inj h
  rw [serves, serves, hbase, hsize]

end Device

open Device (window Stationary)

instance : Stationary WordStore where
  readWord _ _ _ := rfl
  writeWord _ _ _ _ := rfl
  readByte _ _ _ := rfl
  writeByte _ _ _ _ := rfl

/-- Storing bytes does not change how many there are. -/
theorem ByteStore.window_of_size {before after : ByteStore} (hbase : after.base = before.base)
    (hsize : after.contents.size = before.contents.size) : window after = window before :=
  Prod.ext hbase (congrArg (BitVec.ofNat 32) hsize)

instance : Stationary ByteStore where
  readWord _ _ _ := rfl
  writeWord _ _ _ _ := ByteStore.window_of_size rfl (Memory.size_putAll ..)
  readByte _ _ _ := rfl
  writeByte _ _ _ _ := ByteStore.window_of_size rfl (Memory.size_put ..)

section Console

variable {σ : Type} [Sink σ]

theorem Console.window_send (console : Console σ) (bytes : List Byte) :
    window (console.send bytes).device = window console := by
  unfold Console.send
  split
  · rfl
  · split <;> rfl

theorem Console.window_writeByte (console : Console σ) (offset : Word) (value : Byte) :
    window (console.writeByte offset value).device = window console := by
  unfold Console.writeByte
  split
  · exact console.window_send _
  · rfl

theorem Console.window_writeWord (console : Console σ) (offset value : Word) :
    window (console.writeWord offset value).device = window console := by
  unfold Console.writeWord
  split
  · exact console.window_send _
  · exact console.window_writeByte _ _

instance : Stationary (Console σ) where
  readWord _ _ _ := rfl
  writeWord _ offset value console := console.window_writeWord offset value
  readByte _ _ _ := rfl
  writeByte _ offset value console := console.window_writeByte offset value

end Console

theorem Timer.window_setControl (timer : Timer) (now : Nat) (value : Word) :
    window (timer.setControl now value) = window timer := by
  unfold Timer.setControl
  split <;> split <;> rfl

theorem Timer.window_writeWord (timer : Timer) (now : Nat) (offset value : Word) :
    window (timer.writeWord now offset value).device = window timer := by
  unfold Timer.writeWord
  split
  · rfl
  · split
    · exact timer.window_setControl now value
    · rfl

instance : Stationary Timer where
  readWord _ _ _ := rfl
  writeWord now offset value timer := timer.window_writeWord now offset value
  readByte _ _ _ := rfl
  writeByte now offset _ timer := timer.window_writeWord now (alignedOffset offset) _

instance : Stationary Peripheral where
  readWord now offset
    | .words d => Stationary.readWord now offset d
    | .bytes d => Stationary.readWord now offset d
    | .console d => Stationary.readWord now offset d
    | .timer d => Stationary.readWord now offset d
  writeWord now offset value
    | .words d => Stationary.writeWord now offset value d
    | .bytes d => Stationary.writeWord now offset value d
    | .console d => Stationary.writeWord now offset value d
    | .timer d => Stationary.writeWord now offset value d
  readByte now offset
    | .words d => Stationary.readByte now offset d
    | .bytes d => Stationary.readByte now offset d
    | .console d => Stationary.readByte now offset d
    | .timer d => Stationary.readByte now offset d
  writeByte now offset value
    | .words d => Stationary.writeByte now offset value d
    | .bytes d => Stationary.writeByte now offset value d
    | .console d => Stationary.writeByte now offset value d
    | .timer d => Stationary.writeByte now offset value d

end Risc32
