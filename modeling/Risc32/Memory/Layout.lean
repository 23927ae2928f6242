import Risc32.Config.Error
import Risc32.Word

namespace Risc32

/-- Main memory lies at address zero; the read-only memory and the devices lie at the top of the address space. -/
inductive Region where
  | ram
  | rom
  | mmio
deriving DecidableEq, Repr

/-- The two windows at the top of the address space. They never fill it, so that some addresses are
    left to main memory. -/
structure Layout where
  romSize : Nat
  mmioSize : Nat
  fits : romSize + mmioSize < addressCount
deriving DecidableEq, Repr

namespace Layout

def ofSizes (romSize mmioSize : Nat) : Except ConfigError Layout :=
  if h : romSize + mmioSize < addressCount then .ok ⟨romSize, mmioSize, h⟩
  else .error (.windowsTooLarge romSize mmioSize)

/-- Two windows of 64 KiB each. -/
def standard : Layout :=
  ⟨0x10000, 0x10000, by decide⟩

def mmioStart (layout : Layout) : Nat :=
  addressCount - layout.mmioSize

def romStart (layout : Layout) : Nat :=
  layout.mmioStart - layout.romSize

/-- How much main memory the windows leave room for. -/
def ramWindow (layout : Layout) : Nat :=
  layout.romStart

def region (layout : Layout) (address : Word) : Region :=
  if layout.mmioStart ≤ address.toNat then .mmio
  else if layout.romStart ≤ address.toNat then .rom
  else .ram

/-- Main memory fills the map from address zero as far as the windows leave room. -/
theorem region_eq_ram {layout : Layout} {address : Word} (h : address.toNat < layout.ramWindow) :
    layout.region address = .ram := by
  have hrom : layout.romStart ≤ layout.mmioStart := Nat.sub_le ..
  have haddress : address.toNat < layout.romStart := h
  rw [region, if_neg (by omega), if_neg (by omega)]

theorem ramWindow_le (layout : Layout) : layout.ramWindow ≤ addressCount :=
  Nat.le_trans (Nat.sub_le ..) (Nat.sub_le ..)

end Layout

end Risc32
