import Risc32.Machine.Stack
import Risc32.Proofs.Exec.Keeps

namespace Risc32

namespace Machine

variable {δ : Type}

/-- The machine without what instructions cannot see: the bus and the breakpoint passed last. Two
    machines with the same core differ in nothing else. -/
def core (m : Machine δ) : Machine δ :=
  { m with bus := {}, resumePast := none }

/-- The physical address is one that the window admits. -/
def InWindow (m : Machine δ) (address : Word) : Prop :=
  (address - m.registers.get .windowOffset).toNat < m.windowSize

/-- Beside the core, a store may change bytes of main memory, but only those in the window. -/
structure StoresInWindow (before after : Machine δ) : Prop where
  rest : core { after with ram := before.ram } = before.core
  size : after.ram.size = before.ram.size
  outside : ∀ address : Word, ¬ before.InWindow address →
    after.ram.get? address.toNat = before.ram.get? address.toNat

/-- The cores agree. -/
def SameCore (before after : Machine δ) : Prop :=
  after.core = before.core

theorem relocate_inWindow {m : Machine δ} {address : Word} (h : address.toNat < m.windowSize) :
    m.InWindow (m.relocate address) := by
  have hback : m.relocate address - m.registers.get .windowOffset = address := by
    rw [relocate, BitVec.add_comm, BitVec.add_sub_cancel]
  rwa [InWindow, hback]

namespace SameCore

variable {before after : Machine δ}

instance : IsPreorder (Machine δ) SameCore where
  refl _ := rfl
  trans _ _ _ hfirst hsecond := hsecond.trans hfirst

theorem registers (h : SameCore before after) : after.registers = before.registers :=
  congrArg (·.registers) h

theorem storesInWindow (h : SameCore before after) : StoresInWindow before after where
  rest := by
    have hram : after.ram = before.ram := congrArg (·.ram) h
    rw [← hram]
    exact h
  size := congrArg (·.ram.size) h
  outside address _ := congrArg (·.ram.get? address.toNat) h

end SameCore

namespace StoresInWindow

variable {before after : Machine δ}

theorem registers (h : StoresInWindow before after) : after.registers = before.registers :=
  congrArg (·.registers) h.rest

theorem inWindow_iff (h : StoresInWindow before after) (address : Word) :
    after.InWindow address ↔ before.InWindow address := by
  simp only [InWindow, windowSize, h.registers]

instance : IsPreorder (Machine δ) StoresInWindow where
  refl _ := ⟨rfl, rfl, fun _ _ => rfl⟩
  trans a b c hfirst hsecond := by
    refine ⟨?_, hsecond.size.trans hfirst.size, fun address haddress => ?_⟩
    · have hb := congrArg (fun m : Machine δ => { m with ram := a.ram }) hsecond.rest
      exact hb.trans hfirst.rest
    · have hafter := hsecond.outside address ((not_congr (hfirst.inWindow_iff address)).2 haddress)
      exact hafter.trans (hfirst.outside address haddress)

end StoresInWindow

/-- Only a store that faults on memory may have changed some of its bytes before the fault. -/
def StoreFault (fault : Fault) (before after : Machine δ) : Prop :=
  SameCore before after ∨ fault = .memory ∧ StoresInWindow before after

theorem following_keeps {R : Machine δ → Machine δ → Prop} [Std.Refl R] (address : Word) (i : Nat) :
    Keeps R (following address i) := by
  unfold following
  exact .ite (.pure _) (.throw _)

theorem following_raises (address : Word) (i : Nat) :
    Raises (· = .memory) (following address i : Exec δ Word) := by
  unfold following
  exact .ite (.pure _) (.throw rfl)

theorem readBytes_keeps {R : Machine δ → Machine δ → Prop} [IsPreorder (Machine δ) R]
    {readAt : Word → Exec δ Byte} (hread : ∀ address, Keeps R (readAt address)) (address : Word) :
    Keeps R (readBytes readAt address) := by
  unfold readBytes
  refine .bind (following_keeps address 3) fun _ => .bind (hread _) fun _ => ?_
  refine .bind (following_keeps address 2) fun _ => .bind (hread _) fun _ => ?_
  refine .bind (following_keeps address 1) fun _ => .bind (hread _) fun _ => ?_
  exact .bind (hread address) fun _ => .pure _

theorem writeBytes_keeps {R : Machine δ → Machine δ → Prop} [IsPreorder (Machine δ) R]
    {writeAt : Word → Byte → Exec δ Unit} (hwrite : ∀ address byte, Keeps R (writeAt address byte))
    (address value : Word) : Keeps R (writeBytes writeAt address value) := by
  unfold writeBytes
  refine .bind (following_keeps address 3) fun _ => .bind (hwrite _ _) fun _ => ?_
  refine .bind (following_keeps address 2) fun _ => .bind (hwrite _ _) fun _ => ?_
  exact .bind (following_keeps address 1) fun _ => .bind (hwrite _ _) fun _ => hwrite address _

theorem writeBytes_raises {writeAt : Word → Byte → Exec δ Unit}
    (hwrite : ∀ address byte, Raises (· = .memory) (writeAt address byte)) (address value : Word) :
    Raises (· = .memory) (writeBytes writeAt address value) := by
  unfold writeBytes
  refine .bind (following_raises address 3) fun _ => .bind (hwrite _ _) fun _ => ?_
  refine .bind (following_raises address 2) fun _ => .bind (hwrite _ _) fun _ => ?_
  exact .bind (following_raises address 1) fun _ => .bind (hwrite _ _) fun _ => hwrite address _

variable [Device δ]

theorem readPhysicalByte_keeps (address : Word) :
    Keeps SameCore (readPhysicalByte address : Exec δ Byte) := by
  intro m
  rw [run_readPhysicalByte]
  cases m.layout.region address with
  | ram => cases m.ram.get? address.toNat <;> rfl
  | rom => cases m.rom.get? (address.toNat - m.layout.romStart) <;> rfl
  | mmio => rfl

section Reads

variable {R : Machine δ → Machine δ → Prop} [IsPreorder (Machine δ) R]

/-- What reading physical memory keeps, reading through the window keeps. -/
theorem readByte_keeps_of (hread : ∀ address, Keeps R (readPhysicalByte address : Exec δ Byte))
    (address : Word) : Keeps R (readByte address : Exec δ Byte) := by
  intro m
  rw [run_readByte]
  by_cases h : address.toNat < m.windowSize
  · rw [if_pos h]
    exact hread _ m
  · rw [if_neg h]
    exact Std.Refl.refl m

theorem readWord_keeps_of (hread : ∀ address, Keeps R (readByte address : Exec δ Byte))
    (hask : ∀ (m : Machine δ) (target : Word), R m { m with bus := (m.bus.readWord target).2 })
    (address : Word) : Keeps R (readWord address : Exec δ Word) := by
  intro m
  rw [run_readWord]
  cases m.deviceWord? address with
  | some target => exact hask m target
  | none => exact readBytes_keeps hread address m

end Reads

/-- What a store of one byte keeps in each region. -/
theorem writePhysicalByte_keeps_of {R : Machine δ → Machine δ → Prop} [Std.Refl R] {address : Word}
    {value : Byte} (hput : ∀ m : Machine δ, R m { m with ram := m.ram.put address.toNat value })
    (hdrop : ∀ m : Machine δ, R m (m.note (.romWriteDropped address value)))
    (hask : ∀ m : Machine δ, R m { m with bus := (m.bus.writeByte address value).2 }) :
    Keeps R (writePhysicalByte address value : Exec δ Unit) := by
  intro m
  rw [run_writePhysicalByte]
  cases m.layout.region address with
  | ram =>
    by_cases hram : address.toNat < m.ram.size
    · simp only [hram, if_true]
      exact hput m
    · simp only [hram, if_false]
      exact Std.Refl.refl m
  | rom => exact hdrop m
  | mmio => exact hask m

theorem readPhysicalWord_keeps (address : Word) : Keeps SameCore (readPhysicalWord address : Exec δ Word) :=
  readBytes_keeps readPhysicalByte_keeps address

theorem readByte_keeps (address : Word) : Keeps SameCore (readByte address : Exec δ Byte) :=
  readByte_keeps_of readPhysicalByte_keeps address

theorem readWord_keeps (address : Word) : Keeps SameCore (readWord address : Exec δ Word) :=
  readWord_keeps_of readByte_keeps (fun _ _ => rfl) address

/-- A store of one byte changes at most the byte at its own physical address. -/
theorem writePhysicalByte_ok {m after : Machine δ} {address : Word} {value : Byte}
    (hrun : (writePhysicalByte address value).run m = .ok () after) (hwindow : m.InWindow address) :
    StoresInWindow m after := by
  rw [run_writePhysicalByte] at hrun
  cases hregion : m.layout.region address with
  | ram =>
    simp only [hregion] at hrun
    split at hrun
    · cases hrun
      refine ⟨rfl, Memory.size_put .., fun other hother => Memory.get?_put_of_ne _ _ fun heq => ?_⟩
      rw [BitVec.eq_of_toNat_eq heq] at hwindow
      exact hother hwindow
    · cases hrun
  | rom =>
    simp only [hregion] at hrun
    cases hrun
    exact SameCore.storesInWindow rfl
  | mmio =>
    simp only [hregion] at hrun
    cases hrun
    exact SameCore.storesInWindow rfl

/-- A store of one byte that faults has no effect at all. -/
theorem writePhysicalByte_error {m after : Machine δ} {address : Word} {value : Byte} {fault : Fault}
    (hrun : (writePhysicalByte address value).run m = .error fault after) :
    fault = .memory ∧ after = m := by
  rw [run_writePhysicalByte] at hrun
  cases hregion : m.layout.region address with
  | ram =>
    simp only [hregion] at hrun
    split at hrun
    · cases hrun
    · cases hrun
      exact ⟨rfl, rfl⟩
  | rom =>
    simp only [hregion] at hrun
    cases hrun
  | mmio =>
    simp only [hregion] at hrun
    cases hrun

theorem writeByte_error {m after : Machine δ} {address : Word} {value : Byte} {fault : Fault}
    (hrun : (writeByte address value).run m = .error fault after) :
    fault = .memory ∧ after = m := by
  rw [run_writeByte] at hrun
  split at hrun
  · exact writePhysicalByte_error hrun
  · cases hrun
    exact ⟨rfl, rfl⟩

theorem writeByte_keeps (address : Word) (value : Byte) :
    Keeps StoresInWindow (writeByte address value : Exec δ Unit) := by
  apply Keeps.of_run
  · intro m a after hrun
    rw [run_writeByte] at hrun
    split at hrun
    · exact writePhysicalByte_ok hrun (relocate_inWindow ‹_›)
    · cases hrun
  · intro m fault after hrun
    rw [(writeByte_error hrun).2]
    exact Std.Refl.refl m

theorem writeWord_keeps (address value : Word) :
    Keeps StoresInWindow (writeWord address value : Exec δ Unit) := by
  intro m
  rw [run_writeWord]
  cases m.deviceWord? address with
  | some target => exact SameCore.storesInWindow rfl
  | none => exact writeBytes_keeps writeByte_keeps address value m

theorem writeWord_raises (address value : Word) :
    Raises (· = .memory) (writeWord address value : Exec δ Unit) := by
  intro m fault after hrun
  rw [run_writeWord] at hrun
  cases hdevice : m.deviceWord? address with
  | some target =>
    rw [hdevice] at hrun
    cases hrun
  | none =>
    rw [hdevice] at hrun
    exact writeBytes_raises (fun _ _ _ _ _ h => (writeByte_error h).1) address value _ _ _ hrun

end Machine

end Risc32
