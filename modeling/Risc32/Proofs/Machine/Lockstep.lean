import Risc32.Proofs.Machine.Mirror
import Risc32.Proofs.Machine.Twins

namespace Risc32.Machine

variable {δ₁ δ₂ α : Type}

/-- Two computations that cannot be told apart by user code. -/
abbrev InLockstep (x : Exec δ₁ α) (y : Exec δ₂ α) : Prop :=
  Agrees Twins x y

variable [Device δ₁] [Device δ₂]

/-- The byte at a virtual address is the same in both machines, and so is the fault beyond the bound. -/
theorem readByte_lockstep (address : Word) :
    InLockstep (readByte address : Exec δ₁ Byte) (readByte address : Exec δ₂ Byte) := by
  intro first second h
  rw [h.firstWindow.run_readByte, h.secondWindow.run_readByte, h.windowSize_eq]
  by_cases haddress : address.toNat < first.windowSize
  · rw [if_pos haddress, if_pos haddress]
    rw [h.firstWindow.windowSize_eq] at haddress
    rw [h.window address.toNat haddress]
    cases first.ram.get? ((first.registers.get .windowOffset).toNat + address.toNat) with
    | none => exact .error h
    | some byte => exact .ok h
  · rw [if_neg haddress, if_neg haddress]
    exact .error h

theorem writeByte_lockstep (address : Word) (value : Byte) :
    InLockstep (writeByte address value : Exec δ₁ Unit) (writeByte address value : Exec δ₂ Unit) := by
  intro first second h
  rw [h.firstWindow.run_writeByte, h.secondWindow.run_writeByte, h.windowSize_eq]
  by_cases haddress : address.toNat < first.windowSize
  · rw [if_pos haddress, if_pos haddress]
    rw [h.firstWindow.windowSize_eq] at haddress
    exact .ok (h.put haddress value)
  · rw [if_neg haddress, if_neg haddress]
    exact .error h

theorem readWord_lockstep (address : Word) :
    InLockstep (readWord address : Exec δ₁ Word) (readWord address : Exec δ₂ Word) := by
  intro first second h
  rw [run_readWord, run_readWord, h.firstWindow.deviceWord?_eq_none, h.secondWindow.deviceWord?_eq_none]
  exact readBytes_agrees readByte_lockstep address first second h

theorem writeWord_lockstep (address value : Word) :
    InLockstep (writeWord address value : Exec δ₁ Unit) (writeWord address value : Exec δ₂ Unit) := by
  intro first second h
  rw [run_writeWord, run_writeWord, h.firstWindow.deviceWord?_eq_none, h.secondWindow.deviceWord?_eq_none]
  exact writeBytes_agrees writeByte_lockstep address value first second h

theorem loadAt_lockstep (width : Width) (address : Word) :
    InLockstep (loadAt width address : Exec δ₁ Word) (loadAt width address : Exec δ₂ Word) := by
  cases width with
  | word => exact readWord_lockstep address
  | byte => exact .bind (readByte_lockstep address) fun _ => .pure _

theorem storeAt_lockstep (width : Width) (address value : Word) :
    InLockstep (storeAt width address value : Exec δ₁ Unit)
      (storeAt width address value : Exec δ₂ Unit) := by
  cases width with
  | word => exact writeWord_lockstep address value
  | byte => exact writeByte_lockstep address _

/-- Machines with the same view agree in all that user code looks at, and keep the view. -/
theorem Twins.mirrorsUserParts : MirrorsUserParts (Twins : Machine δ₁ → Machine δ₂ → Prop) where
  flags _ _ h := h.flags
  interruptsMasked _ _ h := h.interruptsMasked
  software _ _ h := h.software
  registers _ _ r h hr := h.registers r (h.admitted hr)
  setRegister _ _ _ value h hr := h.set (h.admitted hr) value
  update _ _ update h := h.update update
  load := loadAt_lockstep
  store := storeAt_lockstep

/-- Both machines refuse the privileged opcodes; all others are made of parts that cannot be told
    apart. -/
theorem execute_lockstep (i : Instruction) :
    InLockstep (execute i : Exec δ₁ Flow) (execute i : Exec δ₂ Flow) := by
  cases hopcode : i.opcode.isPrivileged with
  | false => exact Twins.mirrorsUserParts.execute hopcode
  | true =>
    intro first second h
    rw [execute_refused hopcode h.user, execute_refused hopcode h.secondUser]
    exact .error h

end Risc32.Machine
