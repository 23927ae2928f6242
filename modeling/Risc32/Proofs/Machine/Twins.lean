import Risc32.Proofs.Exec.Agrees
import Risc32.Proofs.Machine.Vectors

namespace Risc32.Machine

variable {δ δ₁ δ₂ α : Type}

/-- The window is closed, and all of it lies in main memory. -/
structure WindowInMemory (m : Machine δ) : Prop where
  bound_ne_zero : m.registers.get .windowBound ≠ 0
  fits : (m.registers.get .windowOffset).toNat + (m.registers.get .windowBound).toNat ≤ m.ram.size
  below : m.ram.size ≤ m.layout.ramWindow

namespace WindowInMemory

variable {m : Machine δ} {address : Word}

theorem windowSize_eq (h : WindowInMemory m) : m.windowSize = (m.registers.get .windowBound).toNat := by
  rw [windowSize, if_neg h.bound_ne_zero]

/-- Nothing wraps in such a window. -/
theorem toNat_relocate (h : WindowInMemory m) (haddress : address.toNat < m.windowSize) :
    (m.relocate address).toNat = (m.registers.get .windowOffset).toNat + address.toNat := by
  have hfits := h.fits
  have hcount := Nat.le_trans h.below m.layout.ramWindow_le
  rw [h.windowSize_eq] at haddress
  unfold addressCount at hcount
  rw [relocate, BitVec.toNat_add]
  exact Nat.mod_eq_of_lt (by omega)

theorem relocate_lt (h : WindowInMemory m) (haddress : address.toNat < m.windowSize) :
    (m.relocate address).toNat < m.ram.size := by
  have hfits := h.fits
  rw [h.toNat_relocate haddress]
  rw [h.windowSize_eq] at haddress
  omega

theorem region_relocate (h : WindowInMemory m) (haddress : address.toNat < m.windowSize) :
    m.layout.region (m.relocate address) = .ram :=
  Layout.region_eq_ram (Nat.lt_of_lt_of_le (h.relocate_lt haddress) h.below)

variable [Device δ]

/-- No device is reached through such a window. -/
theorem deviceWord?_eq_none (h : WindowInMemory m) (address : Word) : m.deviceWord? address = none := by
  unfold deviceWord?
  by_cases haddress : address.toNat + 3 < m.windowSize
  · have hregion := h.region_relocate (show address.toNat < m.windowSize by omega)
    simp [hregion]
  · simp [haddress]

theorem run_readByte (h : WindowInMemory m) (address : Word) :
    (readByte address).run m =
      if address.toNat < m.windowSize then
        (m.ram.get? ((m.registers.get .windowOffset).toNat + address.toNat)).elim (.error .memory m)
          (.ok · m)
      else .error .memory m := by
  rw [Machine.run_readByte]
  by_cases haddress : address.toNat < m.windowSize
  · rw [if_pos haddress, if_pos haddress, run_readPhysicalByte, h.region_relocate haddress,
      h.toNat_relocate haddress]
  · rw [if_neg haddress, if_neg haddress]

theorem run_writeByte (h : WindowInMemory m) (address : Word) (value : Byte) :
    (writeByte address value).run m =
      if address.toNat < m.windowSize then
        .ok () { m with ram := m.ram.put ((m.registers.get .windowOffset).toNat + address.toNat) value }
      else .error .memory m := by
  rw [Machine.run_writeByte]
  by_cases haddress : address.toNat < m.windowSize
  · have hlt := h.relocate_lt haddress
    rw [if_pos haddress, if_pos haddress, run_writePhysicalByte, h.region_relocate haddress]
    simp only [hlt, if_true]
    rw [h.toNat_relocate haddress]
  · rw [if_neg haddress, if_neg haddress]

end WindowInMemory

/-- The view of user code. The machines may differ in all else: where the window lies, what is outside
    of it, devices, address map, privileged registers and trap state. -/
structure SameView (first : Machine δ₁) (second : Machine δ₂) : Prop where
  user : first.flags.privileged = false
  flags : second.flags = first.flags
  interruptsMasked : second.interruptsMasked = first.interruptsMasked
  registers : ∀ r : Register, r.index.toNat < 27 → second.registers.get r = first.registers.get r
  software : second.vectors.software = first.vectors.software
  bound : second.registers.get .windowBound = first.registers.get .windowBound
  bound_ne_zero : first.registers.get .windowBound ≠ 0
  firstFits : (first.registers.get .windowOffset).toNat + (first.registers.get .windowBound).toNat ≤
    first.ram.size
  secondFits : (second.registers.get .windowOffset).toNat + (second.registers.get .windowBound).toNat ≤
    second.ram.size
  window : ∀ i < (first.registers.get .windowBound).toNat,
    second.ram.get? ((second.registers.get .windowOffset).toNat + i) =
      first.ram.get? ((first.registers.get .windowOffset).toNat + i)

/-- The view is the same and, as in every machine that conforms to a configuration, main memory ends
    below the windows of the map. -/
structure Twins (first : Machine δ₁) (second : Machine δ₂) : Prop extends SameView first second where
  firstBelow : first.ram.size ≤ first.layout.ramWindow
  secondBelow : second.ram.size ≤ second.layout.ramWindow

namespace SameView

variable {first : Machine δ₁} {second : Machine δ₂}

theorem secondUser (h : SameView first second) : second.flags.privileged = false := by
  rw [h.flags]
  exact h.user

theorem pc (h : SameView first second) : second.pc = first.pc :=
  h.registers .programCounter (by simp)

theorem sp (h : SameView first second) : second.registers.sp = first.registers.sp :=
  h.registers .stackPointer (by simp)

/-- User code may name a register in both machines or in neither, and finds the same in it. -/
theorem admitted (h : SameView first second) {r : Register}
    (hr : RegisterFile.admits first.flags.privileged r = true) : r.index.toNat < 27 := by
  have hunprivileged : r.isPrivileged = false := by simpa [RegisterFile.admits, h.user] using hr
  rw [← Bool.not_eq_true, Register.isPrivileged_iff] at hunprivileged
  omega

theorem twins {config₁ config₂ : Config} (h : SameView first second) (hfirst : Conforms config₁ first)
    (hsecond : Conforms config₂ second) : Twins first second :=
  { h with
    firstBelow := hfirst.ram_le
    secondBelow := hsecond.ram_le }

end SameView

namespace Twins

variable {first : Machine δ₁} {second : Machine δ₂}

theorem firstWindow (h : Twins first second) : WindowInMemory first where
  bound_ne_zero := h.bound_ne_zero
  fits := h.firstFits
  below := h.firstBelow

theorem secondWindow (h : Twins first second) : WindowInMemory second where
  bound_ne_zero := by
    rw [h.bound]
    exact h.bound_ne_zero
  fits := h.secondFits
  below := h.secondBelow

theorem windowSize_eq (h : Twins first second) : second.windowSize = first.windowSize := by
  rw [h.secondWindow.windowSize_eq, h.firstWindow.windowSize_eq, h.bound]

/-- Related machines stay related when both store the same byte at the same virtual address. -/
theorem put (h : Twins first second) {i : Nat} (hi : i < (first.registers.get .windowBound).toNat)
    (value : Byte) :
    Twins { first with ram := first.ram.put ((first.registers.get .windowOffset).toNat + i) value }
      { second with ram := second.ram.put ((second.registers.get .windowOffset).toNat + i) value } := by
  have hfirst := h.firstFits
  have hsecond := h.secondFits
  rw [h.bound] at hsecond
  have hwindow (j : Nat) (hj : j < (first.registers.get .windowBound).toNat) :
      (second.ram.put ((second.registers.get .windowOffset).toNat + i) value).get?
          ((second.registers.get .windowOffset).toNat + j) =
        (first.ram.put ((first.registers.get .windowOffset).toNat + i) value).get?
          ((first.registers.get .windowOffset).toNat + j) := by
    by_cases hsame : i = j
    · subst hsame
      rw [Memory.get?_put_self value (by omega), Memory.get?_put_self value (by omega)]
    · rw [Memory.get?_put_of_ne _ value (by omega), Memory.get?_put_of_ne _ value (by omega)]
      exact h.window j hj
  exact { h with
    firstFits := by simpa using h.firstFits
    secondFits := by simpa using h.secondFits
    window := hwindow
    firstBelow := by simpa using h.firstBelow
    secondBelow := by simpa using h.secondBelow }

/-- They stay related when both write the same value to a register that user code may name. -/
theorem set (h : Twins first second) {r : Register} (hr : r.index.toNat < 27) (value : Word) :
    Twins { first with registers := first.registers.set r value }
      { second with registers := second.registers.set r value } := by
  obtain ⟨hoffset, hbound⟩ := Register.ne_window hr
  have hregisters (s : Register) (hs : s.index.toNat < 27) :
      (second.registers.set r value).get s = (first.registers.set r value).get s := by
    by_cases hsame : r = s
    · subst hsame
      by_cases hzero : r = .zero
      · rw [hzero, RegisterFile.get_zero, RegisterFile.get_zero]
      · rw [RegisterFile.get_set_self _ _ hzero, RegisterFile.get_set_self _ _ hzero]
    · rw [RegisterFile.get_set_of_ne _ _ hsame, RegisterFile.get_set_of_ne _ _ hsame]
      exact h.registers s hs
  refine { h with
    registers := hregisters
    bound := ?_
    bound_ne_zero := ?_
    firstFits := ?_
    secondFits := ?_
    window := ?_ }
  all_goals
    simp only [RegisterFile.get_set_of_ne _ _ hoffset, RegisterFile.get_set_of_ne _ _ hbound]
  · exact h.bound
  · exact h.bound_ne_zero
  · exact h.firstFits
  · exact h.secondFits
  · exact h.window

theorem setPc (h : Twins first second) (address : Word) :
    Twins (first.setPc address) (second.setPc address) :=
  h.set (show Register.programCounter.index.toNat < 27 by simp) address

/-- The condition flags are part of the view, the privilege flag is not theirs to change. -/
theorem update (h : Twins first second) (update : FlagsUpdate) :
    Twins { first with flags := update.apply first.flags }
      { second with flags := update.apply second.flags } :=
  { h with
    user := (FlagsUpdate.apply_privileged first.flags update).trans h.user
    flags := congrArg (fun flags => update.apply flags) h.flags }

/-- What is not part of the core is not part of the view. -/
theorem of_sameCore (h : Twins first second) {first' : Machine δ₁} {second' : Machine δ₂}
    (hfirst : SameCore first first') (hsecond : SameCore second second') : Twins first' second' := by
  have hview (m : Machine δ₁) (n : Machine δ₂) : Twins m n ↔ Twins m.core n.core :=
    ⟨fun h => { h with }, fun h => { h with }⟩
  rw [hview, hfirst, hsecond, ← hview]
  exact h

end Twins

end Risc32.Machine
