import Risc32.Proofs.Machine.Footprint
import Risc32.Proofs.Machine.Places

namespace Risc32

namespace Machine

variable {δ α : Type}

/-- The access ends outside of the window, or one of its bytes lies in the gap. -/
def OutOfReach (m : Machine δ) (width : Width) (address : Word) : Prop :=
  m.windowSize < address.toNat + width.bytes ∨ ∃ i < width.bytes, m.InGap (m.place address i)

instance (m : Machine δ) (width : Width) (address : Word) : Decidable (m.OutOfReach width address) :=
  inferInstanceAs (Decidable (_ ∨ ∃ i < width.bytes, m.InGap (m.place address i)))

/-- The computation faults on the machine exactly when `P` holds, and the fault is one of memory. -/
def FaultsWhen (m : Machine δ) (P : Prop) (x : Exec δ α) : Prop :=
  ((∃ fault after, x.run m = .error fault after) ↔ P) ∧
    ∀ fault after, x.run m = .error fault after → fault = .memory

theorem not_outOfReach_iff {m : Machine δ} {width : Width} {address : Word} :
    ¬ m.OutOfReach width address ↔ ∀ i < width.bytes, m.Reaches address i := by
  have hpositive : 0 < width.bytes := by cases width <;> decide
  unfold OutOfReach Reaches
  constructor
  · intro h i hi
    refine ⟨?_, fun hgap => h (.inr ⟨i, hi, hgap⟩)⟩
    have hend := fun hwindow => h (.inl hwindow)
    omega
  · rintro h (hwindow | ⟨i, hi, hgap⟩)
    · have hlast := (h (width.bytes - 1) (by omega)).1
      omega
    · exact (h i hi).2 hgap

/-- An access that succeeds where it reaches all of its bytes faults where it does not. -/
theorem FaultsWhen.of_succeeds {m : Machine δ} {width : Width} {address : Word} {x : Exec δ α}
    (hsucceeds : Succeeds x m ↔ ∀ i < width.bytes, m.Reaches address i) (hraises : Raises (· = .memory) x) :
    FaultsWhen m (m.OutOfReach width address) x := by
  refine ⟨?_, fun fault after hrun => hraises _ _ _ hrun⟩
  rw [← not_succeeds_iff, hsucceeds, ← not_outOfReach_iff, Classical.not_not]

theorem readBytes_raises {readAt : Word → Exec δ Byte}
    (hread : ∀ address, Raises (· = .memory) (readAt address)) (address : Word) :
    Raises (· = .memory) (readBytes readAt address) := by
  unfold readBytes
  refine .bind (following_raises address 3) fun _ => .bind (hread _) fun _ => ?_
  refine .bind (following_raises address 2) fun _ => .bind (hread _) fun _ => ?_
  refine .bind (following_raises address 1) fun _ => .bind (hread _) fun _ => ?_
  exact .bind (hread address) fun _ => .pure _

variable [Device δ] {config : Config} {m : Machine δ}

theorem writeByte_raises (address : Word) (value : Byte) :
    Raises (· = .memory) (writeByte address value : Exec δ Unit) :=
  fun _ _ _ hrun => (writeByte_error hrun).1

theorem readByte_raises (address : Word) : Raises (· = .memory) (readByte address : Exec δ Byte) := by
  intro m fault after hrun
  rw [run_readByte, run_readPhysicalByte] at hrun
  split at hrun
  · split at hrun
    · cases hbyte : m.ram.get? (m.relocate address).toNat <;> rw [hbyte] at hrun <;> cases hrun
      rfl
    · cases hbyte : m.rom.get? ((m.relocate address).toNat - m.layout.romStart) <;> rw [hbyte] at hrun <;>
        cases hrun
      rfl
    · cases hrun
  · cases hrun
    rfl

theorem readWord_raises (address : Word) : Raises (· = .memory) (readWord address : Exec δ Word) := by
  intro m fault after hrun
  rw [run_readWord] at hrun
  cases hdevice : m.deviceWord? address with
  | some target =>
    rw [hdevice] at hrun
    cases hrun
  | none =>
    rw [hdevice] at hrun
    exact readBytes_raises readByte_raises address _ _ _ hrun

/-- The read-only memory fills its part of the map, so that a byte is read wherever one could be
    stored. -/
theorem Conforms.readByte_succeeds_iff (h : Conforms config m) {address : Word} :
    Succeeds (readByte address) m ↔ m.Reaches address 0 := by
  have hstart := m.layout.romStart_add
  have hrom := h.rom
  unfold Succeeds Reaches InGap
  rw [run_readByte, run_readPhysicalByte, toNat_relocate, Nat.add_zero]
  by_cases hwindow : address.toNat < m.windowSize
  · simp only [hwindow, if_true, true_and]
    cases hregion : m.layout.region (m.relocate address) with
    | ram =>
      have hbelow := place_lt_romStart hregion
      cases hbyte : m.ram.get? (m.place address 0) with
      | some byte =>
        refine iff_of_true ⟨_, _, rfl⟩ fun hgap => ?_
        rw [Memory.get?_eq_none_iff.2 hgap.1] at hbyte
        cases hbyte
      | none =>
        refine iff_of_false ?_ fun hgap => hgap ⟨Memory.get?_eq_none_iff.1 hbyte, hbelow⟩
        rintro ⟨_, _, hrun⟩
        cases hrun
    | rom =>
      have hbase := romStart_le_place hregion (by decide)
      have hbelow : m.place address 0 < m.layout.mmioStart := by
        rw [← toNat_relocate]
        unfold Layout.region at hregion
        grind
      have hinside : m.place address 0 - m.layout.romStart < m.rom.size := by
        unfold Layout.mmioStart at hbelow
        omega
      obtain ⟨byte, hbyte⟩ := Memory.get?_of_lt hinside
      rw [hbyte]
      exact iff_of_true ⟨_, _, rfl⟩ fun hgap => Nat.not_lt_of_le hbase hgap.2
    | mmio =>
      have hbase := romStart_le_place hregion (by decide)
      exact iff_of_true ⟨_, _, rfl⟩ fun hgap => Nat.not_lt_of_le hbase hgap.2
  · simp [hwindow]

section Words

variable {address : Word}

theorem Conforms.readBytes_succeeds_iff (h : Conforms config m) :
    Succeeds (readBytes readByte address) m ↔ ∀ i < 4, m.Reaches address i := by
  by_cases hfits : address.toNat + 3 < addressCount
  · have hkeeps (source : Word) : Keeps StoresInWindow (readByte source : Exec δ Byte) :=
      (readByte_keeps source).mono fun _ _ => SameCore.storesInWindow
    have hbyte {i : Nat} (hi : i < 4) : SucceedsFrom StoresInWindow m (m.Reaches address i)
        (readByte (address + BitVec.ofNat 32 i)) := by
      intro before hbefore
      have hconforms := h.of_sameShape (Retains.of_storesInWindow hbefore).sameShape
      exact hconforms.readByte_succeeds_iff.trans (reaches_from hfits hbefore hi)
    have hword : SucceedsFrom StoresInWindow m
        (m.Reaches address 3 ∧ m.Reaches address 2 ∧ m.Reaches address 1 ∧ m.Reaches address 0 ∧ True)
        (readBytes readByte address) := by
      rw [readBytes_of_fits hfits]
      refine .bind (hbyte (show 3 < 4 by omega)) (hkeeps _) fun _ => ?_
      refine .bind (hbyte (show 2 < 4 by omega)) (hkeeps _) fun _ => ?_
      refine .bind (hbyte (show 1 < 4 by omega)) (hkeeps _) fun _ => ?_
      exact .bind (hbyte (show 0 < 4 by omega)) (hkeeps _) fun _ => .pure _
    rw [hword m (Std.Refl.refl m)]
    constructor
    · rintro ⟨h3, h2, h1, h0, -⟩ i hi
      have hcases : i = 0 ∨ i = 1 ∨ i = 2 ∨ i = 3 := by omega
      obtain rfl | rfl | rfl | rfl := hcases <;> assumption
    · intro hall
      exact ⟨hall 3 (by omega), hall 2 (by omega), hall 1 (by omega), hall 0 (by omega), trivial⟩
  · refine iff_of_false ?_ (not_reaches_of_wraps hfits)
    rw [readBytes_of_wraps (by omega)]
    rintro ⟨_, _, hrun⟩
    cases hrun

theorem Conforms.readWord_succeeds_iff (h : Conforms config m) :
    Succeeds (readWord address) m ↔ ∀ i < 4, m.Reaches address i := by
  unfold Succeeds
  rw [run_readWord]
  cases hdevice : m.deviceWord? address with
  | some target => exact iff_of_true ⟨_, _, rfl⟩ fun i hi => reaches_of_deviceWord? hdevice hi
  | none => exact h.readBytes_succeeds_iff

end Words

/-- The fault domain of memory, on every machine that a valid configuration can lead to, for every window
    and every virtual address: a load or a store faults exactly when it ends outside of the window or one
    of its bytes lies in the gap, and then the fault is one of memory. It makes no difference whether a
    word goes to a device in one piece. No byte of the read-only memory or of the device window lies in
    the gap, whether or not a device serves it. -/
theorem access_faults_iff (h : Reachable config m) (address value : Word) (byte : Byte) :
    FaultsWhen m (m.OutOfReach .byte address) (readByte address) ∧
    FaultsWhen m (m.OutOfReach .byte address) (writeByte address byte) ∧
    FaultsWhen m (m.OutOfReach .word address) (readWord address) ∧
    FaultsWhen m (m.OutOfReach .word address) (writeWord address value) ∧
    ∀ width : Width, address.toNat + width.bytes ≤ m.windowSize →
      (∀ i < width.bytes, m.layout.region (m.relocate (address + BitVec.ofNat 32 i)) ≠ .ram) →
      ¬ m.OutOfReach width address := by
  have hconforms := h.conforms
  have hfirst : m.Reaches address 0 ↔ ∀ i < Width.byte.bytes, m.Reaches address i :=
    Nat.forall_lt_succ_right.trans (by simp) |>.symm
  refine ⟨.of_succeeds (hconforms.readByte_succeeds_iff.trans hfirst) (readByte_raises address),
    .of_succeeds (writeByte_succeeds_iff.trans hfirst) (writeByte_raises address byte),
    .of_succeeds hconforms.readWord_succeeds_iff (readWord_raises address),
    .of_succeeds writeWord_succeeds_iff (writeWord_raises address value), ?_⟩
  rintro width hwindow hregion (houtside | ⟨i, hi, hgap⟩)
  · omega
  · have hrom := romStart_le_place rfl (hregion i hi)
    rw [place_add, Nat.add_zero] at hrom
    exact Nat.not_lt_of_le hrom hgap.2

/-- A word that begins two bytes before the end of main memory: its first byte can be stored, all of it
    can neither be stored nor loaded. -/
theorem access_faults_iff_straddling :
    let config : Config := ⟨64, 0, 16, 16, 0, 1, 1⟩
    let m := oneWord 64 62 0x30
    Reachable config m ∧
    (∃ after, (writeWord 0 0x01020304).run m = .error .memory after) ∧
    (∃ after, (readWord 0).run m = .error .memory after) ∧
    ¬ ∃ fault after, (writeByte 0 0x01).run m = .error fault after := by
  intro config m
  have hreachable : Reachable config m := oneWord_reachable rfl
  have hword : m.OutOfReach .word 0 := by decide +kernel
  have hbyte : ¬ m.OutOfReach .byte 0 := by decide +kernel
  obtain ⟨-, hfirst, hload, hstore, -⟩ := access_faults_iff hreachable 0 0x01020304 0x01
  obtain ⟨fault, stored, hstored⟩ := hstore.1.2 hword
  obtain ⟨other, loaded, hloaded⟩ := hload.1.2 hword
  obtain rfl := hstore.2 _ _ hstored
  obtain rfl := hload.2 _ _ hloaded
  exact ⟨hreachable, ⟨stored, hstored⟩, ⟨loaded, hloaded⟩, fun hfault => hbyte (hfirst.1.1 hfault)⟩

end Machine

end Risc32
