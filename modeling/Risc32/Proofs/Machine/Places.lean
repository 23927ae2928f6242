import Risc32.Proofs.Exec.Succeeds
import Risc32.Proofs.Machine.Reachable

/-!
Where the bytes of an access lie. The place of a byte is its physical address as a number: the window is
added to the virtual address, and the sum wraps around the end of the address space. Main memory serves
the places up to its end; between there and the read-only memory lies a gap that nothing serves.
-/

namespace Risc32

namespace Layout

theorem romStart_add (layout : Layout) :
    layout.romStart + layout.romSize + layout.mmioSize = addressCount := by
  have hfits := layout.fits
  unfold romStart mmioStart
  omega

theorem region_eq_ram_iff {layout : Layout} {address : Word} :
    layout.region address = .ram ↔ address.toNat < layout.romStart := by
  have hstart := layout.romStart_add
  have hmmio : layout.mmioStart = layout.romStart + layout.romSize := by
    unfold mmioStart
    omega
  unfold region
  split
  · simp only [reduceCtorEq, false_iff]
    omega
  · split
    · simp only [reduceCtorEq, false_iff]
      omega
    · simp only [true_iff]
      omega

theorem romStart_le {layout : Layout} {address : Word} (h : layout.region address ≠ .ram) :
    layout.romStart ≤ address.toNat :=
  Nat.le_of_not_lt (mt region_eq_ram_iff.2 h)

end Layout

namespace Machine

variable {δ : Type}

/-- The bytes of a word in the order in which they are accessed. -/
def lastFirst : List Nat :=
  [3, 2, 1, 0]

@[simp]
theorem mem_lastFirst {i : Nat} : i ∈ lastFirst ↔ i < 4 := by
  simp only [lastFirst, List.mem_cons, List.not_mem_nil, or_false]
  omega

/-- The place of byte `i` of an access at a virtual address. -/
def place (m : Machine δ) (address : Word) (i : Nat) : Nat :=
  ((m.registers.get .windowOffset).toNat + address.toNat + i) % addressCount

/-- Main memory serves the place. -/
def InMain (m : Machine δ) (place : Nat) : Prop :=
  place < m.ram.size ∧ place < m.layout.romStart

/-- Main memory has ended before the place, and the read-only memory has not begun. -/
def InGap (m : Machine δ) (place : Nat) : Prop :=
  m.ram.size ≤ place ∧ place < m.layout.romStart

/-- Byte `i` of an access can be accessed: it lies in the window, and something serves it. -/
def Reaches (m : Machine δ) (address : Word) (i : Nat) : Prop :=
  address.toNat + i < m.windowSize ∧ ¬ m.InGap (m.place address i)

instance (m : Machine δ) (place : Nat) : Decidable (m.InMain place) :=
  inferInstanceAs (Decidable (_ ∧ _))

instance (m : Machine δ) (place : Nat) : Decidable (m.InGap place) :=
  inferInstanceAs (Decidable (_ ∧ _))

instance (m : Machine δ) (address : Word) (i : Nat) : Decidable (m.Reaches address i) :=
  inferInstanceAs (Decidable (_ ∧ _))

theorem windowSize_le (m : Machine δ) : m.windowSize ≤ addressCount := by
  unfold windowSize addressCount
  split
  · exact Nat.le_refl _
  · omega

theorem toNat_relocate (m : Machine δ) (address : Word) :
    (m.relocate address).toNat = m.place address 0 :=
  BitVec.toNat_add ..

/-- Bytes that follow each other have places that do, around the end of the address space. -/
theorem place_add (m : Machine δ) (address : Word) (i j : Nat) :
    m.place (address + BitVec.ofNat 32 i) j = m.place address (i + j) := by
  simp only [place, addressCount, BitVec.toNat_add, BitVec.toNat_ofNat]
  omega

/-- The place of a byte depends only on its own virtual address. -/
theorem place_zero (m : Machine δ) (address : Word) (i : Nat) :
    m.place 0 (address.toNat + i) = m.place address i := by
  simp [place, Nat.add_assoc]

theorem reaches_add {m : Machine δ} {address : Word} {i : Nat} (h : address.toNat + i < addressCount) :
    m.Reaches (address + BitVec.ofNat 32 i) 0 ↔ m.Reaches address i := by
  unfold Reaches
  rw [place_add, toNat_add_of_fits h, Nat.add_zero, Nat.add_zero]

/-- Two bytes of one access have different places. -/
theorem place_injective {m : Machine δ} {address : Word} {i j : Nat} (hi : i < addressCount)
    (hj : j < addressCount) (h : m.place address i = m.place address j) : i = j := by
  unfold place addressCount at *
  omega

theorem place_lt_romStart {m : Machine δ} {address : Word}
    (hregion : m.layout.region (m.relocate address) = .ram) : m.place address 0 < m.layout.romStart := by
  rw [← toNat_relocate]
  exact Layout.region_eq_ram_iff.1 hregion

/-- The read-only memory and the devices lie behind everything that main memory could serve. -/
theorem romStart_le_place {m : Machine δ} {address : Word} {region : Region}
    (hregion : m.layout.region (m.relocate address) = region) (hne : region ≠ .ram) :
    m.layout.romStart ≤ m.place address 0 := by
  rw [← hregion] at hne
  rw [← toNat_relocate]
  exact Layout.romStart_le hne

/-- A machine that addresses memory through the same window, with the same address map. -/
structure SameWindow (before after : Machine δ) : Prop where
  offset : after.registers.get .windowOffset = before.registers.get .windowOffset
  bound : after.registers.get .windowBound = before.registers.get .windowBound
  layout : after.layout = before.layout
  ramSize : after.ram.size = before.ram.size

namespace SameWindow

variable {before after : Machine δ}

theorem of_storesInWindow (h : StoresInWindow before after) : SameWindow before after where
  offset := by rw [h.registers]
  bound := by rw [h.registers]
  layout := congrArg (·.layout) h.rest
  ramSize := h.size

theorem of_sameCore (h : SameCore before after) : SameWindow before after :=
  .of_storesInWindow h.storesInWindow

instance : IsPreorder (Machine δ) SameWindow where
  refl _ := ⟨rfl, rfl, rfl, rfl⟩
  trans _ _ _ hfirst hsecond :=
    ⟨hsecond.offset.trans hfirst.offset, hsecond.bound.trans hfirst.bound,
      hsecond.layout.trans hfirst.layout, hsecond.ramSize.trans hfirst.ramSize⟩

theorem windowSize_eq (h : SameWindow before after) : after.windowSize = before.windowSize := by
  unfold windowSize
  rw [h.bound]

theorem place_eq (h : SameWindow before after) (address : Word) (i : Nat) :
    after.place address i = before.place address i := by
  unfold place
  rw [h.offset]

theorem inMain_iff (h : SameWindow before after) (place : Nat) :
    after.InMain place ↔ before.InMain place := by
  unfold InMain
  rw [h.ramSize, h.layout]

theorem inGap_iff (h : SameWindow before after) (place : Nat) : after.InGap place ↔ before.InGap place := by
  unfold InGap
  rw [h.ramSize, h.layout]

theorem reaches_iff (h : SameWindow before after) (address : Word) (i : Nat) :
    after.Reaches address i ↔ before.Reaches address i := by
  unfold Reaches
  rw [h.windowSize_eq, h.place_eq, h.inGap_iff]

end SameWindow

/-- Bytes that do not wrap are as far apart as their places. -/
theorem place_of_le {m : Machine δ} {address : Word} {i j : Nat} (hle : i ≤ j)
    (h : m.place address i + (j - i) < addressCount) :
    m.place address j = m.place address i + (j - i) := by
  unfold place addressCount at *
  omega

/-- A byte of a word is in reach after stores just when it was before. -/
theorem reaches_from {m before : Machine δ} {address : Word} (hfits : address.toNat + 3 < addressCount)
    (hstores : StoresInWindow m before) {i : Nat} (hi : i < 4) :
    before.Reaches (address + BitVec.ofNat 32 i) 0 ↔ m.Reaches address i := by
  rw [reaches_add (by omega), (SameWindow.of_storesInWindow hstores).reaches_iff]

/-- A word that wraps around the end of the virtual addresses is never in reach. -/
theorem not_reaches_of_wraps {m : Machine δ} {address : Word} (h : ¬ address.toNat + 3 < addressCount) :
    ¬ ∀ i < 4, m.Reaches address i := by
  intro hall
  have hlast := (hall 3 (by omega)).1
  have hwindow := m.windowSize_le
  omega

section Words

variable {readAt : Word → Exec δ Byte} {writeAt : Word → Byte → Exec δ Unit} {address : Word}

/-- Where the word does not wrap around the end of the virtual addresses, its bytes are read at the
    addresses that follow the first one. -/
theorem readBytes_of_fits (h : address.toNat + 3 < addressCount) :
    readBytes readAt address = (do
      let b3 ← readAt (address + BitVec.ofNat 32 3)
      let b2 ← readAt (address + BitVec.ofNat 32 2)
      let b1 ← readAt (address + BitVec.ofNat 32 1)
      let b0 ← readAt (address + BitVec.ofNat 32 0)
      return Word.ofBytes b0 b1 b2 b3) := by
  rw [BitVec.add_zero]
  simp only [readBytes, following, h, show address.toNat + 2 < addressCount by omega,
    show address.toNat + 1 < addressCount by omega, if_true, pure_bind]

theorem readBytes_of_wraps (h : addressCount ≤ address.toNat + 3) :
    readBytes readAt address = throw .memory := by
  simp only [readBytes, following, Nat.not_lt_of_le h, if_false]
  rfl

theorem writeBytes_of_wraps (h : addressCount ≤ address.toNat + 3) (value : Word) :
    writeBytes writeAt address value = throw .memory := by
  simp only [writeBytes, following, Nat.not_lt_of_le h, if_false]
  rfl

end Words

section Devices

variable [Device δ] {m after : Machine δ} {address : Word} {value : Byte}

/-- What makes a word go to a device in one piece. -/
theorem deviceWord?_eq_some {target : Word} (h : m.deviceWord? address = some target) :
    target = m.relocate address ∧ address.toNat + 3 < m.windowSize ∧ target.toNat % 4 = 0 ∧
      m.layout.region target = .mmio := by
  dsimp only [deviceWord?] at h
  split at h
  · rename_i hword
    cases h
    simp only [Bool.and_eq_true, decide_eq_true_eq, beq_iff_eq] at hword
    exact ⟨rfl, hword.1.1.1, hword.1.1.2, hword.1.2⟩
  · cases h

/-- Such a word is aligned, so that all of it lies where the device does. -/
theorem reaches_of_deviceWord? {target : Word} (h : m.deviceWord? address = some target) {i : Nat}
    (hi : i < 4) : m.Reaches address i := by
  obtain ⟨rfl, hwindow, haligned, hregion⟩ := deviceWord?_eq_some h
  have hrom := romStart_le_place hregion (by decide)
  refine ⟨by omega, fun hgap => ?_⟩
  have hbelow := hgap.2
  rw [toNat_relocate] at haligned
  unfold place addressCount at *
  omega

/-- A byte cannot be stored outside of the window or in the gap, and everywhere else it can. -/
theorem writeByte_succeeds_iff :
    Succeeds (writeByte address value) m ↔ m.Reaches address 0 := by
  unfold Succeeds Reaches InGap
  rw [run_writeByte, run_writePhysicalByte, toNat_relocate, Nat.add_zero]
  by_cases hwindow : address.toNat < m.windowSize
  · simp only [hwindow, if_true, true_and]
    cases hregion : m.layout.region (m.relocate address) with
    | ram =>
      have hbelow := place_lt_romStart hregion
      by_cases hsize : m.place address 0 < m.ram.size
      · simp only [hsize, if_true]
        exact iff_of_true ⟨_, _, rfl⟩ fun hgap => Nat.not_lt_of_le hgap.1 hsize
      · simp only [hsize, if_false]
        refine iff_of_false ?_ fun hgap => hgap ⟨Nat.le_of_not_lt hsize, hbelow⟩
        rintro ⟨_, _, hrun⟩
        cases hrun
    | rom =>
      have hrom := romStart_le_place hregion (by decide)
      exact iff_of_true ⟨_, _, rfl⟩ fun hgap => Nat.not_lt_of_le hrom hgap.2
    | mmio =>
      have hrom := romStart_le_place hregion (by decide)
      exact iff_of_true ⟨_, _, rfl⟩ fun hgap => Nat.not_lt_of_le hrom hgap.2
  · simp [hwindow]

/-- A byte that is stored changes its place in main memory and nothing else, or is left to the read-only
    memory or a device. -/
theorem writeByte_ok (hrun : (writeByte address value).run m = .ok () after) :
    m.InMain (m.place address 0) ∧ after = { m with ram := m.ram.put (m.place address 0) value } ∨
      ¬ m.InMain (m.place address 0) ∧ SameCore m after := by
  rw [run_writeByte, run_writePhysicalByte] at hrun
  rw [toNat_relocate] at hrun
  split at hrun
  · cases hregion : m.layout.region (m.relocate address) with
    | ram =>
      simp only [hregion] at hrun
      split at hrun
      · rename_i hsize
        cases hrun
        exact .inl ⟨⟨hsize, place_lt_romStart hregion⟩, rfl⟩
      · cases hrun
    | rom =>
      have hrom := romStart_le_place hregion (by decide)
      simp only [hregion] at hrun
      cases hrun
      exact .inr ⟨fun hmain => Nat.not_lt_of_le hrom hmain.2, rfl⟩
    | mmio =>
      have hrom := romStart_le_place hregion (by decide)
      simp only [hregion] at hrun
      cases hrun
      exact .inr ⟨fun hmain => Nat.not_lt_of_le hrom hmain.2, rfl⟩
  · cases hrun

/-- Stores some of the bytes of a word, in the given order. -/
def writeEach (address value : Word) (indices : List Nat) : Exec δ Unit :=
  forM indices fun i => writeByte (address + BitVec.ofNat 32 i) (Word.byte value i)

/-- Where the word does not wrap around the end of the virtual addresses, its bytes are written one by
    one, the last one first. -/
theorem writeBytes_of_fits (h : address.toNat + 3 < addressCount) (word : Word) :
    writeBytes writeByte address word = (writeEach address word lastFirst : Exec δ Unit) := by
  simp only [writeBytes, writeEach, lastFirst, following, h, show address.toNat + 2 < addressCount by omega,
    show address.toNat + 1 < addressCount by omega, if_true, pure_bind, List.forM_cons, List.forM_nil,
    BitVec.add_zero, bind_pure_unit]

theorem writeEach_keeps (address word : Word) (indices : List Nat) :
    Keeps StoresInWindow (writeEach address word indices : Exec δ Unit) :=
  .forM fun i => writeByte_keeps _ (Word.byte word i)

/-- Bytes of a word can be stored when each of them is in reach. -/
theorem writeEach_succeeds_iff {word : Word} {indices : List Nat}
    (hfits : address.toNat + 3 < addressCount) (hindices : ∀ i ∈ indices, i < 4) :
    Succeeds (writeEach address word indices) m ↔ ∀ i ∈ indices, m.Reaches address i := by
  have hbyte (i : Nat) (hi : i ∈ indices) : SucceedsFrom StoresInWindow m (m.Reaches address i)
      (writeByte (address + BitVec.ofNat 32 i) (Word.byte word i)) :=
    fun before hbefore => writeByte_succeeds_iff.trans (reaches_from hfits hbefore (hindices i hi))
  exact SucceedsFrom.forM (fun i => writeByte_keeps _ (Word.byte word i)) hbyte m (Std.Refl.refl m)

/-- A word that does not go to a device in one piece is stored byte by byte, unless it wraps around the
    end of the virtual addresses. -/
theorem run_writeWord_bytes (hdevice : m.deviceWord? address = none) (word : Word) :
    (writeWord address word).run m =
      if address.toNat + 3 < addressCount then (writeEach address word lastFirst).run m
      else .error .memory m := by
  have hbytewise : (writeWord address word).run m = (writeBytes writeByte address word).run m := by
    rw [run_writeWord, hdevice]
  rw [hbytewise]
  split
  · rename_i hfits
    rw [writeBytes_of_fits hfits]
  · rename_i hwraps
    rw [writeBytes_of_wraps (Nat.le_of_not_lt hwraps)]
    rfl

/-- A word can be stored when each of its bytes is in reach, whether or not it goes in one piece. -/
theorem writeWord_succeeds_iff {word : Word} :
    Succeeds (writeWord address word) m ↔ ∀ i < 4, m.Reaches address i := by
  unfold Succeeds
  cases hdevice : m.deviceWord? address with
  | some target =>
    rw [run_writeWord, hdevice]
    exact iff_of_true ⟨_, _, rfl⟩ fun i hi => reaches_of_deviceWord? hdevice hi
  | none =>
    rw [run_writeWord_bytes hdevice]
    by_cases hfits : address.toNat + 3 < addressCount
    · have heach : Succeeds (writeEach address word lastFirst) m ↔ ∀ i ∈ lastFirst, m.Reaches address i :=
        writeEach_succeeds_iff hfits fun i hi => mem_lastFirst.1 hi
      simp only [mem_lastFirst] at heach
      rw [if_pos hfits]
      exact heach
    · refine iff_of_false ?_ (not_reaches_of_wraps hfits)
      rw [if_neg hfits]
      rintro ⟨_, _, hrun⟩
      cases hrun

end Devices

end Machine

end Risc32
