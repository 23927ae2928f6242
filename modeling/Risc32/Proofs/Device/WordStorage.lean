import Risc32.Proofs.Device.Lanes
import Risc32.Proofs.Device.Stationary

namespace Risc32

/-- An access to a word of a device, by the offset of the word, and the time at which it happens. -/
inductive WordAccess where
  | read (now : Nat) (offset : Word)
  | write (now : Nat) (offset value : Word)

namespace WordAccess

def offset : WordAccess → Word
  | read _ offset => offset
  | write _ offset _ => offset

/-- What the access makes of the words that are kept, each under its offset. -/
def store (words : Word → Word) : WordAccess → Word → Word
  | read _ _ => words
  | write _ offset value => fun other => if other = offset then value else words other

/-- What the access makes of a device. -/
def perform {δ : Type} [Device δ] (device : δ) : WordAccess → δ
  | read now offset => (Device.readWord now offset device).device
  | write now offset value => (Device.writeWord now offset value device).device

end WordAccess

namespace Device

variable {δ : Type} [Device δ] {device : δ} {words : Word → Word}

/-- A whole word lies at the offset: it is aligned, and the window does not end before it. -/
def HasWord (device : δ) (offset : Word) : Prop :=
  offset.toNat % 4 = 0 ∧ offset.toNat + 3 < (size device).toNat

/-- The device has no bytes of its own. -/
def DerivesBytes (device : δ) : Prop :=
  (∀ now offset, readByte now offset device = readByteByWord (readWord now) offset device) ∧
    ∀ now offset value,
      writeByte now offset value device = writeByteByWord (readWord now) (writeWord now) offset value device

/-- The device knows words only, and they are a store. After any accesses, the word that is read at an offset is
    the one last written there, and that of `words` as long as none has been. -/
structure StoresWords (device : δ) (words : Word → Word) : Prop where
  readWord : ∀ accesses : List WordAccess, (∀ access ∈ accesses, HasWord device access.offset) →
    ∀ now offset, HasWord device offset →
      (readWord now offset (accesses.foldl WordAccess.perform device)).value =
        accesses.foldl WordAccess.store words offset
  derivesBytes : ∀ accesses : List WordAccess, (∀ access ∈ accesses, HasWord device access.offset) →
    DerivesBytes (accesses.foldl WordAccess.perform device)

/-- So it stands at first, before any access. -/
theorem StoresWords.value_readWord (h : StoresWords device words) (now : Nat) {offset : Word}
    (hword : HasWord device offset) : (Device.readWord now offset device).value = words offset :=
  h.readWord [] nofun now offset hword

theorem StoresWords.readByte_eq (h : StoresWords device words) (now : Nat) (offset : Word) :
    readByte now offset device = readByteByWord (Device.readWord now) offset device :=
  (h.derivesBytes [] nofun).1 now offset

theorem StoresWords.writeByte_eq (h : StoresWords device words) (now : Nat) (offset : Word) (value : Byte) :
    writeByte now offset value device =
      writeByteByWord (Device.readWord now) (Device.writeWord now) offset value device :=
  (h.derivesBytes [] nofun).2 now offset value

theorem hasWord_of_window {first second : δ} (h : window second = window first) {offset : Word} :
    HasWord second offset ↔ HasWord first offset := by
  rw [HasWord, HasWord, (Prod.mk.inj h).2]

theorem window_perform [Stationary δ] (device : δ) (access : WordAccess) :
    window (access.perform device) = window device := by
  cases access with
  | read now offset => exact Stationary.readWord now offset device
  | write now offset value => exact Stationary.writeWord now offset value device

/-- The store goes on as a store, with the words that the access leaves in it. -/
theorem StoresWords.perform [Stationary δ] (h : StoresWords device words) (access : WordAccess)
    (hword : HasWord device access.offset) :
    StoresWords (access.perform device) (access.store words) := by
  have hwindow := window_perform device access
  have hall {rest : List WordAccess}
      (hrest : ∀ other ∈ rest, HasWord (access.perform device) other.offset) :
      ∀ other ∈ access :: rest, HasWord device other.offset :=
    List.forall_mem_cons.2 ⟨hword, fun other hother => (hasWord_of_window hwindow).1 (hrest other hother)⟩
  exact ⟨fun rest hrest now offset hoffset =>
      h.readWord (access :: rest) (hall hrest) now offset ((hasWord_of_window hwindow).1 hoffset),
    fun rest hrest => h.derivesBytes (access :: rest) (hall hrest)⟩

end Device

namespace WordStore

open Device (HasWord StoresWords)

variable {store : WordStore} {words : Word → Word}

theorem hasWord_of_size {first second : WordStore} (h : second.size = first.size) {offset : Word} :
    HasWord (Peripheral.words second) offset ↔ HasWord (Peripheral.words first) offset := by
  change _ ∧ _ < second.size.toNat ↔ _ ∧ _ < first.size.toNat
  rw [h]

/-- The words of the store fill its window, and are those of `words` there. -/
def Holds (store : WordStore) (words : Word → Word) : Prop :=
  store.words.size * 4 = store.size.toNat ∧
    ∀ offset, HasWord (Peripheral.words store) offset → store.word offset = words offset

theorem Holds.perform (h : Holds store words) {access : WordAccess}
    (hword : HasWord (Peripheral.words store) access.offset) :
    ∃ after : WordStore, access.perform (Peripheral.words store) = .words after ∧
      after.size = store.size ∧ Holds after (access.store words) := by
  obtain ⟨hsize, hwords⟩ := h
  cases access with
  | read now offset => exact ⟨store.record (.readWord offset), rfl, rfl, hsize, hwords⟩
  | write now offset value =>
    have hindex : offset.toNat / 4 < store.words.size := by
      have hbound : offset.toNat + 3 < store.size.toNat := hword.2
      omega
    refine ⟨_, rfl, rfl, (congrArg (· * 4) (Array.size_setIfInBounds ..)).trans hsize, fun other hother => ?_⟩
    change (store.words.setIfInBounds (offset.toNat / 4) value).getD (other.toNat / 4) 0 =
      if other = offset then value else words other
    rw [← hwords other hother, word, Array.getD_eq_getD_getElem?, Array.getD_eq_getD_getElem?]
    by_cases hsame : other = offset
    · subst hsame
      rw [if_pos rfl, Array.getElem?_setIfInBounds_self_of_lt hindex, Option.getD_some]
    · have hapart : offset.toNat / 4 ≠ other.toNat / 4 := by
        have hvalue : other.toNat ≠ offset.toNat := BitVec.toNat_ne.1 hsame
        have haligned : offset.toNat % 4 = 0 := hword.1
        have hother : other.toNat % 4 = 0 := hother.1
        omega
      rw [if_neg hsame, Array.getElem?_setIfInBounds_ne hapart]

theorem Holds.performAll (h : Holds store words) {accesses : List WordAccess}
    (hall : ∀ access ∈ accesses, HasWord (Peripheral.words store) access.offset) :
    ∃ after : WordStore, accesses.foldl WordAccess.perform (Peripheral.words store) = .words after ∧
      after.size = store.size ∧ Holds after (accesses.foldl WordAccess.store words) := by
  induction accesses generalizing store words with
  | nil => exact ⟨store, rfl, rfl, h⟩
  | cons access rest ih =>
    obtain ⟨hword, hrest⟩ := List.forall_mem_cons.1 hall
    obtain ⟨next, hnext, hsize, hholds⟩ := h.perform hword
    obtain ⟨after, hafter, hsizes, hlast⟩ :=
      ih hholds fun other hother => (hasWord_of_size hsize).2 (hrest other hother)
    exact ⟨after, by rw [List.foldl_cons, hnext, hafter], hsizes.trans hsize, hlast⟩

/-- A recording store whose words fill its window keeps words, as one device among others. -/
theorem storesWords (hsize : store.words.size * 4 = store.size.toNat) :
    StoresWords (Peripheral.words store) store.word := by
  have hholds : Holds store store.word := ⟨hsize, fun _ _ => rfl⟩
  constructor
  · intro accesses hall now offset hword
    obtain ⟨after, hafter, hsizes, -, hwords⟩ := hholds.performAll hall
    rw [hafter]
    exact hwords offset ((hasWord_of_size hsizes).2 hword)
  · intro accesses hall
    obtain ⟨after, hafter, -⟩ := hholds.performAll hall
    rw [hafter]
    exact ⟨fun _ _ => rfl, fun _ _ _ => rfl⟩

end WordStore

end Risc32
