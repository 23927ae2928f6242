import Risc32.Proofs.Bus.Routing
import Risc32.Proofs.Device.WordStorage

namespace Risc32

/-- An access to the bus, by its physical address. -/
inductive BusAccess where
  | readByte (address : Word)
  | writeByte (address : Word) (value : Byte)
  | readWord (address : Word)
  | writeWord (address value : Word)

namespace BusAccess

/-- Words are accessed at multiples of four. -/
def IsAligned : BusAccess → Prop
  | readWord address | writeWord address _ => address.toNat % 4 = 0
  | _ => True

instance : DecidablePred IsAligned
  | readWord address | writeWord address _ => inferInstanceAs (Decidable (address.toNat % 4 = 0))
  | readByte _ | writeByte _ _ => inferInstanceAs (Decidable True)

end BusAccess

/-- The bytes of a word, the least significant one first. -/
def Word.littleEndian (word : Word) : List Byte :=
  [byte word 3, byte word 2, byte word 1, byte word 0]

namespace Device

variable {δ : Type} [Device δ]

/-- The window of a device begins at its base and has as many addresses as its size says. -/
def InWindow (device : δ) (address : Word) : Prop :=
  (base device).toNat ≤ address.toNat ∧ address.toNat < (base device).toNat + (size device).toNat

instance (device : δ) : DecidablePred (InWindow device) :=
  fun _ => inferInstanceAs (Decidable (_ ∧ _))

theorem serves_iff {device : δ} {address : Word} : serves address device = true ↔ InWindow device address := by
  rw [serves, Bool.and_eq_true, decide_eq_true_eq, decide_eq_true_eq, InWindow]
  omega

/-- Where an address lies in the window of a device that serves it. -/
def indexOf (device : δ) (address : Word) : Nat :=
  (address - base device).toNat

/-- What an access makes of an array of bytes in place of the device: a write inside the window changes one
    byte or the four bytes of a word, and nothing else changes anything. -/
def record (device : δ) (array : Memory) : BusAccess → Memory
  | .writeByte address value =>
    if InWindow device address then array.put (indexOf device address) value else array
  | .writeWord address value =>
    if InWindow device address then array.putAll (indexOf device address) value.littleEndian else array
  | _ => array

/-- Each word under its offset is made of the four bytes at this offset, the least significant one first. -/
def Shows (device : δ) (words : Word → Word) (array : Memory) : Prop :=
  array.size = (size device).toNat ∧
    ∀ offset, HasWord device offset → ∀ i < 4,
      array.get? (offset.toNat + i) = some (Word.byte (words offset) (3 - i))

variable {device : δ} {words : Word → Word} {array : Memory} {offset : Word}

theorem exists_shows (device : δ) (words : Word → Word) : ∃ array, Shows device words array := by
  let bytes : Array Byte := Array.ofFn fun index : Fin (size device).toNat =>
    Word.byte (words (BitVec.ofNat 32 (index / 4 * 4))) (3 - index % 4)
  refine ⟨⟨bytes⟩, Array.size_ofFn, fun offset ⟨haligned, hinside⟩ i hi => ?_⟩
  have hindex : offset.toNat + i < bytes.size := by
    rw [Array.size_ofFn]
    omega
  have hoffset : (offset.toNat + i) / 4 * 4 = offset.toNat := by omega
  have hlane : (offset.toNat + i) % 4 = i := by omega
  change bytes[offset.toNat + i]? = _
  rw [Array.getElem?_eq_getElem hindex, Array.getElem_ofFn]
  simp only [hoffset, hlane, BitVec.ofNat_toNat, BitVec.setWidth_eq]

theorem toNat_sub_base {address : Word} (h : serves address device = true) :
    (base device).toNat + (address - base device).toNat = address.toNat ∧
      (address - base device).toNat < (size device).toNat := by
  simp only [serves, Bool.and_eq_true, decide_eq_true_eq] at h
  have hoffset : (address - base device).toNat = address.toNat - (base device).toNat :=
    BitVec.toNat_sub_of_le (BitVec.le_def.2 h.1)
  omega

theorem hasWord_alignedOffset (hsize : (size device).toNat % 4 = 0)
    (hoffset : offset.toNat < (size device).toNat) : HasWord device (alignedOffset offset) := by
  rw [HasWord, toNat_alignedOffset]
  omega

theorem hasWord_of_aligned {address : Word} (hbase : (base device).toNat % 4 = 0)
    (hsize : (size device).toNat % 4 = 0) (hserves : serves address device = true)
    (haligned : address.toNat % 4 = 0) : HasWord device (address - base device) := by
  have hoffset := toNat_sub_base hserves
  rw [HasWord]
  omega

/-- The byte of a word that an offset selects is the one that the array has there. -/
theorem Shows.lane (h : Shows device words array) (hword : HasWord device (alignedOffset offset)) :
    array.get? offset.toNat = some (laneByte offset (words (alignedOffset offset))) := by
  have hbyte := h.2 (alignedOffset offset) hword (offset.toNat % 4) (Nat.mod_lt _ (by decide))
  have hindex : offset.toNat / 4 * 4 + offset.toNat % 4 = offset.toNat := by omega
  rwa [toNat_alignedOffset, hindex, ← laneByte_eq] at hbyte

/-- Writing a word back with one of its bytes replaced changes this byte of the array. -/
theorem Shows.put (h : Shows device words array) (hword : HasWord device (alignedOffset offset)) (now : Nat)
    (value : Byte) :
    Shows device
      ((WordAccess.write now (alignedOffset offset)
        (mergeLane offset (words (alignedOffset offset)) value)).store words)
      (array.put offset.toNat value) := by
  obtain ⟨hsize, hbytes⟩ := h
  have haligned := toNat_alignedOffset offset
  have hindex : offset.toNat < array.size := by
    have hinside := hword.2
    omega
  refine ⟨(Memory.size_put ..).trans hsize, fun other hother i hi => ?_⟩
  have hold := hbytes other hother i hi
  have hmultiple := hother.1
  simp only [WordAccess.store]
  by_cases hsame : other = alignedOffset offset
  · subst hsame
    rw [if_pos rfl, byte_mergeLane _ _ _ (by omega)]
    by_cases hlane : i = offset.toNat % 4
    · have hplace : (alignedOffset offset).toNat + i = offset.toNat := by omega
      rw [if_pos (by omega), hplace, Memory.get?_put_self value hindex]
    · rw [if_neg (by omega), Memory.get?_put_of_ne _ _ (by omega), hold]
  · have hvalue : other.toNat ≠ (alignedOffset offset).toNat := BitVec.toNat_ne.1 hsame
    rw [if_neg hsame, Memory.get?_put_of_ne _ _ (by omega), hold]

/-- Writing a word changes its four bytes. -/
theorem Shows.putAll (h : Shows device words array) (hword : HasWord device offset) (now : Nat) (value : Word) :
    Shows device ((WordAccess.write now offset value).store words)
      (array.putAll offset.toNat value.littleEndian) := by
  obtain ⟨hsize, hbytes⟩ := h
  refine ⟨(Memory.size_putAll ..).trans hsize, fun other hother i hi => ?_⟩
  have hlength : value.littleEndian.length = 4 := rfl
  have hmultiple := hword.1
  have hmultiples := hother.1
  have hindex : other.toNat + i < array.size := by
    have hinside := hother.2
    omega
  simp only [Memory.get?_putAll _ _ _ hindex, hlength, WordAccess.store]
  by_cases hsame : other = offset
  · subst hsame
    have hcases : i = 0 ∨ i = 1 ∨ i = 2 ∨ i = 3 := by omega
    rw [if_pos (by omega), if_pos rfl, Nat.add_sub_cancel_left]
    obtain rfl | rfl | rfl | rfl := hcases <;> rfl
  · have hvalue : other.toNat ≠ offset.toNat := BitVec.toNat_ne.1 hsame
    rw [if_neg (by omega), if_neg hsame, hbytes other hother i hi]

end Device

namespace Bus

variable {δ : Type} [Device δ]

def access (bus : Bus δ) : BusAccess → Bus δ
  | .readByte address => (bus.readByte address).2
  | .writeByte address value => (bus.writeByte address value).2
  | .readWord address => (bus.readWord address).2
  | .writeWord address value => (bus.writeWord address value).2

/-- Whatever is read in the window of the device is read from the array, and a byte that is written there is the
    only one that changes. -/
structure ReadsArray (bus : Bus δ) (device : δ) (array : Memory) : Prop where
  byte : ∀ address, Device.InWindow device address →
    array.get? (Device.indexOf device address) = some (bus.readByte address).1
  word : ∀ address, Device.InWindow device address → address.toNat % 4 = 0 → ∀ i < 4,
    array.get? (Device.indexOf device address + i) = some (Word.byte (bus.readWord address).1 (3 - i))
  changed : ∀ address value other, Device.InWindow device address → Device.InWindow device other →
    ((bus.writeByte address value).2.readByte other).1 =
      if other = address then value else (bus.readByte other).1

/-- Devices that keep their windows keep the addresses that belong to them. -/
theorem position?_ask {α : Type} {question : Word → δ → Response δ α}
    (hwindow : ∀ offset device, Device.window (question offset device).device = Device.window device)
    (bus : Bus δ) (address : Word) (unmapped : α) (notice : Notice) (other : Word) :
    (bus.ask address unmapped notice question).2.position? other = bus.position? other := by
  have hwindows : (bus.ask address unmapped notice question).2.devices.map Device.window =
      bus.devices.map Device.window := by
    apply List.ext_getElem?
    intro position
    rw [List.getElem?_map, List.getElem?_map, getElem?_devices_ask]
    split
    · cases bus.devices[position]? with
      | none => rfl
      | some device => exact congrArg some (hwindow _ device)
    · rfl
  let inWindow (window : Word × Word) : Bool :=
    window.1.toNat ≤ other.toNat && other.toNat - window.1.toNat < window.2.toNat
  have hposition (devices : List δ) :
      devices.findIdx? (Device.serves other) = (devices.map Device.window).findIdx? inWindow := by
    rw [List.findIdx?_map]
    rfl
  rw [position?, position?, hposition, hposition, hwindows]

/-- The device that has been registered at the position keeps its window to itself, and its words are those of
    the array. `first` is the device as it was in the beginning. -/
structure Mirrors (first : δ) (position : Nat) (bus : Bus δ) (array : Memory) : Prop where
  baseAligned : (Device.base first).toNat % 4 = 0
  sizeAligned : (Device.size first).toNat % 4 = 0
  owner : ∀ address, Device.serves address first = true → bus.position? address = some position
  shown : ∃ device words, bus.devices[position]? = some device ∧ Device.window device = Device.window first ∧
    Device.StoresWords device words ∧ Device.Shows first words array

section Accesses

variable {α : Type} {first : δ} {position : Nat} {bus : Bus δ} {array after : Memory} {address : Word}
  {question : Word → δ → Response δ α}

/-- An access in the window is answered by the device; one elsewhere does not reach it. -/
theorem Mirrors.ask (h : Mirrors first position bus array)
    (hwindow : ∀ offset device, Device.window (question offset device).device = Device.window device)
    (hinside : Device.serves address first = true → ∀ device words,
      Device.window device = Device.window first → Device.StoresWords device words →
      Device.Shows first words array → ∃ changed,
        Device.StoresWords (question (address - Device.base first) device).device changed ∧
          Device.Shows first changed after)
    (houtside : Device.serves address first = false → after = array) (unmapped : α) (notice : Notice) :
    Mirrors first position (bus.ask address unmapped notice question).2 after := by
  obtain ⟨device, words, hdevice, hsame, hstores, hshows⟩ := h.shown
  refine ⟨h.baseAligned, h.sizeAligned,
    fun other hother => (position?_ask hwindow ..).trans (h.owner other hother), ?_⟩
  have hbase : Device.base device = Device.base first := (Prod.mk.inj hsame).1
  rw [getElem?_devices_ask]
  cases hserves : Device.serves address first with
  | true =>
    obtain ⟨changed, hchanged, hafter⟩ := hinside hserves device words hsame hstores hshows
    rw [if_pos (h.owner address hserves), hdevice, Option.map_some, hbase]
    exact ⟨_, changed, rfl, (hwindow _ device).trans hsame, hchanged, hafter⟩
  | false =>
    obtain rfl := houtside hserves
    rw [if_neg fun howner => ?_]
    · exact ⟨device, words, hdevice, hsame, hstores, hshows⟩
    · obtain ⟨⟨_, hfound, hfirst⟩, -⟩ := position?_eq_some_iff.1 howner
      obtain rfl := Option.some.inj (hfound.symm.trans hdevice)
      rw [Device.serves_of_window hsame, hserves] at hfirst
      cases hfirst

/-- A byte is read as the array has it, out of the word that the device is asked for. -/
theorem Mirrors.readByte (h : Mirrors first position bus array)
    (hserves : Device.serves address first = true) :
    array.get? (Device.indexOf first address) = some (bus.readByte address).1 := by
  obtain ⟨device, words, hdevice, hsame, hstores, hshows⟩ := h.shown
  have hword := Device.hasWord_alignedOffset h.sizeAligned (Device.toNat_sub_base hserves).2
  have hbase : Device.base device = Device.base first := (Prod.mk.inj hsame).1
  have hvalue : (bus.readByte address).1 =
      laneByte (address - Device.base first) (words (alignedOffset (address - Device.base first))) := by
    rw [Bus.readByte, ask_of_position? (h.owner address hserves) hdevice, hbase, hstores.readByte_eq]
    exact congrArg (laneByte (address - Device.base first))
      (hstores.value_readWord _ ((Device.hasWord_of_window hsame).2 hword))
  rw [hvalue]
  exact hshows.lane hword

theorem Mirrors.readWord (h : Mirrors first position bus array)
    (hserves : Device.serves address first = true) (haligned : address.toNat % 4 = 0) {i : Nat} (hi : i < 4) :
    array.get? (Device.indexOf first address + i) = some (Word.byte (bus.readWord address).1 (3 - i)) := by
  obtain ⟨device, words, hdevice, hsame, hstores, hshows⟩ := h.shown
  have hword := Device.hasWord_of_aligned h.baseAligned h.sizeAligned hserves haligned
  have hplace : Device.base device = Device.base first := (Prod.mk.inj hsame).1
  have hvalue : (bus.readWord address).1 = words (address - Device.base first) := by
    rw [Bus.readWord, ask_of_position? (h.owner address hserves) hdevice, hplace]
    exact hstores.value_readWord _ ((Device.hasWord_of_window hsame).2 hword)
  rw [hvalue]
  exact hshows.2 _ hword i hi

variable [Device.Stationary δ]

/-- Each access to the bus does to the device what it does to the array. -/
theorem Mirrors.access (h : Mirrors first position bus array) {access : BusAccess}
    (haligned : access.IsAligned) :
    Mirrors first position (bus.access access) (Device.record first array access) := by
  cases access with
  | readByte address =>
    refine h.ask (Device.Stationary.readByte bus.now) (fun hserves device words hsame hstores hshows => ?_)
      (fun _ => rfl) _ _
    have hword := Device.hasWord_alignedOffset h.sizeAligned (Device.toNat_sub_base hserves).2
    have hdevice := (Device.hasWord_of_window hsame).2 hword
    rw [hstores.readByte_eq]
    exact ⟨words, hstores.perform (.read bus.now _) hdevice, hshows⟩
  | writeByte address value =>
    refine h.ask (fun offset => Device.Stationary.writeByte bus.now offset value)
      (fun hserves device words hsame hstores hshows => ?_)
      (fun hserves => if_neg (by simp [← Device.serves_iff, hserves])) _ _
    have hword := Device.hasWord_alignedOffset h.sizeAligned (Device.toNat_sub_base hserves).2
    have hdevice := (Device.hasWord_of_window hsame).2 hword
    -- The byte is written in two accesses: its word is read, and written back with the byte replaced.
    have hread := hstores.perform (.read bus.now _) hdevice
    have hreadWindow :=
      Device.window_perform device (.read bus.now (alignedOffset (address - Device.base first)))
    rw [hstores.writeByte_eq, writeByteByWord, Response.andThen, hstores.value_readWord _ hdevice]
    refine ⟨_, hread.perform (.write bus.now _ _) ((Device.hasWord_of_window hreadWindow).2 hdevice), ?_⟩
    rw [if_pos (Device.serves_iff.1 hserves)]
    exact hshows.put hword bus.now value
  | readWord address =>
    refine h.ask (Device.Stationary.readWord bus.now) (fun hserves device words hsame hstores hshows => ?_)
      (fun _ => rfl) _ _
    have hword := Device.hasWord_of_aligned h.baseAligned h.sizeAligned hserves haligned
    exact ⟨words, hstores.perform (.read bus.now _) ((Device.hasWord_of_window hsame).2 hword), hshows⟩
  | writeWord address value =>
    refine h.ask (fun offset => Device.Stationary.writeWord bus.now offset value)
      (fun hserves device words hsame hstores hshows => ?_)
      (fun hserves => if_neg (by simp [← Device.serves_iff, hserves])) _ _
    have hword := Device.hasWord_of_aligned h.baseAligned h.sizeAligned hserves haligned
    refine ⟨_, hstores.perform (.write bus.now _ value) ((Device.hasWord_of_window hsame).2 hword), ?_⟩
    rw [if_pos (Device.serves_iff.1 hserves)]
    exact hshows.putAll hword bus.now value

theorem Mirrors.accessAll (h : Mirrors first position bus array) {accesses : List BusAccess}
    (haligned : ∀ access ∈ accesses, access.IsAligned) :
    Mirrors first position (accesses.foldl Bus.access bus) (accesses.foldl (Device.record first) array) := by
  induction accesses generalizing bus array with
  | nil => exact h
  | cons access rest ih =>
    obtain ⟨hfirst, hrest⟩ := List.forall_mem_cons.1 haligned
    exact ih (h.access hfirst) hrest

/-- Writing a byte is seen at its own address and nowhere else. -/
theorem Mirrors.readByte_writeByte (h : Mirrors first position bus array) (value : Byte) {other : Word}
    (hserves : Device.serves address first = true) (hother : Device.serves other first = true) :
    ((bus.writeByte address value).2.readByte other).1 =
      if other = address then value else (bus.readByte other).1 := by
  have hwritten : Mirrors first position (bus.writeByte address value).2
      (array.put (Device.indexOf first address) value) := by
    have haccess : Mirrors first position (bus.access (.writeByte address value)) _ :=
      h.access trivial
    rwa [Device.record, if_pos (Device.serves_iff.1 hserves)] at haccess
  apply Option.some.inj
  rw [← hwritten.readByte hother]
  by_cases hsame : other = address
  · subst hsame
    obtain ⟨_, _, _, _, _, hlength, _⟩ := h.shown
    have hindex : Device.indexOf first other < array.size := by
      rw [hlength]
      exact (Device.toNat_sub_base hother).2
    rw [if_pos rfl, Memory.get?_put_self value hindex]
  · have hapart : Device.indexOf first address ≠ Device.indexOf first other := by
      have haddress := Device.toNat_sub_base hserves
      have hplace := Device.toNat_sub_base hother
      have hvalue : other.toNat ≠ address.toNat := BitVec.toNat_ne.1 hsame
      unfold Device.indexOf
      omega
    rw [if_neg hsame, Memory.get?_put_of_ne _ _ hapart, h.readByte hother]

end Accesses

/-- On every bus, a device that knows words only and keeps them is an array of as many bytes as its window has,
    provided that base and size are multiples of four and that the windows of the devices registered earlier have
    no address in common with its own. After any accesses, to bytes at any address and to words at multiples of
    four, inside the window or elsewhere, what is read in the window is read from the array as those accesses have
    changed it. -/
theorem word_device_is_byte_array [Device.Stationary δ] {bus : Bus δ} {position : Nat} {device : δ}
    {words : Word → Word} (hdevice : bus.devices[position]? = some device)
    (hstores : Device.StoresWords device words) (hbase : (Device.base device).toNat % 4 = 0)
    (hsize : (Device.size device).toNat % 4 = 0)
    (hclear : ∀ earlier < position, ∀ other, bus.devices[earlier]? = some other → ∀ address,
      Device.InWindow device address → ¬Device.InWindow other address) :
    ∃ array : Memory, array.size = (Device.size device).toNat ∧
      ∀ accesses : List BusAccess, (∀ access ∈ accesses, access.IsAligned) →
        ReadsArray (accesses.foldl access bus) device (accesses.foldl (Device.record device) array) := by
  obtain ⟨array, hshows⟩ := Device.exists_shows device words
  have hmirrors : Mirrors device position bus array := by
    refine ⟨hbase, hsize, fun address hserves => position?_eq_some_iff.2 ⟨⟨device, hdevice, hserves⟩, ?_⟩,
      device, words, hdevice, rfl, hstores, hshows⟩
    intro earlier hearlier other hother
    have hinside := Device.serves_iff.1 hserves
    rw [← Bool.not_eq_true, Device.serves_iff]
    exact hclear earlier hearlier other hother address hinside
  refine ⟨array, hshows.1, fun accesses haligned => ?_⟩
  have hlast := hmirrors.accessAll haligned
  exact ⟨fun _ hinside => hlast.readByte (Device.serves_iff.2 hinside),
    fun _ hinside hmultiple _ => hlast.readWord (Device.serves_iff.2 hinside) hmultiple,
    fun _ value _ hinside hother =>
      hlast.readByte_writeByte value (Device.serves_iff.2 hinside) (Device.serves_iff.2 hother)⟩

/-- Behind a timer lies a store of two words. The second byte of the first word is replaced, and then the second
    word, with an access to the timer in between. -/
theorem word_device_is_byte_array_replaced :
    let store := WordStore.create 0xFFFF0000 8 [0x11223344, 0x55667788] []
    let bus : Bus Peripheral := { devices := [.timer (.create 0xFFFF0010 0), .words store] }
    let accesses : List BusAccess :=
      [.writeByte 0xFFFF0001 0xAB, .writeByte 0xFFFF0018 0x05, .writeWord 0xFFFF0004 0x99AABBCC]
    let after := accesses.foldl access bus
    (∃ array : Memory, array.size = 8 ∧
      ReadsArray after (.words store) (accesses.foldl (Device.record (Peripheral.words store)) array)) ∧
    (after.readWord 0xFFFF0000).1 = 0x1122AB44 ∧ (after.readByte 0xFFFF0004).1 = 0xCC := by
  intro store bus accesses after
  have hclear : ∀ earlier < 1, ∀ other, bus.devices[earlier]? = some other → ∀ address,
      Device.InWindow (Peripheral.words store) address → ¬Device.InWindow other address := by
    intro earlier hearlier other hother address hinside
    obtain rfl : earlier = 0 := by omega
    obtain rfl : Peripheral.timer (.create 0xFFFF0010 0) = other := Option.some.inj hother
    have hbase : (Device.base (Peripheral.words store)).toNat = 0xFFFF0000 := by decide +kernel
    have hsize : (Device.size (Peripheral.words store)).toNat = 8 := by decide +kernel
    have htimer : (Device.base (Peripheral.timer (.create 0xFFFF0010 0))).toNat = 0xFFFF0010 := by
      decide +kernel
    rw [Device.InWindow, hbase, hsize] at hinside
    rw [Device.InWindow, htimer]
    omega
  have hdevice : bus.devices[1]? = some (Peripheral.words store) := rfl
  obtain ⟨array, hsize, hreads⟩ :=
    word_device_is_byte_array hdevice (WordStore.storesWords rfl) (by decide +kernel) (by decide +kernel) hclear
  exact ⟨⟨array, hsize, hreads accesses (by decide +kernel)⟩, by decide +kernel, by decide +kernel⟩

end Bus

end Risc32
