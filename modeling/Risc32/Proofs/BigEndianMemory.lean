import Risc32.Proofs.Machine.MainMemory
import Risc32.Proofs.Machine.Reachable

namespace Risc32

namespace Machine

variable {δ : Type} {m before after reader : Machine δ} {address : Word} {bytes : Nat → Byte}

/-- The reader finds main memory as it has been left. Its registers, and with them its window, may differ. -/
structure SameMemory (after reader : Machine δ) : Prop where
  ram : reader.ram = after.ram
  layout : reader.layout = after.layout

theorem SameMemory.inMain_iff (h : SameMemory after reader) {place : Nat} :
    reader.InMain place ↔ after.InMain place := by
  unfold InMain
  rw [h.ram, h.layout]

/-- The reader finds at a place of main memory what the store has left there. -/
theorem Stored.found {indices : List Nat} (h : Stored before after address indices bytes)
    (hreader : SameMemory after reader) {place : Nat} (hmain : reader.InMain place) :
    reader.ram.get? place = before.overlaid address indices bytes place := by
  have hwindow := SameWindow.of_storesInWindow h.toStoresInWindow
  rw [hreader.ram]
  exact h.get?_eq ((hwindow.inMain_iff place).1 (hreader.inMain_iff.1 hmain))

variable [Device δ]

/-- Whoever reads main memory after the store, through any window, reads at each place the byte stored there,
    or else the old one. Only the bound of the window can refuse it. -/
structure Recalled (before after : Machine δ) (address : Word) (indices : List Nat) (bytes : Nat → Byte) :
    Prop where
  byte : ∀ (reader final : Machine δ) (source : Word) (read : Byte), SameMemory after reader →
    reader.InMain (reader.place source 0) →
    ((readByte source).run reader = .ok read final ↔
      source.toNat < reader.windowSize ∧
        before.overlaid address indices bytes (reader.place source 0) = some read ∧ final = reader)
  word : ∀ (reader final : Machine δ) (source read : Word), SameMemory after reader →
    (∀ i < 4, reader.InMain (reader.place source i)) →
    ((readWord source).run reader = .ok read final ↔
      source.toNat + 3 < reader.windowSize ∧
        (∀ i < 4, before.overlaid address indices bytes (reader.place source i) =
          some (Word.byte read i)) ∧ final = reader)

theorem Stored.recalled {indices : List Nat} (h : Stored before after address indices bytes) :
    Recalled before after address indices bytes where
  byte reader final source read hreader hmain := by
    rw [readByte_eq_ok_iff hmain, h.found hreader hmain]
  word reader final source read hreader hmain := by
    rw [readWord_eq_ok_iff hmain]
    refine and_congr_right fun _ => and_congr_left fun _ => ?_
    refine forall_congr' fun i => forall_congr' fun hi => ?_
    rw [h.found hreader (hmain i hi)]

/-- A word that is read where it has been stored is read as it was stored. -/
theorem Recalled.same {word read source : Word} {final : Machine δ}
    (h : Recalled before after address lastFirst (Word.byte word)) (hreader : SameMemory after reader)
    (hmain : ∀ i < 4, reader.InMain (reader.place source i))
    (hplaces : ∀ i < 4, reader.place source i = before.place address i)
    (hread : (readWord source).run reader = .ok read final) : read = word := by
  obtain ⟨-, hbytes, -⟩ := (h.word reader final source read hreader hmain).1 hread
  refine Word.eq_of_byte_eq fun i hi => ?_
  have hbyte := hbytes i hi
  have hindices (j : Nat) (hj : j ∈ lastFirst) : j < addressCount :=
    Nat.lt_trans (mem_lastFirst.1 hj) (by decide)
  rw [hplaces i hi, overlaid_place hindices (mem_lastFirst.2 hi)] at hbyte
  exact (Option.some.inj hbyte).symm

/-- Main memory is one array of bytes in big-endian order, under every window. A word that is stored byte
    by byte leaves each of its bytes at its place, as far as that lies in main memory, and changes nothing
    else of main memory nor anything of the read-only memory; so does a single byte. What is read from main
    memory afterwards is made of the stored bytes and the old ones, at any virtual address and through any
    window; where all four places coincide, it is the word that was stored. -/
theorem memory_big_endian (m : Machine δ) (address : Word) :
    (∀ (word : Word) (after : Machine δ), m.deviceWord? address = none →
      (writeWord address word).run m = .ok () after →
      Stored m after address lastFirst (Word.byte word) ∧ after.rom = m.rom ∧
      Recalled m after address lastFirst (Word.byte word) ∧
      ∀ (reader final : Machine δ) (source read : Word), SameMemory after reader →
        (∀ i < 4, reader.InMain (reader.place source i)) →
        (∀ i < 4, reader.place source i = m.place address i) →
        (readWord source).run reader = .ok read final → read = word) ∧
    (∀ (byte : Byte) (after : Machine δ), (writeByte address byte).run m = .ok () after →
      Stored m after address [0] (fun _ => byte) ∧ after.rom = m.rom ∧
      Recalled m after address [0] fun _ => byte) := by
  constructor
  · intro word after hdevice hrun
    have hstored := writeWord_stored hdevice hrun
    exact ⟨hstored, congrArg (·.rom) hstored.rest, hstored.recalled,
      fun _ _ _ _ hreader hmain hplaces hread => hstored.recalled.same hreader hmain hplaces hread⟩
  · intro byte after hrun
    have hstored := writeByte_stored hrun
    exact ⟨hstored, congrArg (·.rom) hstored.rest, hstored.recalled⟩

/-- A word is stored at an address that is not aligned, and read through a window that begins one byte
    later: the last byte that is read is an old one. -/
theorem memory_big_endian_overlapping :
    let m := oneWord 64 3 0x30
    ∃ after, (writeWord 0 0x01020304).run m = .ok () after ∧
      let reader := { after with registers := m.registers.set .windowOffset 4 }
      (readWord 0).run reader = .ok 0x02030430 reader := by
  intro m
  obtain ⟨_, after, hrun⟩ : Succeeds (writeWord 0 0x01020304) m := by decide +kernel
  refine ⟨after, hrun, ?_⟩
  intro reader
  obtain ⟨hstored, -, hrecalled, -⟩ := (memory_big_endian m 0).1 0x01020304 after (by decide +kernel) hrun
  let shifted : Machine Peripheral := { m with registers := m.registers.set .windowOffset 4 }
  have hwindow : SameWindow shifted reader := ⟨rfl, rfl, congrArg (·.layout) hstored.rest, hstored.size⟩
  refine (hrecalled.word reader reader 0 0x02030430 ⟨rfl, rfl⟩ ?_).2 ⟨?_, ?_, rfl⟩
  · have hmain : ∀ i < 4, shifted.InMain (shifted.place 0 i) := by decide +kernel
    intro i hi
    rw [hwindow.place_eq, hwindow.inMain_iff]
    exact hmain i hi
  · rw [hwindow.windowSize_eq]
    decide +kernel
  · simp only [hwindow.place_eq]
    decide +kernel

end Machine

end Risc32
