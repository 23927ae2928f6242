import Risc32.Proofs.Machine.Places

namespace Risc32

theorem Word.byte_ofBytes_apply (bytes : Nat → Byte) {i : Nat} (hi : i < 4) :
    Word.byte (Word.ofBytes (bytes 0) (bytes 1) (bytes 2) (bytes 3)) i = bytes i := by
  rw [Word.byte_ofBytes _ _ _ _ hi]
  have hcases : i = 0 ∨ i = 1 ∨ i = 2 ∨ i = 3 := by omega
  obtain rfl | rfl | rfl | rfl := hcases <;> rfl

namespace Machine

variable {δ : Type} {m before middle after : Machine δ} {address : Word} {bytes : Nat → Byte}

/-- Bytes of an access have been stored. Those that lie in main memory are at their places, and nothing
    else of main memory has changed; if all of them lie there, nothing else of the machine has either. -/
structure Stored (before after : Machine δ) (address : Word) (indices : List Nat) (bytes : Nat → Byte) :
    Prop extends StoresInWindow before after where
  stored : ∀ i ∈ indices, before.InMain (before.place address i) →
    after.ram.get? (before.place address i) = some (bytes i)
  kept : ∀ place, (∀ i ∈ indices, before.InMain (before.place address i) → before.place address i ≠ place) →
    after.ram.get? place = before.ram.get? place
  whole : (∀ i ∈ indices, before.InMain (before.place address i)) → after = { before with ram := after.ram }

/-- What lies at a place of main memory once bytes of an access have been stored: the byte stored there,
    or else the old one. -/
def overlaid (m : Machine δ) (address : Word) (indices : List Nat) (bytes : Nat → Byte) (place : Nat) :
    Option Byte :=
  match indices.find? fun i => m.place address i = place with
  | some i => some (bytes i)
  | none => m.ram.get? place

/-- At one of its own places an access finds the byte that it has stored there. -/
theorem overlaid_place {indices : List Nat} (hindices : ∀ i ∈ indices, i < addressCount) {i : Nat}
    (hi : i ∈ indices) : m.overlaid address indices bytes (m.place address i) = some (bytes i) := by
  unfold overlaid
  cases hfind : indices.find? fun j => m.place address j = m.place address i with
  | none => simpa using List.find?_eq_none.1 hfind i hi
  | some j =>
    have hplace : m.place address j = m.place address i := by simpa using List.find?_some hfind
    rw [place_injective (hindices j (List.mem_of_find?_eq_some hfind)) (hindices i hi) hplace]

namespace Stored

variable {first second : List Nat}

theorem nil : Stored m m address [] bytes where
  toStoresInWindow := Std.Refl.refl m
  stored _ hi := absurd hi List.not_mem_nil
  kept _ _ := rfl
  whole _ := rfl

/-- Bytes that are stored later do not overwrite earlier ones of the same access: their places differ. -/
theorem append (hfirst : Stored before middle address first bytes)
    (hsecond : Stored middle after address second bytes) (hindices : ∀ i ∈ first ++ second, i < addressCount) :
    Stored before after address (first ++ second) bytes := by
  have hwindow := SameWindow.of_storesInWindow hfirst.toStoresInWindow
  have hplace := hwindow.place_eq address
  have hsame (i : Nat) : middle.InMain (middle.place address i) ↔ before.InMain (before.place address i) := by
    rw [hplace, hwindow.inMain_iff]
  refine ⟨IsTrans.trans _ _ _ hfirst.toStoresInWindow hsecond.toStoresInWindow, ?_, ?_, ?_⟩
  · intro i hi hmain
    by_cases hlater : i ∈ second
    · rw [← hplace]
      exact hsecond.stored i hlater ((hsame i).2 hmain)
    · have hearlier : i ∈ first := (List.mem_append.1 hi).resolve_right hlater
      refine (hsecond.kept _ fun j hj _ heq => hlater ?_).trans (hfirst.stored i hearlier hmain)
      rw [hplace] at heq
      rwa [← place_injective (hindices j (List.mem_append_right _ hj)) (hindices i hi) heq]
  · intro place hother
    refine (hsecond.kept place fun i hi hmain => ?_).trans
      (hfirst.kept place fun i hi => hother i (List.mem_append_left _ hi))
    rw [hplace]
    exact hother i (List.mem_append_right _ hi) ((hsame i).1 hmain)
  · intro hall
    rw [hsecond.whole fun i hi => (hsame i).2 (hall i (List.mem_append_right _ hi)),
      hfirst.whole fun i hi => hall i (List.mem_append_left _ hi)]

/-- A place of main memory holds what the store has left there. -/
theorem get?_eq {indices : List Nat} (h : Stored before after address indices bytes) {place : Nat}
    (hmain : before.InMain place) :
    after.ram.get? place = before.overlaid address indices bytes place := by
  unfold overlaid
  cases hfind : indices.find? fun i => before.place address i = place with
  | none =>
    refine h.kept place fun i hi _ => ?_
    simpa using List.find?_eq_none.1 hfind i hi
  | some i =>
    have hplace : before.place address i = place := by simpa using List.find?_some hfind
    subst hplace
    exact h.stored i (List.mem_of_find?_eq_some hfind) hmain

end Stored

variable [Device δ] {word : Word}

section Stores

/-- A byte that is stored is stored at its place. -/
theorem writeByte_stored_at {i : Nat}
    (hrun : (writeByte (address + BitVec.ofNat 32 i) (bytes i)).run m = .ok () after) :
    Stored m after address [i] bytes := by
  have hstores := (writeByte_keeps _ _).of_ok hrun
  have hcases := writeByte_ok hrun
  rw [place_add, Nat.add_zero] at hcases
  obtain ⟨hmain, rfl⟩ | ⟨hmain, hsame⟩ := hcases
  · refine ⟨hstores, ?_, ?_, fun _ => rfl⟩
    · intro j hj _
      rw [List.mem_singleton.1 hj]
      exact Memory.get?_put_self _ hmain.1
    · intro place hother
      exact Memory.get?_put_of_ne _ _ (hother i List.mem_cons_self hmain)
  · refine ⟨hstores, ?_, fun place _ => congrArg (·.ram.get? place) hsame, fun hall => ?_⟩
    · intro j hj hin
      rw [List.mem_singleton.1 hj] at hin
      exact absurd hin hmain
    · exact absurd (hall i List.mem_cons_self) hmain

theorem writeByte_stored {byte : Byte} (hrun : (writeByte address byte).run m = .ok () after) :
    Stored m after address [0] fun _ => byte := by
  rw [← BitVec.add_zero address] at hrun
  exact writeByte_stored_at hrun

theorem writeEach_stored {indices : List Nat} (hindices : ∀ i ∈ indices, i < 4)
    (hrun : (writeEach address word indices).run m = .ok ⟨⟩ after) :
    Stored m after address indices (Word.byte word) := by
  induction indices generalizing m with
  | nil =>
    cases hrun
    exact .nil
  | cons i rest ih =>
    obtain ⟨middle, hfirst, hrest⟩ := run_forM_cons_eq_ok_iff.1 hrun
    have hothers := ih (fun j hj => hindices j (List.mem_cons_of_mem i hj)) hrest
    refine (writeByte_stored_at hfirst).append hothers fun j hj => ?_
    exact Nat.lt_trans (hindices j hj) (by decide)

/-- A word that does not go to a device in one piece is stored byte by byte. -/
theorem writeWord_stored (hdevice : m.deviceWord? address = none)
    (hrun : (writeWord address word).run m = .ok () after) :
    Stored m after address lastFirst (Word.byte word) := by
  rw [run_writeWord_bytes hdevice] at hrun
  split at hrun
  · exact writeEach_stored (fun i hi => mem_lastFirst.1 hi) hrun
  · cases hrun

end Stores

section Loads

/-- Main memory is no device. -/
theorem deviceWord?_eq_none (hmain : m.InMain (m.place address 0)) : m.deviceWord? address = none := by
  cases hdevice : m.deviceWord? address with
  | none => rfl
  | some target =>
    obtain ⟨rfl, -, -, hregion⟩ := deviceWord?_eq_some hdevice
    exact absurd hmain.2 (Nat.not_lt_of_le (romStart_le_place hregion (by decide)))

theorem run_readByte_of_inMain (hmain : m.InMain (m.place address 0)) :
    (readByte address).run m =
      if address.toNat < m.windowSize then
        (m.ram.get? (m.place address 0)).elim (.error .memory m) (.ok · m)
      else .error .memory m := by
  have hregion : m.layout.region (m.relocate address) = .ram := by
    rw [Layout.region_eq_ram_iff, toNat_relocate]
    exact hmain.2
  rw [run_readByte, run_readPhysicalByte, hregion, toNat_relocate]

/-- A byte of main memory is read as it lies there, and reading it has no effect. -/
theorem readByte_eq_ok_iff {byte : Byte} (hmain : m.InMain (m.place address 0)) :
    (readByte address).run m = .ok byte after ↔
      address.toNat < m.windowSize ∧ m.ram.get? (m.place address 0) = some byte ∧ after = m := by
  rw [run_readByte_of_inMain hmain]
  split
  · rename_i hwindow
    cases m.ram.get? (m.place address 0) with
    | none => simp
    | some found => simp [hwindow, eq_comm]
  · rename_i hwindow
    simp [hwindow]

/-- A word that does not end in the window is not read: its last byte comes first. -/
theorem readBytes_not_ok (hwindow : ¬ address.toNat + 3 < m.windowSize) :
    (readBytes readByte address).run m ≠ .ok word after := by
  intro hrun
  by_cases hfits : address.toNat + 3 < addressCount
  · rw [readBytes_of_fits hfits, EStateM.run_bind, run_readByte, toNat_add_of_fits hfits,
      if_neg hwindow] at hrun
    cases hrun
  · rw [readBytes_of_wraps (Nat.le_of_not_lt hfits)] at hrun
    cases hrun

/-- A word of main memory is read from its four bytes, and reading it has no effect. -/
theorem readWord_eq_ok_iff (hmain : ∀ i < 4, m.InMain (m.place address i)) :
    (readWord address).run m = .ok word after ↔
      address.toNat + 3 < m.windowSize ∧
        (∀ i < 4, m.ram.get? (m.place address i) = some (Word.byte word i)) ∧ after = m := by
  have hbytewise : (readWord address).run m = (readBytes readByte address).run m := by
    rw [run_readWord, deviceWord?_eq_none (hmain 0 (by omega))]
  by_cases hwindow : address.toNat + 3 < m.windowSize
  · have hfits := Nat.lt_of_lt_of_le hwindow m.windowSize_le
    let found (i : Nat) : Byte := (m.ram.get? (m.place address i)).getD 0
    have hfound (i : Nat) (hi : i < 4) : m.ram.get? (m.place address i) = some (found i) := by
      obtain ⟨byte, hbyte⟩ := Memory.get?_of_lt (hmain i hi).1
      simp only [found, hbyte, Option.getD_some]
    have hbytes (i : Nat) (hi : i < 4) :
        (readByte (address + BitVec.ofNat 32 i)).run m = .ok (found i) m := by
      have hplace : m.place (address + BitVec.ofNat 32 i) 0 = m.place address i := by
        rw [place_add, Nat.add_zero]
      rw [readByte_eq_ok_iff (by rw [hplace]; exact hmain i hi), hplace, toNat_add_of_fits (by omega)]
      exact ⟨by omega, hfound i hi, rfl⟩
    rw [hbytewise, run_readBytes found hfits hbytes]
    constructor
    · intro hrun
      cases hrun
      refine ⟨hwindow, fun i hi => ?_, rfl⟩
      rw [hfound i hi, Word.byte_ofBytes_apply found hi]
    · rintro ⟨-, hword, rfl⟩
      congr 1
      refine Word.eq_of_byte_eq fun i hi => ?_
      rw [Word.byte_ofBytes_apply found hi]
      exact Option.some.inj ((hfound i hi).symm.trans (hword i hi))
  · rw [hbytewise]
    exact iff_of_false (readBytes_not_ok hwindow) fun h => hwindow h.1

end Loads

end Machine

end Risc32
