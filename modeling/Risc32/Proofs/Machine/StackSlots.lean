import Risc32.Proofs.Machine.MainMemory

namespace Risc32

namespace RegisterFile

theorem sp_setSp (file : RegisterFile) (value : Word) : (file.setSp value).sp = value :=
  get_set_self _ _ (by decide)

theorem setSp_setSp (file : RegisterFile) (first second : Word) :
    (file.setSp first).setSp second = file.setSp second :=
  set_set ..

theorem setSp_sp (file : RegisterFile) : file.setSp file.sp = file :=
  set_get_self ..

end RegisterFile

namespace Machine

variable {δ : Type} {m before middle after : Machine δ} {address word : Word}

/-- The word lies in main memory, where the window admits it. -/
structure Holds (m : Machine δ) (address word : Word) : Prop where
  window : address.toNat + 3 < m.windowSize
  main : ∀ i < 4, m.InMain (m.place address i)
  bytes : ∀ i < 4, m.ram.get? (m.place address i) = some (Word.byte word i)

/-- The values lie on top of each other from the address on, none of them at the very end of the virtual
    addresses. -/
def StackHolds (m : Machine δ) (address : Word) : List Word → Prop
  | [] => True
  | value :: rest =>
    address.toNat + 4 < addressCount ∧ m.Holds address value ∧ m.StackHolds (address + 4) rest

/-- The next slots below the stack pointer lie in main memory. -/
def SlotsInMain (m : Machine δ) (count : Nat) : Prop :=
  ∀ k < m.registers.sp.toNat, m.registers.sp.toNat - 4 * count ≤ k → m.InMain (m.place 0 k)

instance (m : Machine δ) (count : Nat) : Decidable (m.SlotsInMain count) :=
  inferInstanceAs (Decidable (∀ k < _, _ → _))

/-- The slots above the next one. -/
theorem slot_succ (address : Word) (n : Nat) :
    address + 4 + BitVec.ofNat 32 (4 * n) = address + BitVec.ofNat 32 (4 * (n + 1)) := by
  rw [Nat.mul_succ, Nat.add_comm, BitVec.ofNat_add, ← BitVec.add_assoc]
  rfl

/-- A word is still there when its bytes are. -/
theorem Holds.of_kept (h : before.Holds address word) (hwindow : SameWindow before after)
    (hkept : ∀ i < 4, after.ram.get? (before.place address i) = before.ram.get? (before.place address i)) :
    after.Holds address word where
  window := by
    rw [hwindow.windowSize_eq]
    exact h.window
  main i hi := by
    rw [hwindow.place_eq, hwindow.inMain_iff]
    exact h.main i hi
  bytes i hi := by
    rw [hwindow.place_eq, hkept i hi]
    exact h.bytes i hi

theorem StackHolds.of_sameRam {values : List Word} (h : before.StackHolds address values)
    (hwindow : SameWindow before after) (hram : after.ram = before.ram) : after.StackHolds address values := by
  induction values generalizing address with
  | nil => exact trivial
  | cons value rest ih =>
    obtain ⟨hend, hvalue, hrest⟩ := h
    exact ⟨hend, hvalue.of_kept hwindow fun i _ => by rw [hram], ih hrest⟩

/-- One more value at the bottom. -/
theorem StackHolds.snoc {values : List Word} (h : m.StackHolds address values)
    (hend : (address + BitVec.ofNat 32 (4 * values.length)).toNat + 4 < addressCount)
    (hvalue : m.Holds (address + BitVec.ofNat 32 (4 * values.length)) word) :
    m.StackHolds address (values ++ [word]) := by
  induction values generalizing address with
  | nil =>
    rw [List.length_nil, Nat.mul_zero, BitVec.add_zero] at hend hvalue
    exact ⟨hend, hvalue, trivial⟩
  | cons value rest ih =>
    obtain ⟨hfirst, hholds, hrest⟩ := h
    rw [List.length_cons, ← slot_succ] at hend hvalue
    exact ⟨hfirst, hholds, ih hrest hend hvalue⟩

theorem SameWindow.setSp (m : Machine δ) (sp : Word) :
    SameWindow m { m with registers := m.registers.setSp sp } where
  offset := RegisterFile.get_set_of_ne _ _ (by decide)
  bound := RegisterFile.get_set_of_ne _ _ (by decide)
  layout := rfl
  ramSize := rfl

/-- The values have been pushed one after the other, each onto a slot in main memory. Nothing has changed
    but the stack pointer and the bytes between its old and its new position. -/
structure Pushed (before after : Machine δ) (values : List Word) : Prop where
  room : 4 * values.length ≤ before.registers.sp.toNat
  rest : after =
    { before with
      registers := before.registers.setSp (before.registers.sp - BitVec.ofNat 32 (4 * values.length))
      ram := after.ram }
  size : after.ram.size = before.ram.size
  holds : after.StackHolds after.registers.sp values.reverse
  kept : ∀ place, (∀ k < before.registers.sp.toNat, before.registers.sp.toNat - 4 * values.length ≤ k →
    before.place 0 k ≠ place) → after.ram.get? place = before.ram.get? place

namespace Pushed

variable {value : Word} {values : List Word}

theorem nil : Pushed m m [] where
  room := Nat.zero_le _
  rest := by
    rw [List.length_nil, Nat.mul_zero, BitVec.sub_zero, RegisterFile.setSp_sp]
  size := rfl
  holds := trivial
  kept _ _ := rfl

theorem sp_eq (h : Pushed before after values) :
    after.registers.sp = before.registers.sp - BitVec.ofNat 32 (4 * values.length) := by
  rw [h.rest]
  exact RegisterFile.sp_setSp ..

theorem toNat_sp (h : Pushed before after values) :
    after.registers.sp.toNat = before.registers.sp.toNat - 4 * values.length := by
  have hroom := h.room
  have hbound := before.registers.sp.isLt
  rw [h.sp_eq, BitVec.toNat_sub_of_le, BitVec.toNat_ofNat, Nat.mod_eq_of_lt (by omega)]
  rw [BitVec.le_def, BitVec.toNat_ofNat, Nat.mod_eq_of_lt (by omega)]
  exact hroom

theorem sameWindow (h : Pushed before after values) : SameWindow before after where
  offset := by
    rw [h.rest]
    exact RegisterFile.get_set_of_ne _ _ (by decide)
  bound := by
    rw [h.rest]
    exact RegisterFile.get_set_of_ne _ _ (by decide)
  layout := by rw [h.rest]
  ramSize := h.size

/-- The values pushed later lie below the first one, which stays as it is. -/
theorem cons (hfirst : Pushed before middle [value]) (hrest : Pushed middle after values) :
    Pushed before after (value :: values) := by
  have hfirstRoom := hfirst.room
  have hrestRoom := hrest.room
  have hmiddle := hfirst.toNat_sp
  have hplace := hfirst.sameWindow.place_eq 0
  have hbound := before.registers.sp.isLt
  simp only [List.length_singleton, Nat.mul_one] at hfirstRoom hmiddle
  have hlength : 4 * (value :: values).length = 4 + 4 * values.length := by
    rw [List.length_cons]
    omega
  have hsp : after.registers.sp + BitVec.ofNat 32 (4 * values.length) = middle.registers.sp := by
    rw [hrest.sp_eq, BitVec.sub_add_cancel]
  refine ⟨by omega, ?_, hrest.size.trans hfirst.size, ?_, ?_⟩
  · have hregisters : after.registers = before.registers.setSp after.registers.sp := by
      rw [hrest.sp_eq, hrest.rest, hfirst.rest]
      exact RegisterFile.setSp_setSp ..
    have htotal : after.registers.sp = before.registers.sp - BitVec.ofNat 32 (4 * (value :: values).length) := by
      rw [hrest.sp_eq, hfirst.sp_eq, BitVec.sub_sub, ← BitVec.ofNat_add, hlength]
      rfl
    rw [← htotal, ← hregisters, hrest.rest, hfirst.rest]
  · rw [List.reverse_cons]
    obtain ⟨hend, hvalue, -⟩ := hfirst.holds
    refine hrest.holds.snoc ?_ ?_
    · rw [List.length_reverse, hsp]
      exact hend
    · rw [List.length_reverse, hsp]
      refine hvalue.of_kept hrest.sameWindow fun i hi => hrest.kept _ fun k hk _ heq => ?_
      rw [← place_zero middle middle.registers.sp i] at heq
      have hsame := place_injective (by unfold addressCount; omega) (by unfold addressCount; omega) heq
      omega
  · intro place hother
    refine (hrest.kept place fun k hhigh hlow => ?_).trans (hfirst.kept place fun k hhigh hlow => ?_)
    · rw [hplace]
      exact hother k (by omega) (by omega)
    · rw [List.length_singleton] at hlow
      exact hother k hhigh (by omega)

end Pushed

/-- A word that has been stored in main memory lies there. -/
theorem Stored.holds (h : Stored before after address lastFirst (Word.byte word))
    (hend : address.toNat + 3 < before.windowSize) (hmain : ∀ i < 4, before.InMain (before.place address i)) :
    after.Holds address word := by
  have hwindow := SameWindow.of_storesInWindow h.toStoresInWindow
  refine ⟨?_, fun i hi => ?_, fun i hi => ?_⟩
  · rw [hwindow.windowSize_eq]
    exact hend
  · rw [hwindow.place_eq, hwindow.inMain_iff]
    exact hmain i hi
  · rw [hwindow.place_eq]
    exact h.stored i (mem_lastFirst.2 hi) (hmain i hi)

variable [Device δ]

theorem Holds.run_readWord (h : m.Holds address word) : (readWord address).run m = .ok word m :=
  (readWord_eq_ok_iff h.main).2 ⟨h.window, h.bytes, rfl⟩

/-- A push moves the stack pointer down by one word, and never below zero. -/
theorem push_ok {value : Word} (hrun : (push value).run m = .ok () after) :
    4 ≤ m.registers.sp.toNat ∧ ∃ stored, (writeWord (m.registers.sp - 4) value).run m = .ok () stored ∧
      after = { stored with registers := stored.registers.setSp (m.registers.sp - 4) } := by
  rw [run_push] at hrun
  split at hrun
  · cases hrun
  · split at hrun
    · rename_i stored hwrite
      cases hrun
      exact ⟨by omega, stored, hwrite, rfl⟩
    · cases hrun

/-- A pop moves it up by one word, and never beyond the last address. -/
theorem pop_ok {value : Word} (hrun : pop.run m = .ok value after) :
    m.registers.sp.toNat + 4 < addressCount ∧ ∃ loaded, (readWord m.registers.sp).run m = .ok value loaded ∧
      after = { loaded with registers := loaded.registers.setSp (m.registers.sp + 4) } := by
  rw [run_pop] at hrun
  split at hrun
  · cases hrun
  · split at hrun
    · rename_i found loaded hread
      cases hrun
      exact ⟨by omega, loaded, hread, rfl⟩
    · cases hrun

/-- A push onto a slot in main memory. -/
theorem push_pushed {value : Word} (hrun : (push value).run m = .ok () after)
    (hmain : m.SlotsInMain 1) : Pushed m after [value] := by
  obtain ⟨hroom, stored, hwrite, rfl⟩ := push_ok hrun
  have hbound := m.registers.sp.isLt
  have hslot : (m.registers.sp - 4).toNat = m.registers.sp.toNat - 4 := by
    rw [BitVec.toNat_sub_of_le (by rw [BitVec.le_def]; exact hroom)]
    rfl
  have hplace (i : Nat) : m.place (m.registers.sp - 4) i = m.place 0 (m.registers.sp.toNat - 4 + i) := by
    rw [← place_zero, hslot]
  have hbytes (i : Nat) (hi : i < 4) : m.InMain (m.place (m.registers.sp - 4) i) := by
    rw [hplace]
    exact hmain _ (by omega) (by omega)
  have hstored := writeWord_stored (deviceWord?_eq_none (hbytes 0 (by omega))) hwrite
  have hregisters : stored.registers = m.registers := hstored.registers
  refine ⟨hroom, ?_, hstored.size, ?_, ?_⟩
  · rw [hregisters, hstored.whole fun i hi => hbytes i (mem_lastFirst.1 hi)]
    rfl
  · have hreaches := writeWord_succeeds_iff.1 ⟨_, _, hwrite⟩ 3 (by omega)
    rw [RegisterFile.sp_setSp]
    refine ⟨?_, (hstored.holds hreaches.1 hbytes).of_kept (.setSp stored _) fun _ _ => rfl, trivial⟩
    unfold addressCount
    omega
  · intro place hother
    refine hstored.kept place fun i hi _ => ?_
    have hlt := mem_lastFirst.1 hi
    rw [hplace]
    exact hother _ (by omega) (by rw [List.length_singleton]; omega)

/-- The value on top of the stack is popped without an effect on memory. -/
theorem run_pop_of_holds {value : Word} {rest : List Word}
    (h : m.StackHolds m.registers.sp (value :: rest)) :
    pop.run m = .ok value { m with registers := m.registers.setSp (m.registers.sp + 4) } := by
  obtain ⟨hend, hvalue, -⟩ := h
  rw [run_pop, if_neg (by omega), hvalue.run_readWord]

end Machine

end Risc32
