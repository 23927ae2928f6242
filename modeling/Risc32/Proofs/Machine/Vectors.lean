import Risc32.Proofs.Machine.Reachable

namespace Risc32

namespace Config

/-- How many slots the vector table has. -/
def vectorSlots (config : Config) : Nat :=
  11 + config.softwareVectors + config.hardwareVectors

/-- The slot that a cause is routed to. A fault of privileged code is a panic, and any other fault has a slot of
    its own. An interrupt without a slot of its own is unhandled. -/
def slotOf (config : Config) (privileged : Bool) : TrapCause → Nat
  | .fault fault =>
    if privileged then 1
    else match fault with
      | .memory => 3
      | .privilege => 4
      | .illegalInstruction => 5
      | .divideByZero => 6
      | .stackOverflow => 7
      | .stackUnderflow => 8
      | .arithmeticOverflow => 9
      | .breakpoint => 10
  | .software index => if index.toNat < config.softwareVectors then 11 + index.toNat else 2
  | .hardware index =>
    if index.toNat < config.hardwareVectors then 11 + config.softwareVectors + index.toNat else 2

/-- The slot that serves a cause whose own slot is empty. -/
def fallbackOf : TrapCause → Nat
  | .fault _ => 1
  | .software _ => 2
  | .hardware _ => 2

/-- The handler address in a slot of the vector table, read off the bytes of main memory, the most significant one
    first. -/
def vector? (config : Config) (ram : Memory) (slot : Nat) : Option Word := do
  let place := config.vectorBase.toNat + 4 * slot
  let b0 ← ram.get? place
  let b1 ← ram.get? (place + 1)
  let b2 ← ram.get? (place + 2)
  let b3 ← ram.get? (place + 3)
  return b0 ++ b1 ++ b2 ++ b3

theorem vector?_eq (config : Config) (ram : Memory) (slot : Nat) :
    config.vector? ram slot = ram.word? (config.vectorBase.toNat + 4 * slot) :=
  rfl

end Config

namespace VectorTable

theorem slotFor_lt (table : VectorTable) (privileged : Bool) (cause : TrapCause) :
    table.slotFor privileged cause < table.slots := by
  unfold slots firstSoftwareSlot
  cases cause with
  | fault fault =>
    cases privileged with
    | true => simp only [slotFor, panicSlot, if_true]; omega
    | false =>
      have hfault : fault.vectorSlot < 11 := by cases fault <;> decide
      simp only [slotFor]
      exact Nat.lt_of_lt_of_le hfault (by omega)
  | software index =>
    simp only [slotFor, softwareSlot?, firstSoftwareSlot, unhandledSlot]
    split <;> simp <;> omega
  | hardware index =>
    simp only [slotFor, hardwareSlot?, firstSoftwareSlot, unhandledSlot]
    split <;> simp <;> omega

theorem fallbackFor_eq (cause : TrapCause) : fallbackFor cause = Config.fallbackOf cause := by
  cases cause <;> rfl

theorem fallbackFor_lt (table : VectorTable) (cause : TrapCause) : fallbackFor cause < table.slots := by
  unfold slots firstSoftwareSlot
  cases cause <;> simp only [fallbackFor, panicSlot, unhandledSlot] <;> omega

/-- Below the end of the address space, slot addresses do not wrap. -/
theorem toNat_slotAddress {table : VectorTable} (hend : table.endAddress ≤ addressCount) {slot : Nat}
    (hslot : slot < table.slots) : (table.slotAddress slot).toNat = table.base.toNat + 4 * slot := by
  unfold endAddress slotBytes addressCount at hend
  have hoffset : (BitVec.ofNat 32 (slot * 4)).toNat = slot * 4 := by
    rw [BitVec.toNat_ofNat]
    exact Nat.mod_eq_of_lt (by omega)
  rw [slotAddress, slotBytes, BitVec.toNat_add, hoffset, Nat.mod_eq_of_lt (by omega)]
  omega

end VectorTable

namespace Machine

variable {δ : Type}

namespace Conforms

variable {config : Config} {m : Machine δ}

theorem slots_eq (h : Conforms config m) : m.vectors.slots = config.vectorSlots := by
  rw [h.vectors]
  rfl

theorem slotFor_eq (h : Conforms config m) (privileged : Bool) (cause : TrapCause) :
    m.vectors.slotFor privileged cause = config.slotOf privileged cause := by
  rw [h.vectors]
  cases cause with
  | fault fault => cases fault <;> rfl
  | software index =>
    by_cases hindex : index.toNat < config.softwareVectors
    · simp [VectorTable.slotFor, VectorTable.softwareSlot?, Config.slotOf, Config.vectorTable, hindex,
        VectorTable.firstSoftwareSlot]
    · simp [VectorTable.slotFor, VectorTable.softwareSlot?, Config.slotOf, Config.vectorTable, hindex,
        VectorTable.unhandledSlot]
  | hardware index =>
    by_cases hindex : index.toNat < config.hardwareVectors
    · simp [VectorTable.slotFor, VectorTable.hardwareSlot?, Config.slotOf, Config.vectorTable, hindex,
        VectorTable.firstSoftwareSlot]
    · simp [VectorTable.slotFor, VectorTable.hardwareSlot?, Config.slotOf, Config.vectorTable, hindex,
        VectorTable.unhandledSlot]

theorem ram_le (h : Conforms config m) : m.ram.size ≤ m.layout.ramWindow := by
  rw [h.ram]
  exact (Config.validate_ok h.layout).2.1

theorem endAddress_le (h : Conforms config m) : m.vectors.endAddress ≤ m.ram.size := by
  rw [h.ram, h.vectors]
  exact (Config.validate_ok h.layout).2.2.2.2

theorem ram_le_addressCount (h : Conforms config m) : m.ram.size ≤ addressCount :=
  Nat.le_trans h.ram_le m.layout.ramWindow_le

theorem toNat_slotAddress (h : Conforms config m) {slot : Nat} (hslot : slot < m.vectors.slots) :
    (m.vectors.slotAddress slot).toNat = config.vectorBase.toNat + 4 * slot := by
  rw [VectorTable.toNat_slotAddress (Nat.le_trans h.endAddress_le h.ram_le_addressCount) hslot, h.vectors]
  rfl

theorem slot_end_le (h : Conforms config m) {slot : Nat} (hslot : slot < m.vectors.slots) :
    config.vectorBase.toNat + 4 * slot + 4 ≤ m.ram.size := by
  have hend := h.endAddress_le
  have hbase : m.vectors.base = config.vectorBase := by rw [h.vectors]; rfl
  unfold VectorTable.endAddress VectorTable.slotBytes at hend
  rw [← hbase]
  omega

end Conforms

variable [Device δ] {config : Config} {m : Machine δ}

/-- Addresses of main memory are read off its bytes. -/
theorem run_readPhysicalByte_ram {address : Word} {byte : Byte}
    (hwindow : m.ram.size ≤ m.layout.ramWindow) (hbyte : m.ram.get? address.toNat = some byte) :
    (readPhysicalByte address).run m = .ok byte m := by
  have hlt : address.toNat < m.ram.size := Nat.lt_of_not_le fun hle => by
    rw [Memory.get?_eq_none_iff.2 hle] at hbyte
    cases hbyte
  rw [run_readPhysicalByte, Layout.region_eq_ram (by omega)]
  simp only [hbyte, Option.elim_some]

/-- A word of main memory is read without any effect. -/
theorem run_readPhysicalWord_ram {address : Word} (hwindow : m.ram.size ≤ m.layout.ramWindow)
    (hend : address.toNat + 4 ≤ m.ram.size) :
    ∃ word, m.ram.word? address.toNat = some word ∧ (readPhysicalWord address).run m = .ok word m := by
  have hcount : m.ram.size ≤ addressCount := Nat.le_trans hwindow m.layout.ramWindow_le
  have hbytes (i : Nat) (hi : i < 4) : ∃ byte, m.ram.get? (address.toNat + i) = some byte :=
    Memory.get?_of_lt (by omega)
  obtain ⟨b0, h0⟩ := hbytes 0 (by omega)
  obtain ⟨b1, h1⟩ := hbytes 1 (by omega)
  obtain ⟨b2, h2⟩ := hbytes 2 (by omega)
  obtain ⟨b3, h3⟩ := hbytes 3 (by omega)
  refine ⟨Word.ofBytes b0 b1 b2 b3, ?_, ?_⟩
  · rw [Nat.add_zero] at h0
    simp only [Memory.word?, h0, h1, h2, h3]
    rfl
  · have hrun (hread : ∀ i < 4, (readPhysicalByte (address + BitVec.ofNat 32 i)).run m =
        .ok ([b0, b1, b2, b3].getD i 0) m) :
        (readPhysicalWord address).run m = .ok (Word.ofBytes b0 b1 b2 b3) m :=
      run_readBytes (fun i => [b0, b1, b2, b3].getD i 0) (by omega) hread
    refine hrun fun i hi => ?_
    · have haddress : (address + BitVec.ofNat 32 i).toNat = address.toNat + i := by
        unfold addressCount at hcount
        rw [BitVec.toNat_add, BitVec.toNat_ofNat, Nat.mod_eq_of_lt (show i < 2 ^ 32 by omega),
          Nat.mod_eq_of_lt (by omega)]
      apply run_readPhysicalByte_ram hwindow
      rw [haddress]
      have hcases : i = 0 ∨ i = 1 ∨ i = 2 ∨ i = 3 := by omega
      obtain rfl | rfl | rfl | rfl := hcases
      · exact h0
      · exact h1
      · exact h2
      · exact h3

/-- Every slot of the table can be read, and reading it has no effect. -/
theorem Conforms.run_readVector (h : Conforms config m) {slot : Nat} (hslot : slot < m.vectors.slots) :
    ∃ word, config.vector? m.ram slot = some word ∧ (readVector slot).run m = .ok word m := by
  have haddress := h.toNat_slotAddress hslot
  have hend := h.slot_end_le hslot
  have hinside : (m.vectors.slotAddress slot).toNat + 4 ≤ m.ram.size := by omega
  obtain ⟨word, hword, hrun⟩ := run_readPhysicalWord_ram h.ram_le hinside
  rw [haddress] at hword
  refine ⟨word, (config.vector?_eq m.ram slot).trans hword, ?_⟩
  rw [Machine.run_readVector, hrun]

/-- The handler is the word of the slot, or that of the fallback when the slot is empty. -/
theorem run_findHandler {slot fallback : Nat} {first second : Word}
    (hfirst : (readVector slot).run m = .ok first m)
    (hsecond : (readVector fallback).run m = .ok second m) :
    ∃ used, (findHandler slot fallback).run m = .ok (used, if first = 0 then second else first) m ∧
      (first = 0 → used = fallback) := by
  by_cases hzero : first = 0
  · by_cases hsame : fallback = slot
    · have hequal : second = first := by
        rw [hsame, hfirst] at hsecond
        cases hsecond
        rfl
      refine ⟨slot, ?_, fun _ => hsame.symm⟩
      simp only [findHandler, EStateM.run_bind, hfirst, hsame, ne_eq, not_true_eq_false, and_false,
        if_false, hequal, ite_self]
      rfl
    · refine ⟨fallback, ?_, fun _ => rfl⟩
      simp only [findHandler, EStateM.run_bind, hfirst, hzero, ne_eq, hsame, not_false_eq_true, and_self,
        if_true, hsecond]
      rfl
  · refine ⟨slot, ?_, fun h => absurd h hzero⟩
    simp only [findHandler, EStateM.run_bind, hfirst, hzero, false_and, if_false]
    rfl

/-- Trap entry as a function of two words of main memory. It goes on at the first of them that is not
    zero, and fails when both are; either way the context has been saved and nothing else is touched
    but the journal. -/
theorem Conforms.run_enterTrap (h : Conforms config m) (cause : TrapCause) :
    ∃ first second,
      config.vector? m.ram (config.slotOf m.flags.privileged cause) = some first ∧
      config.vector? m.ram (Config.fallbackOf cause) = some second ∧
      ((∃ handler used, handler = (if first = 0 then second else first) ∧ handler ≠ 0 ∧
          (enterTrap cause).run m =
            .ok handler ((m.saveContext.note (.trapTaken cause m.pc used handler)).setPc handler)) ∨
        first = 0 ∧ second = 0 ∧
          (enterTrap cause).run m = .error (.undefinedVector (Config.fallbackOf cause))
            (m.saveContext.note (.vectorUndefined cause (Config.fallbackOf cause)))) := by
  have hsaved : Conforms config m.saveContext := h.of_sameShape ⟨rfl, rfl, rfl, rfl⟩
  have hslot := m.vectors.slotFor_lt m.flags.privileged cause
  have hfallback := m.vectors.fallbackFor_lt cause
  rw [h.slotFor_eq] at hslot
  rw [VectorTable.fallbackFor_eq] at hfallback
  obtain ⟨first, hfirst, hreadFirst⟩ := hsaved.run_readVector hslot
  obtain ⟨second, hsecond, hreadSecond⟩ := hsaved.run_readVector hfallback
  obtain ⟨used, hfind, hused⟩ := run_findHandler hreadFirst hreadSecond
  refine ⟨first, second, hfirst, hsecond, ?_⟩
  rw [Machine.run_enterTrap, h.slotFor_eq, VectorTable.fallbackFor_eq, hfind]
  by_cases hzero : (if first = 0 then second else first) = 0
  · have hboth : first = 0 ∧ second = 0 := by
      by_cases hfirstZero : first = 0
      · rw [if_pos hfirstZero] at hzero
        exact ⟨hfirstZero, hzero⟩
      · rw [if_neg hfirstZero] at hzero
        exact absurd hzero hfirstZero
    refine .inr ⟨hboth.1, hboth.2, ?_⟩
    simp only [hzero, if_true, hused hboth.1]
  · refine .inl ⟨_, used, rfl, hzero, ?_⟩
    simp only [hzero, if_false]
    rfl

end Machine

end Risc32
