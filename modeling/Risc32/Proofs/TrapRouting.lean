import Risc32.Peripheral
import Risc32.Proofs.Machine.Vectors

namespace Risc32.Machine

variable {δ : Type}

/-- The vector table lies in main memory, and no two of its slots share a byte. Its addresses are those
    of the configuration, without wrapping. -/
structure TableInMemory (config : Config) (m : Machine δ) : Prop where
  address : ∀ slot < config.vectorSlots,
    (m.vectors.slotAddress slot).toNat = config.vectorBase.toNat + 4 * slot
  bound : ∀ slot < config.vectorSlots, config.vectorBase.toNat + 4 * slot + 4 ≤ m.ram.size
  region : ∀ address : Word, address.toNat < m.ram.size → m.layout.region address = .ram
  disjoint : ∀ first < config.vectorSlots, ∀ second < config.vectorSlots, first ≠ second →
    ∀ i < 4, ∀ j < 4,
      (m.vectors.slotAddress first).toNat + i ≠ (m.vectors.slotAddress second).toNat + j
  slots_lt : config.vectorSlots < addressCount

/-- Trap entry has saved the context and opened the window, and has changed nothing else but the
    journal: neither memory, nor a device, nor the interrupt line, nor any other register. -/
structure OnlyEntered (before after : Machine δ) : Prop extends ContextKept before after where
  savedPc : after.savedPc = before.pc
  ram : after.ram = before.ram
  rom : after.rom = before.rom
  bus : { after.bus with journal := before.bus.journal } = before.bus
  layout : after.layout = before.layout
  vectors : after.vectors = before.vectors
  breakpoints : after.breakpoints = before.breakpoints
  resumePast : after.resumePast = before.resumePast

theorem onlyEntered_saveContext (m : Machine δ) (notice : Notice) :
    OnlyEntered m (m.saveContext.note notice) := by
  have hnoted : SameCore m.saveContext (m.saveContext.note notice) := rfl
  exact { (contextKept_saveContext m).trans_sameCore hnoted with
    savedPc := rfl
    ram := rfl
    rom := rfl
    bus := rfl
    layout := rfl
    vectors := rfl
    breakpoints := rfl
    resumePast := rfl }

theorem OnlyEntered.setPc {before after : Machine δ} (h : OnlyEntered before after) (handler : Word) :
    OnlyEntered before (after.setPc handler) :=
  { h.toContextKept.setPc handler with
    savedPc := h.savedPc
    ram := h.ram
    rom := h.rom
    bus := h.bus
    layout := h.layout
    vectors := h.vectors
    breakpoints := h.breakpoints
    resumePast := h.resumePast }

variable {config : Config} {m : Machine δ}

theorem Conforms.tableInMemory (h : Conforms config m) : TableInMemory config m where
  address slot hslot := h.toNat_slotAddress (by rwa [h.slots_eq])
  bound slot hslot := h.slot_end_le (by rwa [h.slots_eq])
  region address haddress := Layout.region_eq_ram (Nat.lt_of_lt_of_le haddress h.ram_le)
  disjoint first hfirst second hsecond hne i hi j hj := by
    rw [h.toNat_slotAddress (by rwa [h.slots_eq]), h.toNat_slotAddress (by rwa [h.slots_eq])]
    omega
  slots_lt := by
    have hend := Nat.le_trans h.endAddress_le h.ram_le_addressCount
    have hslots := h.slots_eq
    unfold VectorTable.endAddress VectorTable.slotBytes at hend
    unfold addressCount at hend ⊢
    omega

/-- Which word is the first of two that is not zero. -/
private theorem eq_handler_iff {first second handler other : Word}
    (hhandler : handler = if first = 0 then second else first) (hnonzero : handler ≠ 0) :
    other = handler ↔ other ≠ 0 ∧ (other = first ∨ first = 0 ∧ other = second) := by
  by_cases hzero : first = 0
  · rw [if_pos hzero] at hhandler
    subst hhandler
    constructor
    · rintro rfl
      exact ⟨hnonzero, .inr ⟨hzero, rfl⟩⟩
    · rintro ⟨hother, hsame | ⟨-, hsame⟩⟩
      · exact absurd (hsame.trans hzero) hother
      · exact hsame
  · rw [if_neg hzero] at hhandler
    subst hhandler
    constructor
    · rintro rfl
      exact ⟨hnonzero, .inl rfl⟩
    · rintro ⟨-, hsame | ⟨hfirstZero, -⟩⟩
      · exact hsame
      · exact absurd hfirstZero hzero

variable [Device δ]

/-- Every trap of every reachable machine is routed by two words of main memory: the one in the slot of
    its cause, and the one in the fallback. Trap entry answers the first of them that is not zero, and
    goes on there; it fails when both are zero, and it never fails otherwise, so that no slot is ever
    unreadable. The cause may carry any index. -/
theorem enterTrap_routed (h : Reachable config m) (cause : TrapCause) :
    TableInMemory config m ∧
    config.slotOf m.flags.privileged cause < config.vectorSlots ∧
    Config.fallbackOf cause < config.vectorSlots ∧
    ∃ first second : Word,
      config.vector? m.ram (config.slotOf m.flags.privileged cause) = some first ∧
      config.vector? m.ram (Config.fallbackOf cause) = some second ∧
      (∀ handler, (∃ after, (enterTrap cause).run m = .ok handler after) ↔
        handler ≠ 0 ∧ (handler = first ∨ first = 0 ∧ handler = second)) ∧
      (∀ error, (∃ after, (enterTrap cause).run m = .error error after) ↔
        error = .undefinedVector (Config.fallbackOf cause) ∧ first = 0 ∧ second = 0) ∧
      (∀ handler after, (enterTrap cause).run m = .ok handler after →
        after.pc = handler ∧ OnlyEntered m after) ∧
      (∀ error after, (enterTrap cause).run m = .error error after →
        after.pc = m.pc ∧ OnlyEntered m after) := by
  have hconforms := h.conforms
  have hslot := m.vectors.slotFor_lt m.flags.privileged cause
  have hfallback := m.vectors.fallbackFor_lt cause
  obtain ⟨first, second, hfirst, hsecond, hentry⟩ := hconforms.run_enterTrap cause
  rw [hconforms.slotFor_eq, hconforms.slots_eq] at hslot
  rw [VectorTable.fallbackFor_eq, hconforms.slots_eq] at hfallback
  refine ⟨hconforms.tableInMemory, hslot, hfallback, first, second, hfirst, hsecond, ?_⟩
  obtain ⟨handler, used, hhandler, hnonzero, hrun⟩ | ⟨hfirstZero, hsecondZero, hrun⟩ := hentry
  · rw [hrun]
    refine ⟨fun other => ⟨?_, ?_⟩, fun error => ⟨?_, ?_⟩, ?_, ?_⟩
    · rintro ⟨after, hsame⟩
      cases hsame
      exact (eq_handler_iff hhandler hnonzero).1 rfl
    · intro hother
      rw [(eq_handler_iff hhandler hnonzero).2 hother]
      exact ⟨_, rfl⟩
    · rintro ⟨after, hsame⟩
      cases hsame
    · rintro ⟨-, hfirstZero, hsecondZero⟩
      rw [if_pos hfirstZero] at hhandler
      exact absurd (hhandler.trans hsecondZero) hnonzero
    · intro other after hsame
      cases hsame
      exact ⟨pc_setPc .., (onlyEntered_saveContext m _).setPc _⟩
    · intro error after hsame
      cases hsame
  · rw [hrun]
    refine ⟨fun other => ⟨?_, ?_⟩, fun error => ⟨?_, ?_⟩, ?_, ?_⟩
    · rintro ⟨after, hsame⟩
      cases hsame
    · rintro ⟨hother, hsame⟩
      obtain rfl | ⟨-, rfl⟩ := hsame
      · exact absurd hfirstZero hother
      · exact absurd hsecondZero hother
    · rintro ⟨after, hsame⟩
      cases hsame
      exact ⟨rfl, hfirstZero, hsecondZero⟩
    · rintro ⟨rfl, -, -⟩
      exact ⟨_, rfl⟩
    · intro other after hsame
      cases hsame
    · intro error after hsame
      cases hsame
      exact ⟨m.saveContext_pc, onlyEntered_saveContext m _⟩

/-- An interrupt far beyond the table, in a machine that was loaded with a handler for unhandled ones. -/
theorem enterTrap_routed_unhandled :
    let config : Config := ⟨64, 0, 16, 16, 0, 1, 1⟩
    ∃ built : Machine Peripheral, ofConfig config = .ok built ∧
      ∃ after, (enterTrap (.hardware 0xFFFFFFFF)).run
          (built.operate (.loadImage (List.replicate 11 0 ++ [0x30]))) = .ok 0x30 after ∧
        after.pc = 0x30 ∧
        OnlyEntered (built.operate (.loadImage (List.replicate 11 0 ++ [0x30]))) after := by
  intro config
  have hbuilt : ofConfig config = .ok (assemble ⟨16, 16, by decide⟩ ⟨0, 1, 1⟩ (Memory.zeros 64)
      (Memory.zeros 16) : Machine Peripheral) :=
    rfl
  refine ⟨_, hbuilt, ?_⟩
  obtain ⟨-, -, -, first, second, hfirst, -, hok, -, hentered, -⟩ := enterTrap_routed
    (.operated (.built hbuilt) (.loadImage (List.replicate 11 0 ++ [0x30]))) (.hardware 0xFFFFFFFF)
  have hvector : some first = some 0x30 := hfirst.symm.trans (by decide +kernel)
  obtain ⟨after, hrun⟩ := (hok 0x30).2 ⟨by decide, .inl (Option.some.inj hvector).symm⟩
  exact ⟨after, hrun, hentered _ _ hrun⟩

end Risc32.Machine
