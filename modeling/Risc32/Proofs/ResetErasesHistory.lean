import Risc32.Proofs.Machine.Replies

namespace Risc32

namespace Memory

/-- An image as large as a memory replaces all of it. -/
theorem write_all {memory target : Memory} (h : memory.size = target.size) :
    memory.write 0 target.bytes.toList = .ok target := by
  have hlength : target.bytes.toList.length = memory.size := h.symm
  have hput : memory.putAll 0 target.bytes.toList = target := by
    have hbytes : (memory.putAll 0 target.bytes.toList).bytes = target.bytes := by
      apply Array.ext_getElem?
      intro index
      change (memory.putAll 0 target.bytes.toList).get? index = target.get? index
      by_cases hindex : index < memory.size
      · rw [get?_putAll memory 0 _ hindex, if_pos (by omega)]
        exact Array.getElem?_toList
      · rw [get?_eq_none_iff.2 (by rw [size_putAll]; omega), get?_eq_none_iff.2 (by omega)]
    exact congrArg Memory.mk hbytes
  rw [write, if_pos (by omega), hput]

end Memory

namespace Machine

variable {δ : Type} [Device δ]

theorem operate_loadImage (m : Machine δ) {ram : Memory} (h : m.ram.size = ram.size) :
    m.operate (.loadImage ram.bytes.toList) = { m with ram := ram } := by
  rw [operate, loadImage, Memory.write_all h]
  rfl

theorem operate_loadRom (m : Machine δ) {rom : Memory} (h : m.rom.size = rom.size) :
    m.operate (.loadRom rom.bytes.toList) = { m with rom := rom } := by
  rw [operate, loadRom, Memory.write_all h]
  rfl

theorem operateAll_attach (m : Machine δ) (devices : List δ) :
    ∃ journal, m.operateAll (devices.map .attach) =
      { m with bus := { m.bus with devices := m.bus.devices ++ devices, journal := journal } } := by
  induction devices generalizing m with
  | nil => exact ⟨m.bus.journal, by rw [List.append_nil]; rfl⟩
  | cons device rest ih =>
    obtain ⟨journal, hrest⟩ := ih (m.attach device)
    refine ⟨journal, ?_⟩
    have hdevices : (m.attach device).bus.devices ++ rest = m.bus.devices ++ device :: rest :=
      List.append_assoc ..
    rw [hdevices] at hrest
    exact hrest

/-- What puts memories, devices and breakpoints into a new machine by the given time. -/
def supplies (ram rom : Memory) (devices : List δ) (now : Nat) (breakpoints : Breakpoints) :
    List (Operation δ) :=
  .loadImage ram.bytes.toList :: .loadRom rom.bytes.toList :: .wait now :: .setBreakpoints breakpoints ::
    devices.map .attach

theorem operateAll_supplies (m : Machine δ) {ram rom : Memory} (hram : m.ram.size = ram.size)
    (hrom : m.rom.size = rom.size) (devices : List δ) (now : Nat) (breakpoints : Breakpoints) :
    ∃ journal, m.operateAll (supplies ram rom devices now breakpoints) =
      { m with
        ram := ram
        rom := rom
        bus :=
          { m.bus with devices := m.bus.devices ++ devices, now := m.bus.now + now, journal := journal }
        breakpoints := breakpoints } := by
  let loaded : Machine δ := { m with ram := ram, rom := rom, breakpoints := breakpoints }
  have hloaded : ((m.operate (.loadImage ram.bytes.toList)).operate
      (.loadRom rom.bytes.toList)).operateAll [.wait now, .setBreakpoints breakpoints] =
        loaded.wait now := by
    rw [operate_loadImage m hram, operate_loadRom { m with ram := ram } hrom]
    rfl
  obtain ⟨journal, hattached⟩ := operateAll_attach (loaded.wait now) devices
  exact ⟨journal, (congrArg (·.operateAll (devices.map .attach)) hloaded).trans hattached⟩

/-- A new machine that is supplied with what a booted machine has is that machine. -/
theorem boot_alike {config : Config} {built m : Machine δ} (hbuilt : ofConfig config = .ok built)
    (h : Conforms config m) :
    AlikeButJournal (built.operateAll (supplies m.ram m.rom m.bus.devices m.bus.now m.breakpoints))
      m.boot := by
  obtain rfl : assemble m.layout m.vectors (Memory.zeros config.memorySize)
      (Memory.zeros m.layout.romSize) = built := by
    rw [ofConfig_eq, h.layout, ← h.vectors] at hbuilt
    exact Except.ok.inj hbuilt
  have hram : (Memory.zeros config.memorySize).size = m.ram.size := by rw [Memory.size_zeros, h.ram]
  have hrom : (Memory.zeros m.layout.romSize).size = m.rom.size := by rw [Memory.size_zeros, h.rom]
  obtain ⟨journal, hsupplied⟩ := operateAll_supplies
    (assemble m.layout m.vectors (Memory.zeros config.memorySize) (Memory.zeros m.layout.romSize))
    hram hrom m.bus.devices m.bus.now m.breakpoints
  refine alikeButJournal_iff.2 ⟨m.bus.journal, ?_⟩
  rw [hsupplied]
  simp only [assemble, boot, hram, List.nil_append, Nat.zero_add]

omit [Device δ] in
/-- The stack begins at the last byte of main memory, which the configuration leaves no larger than the
    address space. -/
theorem toNat_sp_boot {config : Config} {m : Machine δ} (h : Conforms config m) :
    m.boot.registers.sp.toNat + 1 = config.memorySize := by
  obtain ⟨-, hwindow, hsoftware, -, htable⟩ := Config.validate_ok h.layout
  have hspace : config.memorySize ≤ 2 ^ 32 :=
    Nat.le_trans hwindow m.layout.ramWindow_le
  have hpositive : 0 < config.memorySize := by
    simp only [VectorTable.endAddress, VectorTable.slots, VectorTable.slotBytes,
      VectorTable.firstSoftwareSlot] at htable
    omega
  have hsp : m.boot.registers.sp = BitVec.ofNat 32 (m.ram.size - 1) :=
    RegisterFile.get_set_self _ _ (by decide)
  rw [hsp, BitVec.toNat_ofNat, h.ram]
  omega

omit [Device δ] in
theorem Conforms.size_rom {config : Config} {m : Machine δ} (h : Conforms config m) :
    m.rom.size = config.romSize := by
  obtain ⟨hlayout, -⟩ := Config.validate_ok h.layout
  unfold Layout.ofSizes at hlayout
  split at hlayout
  · rw [h.rom, ← Except.ok.inj hlayout]
  · cases hlayout

/-- Whatever was done to a machine, it has the shape that its configuration prescribes, and its read-only
    memory holds what was last loaded. Booted, it is the machine that is built anew and given the same
    memories, devices and breakpoints at the same time: the stack begins at the last byte, no interrupt is
    pending and no breakpoint is remembered. Whatever is done from then on, the replies are those of that
    machine; nothing but the journal still shows what came before the reset. -/
theorem reset_erases_history {config : Config} {m : Machine δ} (h : Reachable config m) :
    Conforms config m ∧ m.rom.size = config.romSize ∧
    (∀ operations : List (Operation δ), (∀ operation ∈ operations, operation.loadsRom = false) →
      (m.operateAll operations).rom = m.rom) ∧
    m.boot.registers.sp.toNat + 1 = config.memorySize ∧ m.boot.bus.line = {} ∧ m.boot.resumePast = none ∧
    ∃ built : Machine δ, ofConfig config = .ok built ∧
      let anew := built.operateAll (supplies m.ram m.rom m.bus.devices m.bus.now m.breakpoints)
      AlikeButJournal anew m.boot ∧
      ∀ operations : List (Operation δ), m.boot.replies operations = anew.replies operations ∧
        AlikeButJournal (anew.operateAll operations) (m.boot.operateAll operations) := by
  have hconforms := h.conforms
  have hbuilt : ∃ built : Machine δ, ofConfig config = .ok built := by
    rw [ofConfig_eq, hconforms.layout]
    exact ⟨_, rfl⟩
  obtain ⟨built, hbuilt⟩ := hbuilt
  have hboot := boot_alike hbuilt hconforms
  -- The replies are compared operation by operation, from two machines that differ only in their journals.
  exact ⟨hconforms, hconforms.size_rom, fun _ hoperations => (m.operateAll_retains hoperations).rom,
    toNat_sp_boot hconforms, rfl, rfl, built, hbuilt, hboot, operateAll_alike hboot⟩

/-- A machine that runs user code in a window, with an interrupt pending. Neither is left after a reset. -/
theorem reset_erases_history_pending :
    let m := (oneWord 60 0 8).operate (.raise 3)
    Reachable ⟨60, 0, 16, 16, 0, 1, 1⟩ m ∧ m.flags.privileged = false ∧ m.hasPendingInterrupt = true ∧
      m.boot.bus.line = {} ∧ m.boot.registers.sp.toNat + 1 = 60 ∧
      ∃ built : Machine Peripheral, ofConfig ⟨60, 0, 16, 16, 0, 1, 1⟩ = .ok built ∧
        ∀ operations : List (Operation Peripheral), m.boot.replies operations =
          (built.operateAll (supplies m.ram m.rom m.bus.devices m.bus.now m.breakpoints)).replies
            operations := by
  intro m
  have hreachable : Reachable ⟨60, 0, 16, 16, 0, 1, 1⟩ m := .operated (oneWord_reachable rfl) _
  obtain ⟨-, -, -, hsp, hline, -, built, hbuilt, -, hreplies⟩ := reset_erases_history hreachable
  exact ⟨hreachable, rfl, rfl, hline, hsp, built, hbuilt, fun operations => (hreplies operations).1⟩

end Machine

end Risc32
