import Mathlib.Algebra.Group.Nat.Defs
import Risc32.Peripheral
import Risc32.Proofs.Machine.Places
import Risc32.Proofs.Machine.Vectors

namespace Risc32

namespace Layout

/-- Main memory, read-only memory and devices lie one behind the other and fill the address space. The numbers
    say how many addresses each of them has. -/
structure Divides (layout : Layout) (ram rom mmio : Nat) : Prop where
  total : ram + rom + mmio = addressCount
  ram_iff : ∀ address : Word, layout.region address = .ram ↔ address.toNat < ram
  rom_iff : ∀ address : Word, layout.region address = .rom ↔ ram ≤ address.toNat ∧ address.toNat < ram + rom
  mmio_iff : ∀ address : Word, layout.region address = .mmio ↔
    ram + rom ≤ address.toNat ∧ address.toNat < ram + rom + mmio

theorem mmioStart_eq (layout : Layout) : layout.mmioStart = layout.romStart + layout.romSize := by
  have hstart := layout.romStart_add
  unfold mmioStart
  omega

theorem region_eq_mmio_iff {layout : Layout} {address : Word} :
    layout.region address = .mmio ↔ layout.romStart + layout.romSize ≤ address.toNat := by
  rw [← mmioStart_eq, region]
  split
  case isTrue h => exact iff_of_true rfl h
  case isFalse h =>
    refine iff_of_false ?_ h
    split <;> decide

theorem region_eq_rom_iff {layout : Layout} {address : Word} :
    layout.region address = .rom ↔
      layout.romStart ≤ address.toNat ∧ address.toNat < layout.romStart + layout.romSize := by
  constructor
  · intro h
    have hram : ¬ address.toNat < layout.romStart := by
      rw [← region_eq_ram_iff, h]
      decide
    have hmmio : ¬ layout.romStart + layout.romSize ≤ address.toNat := by
      rw [← region_eq_mmio_iff, h]
      decide
    omega
  · rintro ⟨hlower, hupper⟩
    cases hregion : layout.region address with
    | ram =>
      have hram := region_eq_ram_iff.1 hregion
      omega
    | rom => rfl
    | mmio =>
      have hmmio := region_eq_mmio_iff.1 hregion
      omega

theorem divides (layout : Layout) : layout.Divides layout.romStart layout.romSize layout.mmioSize where
  total := layout.romStart_add
  ram_iff _ := region_eq_ram_iff
  rom_iff _ := region_eq_rom_iff
  mmio_iff address := by
    have haddress : address.toNat < addressCount := address.isLt
    rw [region_eq_mmio_iff, layout.romStart_add]
    omega

end Layout

namespace Config

/-- How many addresses the windows leave to main memory, if they leave any. -/
def room (config : Config) : Nat :=
  addressCount - config.romSize - config.mmioSize

/-- The first address behind the vector table. -/
def tableEnd (config : Config) : Nat :=
  config.vectorBase.toNat + 4 * config.vectorSlots

/-- A condition on a configuration, and what is reported when it fails. -/
structure Requirement where
  holds : Bool
  violation : ConfigError

/-- What is asked of a configuration, in the order of the checks. -/
def requirements (config : Config) : List Requirement :=
  [⟨config.romSize + config.mmioSize < addressCount, .windowsTooLarge config.romSize config.mmioSize⟩,
    ⟨config.memorySize ≤ config.room, .memoryTooLarge config.memorySize config.room⟩,
    ⟨config.softwareVectors ≠ 0 ∧ config.hardwareVectors ≠ 0, .noVectors⟩,
    ⟨config.tableEnd ≤ config.memorySize,
      .vectorTableOutOfRange config.vectorBase config.tableEnd config.memorySize⟩]

/-- What the first requirement that fails reports. -/
def firstViolation? (config : Config) : Option ConfigError :=
  (config.requirements.find? fun requirement => !requirement.holds).map (·.violation)

theorem endAddress_vectorTable (config : Config) : config.vectorTable.endAddress = config.tableEnd := by
  show config.vectorBase.toNat + config.vectorSlots * 4 = _
  rw [tableEnd, Nat.mul_comm]

theorem sums_lt {config : Config}
    (h : ∀ size ∈ [config.romSize, config.mmioSize, config.softwareVectors, config.hardwareVectors],
      size < addressCount) :
    config.romSize + config.mmioSize < 2 ^ 64 ∧ config.vectorTable.endAddress < 2 ^ 64 := by
  simp only [List.forall_mem_cons, addressCount] at h
  have hbase := config.vectorBase.isLt
  rw [endAddress_vectorTable, tableEnd, vectorSlots]
  omega

theorem ramWindow_eq_room {config : Config} (fits : config.romSize + config.mmioSize < addressCount) :
    Layout.ramWindow ⟨config.romSize, config.mmioSize, fits⟩ = config.room := by
  simp only [Layout.ramWindow, Layout.romStart, Layout.mmioStart, room]
  omega

/-- Without a violation every requirement is met. -/
theorem firstViolation?_eq_none_iff {config : Config} :
    config.firstViolation? = none ↔
      config.romSize + config.mmioSize < addressCount ∧ config.memorySize ≤ config.room ∧
        (config.softwareVectors ≠ 0 ∧ config.hardwareVectors ≠ 0) ∧ config.tableEnd ≤ config.memorySize := by
  simp only [firstViolation?, requirements, Option.map_eq_none_iff, List.find?_eq_none, List.forall_mem_cons,
    List.not_mem_nil, false_imp_iff, implies_true, and_true, Bool.not_eq_true', Bool.not_eq_false,
    decide_eq_true_eq]

/-- The checks find the first violation. -/
theorem firstViolation?_of_error {config : Config} {error : ConfigError} (h : config.validate = .error error) :
    config.firstViolation? = some error := by
  unfold validate Layout.ofSizes at h
  by_cases hfits : config.romSize + config.mmioSize < addressCount
  · rw [dif_pos hfits] at h
    simp only [bind, Except.bind, ramWindow_eq_room, endAddress_vectorTable, ← Nat.not_le] at h
    by_cases hmemory : config.memorySize ≤ config.room
    · by_cases hvectors : config.softwareVectors = 0 ∨ config.hardwareVectors = 0
      · simp only [hmemory, hvectors, not_true_eq_false, if_false, if_true] at h
        cases h
        rcases hvectors with hnone | hnone <;> simp [firstViolation?, requirements, hfits, hmemory, hnone]
      · obtain ⟨hsoftware, hhardware⟩ := not_or.1 hvectors
        by_cases htable : config.tableEnd ≤ config.memorySize
        · simp only [hmemory, hvectors, htable, not_true_eq_false, if_false] at h
          cases h
        · simp only [hmemory, hvectors, htable, not_true_eq_false, not_false_eq_true, if_false, if_true] at h
          cases h
          simp [firstViolation?, requirements, hfits, hmemory, hsoftware, hhardware, htable]
    · simp only [hmemory, not_false_eq_true, if_true] at h
      cases h
      simp [firstViolation?, requirements, hfits, hmemory]
  · rw [dif_neg hfits] at h
    cases h
    simp [firstViolation?, requirements, hfits]

/-- An accepted configuration gives the windows their sizes and leaves the room below them to main memory. -/
theorem sizes_of_validate {config : Config} {layout : Layout} (h : config.validate = .ok layout) :
    layout.romSize = config.romSize ∧ layout.mmioSize = config.mmioSize ∧ layout.romStart = config.room := by
  obtain ⟨hsized, -⟩ := validate_ok h
  unfold Layout.ofSizes at hsized
  split at hsized
  case isTrue fits =>
    cases hsized
    exact ⟨rfl, rfl, ramWindow_eq_room fits⟩
  case isFalse => cases hsized

theorem firstViolation?_of_ok {config : Config} {layout : Layout} (h : config.validate = .ok layout) :
    config.firstViolation? = none := by
  obtain ⟨hrom, hmmio, hroom⟩ := sizes_of_validate h
  obtain ⟨-, hmemory, hsoftware, hhardware, htable⟩ := validate_ok h
  have hfits := layout.fits
  have hwindow : layout.ramWindow = config.room := hroom
  rw [firstViolation?_eq_none_iff]
  rw [hrom, hmmio] at hfits
  rw [hwindow] at hmemory
  rw [endAddress_vectorTable] at htable
  exact ⟨hfits, hmemory, ⟨hsoftware, hhardware⟩, htable⟩

theorem exists_validate_ok_iff {config : Config} :
    (∃ layout, config.validate = .ok layout) ↔ config.firstViolation? = none := by
  constructor
  · rintro ⟨layout, h⟩
    exact firstViolation?_of_ok h
  · intro h
    cases hvalidate : config.validate with
    | ok layout => exact ⟨layout, rfl⟩
    | error error =>
      rw [firstViolation?_of_error hvalidate] at h
      cases h

theorem validate_eq_error_iff {config : Config} {error : ConfigError} :
    config.validate = .error error ↔ config.firstViolation? = some error := by
  refine ⟨firstViolation?_of_error, fun h => ?_⟩
  cases hvalidate : config.validate with
  | ok layout =>
    rw [firstViolation?_of_ok hvalidate] at h
    cases h
  | error found =>
    rw [firstViolation?_of_error hvalidate] at h
    cases h
    rfl

end Config

namespace Machine

/-- The read-only memory of a machine backs all of its window. -/
theorem Conforms.rom_backs {δ : Type} {config : Config} {m : Machine δ} (h : Conforms config m) {address : Word}
    (haddress : m.layout.region address = .rom) :
    m.layout.romStart ≤ address.toNat ∧ address.toNat - m.layout.romStart < m.rom.size := by
  obtain ⟨hlower, hupper⟩ := Layout.region_eq_rom_iff.1 haddress
  rw [h.rom]
  omega

end Machine

namespace Config

/-- Validation is exact and yields a sound address map. A configuration is accepted if and only if the windows
    leave room below them, main memory fits into it, there are vectors of both kinds, and main memory holds the
    whole vector table; else the first of these conditions that fails is reported. The sums are those of natural
    numbers, and 64 bits hold them when each size has 32. The layout of an accepted configuration divides the
    address space as configured, with main memory from address zero on, and the machine can be built: its
    read-only memory backs every address of its window. -/
theorem validate_exact (δ : Type) (config : Config) :
    ((∃ layout, config.validate = .ok layout) ↔
      config.romSize + config.mmioSize < addressCount ∧
        config.memorySize ≤ addressCount - config.romSize - config.mmioSize ∧
        (config.softwareVectors ≠ 0 ∧ config.hardwareVectors ≠ 0) ∧
        config.vectorBase.toNat + 4 * (11 + config.softwareVectors + config.hardwareVectors) ≤
          config.memorySize) ∧
    (∀ error, config.validate = .error error ↔ config.firstViolation? = some error) ∧
    ((∀ size ∈ [config.romSize, config.mmioSize, config.softwareVectors, config.hardwareVectors],
        size < addressCount) →
      config.romSize + config.mmioSize < 2 ^ 64 ∧ config.vectorTable.endAddress < 2 ^ 64) ∧
    ∀ layout, config.validate = .ok layout →
      layout.Divides (addressCount - config.romSize - config.mmioSize) config.romSize config.mmioSize ∧
      (∀ address : Word, address.toNat < config.memorySize → layout.region address = .ram) ∧
      ∃ m : Machine δ, Machine.ofConfig config = .ok m ∧ m.layout = layout ∧ m.ram.size = config.memorySize ∧
        ∀ address : Word, layout.region address = .rom →
          layout.romStart ≤ address.toNat ∧ address.toNat - layout.romStart < m.rom.size := by
  refine ⟨exists_validate_ok_iff.trans firstViolation?_eq_none_iff, fun _ => validate_eq_error_iff,
    sums_lt, fun layout h => ?_⟩
  obtain ⟨hrom, hmmio, hroom⟩ := sizes_of_validate h
  have hdivides : layout.Divides config.room config.romSize config.mmioSize := by
    rw [← hrom, ← hmmio, ← hroom]
    exact layout.divides
  have hmemory : config.memorySize ≤ layout.ramWindow := (validate_ok h).2.1
  let m : Machine δ := .assemble layout config.vectorTable (.zeros config.memorySize) (.zeros layout.romSize)
  have hbuilt : Machine.ofConfig config = .ok m := by
    rw [Machine.ofConfig_eq, h]
    rfl
  have hconforms := Machine.ofConfig_conforms hbuilt
  exact ⟨hdivides, fun _ haddress => Layout.region_eq_ram (Nat.lt_of_lt_of_le haddress hmemory), m, hbuilt, rfl,
    hconforms.ram, fun _ haddress => hconforms.rom_backs haddress⟩

/-- Nothing is left over: main memory ends with the vector table and fills the room below the windows. One byte
    less of it would not hold the table, and one byte more would reach into the read-only memory. -/
theorem validate_exact_tight :
    let config : Config := ⟨56, 0, 16, addressCount - 72, 4, 1, 1⟩
    ∃ layout, config.validate = .ok layout ∧ layout.region 55 = .ram ∧ layout.region 56 = .rom ∧
      layout.region 71 = .rom ∧ layout.region 72 = .mmio ∧
      (∃ m : Machine Peripheral, Machine.ofConfig config = .ok m ∧ 71 - layout.romStart < m.rom.size) ∧
      Config.validate { config with memorySize := 55 } = .error (.vectorTableOutOfRange 4 56 55) ∧
      Config.validate { config with memorySize := 57 } = .error (.memoryTooLarge 57 56) := by
  intro config
  obtain ⟨haccepted, -, -, hsound⟩ := validate_exact Peripheral config
  obtain ⟨layout, hlayout⟩ := haccepted.2 (by decide)
  obtain ⟨hdivides, hmemory, m, hbuilt, -, -, hbacks⟩ := hsound layout hlayout
  have hlast : layout.region 71 = .rom := (hdivides.rom_iff 71).2 (by decide)
  refine ⟨layout, hlayout, hmemory 55 (by decide), (hdivides.rom_iff 56).2 (by decide), hlast,
    (hdivides.mmio_iff 72).2 (by decide), ⟨m, hbuilt, (hbacks 71 hlast).2⟩, ?_, ?_⟩
  · exact ((validate_exact Peripheral _).2.1 _).2 (by decide)
  · exact ((validate_exact Peripheral _).2.1 _).2 (by decide)

end Config

end Risc32
