import Risc32.Memory.Layout
import Risc32.Trap.VectorTable

namespace Risc32

structure Config where
  memorySize : Nat := 16 * 1024 * 1024
  /-- Cycles per second that the host aims at; zero or less runs without a limit. -/
  frequency : Int := 32000000
  romSize : Nat := 0x10000
  mmioSize : Nat := 0x10000
  vectorBase : Word := 0x100
  softwareVectors : Nat := 32
  hardwareVectors : Nat := 16
deriving DecidableEq, Repr

namespace Config

def vectorTable (config : Config) : VectorTable :=
  ⟨config.vectorBase, config.softwareVectors, config.hardwareVectors⟩

/-- The address map, if main memory fits below the windows and holds the whole vector table. The
    first condition that fails is reported. -/
def validate (config : Config) : Except ConfigError Layout := do
  let layout ← Layout.ofSizes config.romSize config.mmioSize
  if layout.ramWindow < config.memorySize then
    throw (.memoryTooLarge config.memorySize layout.ramWindow)
  if config.softwareVectors = 0 ∨ config.hardwareVectors = 0 then
    throw .noVectors
  if config.memorySize < config.vectorTable.endAddress then
    throw (.vectorTableOutOfRange config.vectorBase config.vectorTable.endAddress config.memorySize)
  return layout

/-- What a configuration that is not refused promises about its sizes. -/
theorem validate_ok {config : Config} {layout : Layout} (h : config.validate = .ok layout) :
    Layout.ofSizes config.romSize config.mmioSize = .ok layout ∧
      config.memorySize ≤ layout.ramWindow ∧ config.softwareVectors ≠ 0 ∧ config.hardwareVectors ≠ 0 ∧
      config.vectorTable.endAddress ≤ config.memorySize := by
  unfold validate at h
  cases hlayout : Layout.ofSizes config.romSize config.mmioSize with
  | error error =>
    rw [hlayout] at h
    cases h
  | ok sized =>
    rw [hlayout] at h
    by_cases hmemory : sized.ramWindow < config.memorySize
    · simp [bind, Except.bind, hmemory] at h
    · by_cases hvectors : config.softwareVectors = 0 ∨ config.hardwareVectors = 0
      · simp [bind, Except.bind, hmemory, hvectors] at h
      · by_cases htable : config.memorySize < config.vectorTable.endAddress
        · simp [bind, Except.bind, hmemory, hvectors, htable] at h
        · simp only [bind, Except.bind, hmemory, hvectors, htable, if_false] at h
          cases h
          simp only [not_or] at hvectors
          exact ⟨rfl, by omega, hvectors.1, hvectors.2, by omega⟩

end Config

end Risc32
