import Risc32.Breakpoints
import Risc32.Bus
import Risc32.Config
import Risc32.Flags
import Risc32.Memory
import Risc32.Register.File

namespace Risc32

structure Machine (δ : Type) where
  registers : RegisterFile
  flags : Flags
  /-- Set by every trap, so that a handler is not interrupted before it has saved its context. -/
  interruptsMasked : Bool
  savedPc : Word
  savedFlags : Word
  ram : Memory
  rom : Memory
  bus : Bus δ
  layout : Layout
  vectors : VectorTable
  breakpoints : Breakpoints
  /-- The address of the breakpoint reported last, until an instruction is fetched: execution goes
      on past it when it is stepped again. -/
  resumePast : Option Word
deriving DecidableEq

/-- Why an image is not loaded. -/
structure ImageTooLarge where
  size : Nat
  capacity : Nat
deriving DecidableEq, Repr

def ImageTooLarge.message (error : ImageTooLarge) : String :=
  "program image of " ++ error.size.repr ++ " bytes exceeds capacity of " ++ error.capacity.repr ++ " bytes"

namespace Machine

variable {δ : Type}

/-- Back to the state before the first instruction. Memories, devices, the clock and breakpoints are
    not part of that state and stay. -/
def boot (m : Machine δ) : Machine δ :=
  { m with
    registers := RegisterFile.cleared.setSp (BitVec.ofNat 32 (m.ram.size - 1))
    flags := .boot
    interruptsMasked := false
    savedPc := 0
    savedFlags := 0
    bus := { m.bus with line := {} }
    resumePast := none }

/-- A booted machine with the given memories and nothing attached. -/
def assemble (layout : Layout) (vectors : VectorTable) (ram rom : Memory) : Machine δ :=
  boot
    { registers := .cleared
      flags := .boot
      interruptsMasked := false
      savedPc := 0
      savedFlags := 0
      ram := ram
      rom := rom
      bus := {}
      layout := layout
      vectors := vectors
      breakpoints := {}
      resumePast := none }

/-- A machine whose memories are empty. -/
def ofConfig (config : Config) : Except ConfigError (Machine δ) := do
  let layout ← config.validate
  let ram ← (Memory.ofSize config.memorySize).mapError fun _ =>
    .memoryTooLarge config.memorySize layout.ramWindow
  let rom ← (Memory.ofSize layout.romSize).mapError fun _ =>
    .windowsTooLarge config.romSize config.mmioSize
  return assemble layout config.vectorTable ram rom

/-- Memories of the sizes that have been checked are never refused. -/
theorem ofConfig_eq (config : Config) :
    (ofConfig config : Except ConfigError (Machine δ)) = config.validate.map fun layout =>
      assemble layout config.vectorTable (Memory.zeros config.memorySize) (Memory.zeros layout.romSize) := by
  unfold ofConfig
  cases hvalidate : config.validate with
  | error error => rfl
  | ok layout =>
    have hram : config.memorySize ≤ addressCount :=
      Nat.le_trans (Config.validate_ok hvalidate).2.1 layout.ramWindow_le
    have hrom : layout.romSize ≤ addressCount := by
      have hfits := layout.fits
      omega
    simp only [bind, Except.bind, Memory.ofSize_of_le hram, Memory.ofSize_of_le hrom]
    rfl

def note (m : Machine δ) (notice : Notice) : Machine δ :=
  { m with bus := m.bus.note notice }

def pc (m : Machine δ) : Word :=
  m.registers.pc

def setPc (m : Machine δ) (address : Word) : Machine δ :=
  { m with registers := m.registers.setPc address }

/-- Replaces the start of main memory, unless the image does not fit. -/
def loadImage (m : Machine δ) (image : List Byte) : Except ImageTooLarge (Machine δ) :=
  match m.ram.write 0 image with
  | .ok ram => .ok { m with ram := ram }
  | .error _ => .error ⟨image.length, m.ram.size⟩

/-- Replaces the start of the read-only memory, unless the image does not fit. -/
def loadRom (m : Machine δ) (image : List Byte) : Except ImageTooLarge (Machine δ) :=
  match m.rom.write 0 image with
  | .ok rom => .ok { m with rom := rom }
  | .error _ => .error ⟨image.length, m.rom.size⟩

def raise (m : Machine δ) (index : Word) : Machine δ :=
  { m with bus := m.bus.raise index }

def hasPendingInterrupt (m : Machine δ) : Bool :=
  m.bus.line.hasPending

def wait (m : Machine δ) (microseconds : Nat) : Machine δ :=
  { m with bus := m.bus.wait microseconds }

def edit (m : Machine δ) (change : BreakpointEdit) : Machine δ :=
  { m with breakpoints := change.apply m.breakpoints }

@[simp]
theorem pc_setPc (m : Machine δ) (address : Word) : (m.setPc address).pc = address :=
  RegisterFile.get_set_self m.registers address (show Register.programCounter ≠ .zero by decide)

variable [Device δ]

def attach (m : Machine δ) (device : δ) : Machine δ :=
  { m with bus := m.bus.attach device }

/-- One tick of the devices without an instruction, as while execution waits for an interrupt. -/
def tick (m : Machine δ) : Machine δ :=
  { m with bus := m.bus.tick }

end Machine

end Risc32
