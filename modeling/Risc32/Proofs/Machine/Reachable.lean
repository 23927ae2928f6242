import Risc32.Peripheral
import Risc32.Proofs.Machine.Attempt

namespace Risc32

/-- Everything that can be done to a machine once it is built. -/
inductive Operation (δ : Type) where
  | step (honorBreakpoints : Bool)
  | enterTrap (cause : TrapCause)
  | tick
  | boot
  | loadImage (image : List Byte)
  | loadRom (image : List Byte)
  | attach (device : δ)
  | raise (index : Word)
  | wait (microseconds : Nat)
  | setBreakpoints (breakpoints : Breakpoints)
  | setRegisters (registers : RegisterFile)
  | setFlags (flags : Flags)
  | readByte (address : Word)
  | writeByte (address : Word) (value : Byte)
  | readWord (address : Word)
  | writeWord (address value : Word)
  | readPhysicalByte (address : Word)
  | writePhysicalByte (address : Word) (value : Byte)
  | readPhysicalWord (address : Word)

namespace Machine

variable {δ ε α : Type}

/-- The machine that a computation leaves behind, whether or not it succeeds. -/
def afterRun (x : EStateM ε (Machine δ) α) (m : Machine δ) : Machine δ :=
  match x.run m with
  | .ok _ after => after
  | .error _ after => after

/-- The configuration is valid, and the machine has the shape that it prescribes. -/
structure Conforms (config : Config) (m : Machine δ) : Prop where
  layout : config.validate = .ok m.layout
  vectors : m.vectors = config.vectorTable
  ram : m.ram.size = config.memorySize
  rom : m.rom.size = m.layout.romSize

/-- The parts of a machine that are fixed when it is built. -/
structure SameShape (before after : Machine δ) : Prop where
  layout : after.layout = before.layout
  vectors : after.vectors = before.vectors
  ram : after.ram.size = before.ram.size
  rom : after.rom.size = before.rom.size

instance : IsPreorder (Machine δ) SameShape where
  refl _ := ⟨rfl, rfl, rfl, rfl⟩
  trans _ _ _ hfirst hsecond :=
    ⟨hsecond.layout.trans hfirst.layout, hsecond.vectors.trans hfirst.vectors,
      hsecond.ram.trans hfirst.ram, hsecond.rom.trans hfirst.rom⟩

/-- The shape is the same, and so is every byte of the read-only memory. -/
structure Retains (before after : Machine δ) : Prop where
  layout : after.layout = before.layout
  vectors : after.vectors = before.vectors
  ram : after.ram.size = before.ram.size
  rom : after.rom = before.rom

namespace Retains

instance : IsPreorder (Machine δ) Retains where
  refl _ := ⟨rfl, rfl, rfl, rfl⟩
  trans _ _ _ hfirst hsecond :=
    ⟨hsecond.layout.trans hfirst.layout, hsecond.vectors.trans hfirst.vectors,
      hsecond.ram.trans hfirst.ram, hsecond.rom.trans hfirst.rom⟩

theorem sameShape {before after : Machine δ} (h : Retains before after) : SameShape before after :=
  ⟨h.layout, h.vectors, h.ram, congrArg Memory.size h.rom⟩

theorem of_sameCore {before after : Machine δ} (h : SameCore before after) : Retains before after :=
  ⟨congrArg (·.layout) h, congrArg (·.vectors) h, congrArg (·.ram.size) h, congrArg (·.rom) h⟩

theorem of_storesInWindow {before after : Machine δ} (h : StoresInWindow before after) :
    Retains before after :=
  ⟨congrArg (·.layout) h.rest, congrArg (·.vectors) h.rest, h.size, congrArg (·.rom) h.rest⟩

theorem allowsUserEffects : AllowsUserEffects (δ := δ) Retains where
  core _ _ := of_sameCore
  store _ _ := of_storesInWindow
  register _ _ _ _ := ⟨rfl, rfl, rfl, rfl⟩
  flags _ _ := ⟨rfl, rfl, rfl, rfl⟩

end Retains

theorem SameShape.allowsUserEffects : AllowsUserEffects (δ := δ) SameShape :=
  Retains.allowsUserEffects.mono fun _ _ => Retains.sameShape

theorem afterRun_of_keeps {R : Machine δ → Machine δ → Prop} {x : EStateM ε (Machine δ) α}
    (h : Keeps R x) (m : Machine δ) : R m (m.afterRun x) := by
  unfold afterRun
  cases hrun : x.run m with
  | ok a after => exact h.of_ok hrun
  | error error after => exact h.of_error hrun

theorem loadImage_retains {m after : Machine δ} {image : List Byte}
    (h : m.loadImage image = .ok after) : Retains m after := by
  unfold loadImage at h
  cases hwrite : m.ram.write 0 image with
  | error error =>
    rw [hwrite] at h
    cases h
  | ok ram =>
    rw [hwrite] at h
    cases h
    exact ⟨rfl, rfl, Memory.size_write hwrite, rfl⟩

theorem loadRom_keepsShape {m after : Machine δ} {image : List Byte}
    (h : m.loadRom image = .ok after) : SameShape m after := by
  unfold loadRom at h
  cases hwrite : m.rom.write 0 image with
  | error error =>
    rw [hwrite] at h
    cases h
  | ok rom =>
    rw [hwrite] at h
    cases h
    exact ⟨rfl, rfl, rfl, Memory.size_write hwrite⟩

theorem Conforms.of_sameShape {config : Config} {before after : Machine δ} (h : Conforms config before)
    (hshape : SameShape before after) : Conforms config after where
  layout := by rw [hshape.layout, h.layout]
  vectors := hshape.vectors.trans h.vectors
  ram := hshape.ram.trans h.ram
  rom := by rw [hshape.rom, hshape.layout, h.rom]

theorem ofConfig_conforms {config : Config} {m : Machine δ} (h : ofConfig config = .ok m) :
    Conforms config m := by
  rw [ofConfig_eq] at h
  cases hvalidate : config.validate with
  | error error =>
    rw [hvalidate] at h
    cases h
  | ok layout =>
    rw [hvalidate] at h
    cases h
    exact ⟨hvalidate, rfl, Memory.size_zeros _, Memory.size_zeros _⟩

variable [Device δ]

def operate (m : Machine δ) : Operation δ → Machine δ
  | .step honorBreakpoints => (m.step honorBreakpoints).2
  | .enterTrap cause => m.afterRun (Machine.enterTrap cause)
  | .tick => m.tick
  | .boot => m.boot
  | .loadImage image => (m.loadImage image).toOption.getD m
  | .loadRom image => (m.loadRom image).toOption.getD m
  | .attach device => m.attach device
  | .raise index => m.raise index
  | .wait microseconds => m.wait microseconds
  | .setBreakpoints breakpoints => { m with breakpoints := breakpoints }
  | .setRegisters registers => { m with registers := registers }
  | .setFlags flags => { m with flags := flags }
  | .readByte address => m.afterRun (Machine.readByte address)
  | .writeByte address value => m.afterRun (Machine.writeByte address value)
  | .readWord address => m.afterRun (Machine.readWord address)
  | .writeWord address value => m.afterRun (Machine.writeWord address value)
  | .readPhysicalByte address => m.afterRun (Machine.readPhysicalByte address)
  | .writePhysicalByte address value => m.afterRun (Machine.writePhysicalByte address value)
  | .readPhysicalWord address => m.afterRun (Machine.readPhysicalWord address)

/-- A machine that was built from the configuration and then used in any way. -/
inductive Reachable (config : Config) : Machine δ → Prop
  | built {m : Machine δ} (h : ofConfig config = .ok m) : Reachable config m
  | operated {m : Machine δ} (h : Reachable config m) (operation : Operation δ) :
    Reachable config (m.operate operation)

/-- Privileged instructions change registers and flags, but no memory at all. -/
theorem Retains.allowsParts : AllowsParts (δ := δ) Retains where
  toAllowsUserParts := allowsUserEffects.parts
  leave _ := ⟨rfl, rfl, rfl, rfl⟩
  mask _ _ := ⟨rfl, rfl, rfl, rfl⟩
  restore _ _ := ⟨rfl, rfl, rfl, rfl⟩

theorem execute_retains (i : Instruction) : Keeps Retains (execute i : Exec δ Flow) :=
  Retains.allowsParts.execute i

theorem execute_keepsShape (i : Instruction) : Keeps SameShape (execute i : Exec δ Flow) :=
  (execute_retains i).mono fun _ _ => Retains.sameShape

theorem enterTrap_retains (cause : TrapCause) :
    Keeps Retains (enterTrap cause : EStateM TrapError (Machine δ) Word) := by
  apply Keeps.of_run
  · intro m handler after hrun
    have hcontext : Retains m (m.saveContext.setPc handler) := ⟨rfl, rfl, rfl, rfl⟩
    exact IsTrans.trans _ _ _ hcontext (.of_sameCore (enterTrap_ok hrun).1)
  · intro m error after hrun
    have hcontext : Retains m m.saveContext := ⟨rfl, rfl, rfl, rfl⟩
    exact IsTrans.trans _ _ _ hcontext (.of_sameCore (enterTrap_error hrun))

theorem trap_retains (m : Machine δ) (cause : TrapCause) (cycles : Nat) :
    Retains m (m.trap cause cycles).2 :=
  trap_keeps (enterTrap_retains cause) m cycles

theorem step_retains (m : Machine δ) (honorBreakpoints : Bool) :
    Retains m (m.step honorBreakpoints).2 := by
  have hattempt := attempt_keeps Retains.allowsUserEffects execute_retains m honorBreakpoints
  have htick := Retains.of_sameCore (m.step_sameCore honorBreakpoints)
  refine IsTrans.trans _ _ _ ?_ htick
  cases htaken : m.attempt honorBreakpoints with
  | mk attempted s =>
    rw [htaken] at hattempt
    cases attempted with
    | trap cause cycles => exact IsTrans.trans _ _ _ hattempt (s.trap_retains cause cycles)
    | retired opcode cycles => exact hattempt
    | halted cycles => exact hattempt
    | killed cycles => exact hattempt
    | breakpoint pc => exact hattempt

theorem step_keepsShape (m : Machine δ) (honorBreakpoints : Bool) :
    SameShape m (m.step honorBreakpoints).2 :=
  (m.step_retains honorBreakpoints).sameShape

theorem writePhysicalByte_retains (address : Word) (value : Byte) :
    Keeps Retains (writePhysicalByte address value : Exec δ Unit) :=
  writePhysicalByte_keeps_of (fun _ => ⟨rfl, rfl, Memory.size_put .., rfl⟩) (fun _ => ⟨rfl, rfl, rfl, rfl⟩)
    fun _ => ⟨rfl, rfl, rfl, rfl⟩

end Machine

/-- Only loading it changes the contents of the read-only memory. -/
def Operation.loadsRom {δ : Type} : Operation δ → Bool
  | loadRom _ => true
  | _ => false

namespace Machine

variable {δ : Type} [Device δ]

theorem operate_retains (m : Machine δ) {operation : Operation δ} (h : operation.loadsRom = false) :
    Retains m (m.operate operation) := by
  cases operation with
  | step honorBreakpoints => exact m.step_retains honorBreakpoints
  | enterTrap cause => exact afterRun_of_keeps (enterTrap_retains cause) m
  | loadImage image =>
    simp only [operate]
    cases hload : m.loadImage image with
    | error error => exact Std.Refl.refl m
    | ok after => exact loadImage_retains hload
  | loadRom image => cases h
  | readByte address =>
    exact .of_sameCore (afterRun_of_keeps (Machine.readByte_keeps address) m)
  | writeByte address value =>
    exact .of_storesInWindow (afterRun_of_keeps (Machine.writeByte_keeps address value) m)
  | readWord address =>
    exact .of_sameCore (afterRun_of_keeps (Machine.readWord_keeps address) m)
  | writeWord address value =>
    exact .of_storesInWindow (afterRun_of_keeps (Machine.writeWord_keeps address value) m)
  | readPhysicalByte address =>
    exact .of_sameCore (afterRun_of_keeps (Machine.readPhysicalByte_keeps address) m)
  | writePhysicalByte address value =>
    exact afterRun_of_keeps (writePhysicalByte_retains address value) m
  | readPhysicalWord address =>
    exact .of_sameCore (afterRun_of_keeps (Machine.readPhysicalWord_keeps address) m)
  | _ => exact ⟨rfl, rfl, rfl, rfl⟩

/-- No operation changes the shape of a machine. -/
theorem operate_keepsShape (m : Machine δ) (operation : Operation δ) :
    SameShape m (m.operate operation) := by
  cases hrom : operation.loadsRom with
  | false => exact (m.operate_retains hrom).sameShape
  | true =>
    cases operation with
    | loadRom image =>
      simp only [operate]
      cases hload : m.loadRom image with
      | error error => exact Std.Refl.refl m
      | ok after => exact loadRom_keepsShape hload
    | _ => cases hrom

/-- Every reachable machine still has the shape that its configuration prescribes. The induction is on
    the operations since it was built. -/
theorem Reachable.conforms {config : Config} {m : Machine δ} (h : Reachable config m) :
    Conforms config m := by
  induction h with
  | built h => exact ofConfig_conforms h
  | operated h operation ih => exact ih.of_sameShape (operate_keepsShape _ operation)

/-- A machine that runs user code in a window of one word. Its memory is empty but for a handler in the
    panic slot. -/
def oneWord (memorySize : Nat) (offset : Word) (handler : Byte) : Machine Peripheral :=
  let built := assemble ⟨16, 16, by decide⟩ ⟨0, 1, 1⟩ (Memory.zeros memorySize) (Memory.zeros 16)
  let loaded := built.operate (.loadImage [0, 0, 0, 0, 0, 0, 0, handler])
  let windowed := loaded.operate
    (.setRegisters ((RegisterFile.cleared.set .windowOffset offset).set .windowBound 4))
  windowed.operate (.setFlags {})

theorem oneWord_reachable {memorySize : Nat} {offset : Word} {handler : Byte}
    (h : Config.validate ⟨memorySize, 0, 16, 16, 0, 1, 1⟩ = .ok ⟨16, 16, by decide⟩) :
    Reachable ⟨memorySize, 0, 16, 16, 0, 1, 1⟩ (oneWord memorySize offset handler) := by
  unfold oneWord
  refine .operated (.operated (.operated (.built ?_) _) _) _
  rw [ofConfig_eq, h]
  rfl

end Machine

end Risc32
