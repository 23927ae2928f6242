import Risc32.Machine.Execute
import Risc32.Proofs.Machine.Access

namespace Risc32

/-- The word kept in the place of a register. For the zero register it is not the one that code reads. -/
def RegisterFile.stored (file : RegisterFile) (r : Register) : Word :=
  getElem file.words r.index.toNat r.toNat_index_lt

theorem RegisterFile.stored_set (file : RegisterFile) {r s : Register} (value : Word)
    (h : s ≠ r ∨ s = .zero) : (file.set r value).stored s = file.stored s := by
  by_cases hr : r = .zero
  · rw [hr, set_zero]
  · have hne : r.index.toNat ≠ s.index.toNat := by
      intro hindex
      have hsame := Register.eq_of_toNat_index_eq hindex
      rcases h with hother | hzero
      · exact hother hsame.symm
      · exact hr (hsame.trans hzero)
    simp only [stored, set, hr, if_false]
    exact Vector.getElem_set_ne _ _ hne

inductive ConditionFlag where
  | zero
  | negative
  | overflow
deriving DecidableEq, Repr

def Flags.condition (flags : Flags) : ConditionFlag → Bool
  | .zero => flags.zero
  | .negative => flags.negative
  | .overflow => flags.overflow

/-- The condition flags that an update describes. -/
def FlagsUpdate.conditions : FlagsUpdate → List ConditionFlag
  | keep => []
  | zero _ => [.zero]
  | zeroNegative _ => [.zero, .negative]
  | arithmetic .. => [.zero, .negative, .overflow]

theorem FlagsUpdate.apply_condition {flags : Flags} {update : FlagsUpdate} {flag : ConditionFlag}
    (hflag : flag ∉ update.conditions) : (update.apply flags).condition flag = flags.condition flag := by
  cases update <;> cases flag <;> first | rfl | simp [conditions] at hflag

def AluOp.conditions : AluOp → List ConditionFlag
  | add | sub => [.zero, .negative, .overflow]
  | mul | mulUnsigned | div | divUnsigned | rem | remUnsigned => [.zero, .negative]
  | and | or | xor | shiftRight | shiftRightSigned | shiftLeft => [.zero]

theorem AluOp.compute_conditions (op : AluOp) (a b : Word) :
    (op.compute a b).update.conditions = op.conditions := by
  cases op <;> rfl

def Width.bytes : Width → Nat
  | word => 4
  | byte => 1

/-- What may change: registers, condition flags, the privilege flag, the interrupt mask, bytes of main
    memory by their physical addresses, and the devices on the bus. -/
structure Footprint where
  registers : List Register := []
  conditions : List ConditionFlag := []
  privilege : Bool := false
  mask : Bool := false
  bytes : List Word := []
  devices : Bool := false
deriving DecidableEq, Repr

namespace Machine

variable {δ : Type}

/-- The physical addresses of a store at a virtual address. -/
def storeBytes (m : Machine δ) (width : Width) (address : Word) : List Word :=
  (List.range width.bytes).map fun i => m.relocate (address + BitVec.ofNat 32 i)

/-- Nothing has changed but what the footprint allows. The zero register never changes, whether or not
    an instruction names it. -/
structure Within (footprint : Footprint) (before after : Machine δ) : Prop where
  registers : ∀ r : Register, r ∉ footprint.registers ∨ r = .zero →
    after.registers.stored r = before.registers.stored r
  conditions : ∀ flag ∉ footprint.conditions, after.flags.condition flag = before.flags.condition flag
  privileged : footprint.privilege = false → after.flags.privileged = before.flags.privileged
  interruptsMasked : footprint.mask = false → after.interruptsMasked = before.interruptsMasked
  ram : ∀ index : Nat, (∀ address ∈ footprint.bytes, address.toNat ≠ index) →
    after.ram.get? index = before.ram.get? index
  ramSize : after.ram.size = before.ram.size
  bus : footprint.devices = false → after.bus = before.bus
  rom : after.rom = before.rom
  savedPc : after.savedPc = before.savedPc
  savedFlags : after.savedFlags = before.savedFlags
  layout : after.layout = before.layout
  vectors : after.vectors = before.vectors
  breakpoints : after.breakpoints = before.breakpoints

end Machine

/-- The footprint of an instruction on a machine. Only a jump depends on the flags, and only stores
    depend on registers: for the place of their bytes. -/
def Instruction.footprint {δ : Type} (i : Instruction) (m : Machine δ) : Footprint :=
  match i.opcode with
  | .move | .loadUpper | .loadLower | .getSavedFlags | .getSavedPc => { registers := [i.r0] }
  | .load _ => { registers := [i.r0], devices := true }
  | .store width =>
    { bytes := m.storeBytes width (effectiveAddress (m.registers.get i.r1) i.offset), devices := true }
  | .alu op => { registers := [i.r0], conditions := op.conditions }
  | .immediate op => { registers := [i.r0], conditions := op.toAluOp.conditions }
  | .complement => { registers := [i.r0], conditions := [.zero] }
  | .compare | .setFlags => { conditions := [.zero, .negative, .overflow] }
  | .jump condition => { registers := if condition.holds m.flags then [.programCounter] else [] }
  | .jumpRegister => { registers := [.programCounter] }
  | .call | .callRegister =>
    { registers := [.stackPointer, .programCounter]
      bytes := m.storeBytes .word (m.registers.sp - 4)
      devices := true }
  | .ret => { registers := [.stackPointer, .programCounter], devices := true }
  | .push =>
    { registers := [.stackPointer], bytes := m.storeBytes .word (m.registers.sp - 4), devices := true }
  | .pop => { registers := [i.r0, .stackPointer], devices := true }
  | .setWindowOffset => { registers := [.windowOffset] }
  | .setWindowBound => { registers := [.windowBound] }
  | .leavePrivileged => { registers := [.programCounter], privilege := true }
  | .maskInterrupts | .unmaskInterrupts => { mask := true }
  | .nop | .interrupt | .halt | .kill => {}

namespace Machine

variable {δ : Type} {footprint : Footprint} {m before middle after : Machine δ}

namespace Within

theorem refl (footprint : Footprint) (m : Machine δ) : Within footprint m m where
  registers _ _ := rfl
  conditions _ _ := rfl
  privileged _ := rfl
  interruptsMasked _ := rfl
  ram _ _ := rfl
  ramSize := rfl
  bus _ := rfl
  rom := rfl
  savedPc := rfl
  savedFlags := rfl
  layout := rfl
  vectors := rfl
  breakpoints := rfl

theorem trans (hfirst : Within footprint before middle) (hsecond : Within footprint middle after) :
    Within footprint before after where
  registers r hr := (hsecond.registers r hr).trans (hfirst.registers r hr)
  conditions flag hflag := (hsecond.conditions flag hflag).trans (hfirst.conditions flag hflag)
  privileged h := (hsecond.privileged h).trans (hfirst.privileged h)
  interruptsMasked h := (hsecond.interruptsMasked h).trans (hfirst.interruptsMasked h)
  ram index hindex := (hsecond.ram index hindex).trans (hfirst.ram index hindex)
  ramSize := hsecond.ramSize.trans hfirst.ramSize
  bus h := (hsecond.bus h).trans (hfirst.bus h)
  rom := hsecond.rom.trans hfirst.rom
  savedPc := hsecond.savedPc.trans hfirst.savedPc
  savedFlags := hsecond.savedFlags.trans hfirst.savedFlags
  layout := hsecond.layout.trans hfirst.layout
  vectors := hsecond.vectors.trans hfirst.vectors
  breakpoints := hsecond.breakpoints.trans hfirst.breakpoints

theorem setRegister (m : Machine δ) {r : Register} (value : Word) (hr : r ∈ footprint.registers) :
    Within footprint m { m with registers := m.registers.set r value } :=
  { refl footprint m with
    registers := fun s hs => by
      apply RegisterFile.stored_set
      rcases hs with hs | hs
      · refine .inl ?_
        rintro rfl
        exact hs hr
      · exact .inr hs }

theorem update (m : Machine δ) {update : FlagsUpdate}
    (h : ∀ flag ∈ update.conditions, flag ∈ footprint.conditions) :
    Within footprint m { m with flags := update.apply m.flags } :=
  { refl footprint m with
    conditions := fun flag hflag => FlagsUpdate.apply_condition fun hmem => hflag (h flag hmem)
    privileged := fun _ => FlagsUpdate.apply_privileged m.flags update }

theorem leave (m : Machine δ) (h : footprint.privilege = true) :
    Within footprint m { m with flags := { m.flags with privileged := false } } :=
  { refl footprint m with
    conditions := fun flag _ => by cases flag <;> rfl
    privileged := fun hkept => by
      rw [h] at hkept
      cases hkept }

theorem mask (m : Machine δ) (masked : Bool) (h : footprint.mask = true) :
    Within footprint m { m with interruptsMasked := masked } :=
  { refl footprint m with
    interruptsMasked := fun hkept => by
      rw [h] at hkept
      cases hkept }

/-- Restoring packed flags may change every condition flag and no other. -/
theorem restore (m : Machine δ) (packed : Word) (h : ∀ flag, flag ∈ footprint.conditions) :
    Within footprint m { m with flags := m.flags.restore packed } :=
  { refl footprint m with conditions := fun flag hflag => absurd (h flag) hflag }

theorem of_sameCore (h : SameCore before after) (hdevices : footprint.devices = true) :
    Within footprint before after where
  registers r _ := by rw [h.registers]
  conditions flag _ := congrArg (·.flags.condition flag) h
  privileged _ := congrArg (·.flags.privileged) h
  interruptsMasked _ := congrArg (·.interruptsMasked) h
  ram index _ := congrArg (·.ram.get? index) h
  ramSize := congrArg (·.ram.size) h
  bus hnone := by
    rw [hdevices] at hnone
    cases hnone
  rom := congrArg (·.rom) h
  savedPc := congrArg (·.savedPc) h
  savedFlags := congrArg (·.savedFlags) h
  layout := congrArg (·.layout) h
  vectors := congrArg (·.vectors) h
  breakpoints := congrArg (·.breakpoints) h

/-- What the declared registers do not include is read as before, too. -/
theorem registers_get (h : Within footprint before after) {r : Register}
    (hr : r ∉ footprint.registers) : after.registers.get r = before.registers.get r := by
  have hstored := h.registers r (.inl hr)
  unfold RegisterFile.get
  split
  · rfl
  · exact hstored

end Within

end Machine

end Risc32
