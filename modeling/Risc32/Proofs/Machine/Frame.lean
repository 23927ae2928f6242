import Risc32.Proofs.Machine.Fault
import Risc32.Proofs.Machine.Flow

namespace Risc32.Machine

variable {δ : Type} {R : Machine δ → Machine δ → Prop}

/-- The relation allows what instructions of user code are made of: an access that changes the bus, a
    store in the window, a result in a register that the code may name, and condition flags. -/
structure AllowsUserEffects (R : Machine δ → Machine δ → Prop) : Prop where
  core : ∀ before after : Machine δ, SameCore before after → R before after
  store : ∀ before after : Machine δ, StoresInWindow before after → R before after
  register : ∀ (m : Machine δ) (r : Register) (value : Word),
    RegisterFile.admits m.flags.privileged r = true → R m { m with registers := m.registers.set r value }
  flags : ∀ (m : Machine δ) (update : FlagsUpdate), R m { m with flags := update.apply m.flags }

variable [Device δ]

/-- The relation holds across the accesses of user code and across what such code does to registers and
    condition flags. Unlike `AllowsUserEffects`, this says nothing about machines that only happen to
    differ in the same way, so that the relation may speak of the bus. -/
structure AllowsUserParts (R : Machine δ → Machine δ → Prop) : Prop where
  load : ∀ (width : Width) (address : Word), Keeps R (loadAt width address : Exec δ Word)
  store : ∀ (width : Width) (address value : Word), Keeps R (storeAt width address value : Exec δ Unit)
  register : ∀ (m : Machine δ) (r : Register) (value : Word),
    RegisterFile.admits m.flags.privileged r = true → R m { m with registers := m.registers.set r value }
  flags : ∀ (m : Machine δ) (update : FlagsUpdate), R m { m with flags := update.apply m.flags }

/-- The relation holds across the parts of privileged instructions, too: these leave privileged mode,
    set the interrupt mask and restore flags. -/
structure AllowsParts (R : Machine δ → Machine δ → Prop) : Prop extends AllowsUserParts R where
  leave : ∀ m : Machine δ, R m { m with flags := { m.flags with privileged := false } }
  mask : ∀ (m : Machine δ) (masked : Bool), R m { m with interruptsMasked := masked }
  restore : ∀ (m : Machine δ) (packed : Word), R m { m with flags := m.flags.restore packed }

omit [Device δ] in
theorem AllowsUserEffects.mono {S : Machine δ → Machine δ → Prop} (hR : AllowsUserEffects R)
    (h : ∀ before after, R before after → S before after) : AllowsUserEffects S where
  core before after hcore := h _ _ (hR.core before after hcore)
  store before after hstore := h _ _ (hR.store before after hstore)
  register m r value hadmits := h _ _ (hR.register m r value hadmits)
  flags m update := h _ _ (hR.flags m update)

theorem AllowsUserEffects.parts (hR : AllowsUserEffects R) : AllowsUserParts R where
  load width address := (loadAt_keeps width address).mono hR.core
  store width address value := by
    cases width with
    | word => exact (writeWord_keeps address value).mono hR.store
    | byte => exact (writeByte_keeps address _).mono hR.store
  register := hR.register
  flags := hR.flags

namespace AllowsUserParts

theorem writeRegister (hR : AllowsUserParts R) [Std.Refl R] (r : Register) (value : Word) :
    Keeps R (writeRegister r value : Exec δ Unit) := by
  intro m
  rw [run_writeRegister]
  by_cases h : RegisterFile.admits m.flags.privileged r
  · rw [if_pos h]
    exact hR.register m r value h
  · rw [if_neg h]
    exact Std.Refl.refl m

theorem updateFlags (hR : AllowsUserParts R) (update : FlagsUpdate) :
    Keeps R (updateFlags update : Exec δ Unit) :=
  .modify fun m => hR.flags m update

/-- Every code may move the program counter. -/
theorem setPc (hR : AllowsUserParts R) (m : Machine δ) (address : Word) : R m (m.setPc address) :=
  hR.register m .programCounter address (RegisterFile.admits_programCounter _)

theorem jumpTo (hR : AllowsUserParts R) (address : Word) : Keeps R (jumpTo address : Exec δ Unit) :=
  .modify fun m => hR.setPc m address

/-- Every code may move the stack pointer. -/
theorem setSp (hR : AllowsUserParts R) (address : Word) :
    Keeps R (modify fun m => { m with registers := m.registers.setSp address } : Exec δ Unit) :=
  .modify fun m => hR.register m .stackPointer address (RegisterFile.admits_stackPointer _)

variable [IsPreorder (Machine δ) R]

theorem commit (hR : AllowsUserParts R) (r : Register) (computed : Computed) :
    Keeps R (commit r computed : Exec δ Unit) :=
  .bind (hR.writeRegister r computed.result) fun _ => hR.updateFlags computed.update

theorem executeAlu (hR : AllowsUserParts R) (op : AluOp) (i : Instruction) :
    Keeps R (executeAlu op i : Exec δ Unit) := by
  unfold Machine.executeAlu
  refine .bind (requireAdmitted_keeps i.r0) fun _ => ?_
  refine .bind (readRegister_keeps i.r1) fun a => .bind (readRegister_keeps i.r2) fun b => ?_
  exact .bind (lift_keeps (op.eval a b)) fun computed => hR.commit i.r0 computed

theorem executeImmediate (hR : AllowsUserParts R) (op : ImmediateOp) (i : Instruction) :
    Keeps R (executeImmediate op i : Exec δ Unit) := by
  unfold Machine.executeImmediate
  exact .bind (readRegister_keeps i.r0) fun _ => hR.commit i.r0 _

theorem executeJump (hR : AllowsUserParts R) (condition : Condition) (i : Instruction) :
    Keeps R (executeJump condition i : Exec δ Unit) := by
  unfold Machine.executeJump
  exact .get_bind fun m => Keeps.ite (hR.jumpTo _) (.pure _) m

omit [Device δ] in
theorem executeInterrupt (i : Instruction) : Keeps R (executeInterrupt i : Exec δ Flow) := by
  unfold Machine.executeInterrupt
  exact .get_bind fun m => Keeps.check (.ite (.pure _) (.pure _)) m

theorem executeLoad (hR : AllowsUserParts R) (width : Width) (i : Instruction) :
    Keeps R (executeLoad width i : Exec δ Unit) := by
  unfold Machine.executeLoad
  refine .bind (requireAdmitted_keeps i.r0) fun _ => .bind (readRegister_keeps i.r1) fun base => ?_
  exact .bind (hR.load width _) fun value => hR.writeRegister i.r0 value

theorem executeStore (hR : AllowsUserParts R) (width : Width) (i : Instruction) :
    Keeps R (executeStore width i : Exec δ Unit) := by
  unfold Machine.executeStore
  refine .bind (readRegister_keeps i.r0) fun value => .bind (readRegister_keeps i.r1) fun base => ?_
  exact hR.store width _ value

theorem push (hR : AllowsUserParts R) (value : Word) : Keeps R (push value : Exec δ Unit) := by
  unfold Machine.push
  refine .get_bind fun m => Keeps.check ?_ m
  exact .bind (hR.store .word _ value) fun _ => hR.setSp _

theorem pop (hR : AllowsUserParts R) : Keeps R (pop : Exec δ Word) := by
  unfold Machine.pop
  refine .get_bind fun m => Keeps.check ?_ m
  exact .bind (hR.load .word _) fun value => .bind (hR.setSp _) fun _ => .pure value

theorem callTo (hR : AllowsUserParts R) (target : Word) : Keeps R (callTo target : Exec δ Unit) := by
  unfold Machine.callTo
  exact .get_bind fun m => Keeps.bind (hR.push m.pc) (fun _ => hR.jumpTo target) m

/-- Whatever allows these parts holds across every instruction that is not privileged, whether it
    succeeds or faults. -/
theorem execute (hR : AllowsUserParts R) {i : Instruction} (hopcode : i.opcode.isPrivileged = false) :
    Keeps R (execute i : Exec δ Flow) := by
  obtain ⟨opcode, field⟩ := i
  have next {x : Exec δ Unit} (hx : Keeps R x) : Keeps R (do x; return Flow.next) :=
    .bind hx fun _ => .pure _
  cases opcode with
  | nop => exact .pure _
  | move => exact .bind (readRegister_keeps _) fun _ => next (hR.writeRegister _ _)
  | loadUpper => exact next (hR.writeRegister _ _)
  | loadLower => exact next (hR.writeRegister _ _)
  | load width => exact next (hR.executeLoad width _)
  | store width => exact next (hR.executeStore width _)
  | alu op => exact next (hR.executeAlu op _)
  | complement => exact .bind (readRegister_keeps _) fun _ => next (hR.commit _ _)
  | immediate op => exact next (hR.executeImmediate op _)
  | compare =>
    exact .bind (readRegister_keeps _) fun _ => .bind (readRegister_keeps _) fun _ =>
      next (hR.updateFlags _)
  | jump condition => exact next (hR.executeJump condition _)
  | jumpRegister => exact .bind (readRegister_keeps _) fun _ => next (hR.jumpTo _)
  | call => exact .get_bind fun m => next (hR.callTo _) m
  | callRegister => exact .bind (readRegister_keeps _) fun _ => next (hR.callTo _)
  | ret => exact .bind hR.pop fun _ => next (hR.jumpTo _)
  | interrupt => exact executeInterrupt _
  | push => exact .bind (readRegister_keeps _) fun _ => next (hR.push _)
  | pop =>
    exact .bind (requireAdmitted_keeps _) fun _ => .bind hR.pop fun _ => next (hR.writeRegister _ _)
  | _ => cases hopcode

end AllowsUserParts

/-- Whatever allows all parts holds across every instruction. -/
theorem AllowsParts.execute [IsPreorder (Machine δ) R] (hR : AllowsParts R) (i : Instruction) :
    Keeps R (execute i : Exec δ Flow) := by
  cases hopcode : i.opcode.isPrivileged with
  | false => exact hR.toAllowsUserParts.execute hopcode
  | true =>
    obtain ⟨opcode, field⟩ := i
    have privileged {x : Exec δ Flow} (hx : Keeps R x) : Keeps R (do requirePrivilege; x) :=
      .bind requirePrivilege_keeps fun _ => hx
    have write (r : Register) (value : Word) :
        Keeps R (do writeRegister r value; return Flow.next : Exec δ Flow) :=
      .bind (hR.writeRegister r value) fun _ => .pure _
    have change {g : Machine δ → Machine δ} (hg : ∀ m, R m (g m)) :
        Keeps R (do modify g; return Flow.next : Exec δ Flow) :=
      .bind (.modify hg) fun _ => .pure _
    cases opcode with
    | setWindowOffset => exact privileged (.bind (readRegister_keeps _) fun _ => write _ _)
    | setWindowBound => exact privileged (.bind (readRegister_keeps _) fun _ => write _ _)
    | leavePrivileged =>
      refine privileged (.bind (readRegister_keeps _) fun target => .bind (.modify hR.leave) fun _ => ?_)
      exact .bind (hR.jumpTo target) fun _ => .pure _
    | maskInterrupts => exact privileged (change fun m => hR.mask m true)
    | unmaskInterrupts => exact privileged (change fun m => hR.mask m false)
    | getSavedFlags => exact privileged (.get_bind fun m => write _ _ m)
    | getSavedPc => exact privileged (.get_bind fun m => write _ _ m)
    | setFlags =>
      exact privileged (.bind (readRegister_keeps _) fun packed => change fun m => hR.restore m packed)
    | halt => exact privileged (.pure _)
    | kill => exact privileged (.pure _)
    | _ => cases hopcode

end Risc32.Machine
