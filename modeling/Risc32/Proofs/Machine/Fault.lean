import Risc32.Machine.Execute
import Risc32.Proofs.Machine.Access

namespace Risc32

/-- The opcodes that store a word. -/
def Opcode.storesWord : Opcode → Bool
  | store .word | push | call | callRegister => true
  | _ => false

namespace Machine

variable {δ α β : Type}

/-- A fault leaves everything that instructions can see as it was. -/
def FaultsCleanly (x : Exec δ α) : Prop :=
  ErrorKeeps (fun _ => SameCore) x

namespace FaultsCleanly

variable {x : Exec δ α} {f : α → Exec δ β}

theorem bind (hx : Keeps SameCore x) (hf : ∀ a, FaultsCleanly (f a)) : FaultsCleanly (x >>= f) :=
  ErrorKeeps.bind hx hf (fun _ _ _ h => h) fun _ _ _ _ hfirst hrest => IsTrans.trans _ _ _ hfirst hrest

theorem of_total (hx : Raises (fun _ => False) x) : FaultsCleanly x :=
  hx.mono fun _ _ _ h => h.elim

end FaultsCleanly

/-- What is said of a fault does not depend on what was read before it: reads change nothing but the
    bus. -/
structure IgnoresReads (E : Fault → Machine δ → Machine δ → Prop) : Prop where
  same : ∀ fault before after, SameCore before after → E fault before after
  absorb : ∀ fault before middle after, SameCore before middle → E fault middle after → E fault before after

theorem StoreFault.ignoresReads : IgnoresReads (StoreFault (δ := δ)) where
  same _ _ _ hsame := .inl hsame
  absorb fault before middle after hfirst hrest := by
    rcases hrest with hsame | ⟨hmemory, hstores⟩
    · exact .inl (IsTrans.trans _ _ _ hfirst hsame)
    · exact .inr ⟨hmemory, IsTrans.trans _ _ _ hfirst.storesInWindow hstores⟩

/-- Whatever precedes a store without changing the core adds nothing to its faults. -/
theorem IgnoresReads.bind {E : Fault → Machine δ → Machine δ → Prop} (hE : IgnoresReads E) {x : Exec δ α}
    {f : α → Exec δ β} (hx : Keeps SameCore x) (hf : ∀ a, ErrorKeeps E (f a)) : ErrorKeeps E (x >>= f) :=
  ErrorKeeps.bind hx hf hE.same hE.absorb

section Checks

variable {R : Machine δ → Machine δ → Prop} [Std.Refl R]

theorem lift_keeps (value : Except Fault α) : Keeps R (Exec.lift value : Exec δ α) := by
  cases value with
  | ok a => exact .pure a
  | error fault => exact .throw fault

theorem requirePrivilege_keeps : Keeps R (requirePrivilege : Exec δ Unit) := by
  refine .of_unchanged fun m => ?_
  rw [run_requirePrivilege]
  split
  · exact .inl ⟨_, rfl⟩
  · exact .inr ⟨_, rfl⟩

theorem requireAdmitted_keeps (r : Register) : Keeps R (requireAdmitted r : Exec δ Unit) := by
  refine .of_unchanged fun m => ?_
  rw [run_requireAdmitted]
  split
  · exact .inl ⟨_, rfl⟩
  · exact .inr ⟨_, rfl⟩

theorem readRegister_keeps (r : Register) : Keeps R (readRegister r : Exec δ Word) := by
  refine .of_unchanged fun m => ?_
  rw [run_readRegister]
  split
  · exact .inl ⟨_, rfl⟩
  · exact .inr ⟨_, rfl⟩

end Checks

theorem writeRegister_faultsCleanly (r : Register) (value : Word) :
    FaultsCleanly (writeRegister r value : Exec δ Unit) := by
  intro m fault after hrun
  rw [run_writeRegister] at hrun
  split at hrun
  · cases hrun
  · cases hrun
    rfl

theorem updateFlags_total (update : FlagsUpdate) :
    Raises (fun _ => False) (updateFlags update : Exec δ Unit) := by
  intro m fault after hrun
  cases hrun

theorem jumpTo_total (address : Word) : Raises (fun _ => False) (jumpTo address : Exec δ Unit) := by
  intro m fault after hrun
  cases hrun

theorem executeJump_total (condition : Condition) (i : Instruction) :
    Raises (fun _ => False) (executeJump condition i : Exec δ Unit) := by
  intro m fault after hrun
  simp only [executeJump, EStateM.run_bind, EStateM.run_get] at hrun
  split at hrun <;> cases hrun

theorem commit_faultsCleanly (r : Register) (computed : Computed) :
    FaultsCleanly (commit r computed : Exec δ Unit) :=
  ErrorKeeps.bind_total (writeRegister_faultsCleanly r computed.result) fun _ =>
    updateFlags_total computed.update

theorem executeAlu_faultsCleanly (op : AluOp) (i : Instruction) :
    FaultsCleanly (executeAlu op i : Exec δ Unit) := by
  unfold executeAlu
  refine .bind (requireAdmitted_keeps i.r0) fun _ => ?_
  refine .bind (readRegister_keeps i.r1) fun a => .bind (readRegister_keeps i.r2) fun b => ?_
  exact .bind (lift_keeps (op.eval a b)) fun computed => commit_faultsCleanly i.r0 computed

theorem executeImmediate_faultsCleanly (op : ImmediateOp) (i : Instruction) :
    FaultsCleanly (executeImmediate op i : Exec δ Unit) := by
  unfold executeImmediate
  exact .bind (readRegister_keeps i.r0) fun _ => commit_faultsCleanly i.r0 _

theorem executeInterrupt_faultsCleanly (i : Instruction) :
    FaultsCleanly (executeInterrupt i : Exec δ Flow) := by
  intro m fault after hrun
  rw [run_executeInterrupt] at hrun
  split at hrun
  · cases hrun
    rfl
  · split at hrun <;> cases hrun

variable [Device δ]

theorem loadAt_keeps (width : Width) (address : Word) :
    Keeps SameCore (loadAt width address : Exec δ Word) := by
  cases width with
  | word => exact readWord_keeps address
  | byte => exact .bind (readByte_keeps address) fun _ => .pure _

theorem executeLoad_faultsCleanly (width : Width) (i : Instruction) :
    FaultsCleanly (executeLoad width i : Exec δ Unit) := by
  unfold executeLoad
  refine .bind (requireAdmitted_keeps i.r0) fun _ => .bind (readRegister_keeps i.r1) fun base => ?_
  exact .bind (loadAt_keeps width _) fun value => writeRegister_faultsCleanly i.r0 value

theorem storeByte_faultsCleanly (i : Instruction) :
    FaultsCleanly (executeStore .byte i : Exec δ Unit) := by
  unfold executeStore
  refine .bind (readRegister_keeps i.r0) fun value => .bind (readRegister_keeps i.r1) fun base => ?_
  intro m fault after hrun
  rw [(writeByte_error hrun).2]
  rfl

theorem pop_faultsCleanly : FaultsCleanly (pop : Exec δ Word) := by
  intro m fault after hrun
  rw [run_pop] at hrun
  split at hrun
  · cases hrun
    rfl
  · split at hrun
    · cases hrun
    · rename_i hread
      cases hrun
      exact (readWord_keeps _).of_error hread

theorem pop_flags {m after : Machine δ} {value : Word} (hrun : pop.run m = .ok value after) :
    after.flags = m.flags := by
  rw [run_pop] at hrun
  split at hrun
  · cases hrun
  · split at hrun
    · rename_i hread
      cases hrun
      exact congrArg (·.flags) ((readWord_keeps _).of_ok hread)
    · cases hrun

/-- The register is checked before the stack pointer moves, and is still writable afterwards. -/
theorem popInto_faultsCleanly (r : Register) :
    FaultsCleanly (do requireAdmitted r; writeRegister r (← pop); return Flow.next : Exec δ Flow) := by
  intro m fault after hrun
  rw [EStateM.run_bind, run_requireAdmitted] at hrun
  by_cases hadmits : RegisterFile.admits m.flags.privileged r
  · simp only [hadmits, if_true, EStateM.run_bind] at hrun
    cases hpop : pop.run m with
    | error first middle =>
      rw [hpop] at hrun
      cases hrun
      exact pop_faultsCleanly _ _ _ hpop
    | ok value middle =>
      rw [hpop] at hrun
      simp only [run_writeRegister, pop_flags hpop, hadmits, if_true] at hrun
      cases hrun
  · simp only [hadmits] at hrun
    cases hrun
    rfl

/-- An instruction that stores no word checks everything before it changes anything. -/
theorem execute_faultsCleanly {i : Instruction} (hstores : i.opcode.storesWord = false) :
    FaultsCleanly (execute i : Exec δ Flow) := by
  obtain ⟨opcode, field⟩ := i
  have next {x : Exec δ Unit} (hx : FaultsCleanly x) : FaultsCleanly (do x; return Flow.next) :=
    .bind_total hx fun _ => .pure _
  have change {x : Exec δ Unit} (hx : Raises (fun _ => False) x) : FaultsCleanly (do x; return Flow.next) :=
    next (.of_total hx)
  have privileged {x : Exec δ Flow} (hx : FaultsCleanly x) : FaultsCleanly (do requirePrivilege; x) :=
    .bind requirePrivilege_keeps fun _ => hx
  cases opcode with
  | nop => exact .of_total (.pure _)
  | move => exact .bind (readRegister_keeps _) fun _ => next (writeRegister_faultsCleanly _ _)
  | loadUpper => exact next (writeRegister_faultsCleanly _ _)
  | loadLower => exact next (writeRegister_faultsCleanly _ _)
  | load width => exact next (executeLoad_faultsCleanly width _)
  | store width =>
    cases width with
    | word => cases hstores
    | byte => exact next (storeByte_faultsCleanly _)
  | alu op => exact next (executeAlu_faultsCleanly op _)
  | complement => exact .bind (readRegister_keeps _) fun _ => next (commit_faultsCleanly _ _)
  | immediate op => exact next (executeImmediate_faultsCleanly op _)
  | compare =>
    exact .bind (readRegister_keeps _) fun _ => .bind (readRegister_keeps _) fun _ =>
      change (updateFlags_total _)
  | jump condition => exact change (executeJump_total condition _)
  | jumpRegister => exact .bind (readRegister_keeps _) fun _ => change (jumpTo_total _)
  | call => cases hstores
  | callRegister => cases hstores
  | ret => exact .bind_total pop_faultsCleanly fun _ => .bind (jumpTo_total _) fun _ => .pure _
  | interrupt => exact executeInterrupt_faultsCleanly _
  | push => cases hstores
  | pop => exact popInto_faultsCleanly _
  | setWindowOffset =>
    exact privileged (.bind (readRegister_keeps _) fun _ => next (writeRegister_faultsCleanly _ _))
  | setWindowBound =>
    exact privileged (.bind (readRegister_keeps _) fun _ => next (writeRegister_faultsCleanly _ _))
  | leavePrivileged =>
    exact privileged (.bind (readRegister_keeps _) fun _ => .of_total
      (.bind (.modify _) fun _ => .bind (jumpTo_total _) fun _ => .pure _))
  | maskInterrupts => exact privileged (change (.modify _))
  | unmaskInterrupts => exact privileged (change (.modify _))
  | getSavedFlags => exact privileged (.bind (fun _ => rfl) fun _ => next (writeRegister_faultsCleanly _ _))
  | getSavedPc => exact privileged (.bind (fun _ => rfl) fun _ => next (writeRegister_faultsCleanly _ _))
  | setFlags => exact privileged (.bind (readRegister_keeps _) fun _ => change (.modify _))
  | halt => exact privileged (.of_total (.pure _))
  | kill => exact privileged (.of_total (.pure _))

section WordStores

variable {E : Fault → Machine δ → Machine δ → Prop}

theorem storeWord_errorKeeps (hE : IgnoresReads E)
    (hwrite : ∀ address value, ErrorKeeps E (writeWord address value)) (i : Instruction) :
    ErrorKeeps E (executeStore .word i : Exec δ Unit) := by
  unfold executeStore
  refine hE.bind (readRegister_keeps i.r0) fun value => ?_
  exact hE.bind (readRegister_keeps i.r1) fun base => hwrite _ value

theorem push_errorKeeps (hE : IgnoresReads E)
    (hwrite : ∀ address value, ErrorKeeps E (writeWord address value)) (value : Word) :
    ErrorKeeps E (push value : Exec δ Unit) := by
  intro m fault after hrun
  rw [run_push] at hrun
  split at hrun
  · cases hrun
    exact hE.same _ _ _ rfl
  · split at hrun
    · cases hrun
    · rename_i hfault
      cases hrun
      exact hwrite _ value _ _ _ hfault

theorem callTo_errorKeeps (hE : IgnoresReads E)
    (hwrite : ∀ address value, ErrorKeeps E (writeWord address value)) (target : Word) :
    ErrorKeeps E (callTo target : Exec δ Unit) := by
  unfold callTo
  refine hE.bind (fun _ => rfl) fun m => ?_
  exact .bind_total (push_errorKeeps hE hwrite m.pc) fun _ => jumpTo_total target

/-- The faults of an instruction that stores a word are those of its store. -/
theorem execute_errorKeeps (hE : IgnoresReads E)
    (hwrite : ∀ address value, ErrorKeeps E (writeWord address value)) {i : Instruction}
    (hstores : i.opcode.storesWord = true) : ErrorKeeps E (execute i : Exec δ Flow) := by
  obtain ⟨opcode, field⟩ := i
  have next {x : Exec δ Unit} (hx : ErrorKeeps E x) : ErrorKeeps E (do x; return Flow.next) :=
    .bind_total hx fun _ => .pure _
  cases opcode with
  | store width =>
    cases width with
    | word => exact next (storeWord_errorKeeps hE hwrite _)
    | byte => cases hstores
  | call => exact hE.bind (fun _ => rfl) fun _ => next (callTo_errorKeeps hE hwrite _)
  | callRegister => exact hE.bind (readRegister_keeps _) fun _ => next (callTo_errorKeeps hE hwrite _)
  | push => exact hE.bind (readRegister_keeps _) fun _ => next (push_errorKeeps hE hwrite _)
  | _ => cases hstores

end WordStores

end Machine

end Risc32
