import Risc32.Machine.Execute
import Risc32.Proofs.Exec.Agrees

namespace Risc32.Machine

variable {δ₁ δ₂ α : Type} {R : Machine δ₁ → Machine δ₂ → Prop}

section Bytes

theorem following_agrees (address : Word) (i : Nat) :
    Agrees R (following address i : Exec δ₁ Word) (following address i : Exec δ₂ Word) := by
  unfold following
  exact .ite (.pure _) (.throw _)

theorem readBytes_agrees {readFirst : Word → Exec δ₁ Byte} {readSecond : Word → Exec δ₂ Byte}
    (hread : ∀ address, Agrees R (readFirst address) (readSecond address)) (address : Word) :
    Agrees R (readBytes readFirst address) (readBytes readSecond address) := by
  unfold readBytes
  refine .bind (following_agrees address 3) fun _ => .bind (hread _) fun _ => ?_
  refine .bind (following_agrees address 2) fun _ => .bind (hread _) fun _ => ?_
  refine .bind (following_agrees address 1) fun _ => .bind (hread _) fun _ => ?_
  exact .bind (hread address) fun _ => .pure _

theorem writeBytes_agrees {writeFirst : Word → Byte → Exec δ₁ Unit}
    {writeSecond : Word → Byte → Exec δ₂ Unit}
    (hwrite : ∀ address byte, Agrees R (writeFirst address byte) (writeSecond address byte))
    (address value : Word) :
    Agrees R (writeBytes writeFirst address value) (writeBytes writeSecond address value) := by
  unfold writeBytes
  refine .bind (following_agrees address 3) fun _ => .bind (hwrite _ _) fun _ => ?_
  refine .bind (following_agrees address 2) fun _ => .bind (hwrite _ _) fun _ => ?_
  exact .bind (following_agrees address 1) fun _ => .bind (hwrite _ _) fun _ => hwrite address _

end Bytes

theorem lift_agrees (value : Except Fault α) :
    Agrees R (Exec.lift value : Exec δ₁ α) (Exec.lift value : Exec δ₂ α) := by
  cases value with
  | ok a => exact .pure a
  | error fault => exact .throw fault

variable [Device δ₁] [Device δ₂]

/-- Related machines agree in what instructions of user code look at, and the parts of such instructions
    keep them related. -/
structure MirrorsUserParts (R : Machine δ₁ → Machine δ₂ → Prop) : Prop where
  flags : ∀ first second, R first second → second.flags = first.flags
  interruptsMasked : ∀ first second, R first second → second.interruptsMasked = first.interruptsMasked
  software : ∀ first second, R first second → second.vectors.software = first.vectors.software
  registers : ∀ first second (r : Register), R first second →
    RegisterFile.admits first.flags.privileged r = true → second.registers.get r = first.registers.get r
  setRegister : ∀ first second (r : Register) (value : Word), R first second →
    RegisterFile.admits first.flags.privileged r = true →
    R { first with registers := first.registers.set r value }
      { second with registers := second.registers.set r value }
  update : ∀ first second (update : FlagsUpdate), R first second →
    R { first with flags := update.apply first.flags } { second with flags := update.apply second.flags }
  load : ∀ (width : Width) (address : Word),
    Agrees R (loadAt width address : Exec δ₁ Word) (loadAt width address : Exec δ₂ Word)
  store : ∀ (width : Width) (address value : Word),
    Agrees R (storeAt width address value : Exec δ₁ Unit) (storeAt width address value : Exec δ₂ Unit)

/-- The same of privileged instructions, which also look at the saved context. -/
structure MirrorsParts (R : Machine δ₁ → Machine δ₂ → Prop) : Prop extends MirrorsUserParts R where
  savedPc : ∀ first second, R first second → second.savedPc = first.savedPc
  savedFlags : ∀ first second, R first second → second.savedFlags = first.savedFlags
  leave : ∀ first second, R first second →
    R { first with flags := { first.flags with privileged := false } }
      { second with flags := { second.flags with privileged := false } }
  mask : ∀ first second (masked : Bool), R first second →
    R { first with interruptsMasked := masked } { second with interruptsMasked := masked }
  restore : ∀ first second (packed : Word), R first second →
    R { first with flags := first.flags.restore packed } { second with flags := second.flags.restore packed }

namespace MirrorsUserParts

variable {first : Machine δ₁} {second : Machine δ₂}

/-- Every code may look at the program counter. -/
theorem pc (hR : MirrorsUserParts R) (h : R first second) : second.pc = first.pc :=
  hR.registers _ _ .programCounter h (RegisterFile.admits_programCounter _)

/-- Every code may look at the stack pointer. -/
theorem sp (hR : MirrorsUserParts R) (h : R first second) : second.registers.sp = first.registers.sp :=
  hR.registers _ _ .stackPointer h (RegisterFile.admits_stackPointer _)

theorem setPc (hR : MirrorsUserParts R) (h : R first second) (address : Word) :
    R (first.setPc address) (second.setPc address) :=
  hR.setRegister _ _ .programCounter address h (RegisterFile.admits_programCounter _)

theorem requireAdmitted (hR : MirrorsUserParts R) (r : Register) :
    Agrees R (requireAdmitted r : Exec δ₁ Unit) (requireAdmitted r : Exec δ₂ Unit) := by
  intro first second h
  rw [run_requireAdmitted, run_requireAdmitted, hR.flags _ _ h]
  by_cases hr : RegisterFile.admits first.flags.privileged r
  · rw [if_pos hr, if_pos hr]
    exact .ok h
  · rw [if_neg hr, if_neg hr]
    exact .error h

theorem readRegister (hR : MirrorsUserParts R) (r : Register) :
    Agrees R (readRegister r : Exec δ₁ Word) (readRegister r : Exec δ₂ Word) := by
  intro first second h
  rw [run_readRegister, run_readRegister, hR.flags _ _ h]
  by_cases hr : RegisterFile.admits first.flags.privileged r
  · rw [if_pos hr, if_pos hr, hR.registers _ _ r h hr]
    exact .ok h
  · rw [if_neg hr, if_neg hr]
    exact .error h

theorem writeRegister (hR : MirrorsUserParts R) (r : Register) (value : Word) :
    Agrees R (writeRegister r value : Exec δ₁ Unit) (writeRegister r value : Exec δ₂ Unit) := by
  intro first second h
  have hadmits : RegisterFile.admits second.flags.privileged r =
      RegisterFile.admits first.flags.privileged r := by rw [hR.flags _ _ h]
  rw [run_writeRegister, run_writeRegister, hadmits]
  by_cases hr : RegisterFile.admits first.flags.privileged r
  · rw [if_pos hr, if_pos hr]
    exact .ok (hR.setRegister _ _ r value h hr)
  · rw [if_neg hr, if_neg hr]
    exact .error h

theorem updateFlags (hR : MirrorsUserParts R) (update : FlagsUpdate) :
    Agrees R (updateFlags update : Exec δ₁ Unit) (updateFlags update : Exec δ₂ Unit) :=
  .modify fun _ _ h => hR.update _ _ update h

theorem jumpTo (hR : MirrorsUserParts R) (address : Word) :
    Agrees R (jumpTo address : Exec δ₁ Unit) (jumpTo address : Exec δ₂ Unit) :=
  .modify fun _ _ h => hR.setPc h address

theorem setSp (hR : MirrorsUserParts R) (address : Word) :
    Agrees R (modify fun m => { m with registers := m.registers.setSp address } : Exec δ₁ Unit)
      (modify fun m => { m with registers := m.registers.setSp address } : Exec δ₂ Unit) :=
  .modify fun _ _ h => hR.setRegister _ _ .stackPointer address h (RegisterFile.admits_stackPointer _)

theorem commit (hR : MirrorsUserParts R) (r : Register) (computed : Computed) :
    Agrees R (commit r computed : Exec δ₁ Unit) (commit r computed : Exec δ₂ Unit) :=
  .bind (hR.writeRegister r computed.result) fun _ => hR.updateFlags computed.update

theorem executeAlu (hR : MirrorsUserParts R) (op : AluOp) (i : Instruction) :
    Agrees R (executeAlu op i : Exec δ₁ Unit) (executeAlu op i : Exec δ₂ Unit) := by
  unfold Machine.executeAlu
  refine .bind (hR.requireAdmitted i.r0) fun _ => ?_
  refine .bind (hR.readRegister i.r1) fun a => .bind (hR.readRegister i.r2) fun b => ?_
  exact .bind (lift_agrees (op.eval a b)) fun computed => hR.commit i.r0 computed

theorem executeImmediate (hR : MirrorsUserParts R) (op : ImmediateOp) (i : Instruction) :
    Agrees R (executeImmediate op i : Exec δ₁ Unit) (executeImmediate op i : Exec δ₂ Unit) := by
  unfold Machine.executeImmediate
  exact .bind (hR.readRegister i.r0) fun _ => hR.commit i.r0 _

/-- Both machines decide on the same flags and jump to the same place. -/
theorem executeJump (hR : MirrorsUserParts R) (condition : Condition) (i : Instruction) :
    Agrees R (executeJump condition i : Exec δ₁ Unit) (executeJump condition i : Exec δ₂ Unit) := by
  unfold Machine.executeJump
  refine .get_bind fun first second h => ?_
  rw [hR.flags _ _ h, hR.pc h]
  exact Agrees.ite (hR.jumpTo _) (.pure _) first second h

/-- The software vectors are the only part of the vector table that instructions can notice. -/
theorem executeInterrupt (hR : MirrorsUserParts R) (i : Instruction) :
    Agrees R (executeInterrupt i : Exec δ₁ Flow) (executeInterrupt i : Exec δ₂ Flow) := by
  unfold Machine.executeInterrupt
  refine .get_bind fun first second h => ?_
  have hslot : second.vectors.softwareSlot? i.index = first.vectors.softwareSlot? i.index := by
    unfold VectorTable.softwareSlot?
    rw [hR.software _ _ h]
  rw [hslot, hR.interruptsMasked _ _ h]
  exact Agrees.check (.ite (.pure _) (.pure _)) first second h

theorem executeLoad (hR : MirrorsUserParts R) (width : Width) (i : Instruction) :
    Agrees R (executeLoad width i : Exec δ₁ Unit) (executeLoad width i : Exec δ₂ Unit) := by
  unfold Machine.executeLoad
  refine .bind (hR.requireAdmitted i.r0) fun _ => .bind (hR.readRegister i.r1) fun base => ?_
  exact .bind (hR.load width _) fun value => hR.writeRegister i.r0 value

theorem executeStore (hR : MirrorsUserParts R) (width : Width) (i : Instruction) :
    Agrees R (executeStore width i : Exec δ₁ Unit) (executeStore width i : Exec δ₂ Unit) := by
  unfold Machine.executeStore
  refine .bind (hR.readRegister i.r0) fun value => .bind (hR.readRegister i.r1) fun base => ?_
  exact hR.store width _ value

theorem push (hR : MirrorsUserParts R) (value : Word) :
    Agrees R (push value : Exec δ₁ Unit) (push value : Exec δ₂ Unit) := by
  unfold Machine.push
  refine .get_bind fun first second h => ?_
  rw [hR.sp h]
  exact Agrees.check (.bind (hR.store .word _ value) fun _ => hR.setSp _) first second h

theorem pop (hR : MirrorsUserParts R) : Agrees R (pop : Exec δ₁ Word) (pop : Exec δ₂ Word) := by
  unfold Machine.pop
  refine .get_bind fun first second h => ?_
  rw [hR.sp h]
  refine Agrees.check (.bind (hR.load .word _) fun value => ?_) first second h
  exact .bind (hR.setSp _) fun _ => .pure value

theorem callTo (hR : MirrorsUserParts R) (target : Word) :
    Agrees R (callTo target : Exec δ₁ Unit) (callTo target : Exec δ₂ Unit) := by
  unfold Machine.callTo
  refine .get_bind fun first second h => ?_
  rw [hR.pc h]
  exact Agrees.bind (hR.push first.pc) (fun _ => hR.jumpTo target) first second h

/-- All instructions that are not privileged are made of these parts. -/
theorem execute (hR : MirrorsUserParts R) {i : Instruction} (hopcode : i.opcode.isPrivileged = false) :
    Agrees R (execute i : Exec δ₁ Flow) (execute i : Exec δ₂ Flow) := by
  obtain ⟨opcode, field⟩ := i
  have next {x : Exec δ₁ Unit} {y : Exec δ₂ Unit} (h : Agrees R x y) :
      Agrees R (do x; return Flow.next) (do y; return Flow.next) :=
    .bind h fun _ => .pure _
  cases opcode with
  | nop => exact .pure _
  | move => exact .bind (hR.readRegister _) fun _ => next (hR.writeRegister _ _)
  | loadUpper => exact next (hR.writeRegister _ _)
  | loadLower => exact next (hR.writeRegister _ _)
  | load width => exact next (hR.executeLoad width _)
  | store width => exact next (hR.executeStore width _)
  | alu op => exact next (hR.executeAlu op _)
  | complement => exact .bind (hR.readRegister _) fun _ => next (hR.commit _ _)
  | immediate op => exact next (hR.executeImmediate op _)
  | compare =>
    exact .bind (hR.readRegister _) fun _ => .bind (hR.readRegister _) fun _ => next (hR.updateFlags _)
  | jump condition => exact next (hR.executeJump condition _)
  | jumpRegister => exact .bind (hR.readRegister _) fun _ => next (hR.jumpTo _)
  | call =>
    refine .get_bind fun first second h => ?_
    rw [hR.pc h]
    exact next (hR.callTo _) first second h
  | callRegister => exact .bind (hR.readRegister _) fun _ => next (hR.callTo _)
  | ret => exact .bind hR.pop fun _ => next (hR.jumpTo _)
  | interrupt => exact hR.executeInterrupt _
  | push => exact .bind (hR.readRegister _) fun _ => next (hR.push _)
  | pop =>
    exact .bind (hR.requireAdmitted _) fun _ => .bind hR.pop fun _ => next (hR.writeRegister _ _)
  | _ => cases hopcode

end MirrorsUserParts

namespace MirrorsParts

theorem requirePrivilege (hR : MirrorsParts R) :
    Agrees R (requirePrivilege : Exec δ₁ Unit) (requirePrivilege : Exec δ₂ Unit) := by
  intro first second h
  rw [run_requirePrivilege, run_requirePrivilege, hR.flags _ _ h]
  by_cases hprivileged : first.flags.privileged
  · rw [if_pos hprivileged, if_pos hprivileged]
    exact .ok h
  · rw [if_neg hprivileged, if_neg hprivileged]
    exact .error h

/-- Every instruction does the same in related machines: it succeeds or faults alike, and they are
    related again afterwards. -/
theorem execute (hR : MirrorsParts R) (i : Instruction) :
    Agrees R (execute i : Exec δ₁ Flow) (execute i : Exec δ₂ Flow) := by
  cases hopcode : i.opcode.isPrivileged with
  | false => exact hR.toMirrorsUserParts.execute hopcode
  | true =>
    obtain ⟨opcode, field⟩ := i
    have privileged {x : Exec δ₁ Flow} {y : Exec δ₂ Flow} (h : Agrees R x y) :
        Agrees R (do Machine.requirePrivilege; x) (do Machine.requirePrivilege; y) :=
      .bind hR.requirePrivilege fun _ => h
    have write (r : Register) (value : Word) :
        Agrees R (do writeRegister r value; return Flow.next : Exec δ₁ Flow)
          (do writeRegister r value; return Flow.next : Exec δ₂ Flow) :=
      .bind (hR.writeRegister r value) fun _ => .pure _
    have change {p : Machine δ₁ → Machine δ₁} {q : Machine δ₂ → Machine δ₂}
        (h : ∀ first second, R first second → R (p first) (q second)) :
        Agrees R (do modify p; return Flow.next : Exec δ₁ Flow)
          (do modify q; return Flow.next : Exec δ₂ Flow) :=
      .bind (.modify h) fun _ => .pure _
    cases opcode with
    | setWindowOffset => exact privileged (.bind (hR.readRegister _) fun _ => write _ _)
    | setWindowBound => exact privileged (.bind (hR.readRegister _) fun _ => write _ _)
    | leavePrivileged =>
      refine privileged (.bind (hR.readRegister _) fun target => ?_)
      exact .bind (.modify hR.leave) fun _ => .bind (hR.jumpTo target) fun _ => .pure _
    | maskInterrupts => exact privileged (change fun _ _ => hR.mask _ _ true)
    | unmaskInterrupts => exact privileged (change fun _ _ => hR.mask _ _ false)
    | getSavedFlags =>
      refine privileged (.get_bind fun first second h => ?_)
      rw [hR.savedFlags _ _ h]
      exact write _ _ first second h
    | getSavedPc =>
      refine privileged (.get_bind fun first second h => ?_)
      rw [hR.savedPc _ _ h]
      exact write _ _ first second h
    | setFlags =>
      exact privileged (.bind (hR.readRegister _) fun packed => change fun _ _ => hR.restore _ _ packed)
    | halt => exact privileged (.pure _)
    | kill => exact privileged (.pure _)
    | _ => cases hopcode

end MirrorsParts

end Risc32.Machine
