import Risc32.Peripheral
import Risc32.Proofs.Machine.Effects
import Risc32.Proofs.Machine.Execution
import Risc32.Proofs.Machine.Privileged
import Risc32.Proofs.Machine.Reachable

namespace Risc32

/-- Whether the operation leaves the interrupt mask and the saved context alone. Of what a host can do
    beside stepping, only entering a trap and booting do not. -/
def Operation.keepsContext {δ : Type} : Operation δ → Bool
  | step _ | enterTrap _ | boot => false
  | _ => true

/-- No instruction that unmasks interrupts has retired. -/
def NoneUnmasks (outcomes : List Outcome) : Prop :=
  ∀ cycles, .retired .unmaskInterrupts cycles ∉ outcomes

theorem noneUnmasks_append {outcomes : List Outcome} {outcome : Outcome} :
    NoneUnmasks (outcomes ++ [outcome]) ↔
      NoneUnmasks outcomes ∧ ∀ cycles, outcome ≠ .retired .unmaskInterrupts cycles := by
  simp only [NoneUnmasks, List.mem_append, List.mem_singleton, not_or, forall_and, ne_eq, eq_comm]

namespace Machine

variable {δ : Type}

/-- The parts of a machine that protect the trapped context, and the context itself. -/
structure SameContext (before after : Machine δ) : Prop where
  interruptsMasked : after.interruptsMasked = before.interruptsMasked
  savedPc : after.savedPc = before.savedPc
  savedFlags : after.savedFlags = before.savedFlags

namespace SameContext

variable {before middle after : Machine δ}

instance : Std.Refl (SameContext : Machine δ → Machine δ → Prop) where
  refl _ := ⟨rfl, rfl, rfl⟩

theorem trans (hfirst : SameContext before middle) (hsecond : SameContext middle after) :
    SameContext before after where
  interruptsMasked := hsecond.interruptsMasked.trans hfirst.interruptsMasked
  savedPc := hsecond.savedPc.trans hfirst.savedPc
  savedFlags := hsecond.savedFlags.trans hfirst.savedFlags

theorem of_sameCore (h : SameCore before after) : SameContext before after :=
  ⟨congrArg (·.interruptsMasked) h, congrArg (·.savedPc) h, congrArg (·.savedFlags) h⟩

theorem of_storesInWindow (h : StoresInWindow before after) : SameContext before after :=
  ⟨congrArg (·.interruptsMasked) h.rest, congrArg (·.savedPc) h.rest, congrArg (·.savedFlags) h.rest⟩

end SameContext

variable [Device δ]

theorem writePhysicalByte_sameContext (address : Word) (value : Byte) :
    Keeps SameContext (writePhysicalByte address value : Exec δ Unit) :=
  writePhysicalByte_keeps_of (fun _ => ⟨rfl, rfl, rfl⟩) (fun _ => ⟨rfl, rfl, rfl⟩) fun _ => ⟨rfl, rfl, rfl⟩

/-- No operation that keeps the context reaches it, not even by way of a device. -/
theorem operate_sameContext (m : Machine δ) {operation : Operation δ}
    (h : operation.keepsContext = true) : SameContext m (m.operate operation) := by
  cases operation with
  | step honorBreakpoints => cases h
  | enterTrap cause => cases h
  | boot => cases h
  | loadImage image =>
    simp only [operate, loadImage]
    cases m.ram.write 0 image <;> exact ⟨rfl, rfl, rfl⟩
  | loadRom image =>
    simp only [operate, loadRom]
    cases m.rom.write 0 image <;> exact ⟨rfl, rfl, rfl⟩
  | readByte address => exact .of_sameCore (afterRun_of_keeps (Machine.readByte_keeps address) m)
  | writeByte address value =>
    exact .of_storesInWindow (afterRun_of_keeps (Machine.writeByte_keeps address value) m)
  | readWord address => exact .of_sameCore (afterRun_of_keeps (Machine.readWord_keeps address) m)
  | writeWord address value =>
    exact .of_storesInWindow (afterRun_of_keeps (Machine.writeWord_keeps address value) m)
  | readPhysicalByte address =>
    exact .of_sameCore (afterRun_of_keeps (Machine.readPhysicalByte_keeps address) m)
  | writePhysicalByte address value =>
    exact afterRun_of_keeps (writePhysicalByte_sameContext address value) m
  | readPhysicalWord address =>
    exact .of_sameCore (afterRun_of_keeps (Machine.readPhysicalWord_keeps address) m)
  | _ => exact ⟨rfl, rfl, rfl⟩

/-- A run of steps, with the outcomes of its steps in order. Between them the host may do anything that
    keeps the context, such as raising interrupts. -/
inductive StepRun (start : Machine δ) : List Outcome → Machine δ → Prop
  | start : StepRun start [] start
  | step {outcomes : List Outcome} {m : Machine δ} (h : StepRun start outcomes m)
    (honorBreakpoints : Bool) :
    StepRun start (outcomes ++ [(m.step honorBreakpoints).1]) (m.step honorBreakpoints).2
  | operate {outcomes : List Outcome} {m : Machine δ} (h : StepRun start outcomes m)
    (operation : Operation δ) (hkeeps : operation.keepsContext = true) :
    StepRun start outcomes (m.operate operation)

/-- What a step is that starts with interrupts masked: it unmasks them only by retiring the instruction
    for that, the only traps that it can come to need are faults, and without one the saved context
    stays. -/
structure MaskedStep (m : Machine δ) (honorBreakpoints : Bool) : Prop where
  masked : (∀ cycles, (m.step honorBreakpoints).1 ≠ .retired .unmaskInterrupts cycles) →
    (m.step honorBreakpoints).2.interruptsMasked = true
  due : (m.step honorBreakpoints).1.entersTrap = true →
    ∃ fault cycles, (m.attempt honorBreakpoints).1 = .trap (.fault fault) cycles
  saved : (m.step honorBreakpoints).1.entersTrap = false →
    (m.step honorBreakpoints).2.savedPc = m.savedPc ∧
      (m.step honorBreakpoints).2.savedFlags = m.savedFlags

/-- An instruction that succeeds leaves what has been saved, and unmasks interrupts only if that is what
    it is for. -/
theorem execute_context {i : Instruction} {m after : Machine δ} {flow : Flow}
    (hmasked : m.interruptsMasked = true) (hrun : (execute i).run m = .ok flow after) :
    after.savedPc = m.savedPc ∧ after.savedFlags = m.savedFlags ∧
      (i.opcode ≠ .unmaskInterrupts → after.interruptsMasked = true) := by
  have hwithin := execute_within hrun
  refine ⟨hwithin.savedPc, hwithin.savedFlags, fun hopcode => ?_⟩
  obtain ⟨opcode, field⟩ := i
  cases opcode with
  | unmaskInterrupts => exact absurd rfl hopcode
  | maskInterrupts =>
    obtain ⟨_, s, -, hmask⟩ := run_bind_eq_ok_iff.1 hrun
    cases hmask
    rfl
  | _ => exact (hwithin.interruptsMasked rfl).trans hmasked

/-- With interrupts masked no instruction asks for one. -/
theorem execute_masked {i : Instruction} {m after : Machine δ} {index : Word}
    (hmasked : m.interruptsMasked = true) : (execute i).run m ≠ .ok (.softwareInterrupt index) after := by
  intro hrun
  obtain hflow | ⟨hflow, -⟩ | ⟨hflow, -⟩ | ⟨-, -, hopcode⟩ := execute_flow hrun
  · cases hflow
  · cases hflow
  · cases hflow
  · obtain ⟨opcode, field⟩ := i
    subst hopcode
    have hinterrupt : (executeInterrupt ⟨.interrupt, field⟩).run m = .ok (.softwareInterrupt index) after :=
      hrun
    rw [run_executeInterrupt, hmasked] at hinterrupt
    split at hinterrupt
    · cases hinterrupt
    · cases hinterrupt

/-- What a step comes to that starts with interrupts masked: it needs a trap for a fault, or it leaves
    the context alone. -/
theorem attempt_masked {m : Machine δ} (hmasked : m.interruptsMasked = true) (honorBreakpoints : Bool) :
    (∃ fault cycles, (m.attempt honorBreakpoints).1 = .trap (.fault fault) cycles) ∨
      (∀ cause cycles, (m.attempt honorBreakpoints).1 ≠ .trap cause cycles) ∧
      (m.attempt honorBreakpoints).2.savedPc = m.savedPc ∧
      (m.attempt honorBreakpoints).2.savedFlags = m.savedFlags ∧
      ((∀ cycles, (m.attempt honorBreakpoints).1 ≠ .retired .unmaskInterrupts cycles) →
        (m.attempt honorBreakpoints).2.interruptsMasked = true) := by
  have hattempted := m.attempted honorBreakpoints
  generalize m.attempt honorBreakpoints = taken at hattempted
  cases hattempted with
  | interrupt hpoll =>
    rw [pollInterrupt_of_masked hmasked] at hpoll
    cases hpoll
  | breakpoint hpoll hhonor =>
    have hkept := SameContext.of_sameCore m.pollInterrupt_sameCore
    exact .inr ⟨fun _ _ => by simp, hkept.savedPc, hkept.savedFlags, fun _ =>
      hkept.interruptsMasked.trans hmasked⟩
  | fetchFault => exact .inl ⟨_, _, rfl⟩
  | illegal => exact .inl ⟨_, _, rfl⟩
  | @executed word s i _ hpoll hfetch hword hexecute =>
    have hfetched : SameContext m (m.afterFetch word s) :=
      (SameContext.mk rfl rfl rfl : SameContext m (m.setPc (m.pc + 4))).trans
        (.of_sameCore (afterFetch_sameCore hfetch))
    have hstill := hfetched.interruptsMasked.trans hmasked
    subst hexecute
    unfold attemptInstruction
    cases hrun : (execute i).run (m.afterFetch word s) with
    | error fault after => exact .inl ⟨_, _, rfl⟩
    | ok flow after =>
      obtain ⟨hsavedPc, hsavedFlags, hunmasked⟩ := execute_context hstill hrun
      have hsaved : after.savedPc = m.savedPc ∧ after.savedFlags = m.savedFlags :=
        ⟨hsavedPc.trans hfetched.savedPc, hsavedFlags.trans hfetched.savedFlags⟩
      have hnext (hopcode : i.opcode = .unmaskInterrupts) : flow = .next := by
        obtain hflow | ⟨-, hhalt⟩ | ⟨-, hkill⟩ | ⟨-, -, hinterrupt⟩ := execute_flow hrun
        · exact hflow
        · cases hopcode.symm.trans hhalt
        · cases hopcode.symm.trans hkill
        · cases hopcode.symm.trans hinterrupt
      cases flow with
      | softwareInterrupt index => exact absurd hrun (execute_masked hstill)
      | next =>
        refine .inr ⟨fun _ _ => by simp, hsaved.1, hsaved.2, fun hcli => hunmasked fun hopcode => ?_⟩
        exact hcli i.opcode.cycles (congrArg (Attempt.retired · i.opcode.cycles) hopcode)
      | halt =>
        refine .inr ⟨fun _ _ => by simp, hsaved.1, hsaved.2, fun _ => hunmasked fun hopcode => ?_⟩
        cases hnext hopcode
      | kill =>
        refine .inr ⟨fun _ _ => by simp, hsaved.1, hsaved.2, fun _ => hunmasked fun hopcode => ?_⟩
        cases hnext hopcode

/-- Entering a trap masks interrupts, whether or not a handler is found. -/
theorem trap_masks (m : Machine δ) (cause : TrapCause) (cycles : Nat) :
    (m.trap cause cycles).1.entersTrap = true ∧ (m.trap cause cycles).2.interruptsMasked = true := by
  unfold trap
  cases hrun : (enterTrap cause).run m with
  | ok handler after => exact ⟨rfl, congrArg (·.interruptsMasked) (enterTrap_ok hrun).1⟩
  | error error after => exact ⟨rfl, congrArg (·.interruptsMasked) (enterTrap_error hrun)⟩

theorem step_masked {m : Machine δ} (hmasked : m.interruptsMasked = true) (honorBreakpoints : Bool) :
    MaskedStep m honorBreakpoints := by
  have houtcome := m.step_fst honorBreakpoints
  have hticked := SameContext.of_sameCore (m.step_sameCore honorBreakpoints)
  obtain ⟨fault, cycles, htrap⟩ | ⟨hgoesOn, hsavedPc, hsavedFlags, hunmasked⟩ :=
    attempt_masked hmasked honorBreakpoints
  · obtain ⟨henters, hmasks⟩ := (m.attempt honorBreakpoints).2.trap_masks (.fault fault) cycles
    have hconclude : conclude (m.attempt honorBreakpoints) =
        (m.attempt honorBreakpoints).2.trap (.fault fault) cycles := by
      rw [← Prod.eta (m.attempt honorBreakpoints), htrap]
      rfl
    rw [hconclude] at houtcome hticked
    refine ⟨fun _ => hticked.interruptsMasked.trans hmasks, fun _ => ⟨fault, cycles, htrap⟩, fun hplain => ?_⟩
    rw [houtcome, henters] at hplain
    cases hplain
  · obtain ⟨hsame, hplain, hretired⟩ := conclude_goesOn hgoesOn
    rw [hsame] at hticked
    refine ⟨fun hcli => ?_, fun henters => ?_, fun _ => ?_⟩
    · refine hticked.interruptsMasked.trans (hunmasked fun cycles hattempt => hcli cycles ?_)
      exact houtcome.trans ((hretired _ _).2 hattempt)
    · rw [houtcome, hplain] at henters
      cases henters
    · exact ⟨hticked.savedPc.trans hsavedPc, hticked.savedFlags.trans hsavedFlags⟩

/-- A step retires the instruction that it executes when that goes on. -/
theorem step_retires {m s after : Machine δ} {honorBreakpoints : Bool} {i : Instruction}
    (hattempt : m.attempt honorBreakpoints = s.attemptInstruction i)
    (hrun : (execute i).run s = .ok .next after) :
    (m.step honorBreakpoints).1 = .retired i.opcode i.opcode.cycles ∧
      SameCore after (m.step honorBreakpoints).2 := by
  have htaken : m.attempt honorBreakpoints = (.retired i.opcode i.opcode.cycles, after) := by
    rw [hattempt, attemptInstruction, hrun]
  have houtcome := m.step_fst honorBreakpoints
  have hticked := m.step_sameCore honorBreakpoints
  rw [htaken] at houtcome hticked
  exact ⟨houtcome, hticked⟩

/-- A trap entry that finds its handler has saved the context and masked interrupts. -/
theorem enterTrap_saves {cause : TrapCause} {entry after : Machine δ} {handler : Word}
    (hrun : (enterTrap cause).run entry = .ok handler after) :
    after.interruptsMasked = true ∧ after.savedPc = entry.pc ∧ after.savedFlags = entry.flags.pack := by
  have hcore := (enterTrap_ok hrun).1
  exact ⟨congrArg (·.interruptsMasked) hcore, congrArg (·.savedPc) hcore, congrArg (·.savedFlags) hcore⟩

namespace StepRun

variable {start m : Machine δ} {outcomes : List Outcome}

/-- Interrupts stay masked along a run in which no instruction unmasks them. The induction is on the
    run. -/
theorem masked (hrun : StepRun start outcomes m) (hmasked : start.interruptsMasked = true)
    (hnone : NoneUnmasks outcomes) : m.interruptsMasked = true := by
  induction hrun with
  | start => exact hmasked
  | step _ honorBreakpoints ih =>
    obtain ⟨hbefore, hlast⟩ := noneUnmasks_append.1 hnone
    exact (step_masked (ih hbefore) honorBreakpoints).masked hlast
  | operate _ operation hkeeps ih =>
    exact (operate_sameContext _ hkeeps).interruptsMasked.trans (ih hnone)

/-- Without a fault, such a run leaves what has been saved. -/
theorem saved (hrun : StepRun start outcomes m) (hmasked : start.interruptsMasked = true)
    (hnone : NoneUnmasks outcomes) (hplain : ∀ outcome ∈ outcomes, outcome.entersTrap = false) :
    m.savedPc = start.savedPc ∧ m.savedFlags = start.savedFlags := by
  induction hrun with
  | start => exact ⟨rfl, rfl⟩
  | @operate _ before _ operation hkeeps ih =>
    obtain ⟨hsavedPc, hsavedFlags⟩ := ih hnone hplain
    have hkept := before.operate_sameContext hkeeps
    exact ⟨hkept.savedPc.trans hsavedPc, hkept.savedFlags.trans hsavedFlags⟩
  | step hrun honorBreakpoints ih =>
    obtain ⟨hbefore, -⟩ := noneUnmasks_append.1 hnone
    have hstep := step_masked (hrun.masked hmasked hbefore) honorBreakpoints
    obtain ⟨hsavedPc, hsavedFlags⟩ := ih hbefore fun outcome hmem => hplain outcome (List.mem_append_left _ hmem)
    obtain ⟨hkeptPc, hkeptFlags⟩ :=
      hstep.saved (hplain _ (List.mem_append_right _ (List.mem_singleton_self _)))
    exact ⟨hkeptPc.trans hsavedPc, hkeptFlags.trans hsavedFlags⟩

end StepRun

end Machine

end Risc32
