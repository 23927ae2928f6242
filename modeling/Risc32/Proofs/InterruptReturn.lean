import Risc32.Peripheral
import Risc32.Proofs.Exec.Succeeds
import Risc32.Proofs.Machine.Executed

namespace Risc32

namespace Register

/-- The scratch register that takes the program counter back. -/
def firstScratch : Register := ⟨29⟩

/-- The scratch register that takes the flags back. -/
def secondScratch : Register := ⟨30⟩

end Register

namespace Machine

variable {δ : Type} {interrupted entered m after : Machine δ} {i : Instruction}

/-- The instructions that end a handler: the saved program counter and flags are fetched into scratch
    registers, the flags are restored, and privileged mode is left. Other operand bits mean nothing to them. -/
def ReturnsFromTrap (instructions : List Instruction) : Prop :=
  instructions.map (fun i => (i.opcode, i.r0)) =
    [(.getSavedPc, .firstScratch), (.getSavedFlags, .secondScratch), (.setFlags, .secondScratch),
      (.leavePrivileged, .firstScratch)]

/-- The interrupted code goes on as if nothing had happened. Beside devices and the breakpoint reported last, the
    machine may differ in the registers from the window on, in the interrupt mask and in the context that the trap
    has saved. -/
structure Resumed (interrupted after : Machine δ) : Prop extends SameSetting interrupted after where
  registers : ∀ r : Register, r.index.toNat < 27 → after.registers.get r = interrupted.registers.get r
  flags : after.flags = interrupted.flags
  ram : after.ram = interrupted.ram

/-- All that the interrupted code needs to go on is still there, in its place or saved, and the running code is
    privileged to bring it back. -/
structure Intact (interrupted m : Machine δ) : Prop extends SameSetting interrupted m where
  registers : ∀ r : Register, r.index.toNat < 26 → m.registers.get r = interrupted.registers.get r
  privileged : m.flags.privileged = true
  savedPc : m.savedPc = interrupted.pc
  savedFlags : m.savedFlags = interrupted.flags.pack
  ram : m.ram = interrupted.ram

theorem returnsFromTrap_cases {instructions : List Instruction} (h : ReturnsFromTrap instructions) :
    ∃ getPc getFlags setFlags leave : Instruction, instructions = [getPc, getFlags, setFlags, leave] ∧
      (getPc.opcode = .getSavedPc ∧ getPc.r0 = .firstScratch) ∧
      (getFlags.opcode = .getSavedFlags ∧ getFlags.r0 = .secondScratch) ∧
      (setFlags.opcode = .setFlags ∧ setFlags.r0 = .secondScratch) ∧
      leave.opcode = .leavePrivileged ∧ leave.r0 = .firstScratch := by
  simp only [ReturnsFromTrap, List.map_eq_cons_iff, List.map_eq_nil_iff, Prod.mk.injEq] at h
  obtain ⟨getPc, _, rfl, hgetPc, getFlags, _, rfl, hgetFlags, setFlags, _, rfl, hsetFlags, leave, _, rfl, hleave,
    rfl⟩ := h
  exact ⟨getPc, getFlags, setFlags, leave, rfl, hgetPc, hgetFlags, hsetFlags, hleave⟩

namespace Intact

theorem fetched (h : Intact interrupted m) (hfetch : Fetched m after) : Intact interrupted after := by
  have hundisturbed := Undisturbed.of_fetched hfetch
  have hram : after.ram = m.ram := by
    obtain ⟨address, hcore⟩ := hfetch
    exact congrArg (·.ram) hcore
  exact
    { toSameSetting := IsTrans.trans _ _ _ h.toSameSetting hundisturbed.toSameSetting
      registers := fun r hr => by rw [hfetch.registers_get (Register.ne_programCounter hr), h.registers r hr]
      privileged := by rw [hfetch.flags, h.privileged]
      savedPc := hundisturbed.savedPc.trans h.savedPc
      savedFlags := hundisturbed.savedFlags.trans h.savedFlags
      ram := hram.trans h.ram }

/-- Scratch registers are at the disposal of the handler. -/
theorem setScratch (h : Intact interrupted m) {r : Register} (hr : 29 ≤ r.index.toNat) (value : Word) :
    Intact interrupted { m with registers := m.registers.set r value } :=
  { h with
    registers := fun s hs => by
      have hne : r ≠ s := by
        apply Register.ne_of_toNat_index_ne
        omega
      exact (RegisterFile.get_set_of_ne _ _ hne).trans (h.registers s hs) }

/-- So are the condition flags. -/
theorem restore (h : Intact interrupted m) (packed : Word) :
    Intact interrupted { m with flags := m.flags.restore packed } :=
  { h with }

end Intact

variable [Device δ]

namespace Intact

variable {P : Machine δ → Prop} {rest : List Instruction}

/-- Reading the saved program counter brings that of the interrupted code into the scratch register. -/
theorem leadsTo_getSavedPc (h : Intact interrupted m) (hopcode : i.opcode = .getSavedPc)
    (hr : i.r0 = .firstScratch)
    (hrest : ∀ later, Intact interrupted later → later.registers.get .firstScratch = interrupted.pc →
      LeadsTo P rest later) :
    LeadsTo P (i :: rest) m := by
  intro fetched hfetch
  have hfetched := h.fetched hfetch
  refine ⟨_, run_getSavedPc hopcode hfetched.privileged, rfl, fun later hlater => ?_⟩
  rw [hr] at hlater
  have hset := hfetched.setScratch (r := .firstScratch) (by decide) fetched.savedPc
  refine hrest later (hset.fetched (.of_sameCore hlater)) ?_
  rw [hlater.registers, ← hfetched.savedPc]
  exact RegisterFile.get_set_self _ _ (by decide)

/-- Reading the saved flags brings those of the interrupted code into the other scratch register. -/
theorem leadsTo_getSavedFlags (h : Intact interrupted m) (hopcode : i.opcode = .getSavedFlags)
    (hr : i.r0 = .secondScratch) (hpc : m.registers.get .firstScratch = interrupted.pc)
    (hrest : ∀ later, Intact interrupted later → later.registers.get .firstScratch = interrupted.pc →
      later.registers.get .secondScratch = interrupted.flags.pack → LeadsTo P rest later) :
    LeadsTo P (i :: rest) m := by
  intro fetched hfetch
  have hfetched := h.fetched hfetch
  refine ⟨_, run_getSavedFlags hopcode hfetched.privileged, rfl, fun later hlater => ?_⟩
  rw [hr] at hlater
  have hset := hfetched.setScratch (r := .secondScratch) (by decide) fetched.savedFlags
  refine hrest later (hset.fetched (.of_sameCore hlater)) ?_ ?_
  · rw [hlater.registers, ← hpc, ← hfetch.registers_get (by decide)]
    exact RegisterFile.get_set_of_ne _ _ (by decide)
  · rw [hlater.registers, ← hfetched.savedFlags]
    exact RegisterFile.get_set_self _ _ (by decide)

/-- Restoring the flags brings back those of the interrupted code, but not yet its privilege. -/
theorem leadsTo_setFlags (h : Intact interrupted m) (hopcode : i.opcode = .setFlags)
    (hr : i.r0 = .secondScratch) (hpc : m.registers.get .firstScratch = interrupted.pc)
    (hflags : m.registers.get .secondScratch = interrupted.flags.pack)
    (hrest : ∀ later, Intact interrupted later → later.registers.get .firstScratch = interrupted.pc →
      later.flags = { interrupted.flags with privileged := true } → LeadsTo P rest later) :
    LeadsTo P (i :: rest) m := by
  intro fetched hfetch
  have hfetched := h.fetched hfetch
  refine ⟨_, run_setFlags hopcode hfetched.privileged, rfl, fun later hlater => ?_⟩
  refine hrest later ((hfetched.restore _).fetched (.of_sameCore hlater)) ?_ ?_
  · rw [hlater.registers, ← hpc]
    exact hfetch.registers_get (by decide)
  · have hpacked : fetched.registers.get .secondScratch = interrupted.flags.pack := by
      rw [hfetch.registers_get (by decide), hflags]
    rw [hr, hpacked, Flags.restore_pack, hfetched.privileged] at hlater
    exact congrArg (·.flags) hlater

/-- Leaving privileged mode resumes the interrupted code, if that is user code. -/
theorem leadsTo_leave (h : Intact interrupted m) (huser : interrupted.flags.privileged = false)
    (hopcode : i.opcode = .leavePrivileged) (hr : i.r0 = .firstScratch)
    (hpc : m.registers.get .firstScratch = interrupted.pc)
    (hflags : m.flags = { interrupted.flags with privileged := true }) :
    LeadsTo (Resumed interrupted) [i] m := by
  intro fetched hfetch
  have hfetched := h.fetched hfetch
  refine ⟨_, run_leavePrivileged hopcode hfetched.privileged, rfl, fun later hlater => ?_⟩
  rw [hr, hfetch.registers_get (by decide), hpc, hfetch.flags, hflags] at hlater
  have hback : { interrupted.flags with privileged := false } = interrupted.flags := by rw [← huser]
  have hsetting : SameSetting fetched later := { SameSetting.of_sameCore hlater with }
  exact
    { toSameSetting := IsTrans.trans _ _ _ hfetched.toSameSetting hsetting
      registers := fun r hr => by
        rw [hlater.registers]
        by_cases hcounter : r = .programCounter
        · rw [hcounter]
          exact RegisterFile.get_set_self _ _ (by decide)
        · have hindex : r.index.toNat ≠ 26 := fun heq => hcounter (Register.eq_of_toNat_index_eq heq)
          exact (RegisterFile.get_set_of_ne _ _ (Ne.symm hcounter)).trans (hfetched.registers r (by omega))
      flags := (congrArg (·.flags) hlater).trans hback
      ram := (congrArg (·.ram) hlater).trans hfetched.ram }

/-- The four instructions bring the interrupted code back, one part of it after the other. -/
theorem leadsTo_resumed (h : Intact interrupted m) (huser : interrupted.flags.privileged = false)
    {returning : List Instruction} (hreturning : ReturnsFromTrap returning) :
    LeadsTo (Resumed interrupted) returning m := by
  obtain ⟨getPc, getFlags, setFlags, leave, rfl, hgetPc, hgetFlags, hsetFlags, hleave⟩ :=
    returnsFromTrap_cases hreturning
  refine h.leadsTo_getSavedPc hgetPc.1 hgetPc.2 fun first hfirst hpc => ?_
  refine hfirst.leadsTo_getSavedFlags hgetFlags.1 hgetFlags.2 hpc fun second hsecond hpc hflags => ?_
  refine hsecond.leadsTo_setFlags hsetFlags.1 hsetFlags.2 hpc hflags fun third hthird hpc hrestored => ?_
  exact hthird.leadsTo_leave huser hleave.1 hleave.2 hpc hrestored

/-- A handler that has put back what it has used has left the interrupted code intact: trap entry has saved
    the rest, and executing instructions without a trap does not touch what is saved. -/
theorem of_handler {cause : TrapCause} {handler : Word} {body : List Instruction}
    (hentry : (enterTrap cause).run interrupted = .ok handler entered) (hbody : Executed entered body m)
    (hprivileged : m.flags.privileged = true)
    (hregisters : ∀ r : Register, r.index.toNat < 26 → m.registers.get r = entered.registers.get r)
    (hram : m.ram = entered.ram) : Intact interrupted m := by
  have hcore := (enterTrap_ok hentry).1
  have hsaved := enterTrap_saves hentry
  have hundisturbed := hbody.undisturbed
  have hsetting : SameSetting interrupted entered := { SameSetting.of_sameCore hcore with }
  exact
    { toSameSetting := IsTrans.trans _ _ _ hsetting hundisturbed.toSameSetting
      registers := fun r hr => by
        obtain ⟨hoffset, hbound⟩ := Register.ne_window (r := r) (by omega)
        rw [hregisters r hr, hcore.registers, ← interrupted.saveContext_registers_get hoffset hbound]
        exact RegisterFile.get_set_of_ne _ _ (Register.ne_programCounter hr).symm
      privileged := hprivileged
      savedPc := hundisturbed.savedPc.trans hsaved.2.1
      savedFlags := hundisturbed.savedFlags.trans hsaved.2.2
      ram := hram.trans (congrArg (·.ram) hcore) }

end Intact

/-- A trap of user code whose handler returns leaves no trace in it, whatever the cause of the trap. The body of
    the handler may be any instructions that raise no trap and are executed in privileged mode, if it leaves
    registers 0 to 25 and main memory as it has found them in the end; nothing is asked of the interrupt mask,
    of the window or of devices. The four instructions that return then succeed, wherever they lie, and the user
    code goes on where it was interrupted; so it does after four steps that get to execute them. -/
theorem interrupt_return_transparent {cause : TrapCause} {handler : Word} {body returning : List Instruction}
    (huser : interrupted.flags.privileged = false)
    (hentry : (enterTrap cause).run interrupted = .ok handler entered) (hbody : Executed entered body m)
    (hprivileged : m.flags.privileged = true)
    (hregisters : ∀ r : Register, r.index.toNat < 26 → m.registers.get r = entered.registers.get r)
    (hram : m.ram = entered.ram) (hreturning : ReturnsFromTrap returning) :
    LeadsTo (Resumed interrupted) returning m ∧
      ∀ honorBreakpoints, StepsThrough honorBreakpoints returning m →
        (m.trace honorBreakpoints returning.length).1 =
            returning.map (fun i => .retired i.opcode i.opcode.cycles) ∧
          Resumed interrupted (m.trace honorBreakpoints returning.length).2 := by
  have hintact := Intact.of_handler hentry hbody hprivileged hregisters hram
  have hreturns := hintact.leadsTo_resumed huser hreturning
  exact ⟨hreturns, fun honorBreakpoints hsteps => hreturns.trace hsteps⟩

/-- A division by zero at address 56, where two condition flags are set. The handler at address 64 changes
    register 31 and returns, step by step. -/
theorem interrupt_return_transparent_divided :
    let code : List Byte :=
      [0x03, 0xF8, 0x00, 0x28, 0x56, 0xE8, 0x00, 0x00, 0x55, 0xF0, 0x00, 0x00, 0x57, 0xF0, 0x00, 0x00,
        0x52, 0xE8, 0x00, 0x00]
    let interrupted : Machine Peripheral :=
      { (assemble .standard ⟨0, 1, 1⟩ (((Memory.zeros 96).put 27 64).putAll 64 code) (Memory.zeros 0)).setPc 56
        with flags := { zero := true, overflow := true } }
    ∃ entered, (enterTrap (.fault .divideByZero)).run interrupted = .ok 64 entered ∧
      (entered.trace true 5).1 =
        [.retired .loadLower 1, .retired .getSavedPc 1, .retired .getSavedFlags 1, .retired .setFlags 1,
          .retired .leavePrivileged 1] ∧
      Resumed interrupted (entered.trace true 5).2 := by
  intro code interrupted
  let start := (interrupted.trap (.fault .divideByZero) 0).2
  have hentry : (enterTrap (.fault .divideByZero)).run interrupted = .ok 64 start := by
    obtain ⟨handler, entered, hrun⟩ : Succeeds (enterTrap (.fault .divideByZero)) interrupted := by
      decide +kernel
    have hstart : start = entered := by simp only [start, trap, hrun]
    have hhandler : start.pc = handler := by
      rw [hstart, pc, (enterTrap_ok hrun).1.registers]
      exact pc_setPc _ _
    have hpc : start.pc = 64 := by decide +kernel
    rw [hrun, hstart, ← hhandler, hpc]
  obtain ⟨houtcome, hprivileged, hram, hregisters⟩ : (start.step true).1 = .retired .loadLower 1 ∧
      (start.step true).2.flags.privileged = true ∧ (start.step true).2.ram = start.ram ∧
      (start.step true).2.registers = (start.registers.setPc 68).set ⟨31⟩ 5 := by
    decide +kernel
  obtain ⟨body, hbody⟩ := Executed.step (.start (Std.Refl.refl start)) true (by rw [houtcome]; rfl)
  have hkept : ∀ r : Register, r.index.toNat < 26 →
      (start.step true).2.registers.get r = start.registers.get r := by
    intro r hr
    have hscratch : ⟨31⟩ ≠ r := Register.ne_of_toNat_index_ne (show 31 ≠ r.index.toNat by omega)
    rw [hregisters, RegisterFile.get_set_of_ne _ _ hscratch]
    exact RegisterFile.get_set_of_ne _ _ (Register.ne_programCounter hr).symm
  let returning : List Instruction :=
    [⟨.getSavedPc, 0xE80000⟩, ⟨.getSavedFlags, 0xF00000⟩, ⟨.setFlags, 0xF00000⟩, ⟨.leavePrivileged, 0xE80000⟩]
  have hreturning : ReturnsFromTrap returning := rfl
  have hsteps : StepsThrough true returning (start.step true).2 := by decide +kernel
  obtain ⟨-, hreturns⟩ := interrupt_return_transparent rfl hentry hbody hprivileged hkept hram hreturning
  obtain ⟨houtcomes, hresumed⟩ := hreturns true hsteps
  -- The trace is opened by its first step only: a unifier that unfolds all of it runs the machine.
  have hlength : returning.length = 4 := rfl
  rw [hlength] at houtcomes hresumed
  refine ⟨start, hentry, ?_⟩
  rw [start.trace_succ true 4, houtcome]
  dsimp only
  rw [houtcomes]
  exact ⟨rfl, hresumed⟩

end Machine

end Risc32
