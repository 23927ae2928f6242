import Risc32.Proofs.Machine.Vectors

namespace Risc32

namespace Machine

variable {δ : Type}

/-- Memory outside the window is as it was. The window is that of the earlier machine. -/
structure MemoryConfined (before after : Machine δ) : Prop where
  ram : ∀ address : Word, before.windowSize ≤ (address - before.registers.get .windowOffset).toNat →
    after.ram.get? address.toNat = before.ram.get? address.toNat
  ramSize : after.ram.size = before.ram.size
  rom : after.rom = before.rom

/-- The machine still executes user code, and all that such code must not change is as it was. -/
structure UserConfined (before after : Machine δ) : Prop extends MemoryConfined before after where
  user : after.flags.privileged = false
  registers : ∀ r : Register, 27 ≤ r.index.toNat → after.registers.get r = before.registers.get r
  interruptsMasked : after.interruptsMasked = before.interruptsMasked
  savedPc : after.savedPc = before.savedPc
  savedFlags : after.savedFlags = before.savedFlags

namespace UserConfined

variable {before middle after : Machine δ}

theorem refl {m : Machine δ} (huser : m.flags.privileged = false) : UserConfined m m where
  ram _ _ := rfl
  ramSize := rfl
  rom := rfl
  user := huser
  registers _ _ := rfl
  interruptsMasked := rfl
  savedPc := rfl
  savedFlags := rfl

/-- The registers of the window are among those that stay, so it is the same window afterwards. -/
theorem memory_trans (hfirst : UserConfined before middle) (hsecond : MemoryConfined middle after) :
    MemoryConfined before after where
  ram address haddress := by
    have hoffset := hfirst.registers .windowOffset (by simp)
    have hbound := hfirst.registers .windowBound (by simp)
    have hsize : middle.windowSize = before.windowSize := by
      unfold windowSize
      rw [hbound]
    have hmiddle := hsecond.ram address (by rwa [hsize, hoffset])
    exact hmiddle.trans (hfirst.ram address haddress)
  ramSize := hsecond.ramSize.trans hfirst.ramSize
  rom := hsecond.rom.trans hfirst.rom

theorem trans (hfirst : UserConfined before middle) (hsecond : UserConfined middle after) :
    UserConfined before after where
  toMemoryConfined := hfirst.memory_trans hsecond.toMemoryConfined
  user := hsecond.user
  registers r hr := (hsecond.registers r hr).trans (hfirst.registers r hr)
  interruptsMasked := hsecond.interruptsMasked.trans hfirst.interruptsMasked
  savedPc := hsecond.savedPc.trans hfirst.savedPc
  savedFlags := hsecond.savedFlags.trans hfirst.savedFlags

theorem of_storesInWindow (h : StoresInWindow before after) (huser : before.flags.privileged = false) :
    UserConfined before after where
  ram address haddress := h.outside address (by unfold InWindow; omega)
  ramSize := h.size
  rom := congrArg (·.rom) h.rest
  user := (congrArg (·.flags.privileged) h.rest).trans huser
  registers r _ := by rw [h.registers]
  interruptsMasked := congrArg (·.interruptsMasked) h.rest
  savedPc := congrArg (·.savedPc) h.rest
  savedFlags := congrArg (·.savedFlags) h.rest

end UserConfined

/-- What privileged code does is not restricted. -/
def ConfinedIfUser (before after : Machine δ) : Prop :=
  before.flags.privileged = false → UserConfined before after

namespace ConfinedIfUser

instance : IsPreorder (Machine δ) ConfinedIfUser where
  refl _ huser := .refl huser
  trans _ _ _ hfirst hsecond huser := (hfirst huser).trans (hsecond (hfirst huser).user)

/-- A register that user code may name is none of those that it must not change. -/
theorem register (m : Machine δ) (r : Register) (value : Word)
    (hadmits : RegisterFile.admits m.flags.privileged r = true) :
    ConfinedIfUser m { m with registers := m.registers.set r value } := by
  intro huser
  have hr : r.isPrivileged = false := by simpa [RegisterFile.admits, huser] using hadmits
  refine { UserConfined.refl huser with registers := fun other hother => ?_ }
  have hne : r ≠ other := by
    rintro rfl
    rw [Register.isPrivileged_iff.2 hother] at hr
    cases hr
  exact RegisterFile.get_set_of_ne m.registers value hne

theorem allowsUserEffects : AllowsUserEffects (δ := δ) ConfinedIfUser where
  core _ _ h huser := .of_storesInWindow h.storesInWindow huser
  store _ _ h huser := .of_storesInWindow h huser
  register := register
  flags m update huser := by
    have hprivileged := FlagsUpdate.apply_privileged m.flags update
    exact { UserConfined.refl huser with user := hprivileged.trans huser }

variable [Device δ]

/-- No instruction of user code changes what such code must not change: the privileged ones are refused
    before they do anything. -/
theorem execute (i : Instruction) : Keeps ConfinedIfUser (execute i : Exec δ Flow) := by
  cases hopcode : i.opcode.isPrivileged with
  | false => exact allowsUserEffects.parts.execute hopcode
  | true =>
    apply Keeps.of_run
    · intro m flow after hrun huser
      rw [execute_refused hopcode huser] at hrun
      cases hrun
    · intro m fault after hrun huser
      rw [execute_refused hopcode huser] at hrun
      cases hrun
      exact .refl huser

end ConfinedIfUser

/-- Saving the context leaves the memories and the scratch registers alone. -/
theorem saveContext_confined (m : Machine δ) :
    MemoryConfined m m.saveContext ∧
      ∀ r : Register, 29 ≤ r.index.toNat → m.saveContext.registers.get r = m.registers.get r := by
  refine ⟨⟨fun _ _ => rfl, rfl, rfl⟩, fun r hr => ?_⟩
  obtain ⟨-, hoffset, hbound⟩ := Register.scratch_ne hr
  exact m.saveContext_registers_get hoffset hbound

/-- The program counter is the handler that the vector table names for a cause that arose in user code:
    the word of its slot or, when that is empty, the word of the fallback. -/
structure AtHandler (config : Config) (m : Machine δ) (cause : TrapCause) : Prop where
  nonzero : m.pc ≠ 0
  vector : config.vector? m.ram (config.slotOf false cause) = some m.pc ∨
    config.vector? m.ram (config.slotOf false cause) = some 0 ∧
      config.vector? m.ram (Config.fallbackOf cause) = some m.pc

/-- What a step of user code can come to. It never stops the machine. Without a trap it remains user
    code, and everything that such code must not change is as it was; with one, the machine is in the
    hands of the handler. -/
structure UserStep (config : Config) (before : Machine δ) (outcome : Outcome) (after : Machine δ) :
    Prop where
  goesOn : ∀ cycles, outcome ≠ .halted cycles ∧ outcome ≠ .killed cycles
  memory : MemoryConfined before after
  scratch : ∀ r : Register, 29 ≤ r.index.toNat → after.registers.get r = before.registers.get r
  confined : outcome.entersTrap = false → UserConfined before after
  raised : after.flags.privileged = true →
    (∃ cause cycles, outcome = .trapped cause cycles ∧ AtHandler config after cause) ∨
    ∃ error, outcome = .aborted error

namespace UserStep

variable {config : Config} {before middle after : Machine δ} {outcome : Outcome}

/-- A step that ends in no trap is one that confines. -/
theorem of_confined (h : UserConfined before after)
    (hgoesOn : ∀ cycles, outcome ≠ .halted cycles ∧ outcome ≠ .killed cycles) :
    UserStep config before outcome after where
  goesOn := hgoesOn
  memory := h.toMemoryConfined
  scratch r hr := h.registers r (by omega)
  confined _ := h
  raised hraised := by
    rw [h.user] at hraised
    cases hraised

/-- What has been confined before a step adds nothing to it. -/
theorem trans (hfirst : UserConfined before middle) (h : UserStep config middle outcome after) :
    UserStep config before outcome after where
  goesOn := h.goesOn
  memory := hfirst.memory_trans h.memory
  scratch r hr := (h.scratch r hr).trans (hfirst.registers r (by omega))
  confined houtcome := hfirst.trans (h.confined houtcome)
  raised := h.raised

/-- Neither does what follows it, as long as it is not part of the core. -/
theorem trans_sameCore (h : UserStep config before outcome middle) (hcore : SameCore middle after) :
    UserStep config before outcome after where
  goesOn := h.goesOn
  memory := by
    have hram : after.ram = middle.ram := congrArg (·.ram) hcore
    have hrom : after.rom = middle.rom := congrArg (·.rom) hcore
    refine ⟨fun address haddress => ?_, ?_, hrom.trans h.memory.rom⟩
    · rw [hram, h.memory.ram address haddress]
    · rw [hram, h.memory.ramSize]
  scratch r hr := by rw [hcore.registers, h.scratch r hr]
  confined houtcome := by
    have hmiddle := h.confined houtcome
    exact hmiddle.trans (.of_storesInWindow hcore.storesInWindow hmiddle.user)
  raised hraised := by
    have hprivileged : middle.flags.privileged = true :=
      (congrArg (·.flags.privileged) hcore).symm.trans hraised
    have hpc : after.pc = middle.pc := congrArg (·.pc) hcore
    have hram : after.ram = middle.ram := congrArg (·.ram) hcore
    obtain ⟨cause, cycles, houtcome, hhandler⟩ | haborted := h.raised hprivileged
    · refine .inl ⟨cause, cycles, houtcome, ?_⟩
      constructor
      · rw [hpc]
        exact hhandler.nonzero
      · rw [hpc, hram]
        exact hhandler.vector
    · exact .inr haborted

end UserStep

variable [Device δ] {config : Config} {m : Machine δ}

theorem attempt_confined (huser : m.flags.privileged = false) (honorBreakpoints : Bool) :
    UserConfined m (m.attempt honorBreakpoints).2 :=
  attempt_keeps ConfinedIfUser.allowsUserEffects ConfinedIfUser.execute m honorBreakpoints huser

/-- A trap takes user code to the handler that the vector table names, or ends execution. -/
theorem trap_userStep (h : Conforms config m) (huser : m.flags.privileged = false) (cause : TrapCause)
    (cycles : Nat) : UserStep config m (m.trap cause cycles).1 (m.trap cause cycles).2 := by
  obtain ⟨hmemory, hscratch⟩ := m.saveContext_confined
  obtain ⟨first, second, hfirst, hsecond, hentry⟩ := h.run_enterTrap cause
  rw [huser] at hfirst
  obtain ⟨handler, used, hhandler, hnonzero, hrun⟩ | ⟨-, -, hrun⟩ := hentry
  · simp only [trap, hrun]
    refine ⟨fun _ => by simp, ⟨hmemory.ram, hmemory.ramSize, hmemory.rom⟩, fun r hr => ?_, ?_, fun _ => ?_⟩
    · obtain ⟨hpc, -, -⟩ := Register.scratch_ne hr
      exact (RegisterFile.get_set_of_ne m.saveContext.registers handler hpc.symm).trans (hscratch r hr)
    · simp [Outcome.entersTrap]
    · refine .inl ⟨cause, _, rfl, ?_⟩
      constructor
      · rw [pc_setPc]
        exact hnonzero
      · rw [pc_setPc]
        by_cases hzero : first = 0
        · rw [if_pos hzero] at hhandler
          exact .inr ⟨by rw [← hzero]; exact hfirst, by rw [hhandler]; exact hsecond⟩
        · rw [if_neg hzero] at hhandler
          exact .inl (by rw [hhandler]; exact hfirst)
  · simp only [trap, hrun]
    refine ⟨fun _ => by simp, ⟨hmemory.ram, hmemory.ramSize, hmemory.rom⟩, hscratch, ?_, fun _ => ?_⟩
    · simp [Outcome.entersTrap]
    · exact .inr ⟨_, rfl⟩

theorem step_userStep (h : Conforms config m) (huser : m.flags.privileged = false)
    (honorBreakpoints : Bool) :
    UserStep config m (m.step honorBreakpoints).1 (m.step honorBreakpoints).2 := by
  have hconfined := attempt_confined huser honorBreakpoints
  have hshape := attempt_keeps SameShape.allowsUserEffects execute_keepsShape m honorBreakpoints
  obtain ⟨opcode, cycles, hretired⟩ | ⟨cause, cycles, htrap⟩ | ⟨-, pc, hbreakpoint⟩ :=
    attempt_user huser honorBreakpoints
  · obtain ⟨houtcome, hcore⟩ := step_of_attempt hretired
    rw [houtcome]
    exact UserStep.trans_sameCore (.of_confined hconfined fun _ => by simp [conclude]) hcore
  · obtain ⟨houtcome, hcore⟩ := step_of_attempt htrap
    rw [houtcome]
    refine UserStep.trans_sameCore (.trans hconfined ?_) hcore
    exact trap_userStep (h.of_sameShape hshape) hconfined.user cause cycles
  · obtain ⟨houtcome, hcore⟩ := step_of_attempt hbreakpoint
    rw [houtcome]
    exact UserStep.trans_sameCore (.of_confined hconfined fun _ => by simp [conclude]) hcore

/-- A run of user code up to some point before its first trap. Between the steps, interrupts may be
    raised, time may pass, devices may be attached or tick, and breakpoints may change. -/
inductive UserRun (start : Machine δ) : Machine δ → Prop
  | start : UserRun start start
  | step {m : Machine δ} (h : UserRun start m) (honorBreakpoints : Bool)
    (houtcome : (m.step honorBreakpoints).1.entersTrap = false) :
    UserRun start (m.step honorBreakpoints).2
  | raise {m : Machine δ} (h : UserRun start m) (index : Word) : UserRun start (m.raise index)
  | wait {m : Machine δ} (h : UserRun start m) (microseconds : Nat) : UserRun start (m.wait microseconds)
  | tick {m : Machine δ} (h : UserRun start m) : UserRun start m.tick
  | attach {m : Machine δ} (h : UserRun start m) (device : δ) : UserRun start (m.attach device)
  | setBreakpoints {m : Machine δ} (h : UserRun start m) (breakpoints : Breakpoints) :
    UserRun start { m with breakpoints := breakpoints }

namespace UserRun

variable {start : Machine δ}

theorem reachable (h : UserRun start m) (hstart : Reachable config start) : Reachable config m := by
  induction h with
  | start => exact hstart
  | step _ honorBreakpoints _ ih => exact .operated ih (.step honorBreakpoints)
  | raise _ index ih => exact .operated ih (.raise index)
  | wait _ microseconds ih => exact .operated ih (.wait microseconds)
  | tick _ ih => exact .operated ih .tick
  | attach _ device ih => exact .operated ih (.attach device)
  | setBreakpoints _ breakpoints ih => exact .operated ih (.setBreakpoints breakpoints)

/-- Until the first trap, the machine stays as the user code found it, apart from what such code may
    change. The induction is on the run; what a single step keeps is carried along it. -/
theorem confined (h : UserRun start m) (hstart : Reachable config start)
    (huser : start.flags.privileged = false) : UserConfined start m := by
  induction h with
  | start => exact .refl huser
  | step hrun honorBreakpoints houtcome ih =>
    have hconforms := (hrun.reachable hstart).conforms
    exact ih.trans ((step_userStep hconforms ih.user honorBreakpoints).confined houtcome)
  | raise _ index ih => exact ih.trans (.of_storesInWindow (SameCore.storesInWindow rfl) ih.user)
  | wait _ microseconds ih => exact ih.trans (.of_storesInWindow (SameCore.storesInWindow rfl) ih.user)
  | tick _ ih => exact ih.trans (.of_storesInWindow (SameCore.storesInWindow rfl) ih.user)
  | attach _ device ih => exact ih.trans (.of_storesInWindow (SameCore.storesInWindow rfl) ih.user)
  | setBreakpoints _ breakpoints ih => exact { ih with }

end UserRun

/-- User code is isolated, from any reachable state in which it runs and along every run of it: what it
    must not change is unchanged up to the first trap, and the step after that never stops the machine,
    never reaches memory outside the window, and raises the privilege only by entering the handler. The
    window is that of the start. For a single step, the run is empty. -/
theorem user_isolated {start : Machine δ} (hstart : Reachable config start)
    (huser : start.flags.privileged = false) (hrun : UserRun start m) (honorBreakpoints : Bool) :
    UserConfined start m ∧
      UserStep config start (m.step honorBreakpoints).1 (m.step honorBreakpoints).2 := by
  have hconfined := hrun.confined hstart huser
  have hconforms := (hrun.reachable hstart).conforms
  exact ⟨hconfined, .trans hconfined (step_userStep hconforms hconfined.user honorBreakpoints)⟩

/-- The word in the window retires, and the fetch of the next one leaves the window. -/
theorem user_isolated_one_word :
    let config : Config := ⟨64, 0, 16, 16, 0, 1, 1⟩
    let start := oneWord 64 60 0x30
    let next := (start.step false).2
    Reachable config start ∧ start.flags.privileged = false ∧
      (start.step false).1 = .retired .nop 1 ∧ (next.step false).1 = .trapped (.fault .memory) 5 ∧
      UserConfined start next ∧ UserStep config start (.trapped (.fault .memory) 5) (next.step false).2 := by
  intro config start next
  have hstart : Reachable config start := oneWord_reachable rfl
  have huser : start.flags.privileged = false := rfl
  have hretired : (start.step false).1 = .retired .nop 1 := by decide +kernel
  have htrapped : (next.step false).1 = .trapped (.fault .memory) 5 := by decide +kernel
  have hrun : UserRun start next := .step .start false (by rw [hretired]; rfl)
  obtain ⟨hconfined, hstep⟩ := user_isolated hstart huser hrun false
  rw [htrapped] at hstep
  exact ⟨hstart, huser, hretired, htrapped, hconfined, hstep⟩

end Machine

end Risc32
