import Risc32.Proofs.Machine.Lockstep

namespace Risc32.Machine

variable {δ δ₁ δ₂ : Type}

/-- The vector table holds no handler for a cause that arose in user code. -/
def VectorsUndefined (config : Config) (m : Machine δ) (cause : TrapCause) : Prop :=
  config.vector? m.ram (config.slotOf false cause) = some 0 ∧
    config.vector? m.ram (Config.fallbackOf cause) = some 0

section Step

variable [Device δ]

/-- The machine after some steps that report no breakpoints. -/
def stepped (m : Machine δ) : Nat → Machine δ
  | 0 => m
  | n + 1 => ((m.stepped n).step false).2

/-- A step goes into trap entry. It takes the trap, or aborts if this machine has no handler for it. The
    cycles are those before the trap. -/
structure GoesIntoTrap (config : Config) (m : Machine δ) (cause : TrapCause) (cycles : Nat) : Prop where
  due : ∃ s, m.attempt false = (.trap cause cycles, s) ∧ m.advance false = s.trap cause cycles
  outcome : (m.step false).1 = .trapped cause (cycles + CostKind.trapEntry.cycles) ∧
      ¬ VectorsUndefined config (m.step false).2 cause ∨
    (m.step false).1 = .aborted (.undefinedVector (Config.fallbackOf cause)) ∧
      VectorsUndefined config (m.step false).2 cause

theorem Conforms.stepped {config : Config} {m : Machine δ} (h : Conforms config m) (n : Nat) :
    Conforms config (m.stepped n) := by
  induction n with
  | zero => exact h
  | succ n ih => exact ih.of_sameShape (step_keepsShape _ false)

/-- What the trap entry of a step comes to, and what it has saved. -/
theorem goesIntoTrap_of_attempt {config : Config} {m : Machine δ} {cause : TrapCause} {cycles : Nat}
    (h : Conforms config (m.attempt false).2) (huser : (m.attempt false).2.flags.privileged = false)
    (htrap : (m.attempt false).1 = .trap cause cycles) :
    GoesIntoTrap config m cause cycles ∧ (m.step false).2.savedPc = (m.attempt false).2.pc ∧
      (m.step false).2.savedFlags = (m.attempt false).2.flags.pack := by
  obtain ⟨houtcome, hcore⟩ := step_of_attempt htrap
  have hadvance := m.advance_eq_conclude false
  generalize hattempt : m.attempt false = taken at h huser htrap houtcome hcore hadvance ⊢
  obtain ⟨attempted, s⟩ := taken
  simp only at htrap
  subst htrap
  have hdue : ∃ t, m.attempt false = (.trap cause cycles, t) ∧ m.advance false = t.trap cause cycles :=
    ⟨s, hattempt, hadvance⟩
  have hram (hsame : (s.trap cause cycles).2.ram = s.ram) : (m.step false).2.ram = s.ram :=
    (congrArg (·.ram) hcore).trans hsame
  obtain ⟨first, second, hfirst, hsecond, hentry⟩ := h.run_enterTrap cause
  rw [huser] at hfirst
  obtain ⟨handler, used, hhandler, hnonzero, hrun⟩ | ⟨hfirstZero, hsecondZero, hrun⟩ := hentry
  · simp only [conclude, trap, hrun] at hcore houtcome hram
    have hdefined : ¬ VectorsUndefined config (m.step false).2 cause := by
      rintro ⟨hslot, hfallback⟩
      rw [hram rfl, hfirst] at hslot
      rw [hram rfl, hsecond] at hfallback
      cases hslot
      cases hfallback
      exact hnonzero (hhandler.trans rfl)
    refine ⟨⟨hdue, .inl ⟨houtcome, hdefined⟩⟩, ?_, ?_⟩
    · exact congrArg (·.savedPc) hcore
    · exact congrArg (·.savedFlags) hcore
  · simp only [conclude, trap, hrun] at hcore houtcome hram
    have hundefined : VectorsUndefined config (m.step false).2 cause := by
      rw [VectorsUndefined, hram rfl, hfirst, hsecond, hfirstZero, hsecondZero]
      exact ⟨rfl, rfl⟩
    refine ⟨⟨hdue, .inr ⟨houtcome, hundefined⟩⟩, ?_, ?_⟩
    · exact congrArg (·.savedPc) hcore
    · exact congrArg (·.savedFlags) hcore

end Step

variable [Device δ₁] [Device δ₂] {first : Machine δ₁} {second : Machine δ₂}

/-- Both fetch the same word, or the fetch faults in both. -/
theorem fetch_lockstep (h : Twins first second) : SameResult Twins first.fetch second.fetch := by
  have hready : Twins first.ready second.ready := h.of_sameCore first.ready_sameCore second.ready_sameCore
  unfold fetch
  rw [h.pc]
  exact readWord_lockstep first.pc _ _ hready

theorem attemptInstruction_lockstep (h : Twins first second) (i : Instruction) :
    (second.attemptInstruction i).1 = (first.attemptInstruction i).1 ∧
      Twins (first.attemptInstruction i).2 (second.attemptInstruction i).2 := by
  have hexecute := execute_lockstep i first second h
  unfold attemptInstruction
  generalize (execute i).run first = result₁ at hexecute
  generalize (execute i).run second = result₂ at hexecute
  cases hexecute with
  | error hafter => exact ⟨rfl, hafter⟩
  | @ok flow _ _ hafter => cases flow <;> exact ⟨rfl, hafter⟩

/-- As long as no interrupt is pending, both machines attempt the same. -/
theorem attempt_lockstep (h : Twins first second) (hfirst : first.hasPendingInterrupt = false)
    (hsecond : second.hasPendingInterrupt = false) :
    (second.attempt false).1 = (first.attempt false).1 ∧
      Twins (first.attempt false).2 (second.attempt false).2 := by
  have hfetch := fetch_lockstep h
  have hpc := h.pc
  simp only [attempt, pollInterrupt_of_quiet hfirst, pollInterrupt_of_quiet hsecond, Bool.false_and,
    Bool.false_eq_true, if_false, attemptFetch]
  generalize first.fetch = result₁ at hfetch
  generalize second.fetch = result₂ at hfetch
  cases hfetch with
  | error hafter => exact ⟨rfl, hafter⟩
  | @ok word s t hafter =>
    have hfetched : Twins (first.afterFetch word s) (second.afterFetch word t) := by
      unfold afterFetch
      rw [hpc]
      exact (hafter.setPc (first.pc + 4)).of_sameCore rfl rfl
    cases hword : Instruction.ofWord? word with
    | none =>
      simp only [hword]
      exact ⟨trivial, hfetched⟩
    | some i =>
      simp only [hword]
      exact attemptInstruction_lockstep hfetched i

/-- The two ways in which a step is the same in both machines: it retires the same instruction and shows
    user code the same view again, or it goes into trap entry for the same cause and saves the same. -/
inductive SameStep (config₁ config₂ : Config) (first : Machine δ₁) (second : Machine δ₂) : Prop
  | retired {opcode : Opcode} {cycles : Nat}
    (hfirst : (first.step false).1 = .retired opcode cycles)
    (hsecond : (second.step false).1 = .retired opcode cycles)
    (hview : SameView (first.step false).2 (second.step false).2)
  | trap {cause : TrapCause} {cycles : Nat} (hfirst : GoesIntoTrap config₁ first cause cycles)
    (hsecond : GoesIntoTrap config₂ second cause cycles)
    (hsavedPc : (second.step false).2.savedPc = (first.step false).2.savedPc)
    (hsavedFlags : (second.step false).2.savedFlags = (first.step false).2.savedFlags)

variable {config₁ config₂ : Config}

theorem step_lockstep (hfirst : Conforms config₁ first) (hsecond : Conforms config₂ second)
    (h : SameView first second) (hquietFirst : first.hasPendingInterrupt = false)
    (hquietSecond : second.hasPendingInterrupt = false) : SameStep config₁ config₂ first second := by
  obtain ⟨hsame, htwins⟩ := attempt_lockstep (h.twins hfirst hsecond) hquietFirst hquietSecond
  obtain ⟨opcode, cycles, hretired⟩ | ⟨cause, cycles, htrap⟩ | ⟨hhonor, -⟩ := attempt_user h.user false
  · obtain ⟨houtcomeFirst, hcoreFirst⟩ := step_of_attempt hretired
    obtain ⟨houtcomeSecond, hcoreSecond⟩ := step_of_attempt (hsame.trans hretired)
    exact .retired houtcomeFirst houtcomeSecond (htwins.of_sameCore hcoreFirst hcoreSecond).toSameView
  · have hshapeFirst := attempt_keeps SameShape.allowsUserEffects execute_keepsShape first false
    have hshapeSecond := attempt_keeps SameShape.allowsUserEffects execute_keepsShape second false
    obtain ⟨htrapFirst, hpcFirst, hflagsFirst⟩ :=
      goesIntoTrap_of_attempt (hfirst.of_sameShape hshapeFirst) htwins.user htrap
    obtain ⟨htrapSecond, hpcSecond, hflagsSecond⟩ :=
      goesIntoTrap_of_attempt (hsecond.of_sameShape hshapeSecond) htwins.secondUser (hsame.trans htrap)
    refine .trap htrapFirst htrapSecond ?_ ?_
    · rw [hpcFirst, hpcSecond, htwins.pc]
    · rw [hflagsFirst, hflagsSecond, htwins.flags]
  · cases hhonor

/-- The view stays the same as long as the first machine takes no trap. The induction is on the number
    of steps; a step that enters no trap is one that retires in both machines. -/
theorem sameView_stepped (hfirst : Conforms config₁ first) (hsecond : Conforms config₂ second)
    (h : SameView first second) (n : Nat)
    (hquietFirst : ∀ k < n, (first.stepped k).hasPendingInterrupt = false)
    (hquietSecond : ∀ k < n, (second.stepped k).hasPendingInterrupt = false)
    (huntrapped : ∀ k < n, ((first.stepped k).step false).1.entersTrap = false) :
    SameView (first.stepped n) (second.stepped n) := by
  induction n with
  | zero => exact h
  | succ n ih =>
    have hview := ih (fun k hk => hquietFirst k (by omega)) (fun k hk => hquietSecond k (by omega))
      fun k hk => huntrapped k (by omega)
    have hstep := step_lockstep (hfirst.stepped n) (hsecond.stepped n) hview (hquietFirst n (by omega))
      (hquietSecond n (by omega))
    cases hstep with
    | retired _ _ hnext => exact hnext
    | trap htrap _ _ _ =>
      have huntrappedHere := huntrapped n (by omega)
      obtain ⟨houtcome, -⟩ | ⟨houtcome, -⟩ := htrap.outcome
      · rw [houtcome] at huntrappedHere
        cases huntrappedHere
      · rw [houtcome] at huntrappedHere
        cases huntrappedHere

/-- User code is executed in lockstep by any two machines that show it the same view, wherever its
    window lies in them and whatever they hold outside of it. As long as no interrupt is pending, and up
    to and including the first trap, every step retires the same instruction in both or goes into trap
    entry for the same cause with the same context saved. Only a trap can be told apart, by the vectors
    of the machine that takes it. -/
theorem user_noninterference (hfirst : Conforms config₁ first) (hsecond : Conforms config₂ second)
    (h : SameView first second) (n : Nat)
    (hquietFirst : ∀ k ≤ n, (first.stepped k).hasPendingInterrupt = false)
    (hquietSecond : ∀ k ≤ n, (second.stepped k).hasPendingInterrupt = false)
    (huntrapped : ∀ k < n, ((first.stepped k).step false).1.entersTrap = false) :
    ∀ k ≤ n, SameView (first.stepped k) (second.stepped k) ∧
      SameStep config₁ config₂ (first.stepped k) (second.stepped k) := by
  intro k hk
  have hview := sameView_stepped hfirst hsecond h k (fun j hj => hquietFirst j (by omega))
    (fun j hj => hquietSecond j (by omega)) fun j hj => huntrapped j (by omega)
  refine ⟨hview, ?_⟩
  exact step_lockstep (hfirst.stepped k) (hsecond.stepped k) hview (hquietFirst k hk) (hquietSecond k hk)

/-- The same window at two places. The word in it retires in both machines, and the next fetch faults in
    both; only one of them has a handler. -/
theorem user_noninterference_one_word :
    let first := oneWord 64 60 0x30
    let second := oneWord 128 100 0
    SameView first second ∧
      SameStep ⟨64, 0, 16, 16, 0, 1, 1⟩ ⟨128, 0, 16, 16, 0, 1, 1⟩ (first.stepped 1) (second.stepped 1) ∧
      ((first.stepped 1).step false).1 = .trapped (.fault .memory) 5 ∧
      ((second.stepped 1).step false).1 = .aborted (.undefinedVector 1) := by
  intro first second
  have hfirst : Conforms ⟨64, 0, 16, 16, 0, 1, 1⟩ first := (oneWord_reachable rfl).conforms
  have hsecond : Conforms ⟨128, 0, 16, 16, 0, 1, 1⟩ second := (oneWord_reachable rfl).conforms
  have hregisters (r : Register) (hr : r.index.toNat < 27) :
      second.registers.get r = first.registers.get r := by
    obtain ⟨hoffset, hbound⟩ := Register.ne_window hr
    simp only [first, second, oneWord, operate, RegisterFile.get_set_of_ne _ _ hbound.symm,
      RegisterFile.get_set_of_ne _ _ hoffset.symm]
  have hview : SameView first second :=
    { user := rfl
      flags := rfl
      interruptsMasked := rfl
      registers := hregisters
      software := rfl
      bound := by decide +kernel
      bound_ne_zero := by decide +kernel
      firstFits := by decide +kernel
      secondFits := by decide +kernel
      window := by decide +kernel }
  have hsteps := user_noninterference hfirst hsecond hview 1 (by decide +kernel) (by decide +kernel)
    (by decide +kernel)
  exact ⟨hview, (hsteps 1 (by omega)).2, by decide +kernel, by decide +kernel⟩

end Risc32.Machine
