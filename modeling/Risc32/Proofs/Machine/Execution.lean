import Risc32.Proofs.Machine.Attempt

namespace Risc32.Machine

variable {δ : Type}

/-- Whether an interrupt comes before everything else that a step could do. -/
def isDiverted (m : Machine δ) : Bool :=
  !m.interruptsMasked && m.hasPendingInterrupt

theorem pollInterrupt_isNone_iff {m : Machine δ} :
    m.pollInterrupt.1 = none ↔ m.isDiverted = false := by
  cases hmasked : m.interruptsMasked with
  | true => simp [pollInterrupt_of_masked hmasked, isDiverted, hmasked]
  | false =>
    rw [pollInterrupt_of_unmasked hmasked]
    simp [isDiverted, hmasked, InterruptLine.take, hasPendingInterrupt, InterruptLine.hasPending]

variable [Device δ]

theorem fetchAndPerform_isBreakpoint (m : Machine δ) : m.fetchAndPerform.1.isBreakpoint = false := by
  unfold fetchAndPerform
  dsimp only
  split
  · exact trap_isBreakpoint _ _ _
  · split
    · exact trap_isBreakpoint _ _ _
    · unfold perform
      split
      · rfl
      · exact trap_isBreakpoint _ _ _
      · rfl
      · rfl
      · exact trap_isBreakpoint _ _ _

/-- Without breakpoints to honor, none is reported. -/
theorem step_isBreakpoint (m : Machine δ) : (m.step false).1.isBreakpoint = false := by
  show (m.advance false).1.isBreakpoint = false
  cases hpoll : m.pollInterrupt.1 with
  | some index =>
    rw [advance_of_interrupt hpoll]
    exact trap_isBreakpoint _ _ _
  | none =>
    rw [advance_of_none hpoll]
    exact fetchAndPerform_isBreakpoint _

/-- An interrupt that comes first is all of the step. -/
theorem step_of_interrupt {m : Machine δ} {index : Word} (hpoll : m.pollInterrupt.1 = some index)
    (honorBreakpoints : Bool) :
    m.step honorBreakpoints =
      ((m.pollInterrupt.2.trap (.hardware index) 0).1, (m.pollInterrupt.2.trap (.hardware index) 0).2.tick) := by
  rw [step, advance_of_interrupt hpoll]
  simp only [trap_isBreakpoint, Bool.false_eq_true, if_false]

theorem step_of_diverted {m : Machine δ} (h : m.isDiverted = true) (honorBreakpoints : Bool) :
    ∃ index, m.step honorBreakpoints =
      ((m.pollInterrupt.2.trap (.hardware index) 0).1, (m.pollInterrupt.2.trap (.hardware index) 0).2.tick) := by
  cases hpoll : m.pollInterrupt.1 with
  | none =>
    rw [pollInterrupt_isNone_iff.1 hpoll] at h
    cases h
  | some index => exact ⟨index, step_of_interrupt hpoll honorBreakpoints⟩

theorem step_of_stops {m : Machine δ} {honorBreakpoints : Bool} (h : m.isDiverted = false)
    (hstops : m.stops honorBreakpoints = true) :
    m.step honorBreakpoints = (.breakpoint m.pc, m.stopped) := by
  rw [step, advance_of_none (pollInterrupt_isNone_iff.2 h), hstops]
  rfl

theorem step_of_passes {m : Machine δ} {honorBreakpoints : Bool} (h : m.isDiverted = false)
    (hstops : m.stops honorBreakpoints = false) :
    m.step honorBreakpoints = (m.ready.fetchAndPerform.1, m.ready.fetchAndPerform.2.tick) := by
  rw [step, advance_of_none (pollInterrupt_isNone_iff.2 h), hstops]
  simp only [Bool.false_eq_true, if_false, fetchAndPerform_isBreakpoint]

/-- The step gets to execute the instruction: the fetch has succeeded and no breakpoint stops it. -/
def Executes (m : Machine δ) (honorBreakpoints : Bool) (i : Instruction) : Prop :=
  m.stops honorBreakpoints = false ∧
    ∃ word s, m.fetch = .ok word s ∧ Instruction.ofWord? word = some i

instance (m : Machine δ) (honorBreakpoints : Bool) (i : Instruction) : Decidable (m.Executes honorBreakpoints i) :=
  have : Decidable (∃ word s, m.fetch = .ok word s ∧ Instruction.ofWord? word = some i) :=
    match hfetch : m.fetch with
    | .ok word s =>
      decidable_of_iff (Instruction.ofWord? word = some i)
        ⟨fun h => ⟨word, s, rfl, h⟩, fun ⟨_, _, hok, h⟩ => by cases hok; exact h⟩
    | .error .. => isFalse fun ⟨_, _, hok, _⟩ => by cases hok
  inferInstanceAs (Decidable (_ ∧ _))

/-- A step that executes an instruction does so in the machine that has fetched it. -/
theorem attempt_of_executes {m : Machine δ} {honorBreakpoints : Bool} {i : Instruction}
    (hpoll : m.pollInterrupt.1 = none) (h : m.Executes honorBreakpoints i) :
    ∃ s, SameCore (m.setPc (m.pc + 4)) s ∧ m.attempt honorBreakpoints = s.attemptInstruction i := by
  obtain ⟨hstops, word, s, hfetch, hword⟩ := h
  refine ⟨m.afterFetch word s, afterFetch_sameCore hfetch, ?_⟩
  rw [attempt_of_none hpoll, hstops, attemptFetch, hfetch]
  simp only [hword, Bool.false_eq_true, if_false]

/-- A step that needs no trap and is not stopped has executed an instruction. -/
theorem executes_of_attempt {m : Machine δ} {honorBreakpoints : Bool}
    (htrap : ∀ cause cycles, (m.attempt honorBreakpoints).1 ≠ .trap cause cycles)
    (hstop : ∀ pc, (m.attempt honorBreakpoints).1 ≠ .breakpoint pc) :
    m.pollInterrupt.1 = none ∧ ∃ i, m.Executes honorBreakpoints i := by
  cases hpoll : m.pollInterrupt.1 with
  | some index =>
    refine absurd ?_ (htrap (.hardware index) 0)
    rw [attempt, hpoll]
  | none =>
    rw [attempt_of_none hpoll] at htrap hstop
    cases hstops : m.stops honorBreakpoints with
    | true =>
      refine absurd ?_ (hstop m.pc)
      rw [hstops]
      rfl
    | false =>
      simp only [hstops, Bool.false_eq_true, if_false, attemptFetch] at htrap
      cases hfetch : m.fetch with
      | error fault s => simp [hfetch] at htrap
      | ok word s =>
        cases hword : Instruction.ofWord? word with
        | none => simp [hfetch, hword] at htrap
        | some i => exact ⟨rfl, i, hstops, word, s, hfetch, hword⟩

/-- The step executes an instruction with the given opcode in privileged mode. -/
def ExecutesPrivileged (m : Machine δ) (honorBreakpoints : Bool) (opcode : Opcode) : Prop :=
  m.isDiverted = false ∧ m.flags.privileged = true ∧
    ∃ i, m.Executes honorBreakpoints i ∧ i.opcode = opcode

theorem privileged_of_execute {m after : Machine δ} {i : Instruction} {flow : Flow}
    (hopcode : i.opcode.isPrivileged = true) (hrun : (execute i).run m = .ok flow after) :
    m.flags.privileged = true := by
  cases huser : m.flags.privileged with
  | true => rfl
  | false =>
    rw [execute_refused hopcode huser] at hrun
    cases hrun

theorem execute_halt_iff {m : Machine δ} {i : Instruction} :
    (∃ after, (execute i).run m = .ok .halt after) ↔ m.flags.privileged = true ∧ i.opcode = .halt := by
  obtain ⟨opcode, field⟩ := i
  constructor
  · rintro ⟨after, hrun⟩
    obtain hflow | ⟨-, rfl⟩ | ⟨hflow, -⟩ | ⟨-, hflow, -⟩ := execute_flow hrun
    · cases hflow
    · exact ⟨privileged_of_execute rfl hrun, rfl⟩
    · cases hflow
    · cases hflow
  · rintro ⟨hprivileged, rfl⟩
    exact ⟨m, run_bind_eq_ok_iff.2 ⟨(), m, by rw [run_requirePrivilege, if_pos hprivileged], rfl⟩⟩

/-- When an attempt with the property needs no trap and is no stop, and instructions have it just when
    they are privileged ones with the given opcode, then so do steps. -/
theorem attempt_iff_executes {P : Attempt → Prop} {opcode : Opcode}
    (htrap : ∀ cause cycles, ¬ P (.trap cause cycles)) (hstop : ∀ pc, ¬ P (.breakpoint pc))
    (hinstruction : ∀ (s : Machine δ) i,
      P (s.attemptInstruction i).1 ↔ s.flags.privileged = true ∧ i.opcode = opcode)
    (m : Machine δ) (honorBreakpoints : Bool) :
    P (m.attempt honorBreakpoints).1 ↔ m.ExecutesPrivileged honorBreakpoints opcode := by
  constructor
  · intro hattempt
    obtain ⟨hpoll, i, hexecutes⟩ := executes_of_attempt
      (fun cause cycles heq => htrap cause cycles (heq ▸ hattempt)) fun pc heq => hstop pc (heq ▸ hattempt)
    obtain ⟨s, hcore, hinstructed⟩ := attempt_of_executes hpoll hexecutes
    rw [hinstructed, hinstruction] at hattempt
    have hflags : s.flags = m.flags := congrArg (·.flags) hcore
    rw [hflags] at hattempt
    exact ⟨pollInterrupt_isNone_iff.1 hpoll, hattempt.1, i, hexecutes, hattempt.2⟩
  · rintro ⟨hdiverted, hprivileged, i, hexecutes, hopcode⟩
    obtain ⟨s, hcore, hinstructed⟩ :=
      attempt_of_executes (pollInterrupt_isNone_iff.2 hdiverted) hexecutes
    have hflags : s.flags = m.flags := congrArg (·.flags) hcore
    rw [hinstructed, hinstruction, hflags]
    exact ⟨hprivileged, hopcode⟩

/-- Entering a trap does not stop a machine. -/
theorem conclude_stops_iff (taken : Attempt × Machine δ) (cycles : Nat) :
    ((conclude taken).1 = .halted cycles ↔ taken.1 = .halted cycles) ∧
      ((conclude taken).1 = .killed cycles ↔ taken.1 = .killed cycles) := by
  obtain ⟨attempted, s⟩ := taken
  cases attempted with
  | trap cause cycles =>
    obtain houtcome | ⟨error, houtcome⟩ := s.trap_outcome cause cycles <;> simp [conclude, houtcome]
  | _ => simp [conclude]

/-- A machine halts when privileged code executes the instruction for that. -/
theorem step_halted_iff (m : Machine δ) (honorBreakpoints : Bool) :
    (∃ cycles, (m.step honorBreakpoints).1 = .halted cycles) ↔
      m.ExecutesPrivileged honorBreakpoints .halt := by
  simp only [step_fst, (conclude_stops_iff _ _).1]
  refine attempt_iff_executes (P := fun attempted => ∃ cycles, attempted = .halted cycles) (by simp) (by simp)
    (fun s i => ?_) m honorBreakpoints
  rw [← execute_halt_iff, attemptInstruction]
  cases (execute i).run s with
  | error fault after => simp
  | ok flow after => cases flow <;> simp

end Risc32.Machine
