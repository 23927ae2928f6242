import Risc32.Proofs.Machine.Frame
import Risc32.Proofs.Machine.TrapEntry

/-!
A step in two parts: what it attempts by itself, and the trap entry that may conclude it. Everything
that can be said about a step before its trap is said about the attempt.
-/

namespace Risc32

/-- What a step has come to before any trap is entered. A trap that is due carries the cycles of the
    instruction that it interrupts. -/
inductive Attempt where
  | retired (opcode : Opcode) (cycles : Nat)
  | halted (cycles : Nat)
  | killed (cycles : Nat)
  | breakpoint (pc : Word)
  | trap (cause : TrapCause) (cycles : Nat)
deriving DecidableEq, Repr

/-- Whether the outcome is that of a step which has tried to enter a trap. -/
def Outcome.entersTrap : Outcome → Bool
  | trapped .. | aborted _ => true
  | _ => false

namespace Machine

variable {δ : Type}

/-- The machine that a step fetches from when no interrupt comes first. -/
def ready (m : Machine δ) : Machine δ :=
  { m.pollInterrupt.2 with resumePast := none }

/-- Whether a breakpoint stops a step that no interrupt comes before. -/
def stops (m : Machine δ) (honorBreakpoints : Bool) : Bool :=
  honorBreakpoints && m.resumePast != some m.pc && m.breakpointHit m.pc

/-- The machine that a breakpoint has stopped. The next step goes on past it. -/
def stopped (m : Machine δ) : Machine δ :=
  { m.pollInterrupt.2.note (.breakpointHit m.pc) with resumePast := some m.pc }

theorem pollInterrupt_of_masked {m : Machine δ} (h : m.interruptsMasked = true) :
    m.pollInterrupt = (none, m.dropInterrupts) :=
  if_pos h

theorem pollInterrupt_of_unmasked {m : Machine δ} (h : m.interruptsMasked = false) :
    m.pollInterrupt = (m.bus.line.take.1, { m with bus := { m.bus with line := m.bus.line.take.2 } }) := by
  unfold pollInterrupt
  simp only [h, Bool.false_eq_true, if_false]

theorem line_of_quiet {m : Machine δ} (h : m.hasPendingInterrupt = false) : m.bus.line = {} := by
  have hqueue : m.bus.line.queue = [] := by
    simpa [hasPendingInterrupt, InterruptLine.hasPending] using h
  rw [← hqueue]

/-- With nothing on the line, polling does nothing at all. -/
theorem pollInterrupt_of_quiet {m : Machine δ} (h : m.hasPendingInterrupt = false) :
    m.pollInterrupt = (none, m) := by
  have hempty := line_of_quiet h
  cases hmasked : m.interruptsMasked with
  | true =>
    rw [pollInterrupt_of_masked hmasked, dropInterrupts, hempty]
    simp only [List.map_nil, List.reverse_nil, List.nil_append, ← hempty]
  | false =>
    rw [pollInterrupt_of_unmasked hmasked, InterruptLine.take, hempty]
    simp only [List.head?_nil, List.tail_nil, ← hempty]

/-- Polling moves indices off the line and does nothing else. -/
theorem pollInterrupt_snd (m : Machine δ) :
    m.pollInterrupt.2 = { m with bus := m.pollInterrupt.2.bus } := by
  unfold pollInterrupt
  split <;> rfl

theorem pollInterrupt_sameCore (m : Machine δ) : SameCore m m.pollInterrupt.2 := by
  rw [pollInterrupt_snd]
  rfl

/-- After a poll that gave nothing, the line is empty. -/
theorem hasPendingInterrupt_of_poll {m : Machine δ} (h : m.pollInterrupt.1 = none) :
    m.pollInterrupt.2.hasPendingInterrupt = false := by
  cases hmasked : m.interruptsMasked with
  | true =>
    rw [pollInterrupt_of_masked hmasked]
    rfl
  | false =>
    rw [pollInterrupt_of_unmasked hmasked] at h ⊢
    have hempty : m.bus.line.queue = [] := List.head?_eq_none_iff.1 h
    simp [hasPendingInterrupt, InterruptLine.hasPending, InterruptLine.take, hempty]

theorem ready_sameCore (m : Machine δ) : SameCore m m.ready :=
  pollInterrupt_sameCore m

variable [Device δ]

/-- A trap reports its cause, or why it could not be entered. -/
theorem trap_outcome (m : Machine δ) (cause : TrapCause) (cycles : Nat) :
    (m.trap cause cycles).1 = .trapped cause (cycles + CostKind.trapEntry.cycles) ∨
      ∃ error, (m.trap cause cycles).1 = .aborted error := by
  unfold trap
  cases (enterTrap cause).run m with
  | ok handler after => exact .inl rfl
  | error error after => exact .inr ⟨error, rfl⟩

theorem trap_isBreakpoint (m : Machine δ) (cause : TrapCause) (cycles : Nat) :
    (m.trap cause cycles).1.isBreakpoint = false := by
  obtain houtcome | ⟨error, houtcome⟩ := m.trap_outcome cause cycles <;> rw [houtcome] <;> rfl

/-- A trap does what trap entry does, whether or not that succeeds. -/
theorem trap_keeps {R : Machine δ → Machine δ → Prop} {cause : TrapCause}
    (henter : Keeps R (enterTrap cause : EStateM TrapError (Machine δ) Word)) (m : Machine δ)
    (cycles : Nat) : R m (m.trap cause cycles).2 := by
  unfold trap
  cases hrun : (enterTrap cause).run m with
  | ok handler after => exact henter.of_ok hrun
  | error error after => exact henter.of_error hrun

/-- The fetch of a step that no interrupt and no breakpoint prevents. -/
def fetch (m : Machine δ) : EStateM.Result Fault (Machine δ) Word :=
  (readWord m.pc).run m.ready

/-- The machine that executes a fetched word: the program counter already points behind it. -/
def afterFetch (m : Machine δ) (word : Word) (after : Machine δ) : Machine δ :=
  (after.setPc (m.pc + 4)).note (.fetched m.pc word)

def attemptInstruction (m : Machine δ) (i : Instruction) : Attempt × Machine δ :=
  match (execute i).run m with
  | .ok .next after => (.retired i.opcode i.opcode.cycles, after)
  | .ok (.softwareInterrupt index) after => (.trap (.software index) i.opcode.cycles, after)
  | .ok .halt after => (.halted i.opcode.cycles, after)
  | .ok .kill after => (.killed i.opcode.cycles, after)
  | .error fault after => (.trap (.fault fault) i.opcode.cycles, after)

def attemptFetch (m : Machine δ) : Attempt × Machine δ :=
  match m.fetch with
  | .error fault after => (.trap (.fault fault) 0, after)
  | .ok word after =>
    match Instruction.ofWord? word with
    | none => (.trap (.fault .illegalInstruction) CostKind.simple.cycles, m.afterFetch word after)
    | some i => (m.afterFetch word after).attemptInstruction i

/-- A step up to the point where its outcome is certain or a trap is due. -/
def attempt (m : Machine δ) (honorBreakpoints : Bool) : Attempt × Machine δ :=
  match m.pollInterrupt.1 with
  | some index => (.trap (.hardware index) 0, m.pollInterrupt.2)
  | none =>
    if honorBreakpoints && m.resumePast != some m.pc && m.breakpointHit m.pc then
      (.breakpoint m.pc, { m.pollInterrupt.2.note (.breakpointHit m.pc) with resumePast := some m.pc })
    else
      m.attemptFetch

theorem attempt_of_none {m : Machine δ} (h : m.pollInterrupt.1 = none) (honorBreakpoints : Bool) :
    m.attempt honorBreakpoints =
      if m.stops honorBreakpoints then (.breakpoint m.pc, m.stopped) else m.attemptFetch := by
  rw [attempt, h]
  rfl

/-- The outcome of an attempt, after the trap that it may call for. -/
def conclude : Attempt × Machine δ → Outcome × Machine δ
  | (.retired opcode cycles, m) => (.retired opcode cycles, m)
  | (.halted cycles, m) => (.halted cycles, m)
  | (.killed cycles, m) => (.killed cycles, m)
  | (.breakpoint pc, m) => (.breakpoint pc, m)
  | (.trap cause cycles, m) => m.trap cause cycles

theorem perform_eq_conclude (m : Machine δ) (i : Instruction) :
    m.perform i = conclude (m.attemptInstruction i) := by
  unfold perform attemptInstruction
  cases (execute i).run m with
  | error fault after => rfl
  | ok flow after => cases flow <;> rfl

theorem fetchAndPerform_eq_conclude (m : Machine δ) :
    fetchAndPerform m.ready = conclude m.attemptFetch := by
  have hpc : m.ready.pc = m.pc := congrArg (·.pc) m.ready_sameCore
  unfold fetchAndPerform attemptFetch fetch
  dsimp only
  rw [hpc]
  cases (readWord m.pc).run m.ready with
  | error fault after => rfl
  | ok word after =>
    cases hword : Instruction.ofWord? word with
    | none =>
      simp only [hword, conclude]
      rfl
    | some i =>
      simp only [hword, perform_eq_conclude]
      rfl

/-- A step is its attempt, concluded. -/
theorem advance_eq_conclude (m : Machine δ) (honorBreakpoints : Bool) :
    m.advance honorBreakpoints = conclude (m.attempt honorBreakpoints) := by
  have hpolled := m.pollInterrupt_snd
  have hfetch := m.fetchAndPerform_eq_conclude
  unfold ready at hfetch
  unfold advance attempt
  cases hpoll : m.pollInterrupt with
  | mk index polled =>
    simp only [hpoll] at hpolled hfetch
    cases index with
    | some index => rfl
    | none =>
      have hpc : polled.pc = m.pc := by
        rw [hpolled]
        rfl
      have hresume : polled.resumePast = m.resumePast := by rw [hpolled]
      have hhit : polled.breakpointHit m.pc = m.breakpointHit m.pc := by
        rw [hpolled]
        rfl
      simp only [hpc, hresume, hhit, hfetch]
      split <;> rfl

/-- An interrupt comes before everything else. -/
theorem advance_of_interrupt {m : Machine δ} {index : Word} (h : m.pollInterrupt.1 = some index)
    (honorBreakpoints : Bool) :
    m.advance honorBreakpoints = m.pollInterrupt.2.trap (.hardware index) 0 := by
  rw [advance_eq_conclude, attempt, h]
  rfl

theorem advance_of_none {m : Machine δ} (h : m.pollInterrupt.1 = none) (honorBreakpoints : Bool) :
    m.advance honorBreakpoints =
      if m.stops honorBreakpoints then (.breakpoint m.pc, m.stopped) else fetchAndPerform m.ready := by
  rw [advance_eq_conclude, attempt_of_none h, fetchAndPerform_eq_conclude]
  split <;> rfl

theorem step_fst (m : Machine δ) (honorBreakpoints : Bool) :
    (m.step honorBreakpoints).1 = (conclude (m.attempt honorBreakpoints)).1 := by
  rw [← advance_eq_conclude]
  rfl

/-- The tick that ends a step reaches nothing but the bus. -/
theorem step_sameCore (m : Machine δ) (honorBreakpoints : Bool) :
    SameCore (conclude (m.attempt honorBreakpoints)).2 (m.step honorBreakpoints).2 := by
  rw [← advance_eq_conclude]
  unfold step
  by_cases hbreakpoint : (m.advance honorBreakpoints).1.isBreakpoint
  · simp only [hbreakpoint, if_true]
    exact Std.Refl.refl _
  · simp only [hbreakpoint]
    rfl

/-- A step as a function of what it attempts. -/
theorem step_of_attempt {m : Machine δ} {honorBreakpoints : Bool} {attempted : Attempt}
    (h : (m.attempt honorBreakpoints).1 = attempted) :
    (m.step honorBreakpoints).1 = (conclude (attempted, (m.attempt honorBreakpoints).2)).1 ∧
      SameCore (conclude (attempted, (m.attempt honorBreakpoints).2)).2 (m.step honorBreakpoints).2 := by
  subst h
  exact ⟨m.step_fst honorBreakpoints, m.step_sameCore honorBreakpoints⟩

/-- An attempt that needs no trap is the whole step. -/
theorem conclude_goesOn {taken : Attempt × Machine δ} (h : ∀ cause cycles, taken.1 ≠ .trap cause cycles) :
    (conclude taken).2 = taken.2 ∧ (conclude taken).1.entersTrap = false ∧
      ∀ opcode cycles, (conclude taken).1 = .retired opcode cycles ↔ taken.1 = .retired opcode cycles := by
  obtain ⟨attempted, s⟩ := taken
  cases attempted with
  | trap cause cycles => exact absurd rfl (h cause cycles)
  | retired opcode cycles => exact ⟨rfl, rfl, fun _ _ => by simp [conclude]⟩
  | halted cycles => exact ⟨rfl, rfl, fun _ _ => by simp [conclude]⟩
  | killed cycles => exact ⟨rfl, rfl, fun _ _ => by simp [conclude]⟩
  | breakpoint pc => exact ⟨rfl, rfl, fun _ _ => by simp [conclude]⟩

/-- What an attempt can be. -/
inductive Attempted (m : Machine δ) (honorBreakpoints : Bool) : Attempt × Machine δ → Prop
  | interrupt {index : Word} (hpoll : m.pollInterrupt.1 = some index) :
    Attempted m honorBreakpoints (.trap (.hardware index) 0, m.pollInterrupt.2)
  | breakpoint (hpoll : m.pollInterrupt.1 = none) (hhonor : honorBreakpoints = true) :
    Attempted m honorBreakpoints (.breakpoint m.pc,
      { m.pollInterrupt.2.note (.breakpointHit m.pc) with resumePast := some m.pc })
  | fetchFault {fault : Fault} {s : Machine δ} (hpoll : m.pollInterrupt.1 = none)
    (hfetch : m.fetch = .error fault s) : Attempted m honorBreakpoints (.trap (.fault fault) 0, s)
  | illegal {word : Word} {s : Machine δ} (hpoll : m.pollInterrupt.1 = none)
    (hfetch : m.fetch = .ok word s) (hword : Instruction.ofWord? word = none) :
    Attempted m honorBreakpoints
      (.trap (.fault .illegalInstruction) CostKind.simple.cycles, m.afterFetch word s)
  | executed {word : Word} {s : Machine δ} {i : Instruction} {taken : Attempt × Machine δ}
    (hpoll : m.pollInterrupt.1 = none) (hfetch : m.fetch = .ok word s)
    (hword : Instruction.ofWord? word = some i)
    (hexecute : (m.afterFetch word s).attemptInstruction i = taken) : Attempted m honorBreakpoints taken

theorem attempted (m : Machine δ) (honorBreakpoints : Bool) :
    Attempted m honorBreakpoints (m.attempt honorBreakpoints) := by
  unfold attempt
  cases hpoll : m.pollInterrupt.1 with
  | some index => exact .interrupt hpoll
  | none =>
    simp only
    split
    · rename_i hbreakpoint
      simp only [Bool.and_eq_true] at hbreakpoint
      exact .breakpoint hpoll hbreakpoint.1.1
    · unfold attemptFetch
      cases hfetch : m.fetch with
      | error fault s => exact .fetchFault hpoll hfetch
      | ok word s =>
        simp only
        cases hword : Instruction.ofWord? word with
        | none => exact .illegal hpoll hfetch hword
        | some i => exact .executed hpoll hfetch hword rfl

/-- A fetch changes nothing that instructions can see. -/
theorem fetch_sameCore {m s : Machine δ} {word : Word} (h : m.fetch = .ok word s) : SameCore m s :=
  IsTrans.trans _ _ _ m.ready_sameCore ((readWord_keeps m.pc).of_ok h)

theorem fetch_error_sameCore {m s : Machine δ} {fault : Fault} (h : m.fetch = .error fault s) :
    SameCore m s :=
  IsTrans.trans _ _ _ m.ready_sameCore ((readWord_keeps m.pc).of_error h)

theorem afterFetch_sameCore {m s : Machine δ} {word : Word} (h : m.fetch = .ok word s) :
    SameCore (m.setPc (m.pc + 4)) (m.afterFetch word s) :=
  congrArg (fun s : Machine δ => s.setPc (m.pc + 4)) (fetch_sameCore h)

theorem attemptInstruction_keeps {R : Machine δ → Machine δ → Prop} {i : Instruction}
    (hexecute : Keeps R (execute i)) (m : Machine δ) : R m (m.attemptInstruction i).2 := by
  unfold attemptInstruction
  cases hrun : (execute i).run m with
  | error fault after => exact hexecute.of_error hrun
  | ok flow after =>
    have hkeeps := hexecute.of_ok hrun
    cases flow <;> exact hkeeps

/-- An attempt keeps whatever every instruction keeps: all else that it does is to poll, to fetch and
    to move the program counter. -/
theorem attempt_keeps {R : Machine δ → Machine δ → Prop} [IsPreorder (Machine δ) R]
    (hR : AllowsUserEffects R) (hexecute : ∀ i, Keeps R (execute i : Exec δ Flow)) (m : Machine δ)
    (honorBreakpoints : Bool) : R m (m.attempt honorBreakpoints).2 := by
  have hpoll : R m m.pollInterrupt.2 := hR.core _ _ m.pollInterrupt_sameCore
  have hfetched {word : Word} {s : Machine δ} (hfetch : m.fetch = .ok word s) :
      R m (m.afterFetch word s) := by
    have hjump : R m (m.setPc (m.pc + 4)) :=
      hR.register m .programCounter (m.pc + 4) (RegisterFile.admits_programCounter _)
    exact IsTrans.trans _ _ _ hjump (hR.core _ _ (afterFetch_sameCore hfetch))
  have hattempted := m.attempted honorBreakpoints
  generalize m.attempt honorBreakpoints = taken at hattempted
  cases hattempted with
  | interrupt => exact hpoll
  | breakpoint => exact IsTrans.trans _ _ _ hpoll (hR.core _ _ rfl)
  | fetchFault _ hfetch => exact hR.core _ _ (fetch_error_sameCore hfetch)
  | illegal _ hfetch hword => exact hfetched hfetch
  | executed _ hfetch hword hexecuted =>
    rw [← hexecuted]
    exact IsTrans.trans _ _ _ (hfetched hfetch) (attemptInstruction_keeps (hexecute _) _)

/-- Only privileged opcodes stop a machine, and user code is refused those. -/
theorem attemptInstruction_user {m : Machine δ} (huser : m.flags.privileged = false) (i : Instruction) :
    (∃ opcode cycles, (m.attemptInstruction i).1 = .retired opcode cycles) ∨
      ∃ cause cycles, (m.attemptInstruction i).1 = .trap cause cycles := by
  have hopcode (flow : Flow) (after : Machine δ) (hrun : (execute i).run m = .ok flow after) :
      i.opcode.isPrivileged = false := by
    cases hprivileged : i.opcode.isPrivileged with
    | false => rfl
    | true =>
      rw [execute_refused hprivileged huser] at hrun
      cases hrun
  unfold attemptInstruction
  cases hrun : (execute i).run m with
  | error fault after => exact .inr ⟨_, _, rfl⟩
  | ok flow after =>
    have hordinary := hopcode flow after hrun
    obtain rfl | ⟨rfl, hhalt⟩ | ⟨rfl, hkill⟩ | ⟨-, rfl, -⟩ := execute_flow hrun
    · exact .inl ⟨_, _, rfl⟩
    · rw [hhalt] at hordinary
      cases hordinary
    · rw [hkill] at hordinary
      cases hordinary
    · exact .inr ⟨_, _, rfl⟩

/-- What an attempt of user code can come to: it never stops the machine. -/
theorem attempt_user {m : Machine δ} (huser : m.flags.privileged = false) (honorBreakpoints : Bool) :
    (∃ opcode cycles, (m.attempt honorBreakpoints).1 = .retired opcode cycles) ∨
      (∃ cause cycles, (m.attempt honorBreakpoints).1 = .trap cause cycles) ∨
      honorBreakpoints = true ∧ ∃ pc, (m.attempt honorBreakpoints).1 = .breakpoint pc := by
  have hattempted := m.attempted honorBreakpoints
  generalize m.attempt honorBreakpoints = taken at hattempted
  cases hattempted with
  | interrupt => exact .inr (.inl ⟨_, _, rfl⟩)
  | breakpoint _ hhonor => exact .inr (.inr ⟨hhonor, _, rfl⟩)
  | fetchFault => exact .inr (.inl ⟨_, _, rfl⟩)
  | illegal => exact .inr (.inl ⟨_, _, rfl⟩)
  | @executed word s i _ _ hfetch _ hexecuted =>
    have hfetched : (m.afterFetch word s).flags.privileged = false :=
      (congrArg (·.flags.privileged) (afterFetch_sameCore hfetch)).trans huser
    rw [← hexecuted]
    obtain hretired | htrap := attemptInstruction_user hfetched i
    · exact .inl hretired
    · exact .inr (.inl htrap)

/-- The ways in which a step comes to need a trap, with the machine that then enters it. Once the fetch
    has succeeded the program counter points behind the instruction; otherwise only a word store that
    faults on memory may have left a trace. -/
inductive TrapDue (m : Machine δ) : TrapCause → Machine δ → Prop
  | interrupt {index : Word} {s : Machine δ} (hcore : SameCore m s) : TrapDue m (.hardware index) s
  | fetch {fault : Fault} {s : Machine δ} (hfetch : m.fetch = .error fault s) (hcore : SameCore m s) :
    TrapDue m (.fault fault) s
  | instruction {word : Word} {fetched s : Machine δ} {cause : TrapCause}
    (hfetch : m.fetch = .ok word fetched) (hcause : ∀ index, cause ≠ .hardware index)
    (hcore : SameCore (m.setPc (m.pc + 4)) s) : TrapDue m cause s
  | store {word : Word} {fetched s : Machine δ} {i : Instruction} (hfetch : m.fetch = .ok word fetched)
    (hword : Instruction.ofWord? word = some i) (hstores : i.opcode.storesWord = true)
    (hstore : StoresInWindow (m.setPc (m.pc + 4)) s) : TrapDue m (.fault .memory) s

namespace TrapDue

variable {m s : Machine δ} {cause : TrapCause}

/-- Up to the trap, no register but the program counter has changed. -/
theorem registers_get (h : TrapDue m cause s) {r : Register} (hr : r ≠ .programCounter) :
    s.registers.get r = m.registers.get r := by
  have hmoved : (m.setPc (m.pc + 4)).registers.get r = m.registers.get r :=
    RegisterFile.get_set_of_ne _ _ hr.symm
  cases h with
  | interrupt hcore => rw [hcore.registers]
  | fetch hfetch hcore => rw [hcore.registers]
  | instruction hfetch hcause hcore => rw [hcore.registers, hmoved]
  | store hfetch hword hstores hstore => rw [hstore.registers, hmoved]

end TrapDue

end Machine

end Risc32
