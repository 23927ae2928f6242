import Risc32.Peripheral
import Risc32.Proofs.Machine.Alike
import Risc32.Proofs.Machine.Execution
import Risc32.Proofs.Machine.Reachable

namespace Risc32.Machine

variable {δ ε α : Type}

/-- A breakpoint is hit at a virtual address that is in the one set, or that lies at a physical address in the
    other. -/
theorem breakpointHit_iff {m : Machine δ} {pc : Word} :
    m.breakpointHit pc = true ↔ m.breakpoints.virtualAddresses.contains pc = true ∨
      ∃ address, m.resolve pc = .ok address ∧ m.breakpoints.physicalAddresses.contains address = true := by
  rw [breakpointHit, Bool.or_eq_true]
  cases m.resolve pc with
  | ok address => simp
  | error fault => simp

/-- A breakpoint leaves nothing on the machine but the memory of it: the line has lost what was raised
    while interrupts were masked, and the journal has a record of that. -/
theorem stopped_eq {m : Machine δ} (h : m.isDiverted = false) :
    ∃ journal, m.stopped =
      { m with bus := { m.bus with line := {}, journal := journal }, resumePast := some m.pc } := by
  refine ⟨m.stopped.bus.journal, ?_⟩
  by_cases hmasked : m.interruptsMasked = true
  · rw [stopped, pollInterrupt_of_masked hmasked]
    rfl
  · have hquiet : m.hasPendingInterrupt = false := by simpa [isDiverted, hmasked] using h
    rw [stopped, pollInterrupt_of_quiet hquiet, ← line_of_quiet hquiet]
    rfl

/-- The computation leaves the memory of the breakpoint reported last. -/
abbrev KeepsPast (x : EStateM ε (Machine δ) α) : Prop :=
  Keeps (fun before after => after.resumePast = before.resumePast) x

/-- What does not look at the breakpoint reported last does not forget it, either. -/
theorem keepsPast_of_agrees {x : EStateM ε (Machine δ) α}
    (h : ∀ P, Agrees (Alike P) x x) : KeepsPast x := by
  intro before
  have hresult := h (fun _ past => past = before.resumePast) before before
    ⟨before.bus.journal, before.resumePast, rfl, rfl⟩
  generalize x.run before = result at hresult
  cases hresult with
  | ok hafter =>
    obtain ⟨_, _, hpast, hsame⟩ := hafter
    exact (congrArg (·.resumePast) hsame).trans hpast
  | error hafter =>
    obtain ⟨_, _, hpast, hsame⟩ := hafter
    exact (congrArg (·.resumePast) hsame).trans hpast

variable [Device δ]

theorem enterTrap_keepsPast (cause : TrapCause) :
    KeepsPast (enterTrap cause : EStateM TrapError (Machine δ) Word) :=
  keepsPast_of_agrees fun _ => enterTrap_alike cause

theorem trap_resumePast (m : Machine δ) (cause : TrapCause) (cycles : Nat) :
    (m.trap cause cycles).2.resumePast = m.resumePast :=
  trap_keeps (enterTrap_keepsPast cause) m cycles

theorem fetchAndPerform_resumePast (m : Machine δ) :
    m.fetchAndPerform.2.resumePast = m.resumePast := by
  have hself : Alike (fun _ past => past = m.resumePast) m m := ⟨m.bus.journal, m.resumePast, rfl, rfl⟩
  obtain ⟨-, _, _, hpast, hsame⟩ := fetchAndPerform_alike hself
  exact (congrArg (·.resumePast) hsame).trans hpast

/-- Whether the step gets to fetch: neither an interrupt comes before that nor a breakpoint is reported. -/
def fetches (m : Machine δ) (honorBreakpoints : Bool) : Bool :=
  !m.isDiverted && !(m.step honorBreakpoints).1.isBreakpoint

/-- Whether the breakpoint reported last is forgotten in the course of the operation. -/
def forgets (m : Machine δ) : Operation δ → Bool
  | .step honorBreakpoints => m.fetches honorBreakpoints
  | .boot => true
  | _ => false

/-- The breakpoint that the operation reports. -/
def reported? (m : Machine δ) : Operation δ → Option Word
  | .step honorBreakpoints =>
    match (m.step honorBreakpoints).1 with
    | .breakpoint pc => some pc
    | _ => none
  | _ => none

/-- Whether a breakpoint that was reported before the operations is not forgotten in their course. -/
def remembers (m : Machine δ) : List (Operation δ) → Bool
  | [] => true
  | operation :: rest => !m.forgets operation && (m.operate operation).remembers rest

/-- The breakpoint was reported in the course of the operations, and not forgotten since. -/
def Reported (m : Machine δ) (operations : List (Operation δ)) (pc : Word) : Prop :=
  ∃ earlier between,
    operations = earlier ++ .step true :: between ∧
    ((earlier.foldl operate m).step true).1 = .breakpoint pc ∧
    ((earlier.foldl operate m).operate (.step true)).remembers between = true

/-- A step gets to fetch unless an interrupt or a breakpoint comes first. -/
theorem fetches_eq (m : Machine δ) (honorBreakpoints : Bool) :
    m.fetches honorBreakpoints = (!m.isDiverted && !m.stops honorBreakpoints) := by
  cases hdiverted : m.isDiverted with
  | true => simp [fetches, hdiverted]
  | false =>
    cases hstops : m.stops honorBreakpoints with
    | true => simp [fetches, step_of_stops hdiverted hstops, Outcome.isBreakpoint]
    | false => simp [fetches, hdiverted, step_of_passes hdiverted hstops, fetchAndPerform_isBreakpoint]

theorem reported?_of_isBreakpoint {m : Machine δ} {honorBreakpoints : Bool}
    (h : (m.step honorBreakpoints).1.isBreakpoint = false) : m.reported? (.step honorBreakpoints) = none := by
  unfold reported?
  dsimp only
  cases houtcome : (m.step honorBreakpoints).1 with
  | breakpoint pc =>
    rw [houtcome] at h
    cases h
  | _ => rfl

/-- A step forgets the breakpoint reported last when it fetches, and only then. -/
theorem step_resumePast (m : Machine δ) (honorBreakpoints : Bool) :
    (m.step honorBreakpoints).2.resumePast =
      if m.fetches honorBreakpoints then none
      else (m.reported? (.step honorBreakpoints)).or m.resumePast := by
  rw [fetches_eq]
  cases hdiverted : m.isDiverted with
  | true =>
    obtain ⟨index, hstep⟩ := step_of_diverted hdiverted honorBreakpoints
    have hpolled : m.pollInterrupt.2.resumePast = m.resumePast := by rw [pollInterrupt_snd]
    have hsilent : m.reported? (.step honorBreakpoints) = none := by
      apply reported?_of_isBreakpoint
      rw [hstep]
      exact trap_isBreakpoint _ _ _
    rw [hsilent, hstep]
    exact (trap_resumePast _ _ _).trans hpolled
  | false =>
    cases hstops : m.stops honorBreakpoints with
    | true =>
      simp only [reported?, step_of_stops hdiverted hstops]
      rfl
    | false =>
      rw [step_of_passes hdiverted hstops]
      exact fetchAndPerform_resumePast _

/-- What becomes of the memory of the breakpoint reported last. -/
theorem operate_resumePast (m : Machine δ) (operation : Operation δ) :
    (m.operate operation).resumePast =
      if m.forgets operation then none else (m.reported? operation).or m.resumePast := by
  cases operation with
  | step honorBreakpoints => exact m.step_resumePast honorBreakpoints
  | enterTrap cause => exact afterRun_of_keeps (enterTrap_keepsPast cause) m
  | loadImage image =>
    simp only [operate, loadImage]
    cases m.ram.write 0 image <;> rfl
  | loadRom image =>
    simp only [operate, loadRom]
    cases m.rom.write 0 image <;> rfl
  | readByte address => exact afterRun_of_keeps (keepsPast_of_agrees fun _ => readByte_alike address) m
  | writeByte address value =>
    exact afterRun_of_keeps (keepsPast_of_agrees fun _ => writeByte_alike address value) m
  | readWord address => exact afterRun_of_keeps (keepsPast_of_agrees fun _ => readWord_alike address) m
  | writeWord address value =>
    exact afterRun_of_keeps (keepsPast_of_agrees fun _ => writeWord_alike address value) m
  | readPhysicalByte address =>
    exact afterRun_of_keeps (keepsPast_of_agrees fun _ => readPhysicalByte_alike address) m
  | writePhysicalByte address value =>
    exact afterRun_of_keeps (keepsPast_of_agrees fun _ => writePhysicalByte_alike address value) m
  | readPhysicalWord address =>
    have halike (P : Option Word → Option Word → Prop) :
        Agrees (Alike P) (Machine.readPhysicalWord address : Exec δ Word)
          (Machine.readPhysicalWord address) :=
      readBytes_agrees readPhysicalByte_alike address
    exact afterRun_of_keeps (keepsPast_of_agrees halike) m
  | _ => rfl

/-- Only a step that honors breakpoints reports one. -/
theorem reported?_eq_some {m : Machine δ} {operation : Operation δ} {pc : Word}
    (h : m.reported? operation = some pc) :
    operation = .step true ∧ (m.step true).1 = .breakpoint pc := by
  cases operation with
  | step honorBreakpoints =>
    cases honorBreakpoints with
    | false =>
      rw [reported?_of_isBreakpoint m.step_isBreakpoint] at h
      cases h
    | true =>
      refine ⟨rfl, ?_⟩
      unfold reported? at h
      dsimp only at h
      split at h
      · rename_i hreported
        cases h
        exact hreported
      · cases h
  | _ => cases h

theorem Reported.cons {m : Machine δ} {operation : Operation δ} {rest : List (Operation δ)} {pc : Word}
    (h : (m.operate operation).Reported rest pc) : m.Reported (operation :: rest) pc := by
  obtain ⟨earlier, between, rfl, hreported, hremembered⟩ := h
  exact ⟨operation :: earlier, between, rfl, hreported, hremembered⟩

/-- The breakpoint that a machine has in memory after a number of operations was in memory before them
    and has not been forgotten, or it was reported in their course and has not been forgotten since. The
    induction is on the operations. -/
theorem remembered_or_reported {m : Machine δ} {operations : List (Operation δ)} {pc : Word}
    (h : (operations.foldl operate m).resumePast = some pc) :
    m.resumePast = some pc ∧ m.remembers operations = true ∨ m.Reported operations pc := by
  induction operations generalizing m with
  | nil => exact .inl ⟨h, rfl⟩
  | cons operation rest ih =>
    obtain ⟨hpast, hremembered⟩ | hreported := ih h
    · rw [operate_resumePast] at hpast
      cases hforgets : m.forgets operation with
      | true => simp [hforgets] at hpast
      | false =>
        simp only [hforgets, Bool.false_eq_true, if_false] at hpast
        cases hreported : m.reported? operation with
        | none =>
          rw [hreported, Option.none_or] at hpast
          exact .inl ⟨hpast, by simp [remembers, hforgets, hremembered]⟩
        | some reported =>
          rw [hreported, Option.some_or, Option.some_inj] at hpast
          subst hpast
          obtain ⟨rfl, houtcome⟩ := reported?_eq_some hreported
          exact .inr ⟨[], rest, rfl, houtcome, hremembered⟩
    · exact .inr hreported.cons

omit [Device δ] in
/-- A machine that has just been built has no breakpoint in memory. -/
theorem ofConfig_resumePast {config : Config} {m : Machine δ} (h : ofConfig config = .ok m) :
    m.resumePast = none := by
  rw [ofConfig_eq] at h
  cases hvalidate : config.validate with
  | error error =>
    rw [hvalidate] at h
    cases h
  | ok layout =>
    rw [hvalidate] at h
    cases h
    rfl

/-- No breakpoint is run over, whatever has been done to a machine since it was built and however its
    devices behave: raises, edits of breakpoints, steps of either kind and boots in any order, and
    everything else that a host can do. A breakpoint matches the program counter itself or the place where it
    lies. A step that honors breakpoints gets to fetch at one only when it has been reported and not forgotten
    since, that is, without a fetch and without a boot in between. Conversely such a step, unless an interrupt
    comes first, reports every breakpoint that has not been, and changes nothing but the memory of it, the
    journal, and the line, from which interrupts are dropped while they are masked. What is called a fetch here
    is one: the rest of the step is to fetch and to execute. -/
theorem no_breakpoint_run_over {config : Config} {built : Machine δ}
    (hbuilt : ofConfig config = .ok built) (operations : List (Operation δ)) :
    let m := operations.foldl operate built
    let isMatched := m.breakpoints.virtualAddresses.contains m.pc = true ∨
      ∃ address, m.resolve m.pc = .ok address ∧ m.breakpoints.physicalAddresses.contains address = true
    (m.fetches true = true → isMatched → built.Reported operations m.pc) ∧
    (m.isDiverted = false → isMatched → ¬ built.Reported operations m.pc →
      ∃ journal, m.step true =
        (.breakpoint m.pc,
          { m with bus := { m.bus with line := {}, journal := journal }, resumePast := some m.pc })) ∧
    ∀ honorBreakpoints, m.fetches honorBreakpoints = true →
      m.step honorBreakpoints = (m.ready.fetchAndPerform.1, m.ready.fetchAndPerform.2.tick) := by
  intro m isMatched
  have hreported : m.resumePast = some m.pc → built.Reported operations m.pc := by
    intro hpast
    obtain ⟨hbefore, -⟩ | hreported := remembered_or_reported hpast
    · rw [ofConfig_resumePast hbuilt] at hbefore
      cases hbefore
    · exact hreported
  refine ⟨fun hfetches hmatched => ?_, fun hdiverted hmatched hsilent => ?_,
    fun honorBreakpoints hfetches => ?_⟩
  · have hhit := breakpointHit_iff.2 hmatched
    rw [fetches_eq, Bool.and_eq_true, Bool.not_eq_true', Bool.not_eq_true'] at hfetches
    have hpasses := hfetches.2
    simp only [stops, hhit, Bool.true_and, Bool.and_true, bne_eq_false_iff_eq] at hpasses
    exact hreported hpasses
  · have hstops : m.stops true = true := by
      have hhit := breakpointHit_iff.2 hmatched
      simp only [stops, hhit, Bool.true_and, Bool.and_true, bne_iff_ne]
      exact fun hpast => hsilent (hreported hpast)
    obtain ⟨journal, hstopped⟩ := stopped_eq hdiverted
    exact ⟨journal, by rw [step_of_stops hdiverted hstops, hstopped]⟩
  · rw [fetches_eq, Bool.and_eq_true, Bool.not_eq_true', Bool.not_eq_true'] at hfetches
    exact step_of_passes hfetches.1 hfetches.2

/-- A breakpoint on the place of the handler of an interrupt that is raised while the machine has stopped there.
    The interrupt is delivered first and leads to the same address, which then is passed. -/
theorem no_breakpoint_run_over_interrupted :
    let setup : List (Operation Peripheral) :=
      [.loadImage (List.replicate 51 0 ++ [52]), .setRegisters (RegisterFile.cleared.setPc 52),
        .setBreakpoints (Breakpoints.insertPhysical {} 52)]
    let operations := setup ++ [.step true, .raise 0, .step true]
    ∃ built, ofConfig ⟨64, 0, 16, 16, 0, 1, 1⟩ = .ok built ∧
      ((setup.foldl operate built).step true).1 = .breakpoint 52 ∧
      (operations.foldl operate built).fetches true = true ∧
      (operations.foldl operate built).savedPc = 52 ∧
      built.Reported operations 52 := by
  intro setup operations
  let built : Machine Peripheral :=
    assemble ⟨16, 16, by decide⟩ ⟨0, 1, 1⟩ (Memory.zeros 64) (Memory.zeros 16)
  have hbuilt : ofConfig ⟨64, 0, 16, 16, 0, 1, 1⟩ = .ok built := by rfl
  have htested : (!(setup.foldl operate built).isDiverted && (setup.foldl operate built).pc == 52 &&
      (setup.foldl operate built).breakpointHit 52 && (operations.foldl operate built).fetches true &&
      (operations.foldl operate built).breakpointHit 52 && (operations.foldl operate built).pc == 52 &&
      (operations.foldl operate built).savedPc == 52) = true := by decide +kernel
  simp only [Bool.and_eq_true, Bool.not_eq_true', beq_iff_eq] at htested
  obtain ⟨⟨⟨⟨⟨⟨hdiverted, hpc⟩, hhit⟩, hfetches⟩, hlater⟩, harrived⟩, hsaved⟩ := htested
  have hsilent : ¬ built.Reported setup 52 := by
    rintro ⟨earlier, between, hsetup, -, -⟩
    have hmem : Operation.step true ∈ setup := hsetup ▸ by simp
    simp [setup] at hmem
  obtain ⟨-, hreports, -⟩ := no_breakpoint_run_over hbuilt setup
  obtain ⟨hpassed, -, -⟩ := no_breakpoint_run_over hbuilt operations
  rw [hpc] at hreports
  rw [harrived] at hpassed
  obtain ⟨journal, hstep⟩ := hreports hdiverted (breakpointHit_iff.1 hhit) hsilent
  have hpassedHere := hpassed hfetches (breakpointHit_iff.1 hlater)
  exact ⟨built, hbuilt, congrArg Prod.fst hstep, hfetches, hsaved, hpassedHere⟩

end Risc32.Machine
