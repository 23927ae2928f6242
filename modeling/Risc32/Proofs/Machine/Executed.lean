import Risc32.Proofs.BreakpointTransparency
import Risc32.Proofs.Machine.Effects
import Risc32.Proofs.ProtectedContext

namespace Risc32

namespace Machine

variable {δ : Type} {start before middle after m : Machine δ}

/-- From one instruction to the next, the program counter moves to wherever the next one has been fetched, and
    devices may do anything. -/
def Fetched (before after : Machine δ) : Prop :=
  ∃ address, SameCore (before.setPc address) after

namespace Fetched

theorem of_sameCore (h : SameCore before after) : Fetched before after := by
  refine ⟨before.pc, ?_⟩
  have hstay : before.setPc before.pc = before := by
    unfold setPc pc
    rw [RegisterFile.setPc, RegisterFile.pc, RegisterFile.set_get_self]
  rwa [hstay]

theorem registers_get (h : Fetched before after) {r : Register} (hr : r ≠ .programCounter) :
    after.registers.get r = before.registers.get r := by
  obtain ⟨address, hcore⟩ := h
  rw [hcore.registers]
  exact RegisterFile.get_set_of_ne _ _ hr.symm

theorem flags (h : Fetched before after) : after.flags = before.flags := by
  obtain ⟨address, hcore⟩ := h
  exact congrArg (·.flags) hcore

end Fetched

/-- Programs run in the same setting: what read-only memory holds, where memory lies, where handlers are found
    and where a debugger stops. -/
structure SameSetting (before after : Machine δ) : Prop where
  rom : after.rom = before.rom
  layout : after.layout = before.layout
  vectors : after.vectors = before.vectors
  breakpoints : after.breakpoints = before.breakpoints

namespace SameSetting

instance : IsPreorder (Machine δ) SameSetting where
  refl _ := ⟨rfl, rfl, rfl, rfl⟩
  trans _ _ _ hfirst hsecond :=
    { rom := hsecond.rom.trans hfirst.rom
      layout := hsecond.layout.trans hfirst.layout
      vectors := hsecond.vectors.trans hfirst.vectors
      breakpoints := hsecond.breakpoints.trans hfirst.breakpoints }

theorem of_sameCore (h : SameCore before after) : SameSetting before after where
  rom := congrArg (·.rom) h
  layout := congrArg (·.layout) h
  vectors := congrArg (·.vectors) h
  breakpoints := congrArg (·.breakpoints) h

end SameSetting

/-- What instructions leave alone, whichever they are: the setting in which they run, and the context that the
    last trap has saved. -/
structure Undisturbed (before after : Machine δ) : Prop extends SameSetting before after where
  savedPc : after.savedPc = before.savedPc
  savedFlags : after.savedFlags = before.savedFlags

namespace Undisturbed

instance : IsPreorder (Machine δ) Undisturbed where
  refl _ := ⟨Std.Refl.refl _, rfl, rfl⟩
  trans _ _ _ hfirst hsecond :=
    { toSameSetting := IsTrans.trans _ _ _ hfirst.toSameSetting hsecond.toSameSetting
      savedPc := hsecond.savedPc.trans hfirst.savedPc
      savedFlags := hsecond.savedFlags.trans hfirst.savedFlags }

theorem of_sameCore (h : SameCore before after) : Undisturbed before after where
  toSameSetting := .of_sameCore h
  savedPc := congrArg (·.savedPc) h
  savedFlags := congrArg (·.savedFlags) h

theorem of_within {footprint : Footprint} (h : Within footprint before after) : Undisturbed before after :=
  ⟨⟨h.rom, h.layout, h.vectors, h.breakpoints⟩, h.savedPc, h.savedFlags⟩

theorem of_fetched (h : Fetched before after) : Undisturbed before after := by
  obtain ⟨address, hcore⟩ := h
  have hmoved : Undisturbed before (before.setPc address) := ⟨⟨rfl, rfl, rfl, rfl⟩, rfl, rfl⟩
  exact IsTrans.trans _ _ _ hmoved (.of_sameCore hcore)

end Undisturbed

variable [Device δ]

/-- The instructions have been executed one after the other, and none of them has raised a trap. -/
inductive Executed (start : Machine δ) : List Instruction → Machine δ → Prop
  | start {m : Machine δ} (hcore : SameCore start m) : Executed start [] m
  | instruction {instructions : List Instruction} {m fetched after later : Machine δ} {i : Instruction}
    {flow : Flow} (h : Executed start instructions m) (hfetch : Fetched m fetched)
    (hrun : (execute i).run fetched = .ok flow after) (hflow : ∀ index, flow ≠ .softwareInterrupt index)
    (hlater : SameCore after later) : Executed start (instructions ++ [i]) later

/-- The instructions will succeed one after the other, and will not ask a device themselves; in the end the
    property holds. -/
def LeadsTo (P : Machine δ → Prop) : List Instruction → Machine δ → Prop
  | [], m => P m
  | i :: rest, m => ∀ fetched, Fetched m fetched →
      ∃ after, (execute i).run fetched = .ok .next after ∧ after.bus = fetched.bus ∧
        ∀ later, SameCore after later → LeadsTo P rest later

/-- Each step of the machine gets to execute one of the instructions, in their order. -/
def StepsThrough (honorBreakpoints : Bool) : List Instruction → Machine δ → Prop
  | [], _ => True
  | i :: rest, m =>
    m.isDiverted = false ∧ m.Executes honorBreakpoints i ∧
      StepsThrough honorBreakpoints rest (m.step honorBreakpoints).2

instance StepsThrough.decidable (honorBreakpoints : Bool) :
    ∀ (instructions : List Instruction) (m : Machine δ), Decidable (StepsThrough honorBreakpoints instructions m)
  | [], _ => isTrue trivial
  | _ :: rest, m =>
    have := StepsThrough.decidable honorBreakpoints rest (m.step honorBreakpoints).2
    inferInstanceAs (Decidable (_ ∧ _ ∧ _))

/-- Executing instructions without a trap leaves what has been saved at the last one. The induction is on the
    instructions. -/
theorem Executed.undisturbed {instructions : List Instruction} (h : Executed start instructions m) :
    Undisturbed start m := by
  induction h with
  | start hcore => exact .of_sameCore hcore
  | @instruction instructions before fetched after later i flow _ hfetch hrun _ hlater ih =>
    calc Undisturbed start before := ih
      Undisturbed _ fetched := .of_fetched hfetch
      Undisturbed _ after := .of_within (execute_within hrun)
      Undisturbed _ later := .of_sameCore hlater

/-- What devices do after the last instruction is part of the run. -/
theorem Executed.trans_sameCore {instructions : List Instruction} (h : Executed start instructions m)
    (hcore : SameCore m after) : Executed start instructions after := by
  cases h with
  | start hbefore => exact .start (IsTrans.trans _ _ _ hbefore hcore)
  | instruction hprevious hfetch hrun hflow hlater =>
    exact .instruction hprevious hfetch hrun hflow (IsTrans.trans _ _ _ hlater hcore)

/-- A step that enters no trap executes an instruction or is stopped by a breakpoint. -/
theorem Executed.step {instructions : List Instruction} (h : Executed start instructions m)
    (honorBreakpoints : Bool) (hplain : (m.step honorBreakpoints).1.entersTrap = false) :
    ∃ more, Executed start (instructions ++ more) (m.step honorBreakpoints).2 := by
  have hgoesOn : ∀ cause cycles, (m.attempt honorBreakpoints).1 ≠ .trap cause cycles := by
    intro cause cycles htrap
    rw [(step_of_attempt htrap).1] at hplain
    rw [conclude, (trap_masks _ cause cycles).1] at hplain
    cases hplain
  have hticked := m.step_sameCore honorBreakpoints
  rw [(conclude_goesOn hgoesOn).1] at hticked
  have hattempted := m.attempted honorBreakpoints
  generalize m.attempt honorBreakpoints = taken at hattempted hgoesOn hticked
  cases hattempted with
  | interrupt => exact absurd rfl (hgoesOn _ _)
  | fetchFault => exact absurd rfl (hgoesOn _ _)
  | illegal => exact absurd rfl (hgoesOn _ _)
  | breakpoint =>
    refine ⟨[], ?_⟩
    rw [List.append_nil]
    have hstopped : SameCore m m.stopped := m.pollInterrupt_sameCore
    exact h.trans_sameCore (IsTrans.trans _ _ _ hstopped hticked)
  | @executed word s i _ _ hfetch _ hexecute =>
    have hfetched : Fetched m (m.afterFetch word s) := ⟨_, afterFetch_sameCore hfetch⟩
    subst hexecute
    unfold attemptInstruction at hgoesOn hticked
    cases hrun : (execute i).run (m.afterFetch word s) with
    | error fault after =>
      rw [hrun] at hgoesOn
      exact absurd rfl (hgoesOn _ _)
    | ok flow after =>
      rw [hrun] at hgoesOn hticked
      cases flow with
      | softwareInterrupt index => exact absurd rfl (hgoesOn _ _)
      | _ => exact ⟨[i], .instruction h hfetched hrun (by simp) hticked⟩

/-- A step carries on with the instructions when it executes the first of them. -/
theorem LeadsTo.step {P : Machine δ → Prop} {i : Instruction} {rest : List Instruction}
    (h : LeadsTo P (i :: rest) m) (hdiverted : m.isDiverted = false) (honorBreakpoints : Bool)
    (hexecutes : m.Executes honorBreakpoints i) :
    (m.step honorBreakpoints).1 = .retired i.opcode i.opcode.cycles ∧
      LeadsTo P rest (m.step honorBreakpoints).2 := by
  obtain ⟨s, hcore, hattempt⟩ := attempt_of_executes (pollInterrupt_isNone_iff.2 hdiverted) hexecutes
  obtain ⟨after, hrun, -, hrest⟩ := h s ⟨_, hcore⟩
  obtain ⟨houtcome, hafter⟩ := step_retires hattempt hrun
  exact ⟨houtcome, hrest _ hafter⟩

theorem trace_succ (m : Machine δ) (honorBreakpoints : Bool) (n : Nat) :
    m.trace honorBreakpoints (n + 1) =
      ((m.step honorBreakpoints).1 :: ((m.step honorBreakpoints).2.trace honorBreakpoints n).1,
        ((m.step honorBreakpoints).2.trace honorBreakpoints n).2) :=
  rfl

/-- Stepping through the instructions retires all of them, and the property holds then. The induction is on the
    instructions. -/
theorem LeadsTo.trace {P : Machine δ → Prop} {instructions : List Instruction} (h : LeadsTo P instructions m)
    {honorBreakpoints : Bool} (hsteps : StepsThrough honorBreakpoints instructions m) :
    (m.trace honorBreakpoints instructions.length).1 =
        instructions.map (fun i => .retired i.opcode i.opcode.cycles) ∧
      P (m.trace honorBreakpoints instructions.length).2 := by
  induction instructions generalizing m with
  | nil => exact ⟨rfl, h⟩
  | cons i rest ih =>
    obtain ⟨hdiverted, hexecutes, hrest⟩ := hsteps
    obtain ⟨houtcome, hlater⟩ := h.step hdiverted honorBreakpoints hexecutes
    obtain ⟨houtcomes, hend⟩ := ih hlater hrest
    rw [List.length_cons, trace_succ, List.map_cons, ← houtcomes, ← houtcome]
    exact ⟨rfl, hend⟩

end Machine

end Risc32
