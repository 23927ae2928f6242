import Risc32.Proofs.Machine.Alike
import Risc32.Proofs.Machine.Execution

namespace Risc32

/-- The outcomes of a run without its stops at breakpoints. -/
def withoutStops (outcomes : List Outcome) : List Outcome :=
  outcomes.filter fun outcome => !outcome.isBreakpoint

namespace Machine

variable {δ : Type} [Device δ]

/-- The outcomes of a number of steps, and the machine after them. -/
def trace (m : Machine δ) (honorBreakpoints : Bool) : Nat → List Outcome × Machine δ
  | 0 => ([], m)
  | n + 1 =>
    let taken := m.step honorBreakpoints
    let rest := taken.2.trace honorBreakpoints n
    (taken.1 :: rest.1, rest.2)

/-- The machines differ at most in their journals and in the breakpoint passed last. -/
abbrev AlikeButPast (first second : Machine δ) : Prop :=
  Alike (fun _ _ => True) first second

omit [Device δ] in
theorem AlikeButPast.refl (m : Machine δ) : AlikeButPast m m :=
  ⟨m.bus.journal, m.resumePast, trivial, rfl⟩

omit [Device δ] in
/-- A machine that has stopped does not stop again. -/
theorem stopped_stops (m : Machine δ) (honorBreakpoints : Bool) :
    m.stopped.stops honorBreakpoints = false := by
  have hpc : m.stopped.pc = m.pc := congrArg (·.pc) m.pollInterrupt_sameCore
  have hpast : m.stopped.resumePast = some m.stopped.pc := congrArg some hpc.symm
  simp [stops, hpast]

/-- Nothing is left on the line of a machine that has stopped, so that it goes on where it stopped. -/
theorem stopped_advance {m : Machine δ} (h : m.pollInterrupt.1 = none) (honorBreakpoints : Bool) :
    m.stopped.advance honorBreakpoints = fetchAndPerform { m.stopped with resumePast := none } := by
  have hquiet : m.stopped.hasPendingInterrupt = false := hasPendingInterrupt_of_poll h
  have hpoll := pollInterrupt_of_quiet hquiet
  have hready : m.stopped.ready = { m.stopped with resumePast := none } := by rw [ready, hpoll]
  rw [advance_of_none (congrArg Prod.fst hpoll), stopped_stops, hready]
  rfl

/-- What a step that honors breakpoints does in comparison with one that does not: the same, or it stops
    and the step after it does the same. -/
theorem step_honoring {first second : Machine δ} (h : AlikeButPast first second) :
    SameOutcome (fun _ _ => True) (first.step false) (second.step true) ∨
      second.step true = (.breakpoint second.pc, second.stopped) ∧
        SameOutcome (fun _ _ => True) (first.step false) (second.stopped.step true) := by
  obtain ⟨hindex, hpolled⟩ := h.pollInterrupt
  cases hpoll : second.pollInterrupt.1 with
  | some index =>
    refine .inl (step_alike_of_advance ?_)
    rw [advance_of_interrupt hpoll, advance_of_interrupt (hindex.symm.trans hpoll)]
    exact trap_alike hpolled _ _
  | none =>
    have hfirst : first.advance false = fetchAndPerform first.ready := by
      rw [advance_of_none (hindex.symm.trans hpoll)]
      rfl
    cases hstops : second.stops true with
    | false =>
      refine .inl (step_alike_of_advance ?_)
      rw [hfirst, advance_of_none hpoll, hstops]
      exact fetchAndPerform_alike (hpolled.of_related trivial)
    | true =>
      have hadvance : second.advance true = (.breakpoint second.pc, second.stopped) := by
        rw [advance_of_none hpoll, hstops]
        rfl
      refine .inr ⟨?_, step_alike_of_advance ?_⟩
      · rw [step, hadvance]
        rfl
      · rw [hfirst, stopped_advance hpoll]
        exact fetchAndPerform_alike ((hpolled.note_right _).of_related trivial)

theorem withoutStops_cons {outcome : Outcome} (h : outcome.isBreakpoint = false)
    (outcomes : List Outcome) :
    withoutStops (outcome :: outcomes) = outcome :: withoutStops outcomes := by
  simp [withoutStops, h]

theorem withoutStops_breakpoint (pc : Word) (outcomes : List Outcome) :
    withoutStops (.breakpoint pc :: outcomes) = withoutStops outcomes := by
  simp [withoutStops, Outcome.isBreakpoint]

/-- A run that honors breakpoints follows the run without them: `steps` is the least number of steps
    after which it has produced `n` outcomes other than stops, and they are those of the other run. The
    induction is on `n`; each step of the other run takes one or two. -/
theorem trace_follows (n : Nat) {first second : Machine δ} (h : AlikeButPast first second) :
    ∃ steps ≤ 2 * n,
      withoutStops (second.trace true steps).1 = (first.trace false n).1 ∧
      (∀ fewer < steps, (withoutStops (second.trace true fewer).1).length < n) ∧
      AlikeButPast (first.trace false n).2 (second.trace true steps).2 := by
  induction n generalizing first second with
  | zero => exact ⟨0, Nat.le_refl 0, rfl, fun fewer hfewer => absurd hfewer (Nat.not_lt_zero fewer), h⟩
  | succ n ih =>
    have hproduced := first.step_isBreakpoint
    -- After a step of both runs with the same outcome, the rest follows.
    have follows {next : Machine δ}
        (hsame : SameOutcome (fun _ _ => True) (first.step false) (next.step true)) :
        ∃ steps ≤ 2 * n + 1,
          withoutStops (next.trace true steps).1 = (first.trace false (n + 1)).1 ∧
          (∀ fewer < steps, (withoutStops (next.trace true fewer).1).length < n + 1) ∧
          AlikeButPast (first.trace false (n + 1)).2 (next.trace true steps).2 := by
      obtain ⟨houtcome, hafter⟩ := hsame
      obtain ⟨steps, hsteps, houtcomes, hleast, hlast⟩ := ih hafter
      refine ⟨steps + 1, by omega, ?_, fun fewer hfewer => ?_, hlast⟩
      · simp only [trace, houtcome, withoutStops_cons hproduced, houtcomes]
      · cases fewer with
        | zero => exact Nat.succ_pos n
        | succ fewer =>
          have hrest := hleast fewer (by omega)
          simp only [trace, houtcome, withoutStops_cons hproduced, List.length_cons]
          omega
    obtain hsame | ⟨hstop, hsame⟩ := step_honoring h
    · obtain ⟨steps, hsteps, hrest⟩ := follows hsame
      exact ⟨steps, by omega, hrest⟩
    · obtain ⟨steps, hsteps, houtcomes, hleast, hlast⟩ := follows hsame
      refine ⟨steps + 1, by omega, ?_, fun fewer hfewer => ?_, ?_⟩
      · simp only [trace, hstop, withoutStops_breakpoint, houtcomes]
      · cases fewer with
        | zero => exact Nat.succ_pos n
        | succ fewer =>
          simp only [trace, hstop, withoutStops_breakpoint]
          exact hleast fewer (by omega)
      · simp only [trace, hstop]
        exact hlast

/-- The step after a stop does not stop. -/
theorem step_after_breakpoint {m after : Machine δ} {pc : Word}
    (h : m.step true = (.breakpoint pc, after)) : (after.step true).1.isBreakpoint = false := by
  have hproduced := m.step_isBreakpoint
  obtain ⟨houtcome, -⟩ | ⟨hstop, houtcome, -⟩ := step_honoring (AlikeButPast.refl m)
  · rw [← houtcome, h] at hproduced
    cases hproduced
  · rw [h] at hstop
    cases hstop
    rw [houtcome]
    exact hproduced

theorem trace_no_adjacent_stops (steps : Nat) (m : Machine δ) (before after : List Outcome)
    (pc other : Word) :
    (m.trace true steps).1 ≠ before ++ .breakpoint pc :: .breakpoint other :: after := by
  induction before generalizing m steps with
  | nil =>
    intro h
    obtain _ | _ | steps := steps
    · cases h
    · cases (List.cons.inj h).2
    · simp only [trace, List.nil_append, List.cons.injEq] at h
      obtain ⟨hfirst, hsecond, -⟩ := h
      have hproduced := step_after_breakpoint (m := m) (Prod.ext hfirst rfl)
      rw [hsecond] at hproduced
      cases hproduced
  | cons outcome before ih =>
    intro h
    cases steps with
    | zero => cases h
    | succ steps =>
      simp only [trace, List.cons_append, List.cons.injEq] at h
      exact ih steps _ h.2

/-- Breakpoints are transparent, for every machine, whichever addresses they are set on and however its
    devices behave. As soon as a run that honors breakpoints has produced `n` outcomes other than stops,
    they are those of `n` steps that do not honor them, and the machine is the same as after these: in
    everything but the journal and the memory of the breakpoint passed last. Two stops never follow each
    other, so that at most twice as many steps are needed. -/
theorem breakpoints_transparent (m : Machine δ) (n : Nat) :
    (∃ steps ≤ 2 * n,
      withoutStops (m.trace true steps).1 = (m.trace false n).1 ∧
      (∀ fewer < steps, (withoutStops (m.trace true fewer).1).length < n) ∧
      AlikeButPast (m.trace false n).2 (m.trace true steps).2) ∧
    ∀ (steps : Nat) (before after : List Outcome) (pc other : Word),
      (m.trace true steps).1 ≠ before ++ .breakpoint pc :: .breakpoint other :: after :=
  ⟨trace_follows n (AlikeButPast.refl m), fun steps => trace_no_adjacent_stops steps m⟩

end Machine

end Risc32
