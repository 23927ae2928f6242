import Risc32.Proofs.Controller.Actions

namespace Risc32

namespace Outcome

/-- Whether the run ends with the outcome. -/
def isFatal : Outcome → Bool
  | killed _ | aborted _ => true
  | _ => false

/-- Whether the outcome is that of a halt instruction. -/
def isHalt : Outcome → Bool
  | halted _ => true
  | _ => false

end Outcome

/-- The switches by which a host runs a machine. -/
structure Switches where
  isLoaded : Bool
  isStarted : Bool
  isKilled : Bool
  isHalted : Bool
  isWaiting : Bool
  inSingleStep : Bool
deriving DecidableEq, Repr

/-- What the run loop makes of the outcome of a step. -/
def Switches.afterOutcome (s : Switches) (outcome : Outcome) : Switches :=
  { s with
    isKilled := s.isKilled || outcome.isFatal
    isWaiting := s.isWaiting || outcome.isHalt
    inSingleStep := s.inSingleStep || outcome.isBreakpoint }

namespace Controller

variable {δ : Type}

def switches (c : Controller δ) : Switches where
  isLoaded := c.isLoaded
  isStarted := c.isStarted
  isKilled := c.isKilled
  isHalted := c.isHalted
  isWaiting := c.isWaiting
  inSingleStep := c.inSingleStep

/-- A controller that has just been built has no switch on. -/
theorem ofConfig_switches {config : Config} {c : Controller δ} (h : ofConfig config = .ok c) :
    c.switches = ⟨false, false, false, false, false, false⟩ := by
  unfold ofConfig at h
  split at h
  · cases h
    rfl
  · cases h

theorem isAvailable_eq (c : Controller δ) : c.isAvailable = (c.isStarted && !c.isKilled) := by
  unfold isAvailable runState
  cases c.isKilled <;> cases c.isStarted <;> cases c.inSingleStep <;>
    cases c.isHalted <;> cases c.isWaiting <;> rfl

theorem started_of_available {c : Controller δ} (h : c.isAvailable = true) : c.isStarted = true := by
  rw [isAvailable_eq, Bool.and_eq_true] at h
  exact h.1

theorem alive_of_available {c : Controller δ} (h : c.isAvailable = true) : c.isKilled = false := by
  rw [isAvailable_eq, Bool.and_eq_true] at h
  simpa using h.2

/-- Whether a turn of the loop makes a step of the machine. -/
def loopSteps (c : Controller δ) : Bool :=
  !c.isKilled && !c.isParked && !c.isWaiting

/-- Whether a step on behalf of the host is made when the host asks for it. -/
def hostSteps (c : Controller δ) : Bool :=
  c.isAvailable && c.inSingleStep

theorem apply_switches (outcome : Outcome) (c : Controller δ) :
    (c.after (apply outcome)).switches = c.switches.afterOutcome outcome := by
  cases outcome <;>
    simp [Controller.after, apply, switches, note, Switches.afterOutcome, Outcome.isFatal, Outcome.isHalt,
      Outcome.isBreakpoint]

variable [Device δ]

/-- The switches after an action. -/
def switchesAfter (c : Controller δ) : Action δ → Switches
  | .loadProgram image =>
    { c.switches with
      isLoaded := c.isLoaded || !c.isStarted && (c.machine.loadImage image).toOption.isSome }
  | .start singleStep =>
    if c.isKilled || !c.isLoaded || c.isStarted then c.switches
    else { c.switches with isStarted := true, inSingleStep := c.inSingleStep || singleStep }
  | .halt => { c.switches with isHalted := c.isHalted || c.isAvailable }
  | .resume =>
    { c.switches with
      isHalted := c.isHalted && !c.isAvailable
      isWaiting := c.isWaiting && !c.isAvailable }
  | .reset toSingleStep =>
    if c.isKilled then c.switches
    else { c.switches with isHalted := false, isWaiting := false, inSingleStep := toSingleStep }
  | .kill => { c.switches with isKilled := c.isKilled || c.isAvailable }
  | .activateSingleStep => { c.switches with inSingleStep := c.inSingleStep || c.isAvailable }
  | .deactivateSingleStep => { c.switches with inSingleStep := c.inSingleStep && !c.isAvailable }
  | .stepOnce =>
    { c.switches with isKilled := c.isKilled || c.hostSteps && (c.machine.step false).1.isFatal }
  | .turn =>
    if c.loopSteps then c.switches.afterOutcome (c.machine.step true).1
    else { c.switches with
      isWaiting := c.isWaiting && (c.isKilled || c.isParked || !c.machine.hasPendingInterrupt) }
  | .attach _ | .loadRom _ | .raise _ | .setFrequency _ | .edit _ | .operate _ => c.switches

theorem turn_switches (c : Controller δ) : (c.after turn).switches = c.switchesAfter .turn := by
  have hrun := c.run_turn
  simp only [switchesAfter, loopSteps]
  by_cases hkilled : c.isKilled = true
  · rw [if_pos hkilled] at hrun
    rw [after_of_ok hrun]
    simp [hkilled, switches, note]
  · rw [if_neg hkilled] at hrun
    by_cases hparked : c.isParked = true
    · rw [if_pos hparked] at hrun
      rw [after_of_ok hrun]
      simp [hparked, switches]
    · rw [if_neg hparked] at hrun
      by_cases hwaiting : c.isWaiting = true
      · rw [if_pos hwaiting] at hrun
        rw [after_of_ok hrun, awaitInterrupt]
        by_cases hpending : c.machine.hasPendingInterrupt = true <;>
          simp [hkilled, hparked, hwaiting, hpending, switches, note]
      · rw [if_neg hwaiting] at hrun
        have happly := apply_switches (c.machine.step true).1 { c with machine := (c.machine.step true).2 }
        simp only [hkilled, hparked, hwaiting]
        refine Eq.trans ?_ happly
        unfold Controller.after
        rw [hrun]
        cases (apply (c.machine.step true).1).run { c with machine := (c.machine.step true).2 } <;> rfl

theorem stepOnce_switches (c : Controller δ) :
    (c.after stepOnce).switches = c.switchesAfter .stepOnce := by
  have hrun := c.run_stepOnce
  simp only [switchesAfter, hostSteps]
  by_cases havailable : c.isAvailable = true
  · rw [if_neg (by simp [havailable])] at hrun
    by_cases hsingle : c.inSingleStep = true
    · rw [if_neg (by simp [hsingle])] at hrun
      have halive := alive_of_available havailable
      simp only [havailable, hsingle, halive]
      generalize c.machine.step false = taken at hrun
      obtain ⟨outcome, machine⟩ := taken
      cases outcome with
      | aborted error =>
        rw [after_of_error hrun]
        simp [switches, Outcome.isFatal, hsingle]
      | _ =>
        rw [after_of_ok hrun]
        simp [switches, Outcome.isFatal, hsingle, halive]
    · rw [if_pos (by simp [hsingle])] at hrun
      rw [after_of_error hrun]
      simp [hsingle, switches]
  · rw [if_pos (by simp [havailable])] at hrun
    rw [after_of_error hrun]
    simp [havailable, switches]

/-- An action does to the switches what `switchesAfter` says, whether or not it is refused. -/
theorem act_switches (c : Controller δ) (action : Action δ) :
    (c.act action).switches = c.switchesAfter action := by
  cases action with
  | turn =>
    rw [act, Action.run, after_discard]
    exact c.turn_switches
  | stepOnce =>
    rw [act, Action.run, after_discard]
    exact c.stepOnce_switches
  | attach device =>
    rw [act, Action.run, Controller.after, run_attach]
    cases hstarted : c.isStarted <;> simp [hstarted, switchesAfter, switches]
  | loadRom image =>
    rw [act, Action.run, Controller.after, run_loadRom]
    cases hstarted : c.isStarted <;> cases c.machine.loadRom image <;>
      simp [hstarted, switchesAfter, switches]
  | loadProgram image =>
    rw [act, Action.run, Controller.after, run_loadProgram]
    simp only [switchesAfter]
    cases hstarted : c.isStarted <;> cases hloaded : c.isLoaded <;> cases c.machine.loadImage image <;>
      simp [hstarted, hloaded, switches, note, Except.toOption]
  | start singleStep =>
    rw [act, Action.run, Controller.after, run_start]
    simp only [switchesAfter]
    cases hkilled : c.isKilled <;> cases hloaded : c.isLoaded <;> cases hstarted : c.isStarted <;>
      simp [hkilled, hloaded, switches, note]
  | halt =>
    rw [act, Action.run, Controller.after, run_halt]
    simp only [switchesAfter]
    cases c.isAvailable <;> cases hhalted : c.isHalted <;> simp [hhalted, switches, note]
  | resume =>
    rw [act, Action.run, Controller.after, run_resume]
    simp only [switchesAfter]
    cases c.isAvailable <;> cases hhalted : c.isHalted <;> cases hwaiting : c.isWaiting <;>
      simp [hhalted, hwaiting, switches, note]
  | reset toSingleStep =>
    rw [act, Action.run, Controller.after, run_reset]
    simp only [switchesAfter]
    cases hkilled : c.isKilled <;> simp [hkilled, switches, note]
  | kill =>
    rw [act, Action.run, Controller.after, run_kill]
    simp only [switchesAfter]
    cases c.isAvailable <;> simp [switches, note]
  | activateSingleStep =>
    rw [act, Action.run, Controller.after, run_activateSingleStep]
    simp only [switchesAfter]
    cases c.isAvailable <;> cases hsingle : c.inSingleStep <;> simp [hsingle, switches, note]
  | deactivateSingleStep =>
    rw [act, Action.run, Controller.after, run_deactivateSingleStep]
    simp only [switchesAfter]
    cases c.isAvailable <;> cases hsingle : c.inSingleStep <;> simp [hsingle, switches, note]
  | raise index => rfl
  | setFrequency frequency => rfl
  | edit change => rfl
  | operate operation => rfl

end Controller

end Risc32
