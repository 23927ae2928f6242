import Risc32.Proofs.Controller.Actions

namespace Risc32

theorem Memory.write_zero (memory : Memory) (data : List Byte) :
    memory.write 0 data =
      if memory.size < data.length then .error (.outOfRange memory.size memory.size)
      else .ok (memory.putAll 0 data) := by
  rw [write, Nat.zero_add, Nat.zero_max]
  by_cases hsize : data.length ≤ memory.size
  · rw [if_pos hsize, if_neg (Nat.not_lt.2 hsize)]
  · rw [if_neg hsize, if_pos (Nat.not_le.1 hsize)]

theorem Machine.loadImage_eq {δ : Type} (m : Machine δ) (image : List Byte) :
    m.loadImage image =
      if m.ram.size < image.length then .error ⟨image.length, m.ram.size⟩
      else .ok { m with ram := m.ram.putAll 0 image } := by
  rw [loadImage, Memory.write_zero]
  by_cases hsize : m.ram.size < image.length <;> simp only [hsize, if_true, if_false]

theorem Machine.loadRom_eq {δ : Type} (m : Machine δ) (image : List Byte) :
    m.loadRom image =
      if m.rom.size < image.length then .error ⟨image.length, m.rom.size⟩
      else .ok { m with rom := m.rom.putAll 0 image } := by
  rw [loadRom, Memory.write_zero]
  by_cases hsize : m.rom.size < image.length <;> simp only [hsize, if_true, if_false]

namespace Controller

variable {δ : Type}

/-- Why the action is refused, if it is. -/
def refusal? (c : Controller δ) : Action δ → Option ControlError
  | .attach _ => if c.isStarted then some .alreadyStarted else none
  | .loadRom image =>
    if c.isStarted then some .alreadyStarted
    else if c.machine.rom.size < image.length then
      some (.programTooLarge ⟨image.length, c.machine.rom.size⟩)
    else none
  | .loadProgram image =>
    if c.isStarted then some .alreadyStarted
    else if c.isLoaded then some .programAlreadyLoaded
    else if c.machine.ram.size < image.length then
      some (.programTooLarge ⟨image.length, c.machine.ram.size⟩)
    else none
  | .start _ =>
    if c.isKilled then some .killed
    else if !c.isLoaded then some .notLoaded
    else if c.isStarted then some .alreadyStarted
    else none
  | .halt | .resume | .kill => if c.isAvailable then none else some .notAvailable
  | .reset _ => if c.isKilled then some .killed else none
  | .activateSingleStep =>
    if !c.isAvailable then some .notAvailable
    else if c.inSingleStep then some .singleStepAlreadyActive
    else none
  | .deactivateSingleStep | .stepOnce =>
    if !c.isAvailable then some .notAvailable
    else if !c.inSingleStep then some .singleStepInactive
    else none
  | .raise _ | .setFrequency _ | .edit _ | .turn | .operate _ => none

variable [Device δ]

/-- An action is refused as `refusal?` says, with everything left as it is, and otherwise fails only by an
    abort. -/
theorem run_cases (c : Controller δ) (action : Action δ) :
    match c.refusal? action with
    | some error => action.run.run c = .error error c
    | none =>
      (∃ after, action.run.run c = .ok () after) ∨
        ∃ cause after, action.run.run c = .error (.aborted cause) after := by
  cases action with
  | attach device =>
    rw [Action.run, run_attach]
    cases hstarted : c.isStarted <;> simp [refusal?, hstarted]
  | loadRom image =>
    rw [Action.run, run_loadRom, Machine.loadRom_eq]
    by_cases hsize : c.machine.rom.size < image.length <;>
      cases hstarted : c.isStarted <;> simp [refusal?, hstarted, hsize]
  | loadProgram image =>
    rw [Action.run, run_loadProgram, Machine.loadImage_eq]
    by_cases hsize : c.machine.ram.size < image.length <;>
      cases hstarted : c.isStarted <;> cases hloaded : c.isLoaded <;>
        simp [refusal?, hstarted, hloaded, hsize]
  | start singleStep =>
    rw [Action.run, run_start]
    cases hkilled : c.isKilled <;> cases hloaded : c.isLoaded <;> cases hstarted : c.isStarted <;>
      simp [refusal?, hkilled, hloaded, hstarted]
  | halt =>
    rw [Action.run, run_halt]
    cases havailable : c.isAvailable <;> simp [refusal?, havailable]
  | resume =>
    rw [Action.run, run_resume]
    cases havailable : c.isAvailable <;> simp [refusal?, havailable]
  | reset toSingleStep =>
    rw [Action.run, run_reset]
    cases hkilled : c.isKilled <;> simp [refusal?, hkilled]
  | kill =>
    rw [Action.run, run_kill]
    cases havailable : c.isAvailable <;> simp [refusal?, havailable]
  | activateSingleStep =>
    rw [Action.run, run_activateSingleStep]
    cases havailable : c.isAvailable <;> cases hsingle : c.inSingleStep <;>
      simp [refusal?, havailable, hsingle]
  | deactivateSingleStep =>
    rw [Action.run, run_deactivateSingleStep]
    cases havailable : c.isAvailable <;> cases hsingle : c.inSingleStep <;>
      simp [refusal?, havailable, hsingle]
  | stepOnce =>
    rw [Action.run, run_discard, run_stepOnce]
    cases havailable : c.isAvailable <;> cases hsingle : c.inSingleStep <;>
      simp only [refusal?, havailable, hsingle, Bool.not_true, Bool.not_false, Bool.false_eq_true, if_true,
        if_false]
    generalize c.machine.step false = taken
    obtain ⟨outcome, machine⟩ := taken
    cases outcome <;> simp
  | turn =>
    rw [Action.run, run_discard, run_turn]
    simp only [refusal?]
    generalize c.machine.step true = taken
    obtain ⟨outcome, machine⟩ := taken
    cases c.isKilled <;> cases c.isParked <;> cases c.isWaiting <;> cases outcome <;> simp [apply]
  | raise index => exact .inl ⟨_, rfl⟩
  | setFrequency frequency => exact .inl ⟨_, rfl⟩
  | edit change => exact .inl ⟨_, rfl⟩
  | operate operation => exact .inl ⟨_, rfl⟩

theorem run_of_refusal {c : Controller δ} {action : Action δ} {error : ControlError}
    (h : c.refusal? action = some error) : action.run.run c = .error error c := by
  simpa only [h] using c.run_cases action

/-- An action that is not refused succeeds, unless a trap cannot be entered. -/
theorem run_of_granted {c : Controller δ} {action : Action δ} (h : c.refusal? action = none) :
    action.run.run c = .ok () (c.act action) ∨
      ∃ cause, action.run.run c = .error (.aborted cause) (c.act action) := by
  have hcases := c.run_cases action
  rw [h] at hcases
  obtain ⟨after, hrun⟩ | ⟨cause, after, hrun⟩ := hcases
  · exact .inl (by rw [act, after_of_ok hrun, hrun])
  · exact .inr ⟨cause, by rw [act, after_of_error hrun, hrun]⟩

/-- An error other than an abort is the refusal, and has changed nothing. -/
theorem refusal_of_error {c after : Controller δ} {action : Action δ} {error : ControlError}
    (hrun : action.run.run c = .error error after) (hplain : ∀ cause, error ≠ .aborted cause) :
    c.refusal? action = some error ∧ after = c := by
  cases hrefusal : c.refusal? action with
  | some refusal =>
    rw [run_of_refusal hrefusal] at hrun
    cases hrun
    exact ⟨rfl, rfl⟩
  | none =>
    obtain hgranted | ⟨cause, hgranted⟩ := run_of_granted hrefusal
    · rw [hgranted] at hrun
      cases hrun
    · rw [hgranted] at hrun
      cases hrun
      exact absurd rfl (hplain cause)

end Controller

end Risc32
