import Risc32.Controller

namespace Risc32.Controller

variable {δ : Type}

/-- Programs, read-only memory and devices are set up before the run begins. -/
def requireUnstarted : Control δ Unit := do
  if (← get).isStarted then
    throw .alreadyStarted

def requireAvailable : Control δ Unit := do
  unless (← get).isAvailable do
    throw .notAvailable

def requireAlive : Control δ Unit := do
  if (← get).isKilled then
    throw .killed

def attach [Device δ] (device : δ) : Control δ Unit := do
  requireUnstarted
  modify fun c => { c with machine := c.machine.attach device }

def loadRom (image : List Byte) : Control δ Unit := do
  requireUnstarted
  let c ← get
  match c.machine.loadRom image with
  | .ok machine => set { c with machine := machine }
  | .error error => throw (.programTooLarge error)

/-- A program is loaded once; an image that was refused does not count. -/
def loadProgram (image : List Byte) : Control δ Unit := do
  requireUnstarted
  let c ← get
  if c.isLoaded then
    throw .programAlreadyLoaded
  match c.machine.loadImage image with
  | .ok machine =>
    set ({ c with machine := machine.boot, isLoaded := true }.note (.programLoaded image.length))
  | .error error => throw (.programTooLarge error)

/-- Lets the run begin. The switch is thrown first, and its old position tells whether it had been thrown
    before. -/
def start (singleStep : Bool) : Control δ Unit := do
  requireAlive
  unless (← get).isLoaded do
    throw .notLoaded
  let wasStarted ← modifyGet fun c => (c.isStarted, { c with isStarted := true })
  if wasStarted then
    throw .alreadyStarted
  if singleStep then
    modify fun c => { c with inSingleStep := true }
  modify fun c => c.note (.loopStarted singleStep)

def halt : Control δ Unit := do
  requireAvailable
  let wasHalted ← modifyGet fun c => (c.isHalted, { c with isHalted := true })
  unless wasHalted do
    modify fun c => c.note .haltedByHost

/-- Ends a halt by the host and the wait of a halt instruction alike. -/
def resume : Control δ Unit := do
  requireAvailable
  let wasHalted ← modifyGet fun c => (c.isHalted, { c with isHalted := false })
  let wasWaiting ← modifyGet fun c => (c.isWaiting, { c with isWaiting := false })
  if wasHalted || wasWaiting then
    modify fun c => c.note .resumedByHost

/-- Boots the machine and clears every stop. It is allowed before the run begins, too. -/
def reset (toSingleStep : Bool) : Control δ Unit := do
  requireAlive
  modify fun c =>
    { c with
      machine := c.machine.boot
      isHalted := false
      isWaiting := false
      inSingleStep := toSingleStep }.note (.resetByHost toSingleStep)

def kill : Control δ Unit := do
  requireAvailable
  modify fun c => { c with isKilled := true }.note .killedByHost

def activateSingleStep : Control δ Unit := do
  requireAvailable
  let wasActive ← modifyGet fun c => (c.inSingleStep, { c with inSingleStep := true })
  if wasActive then
    throw .singleStepAlreadyActive
  modify fun c => c.note .singleStepOn

def deactivateSingleStep : Control δ Unit := do
  requireAvailable
  let wasActive ← modifyGet fun c => (c.inSingleStep, { c with inSingleStep := false })
  unless wasActive do
    throw .singleStepInactive
  modify fun c => c.note .singleStepOff

/-- One step on behalf of the host, which does not stop at breakpoints. A trap that cannot be entered
    kills the run and is reported as a refusal. -/
def stepOnce [Device δ] : Control δ Outcome := do
  requireAvailable
  unless (← get).inSingleStep do
    throw .singleStepInactive
  let outcome ← modifyGet fun c =>
    let taken := c.machine.step false
    (taken.1, { c with machine := taken.2 })
  match outcome with
  | .killed _ =>
    modify fun c => { c with isKilled := true }
    return outcome
  | .aborted error =>
    modify fun c => { c with isKilled := true }
    throw (.aborted error)
  | _ => return outcome

def raise (c : Controller δ) (index : Word) : Controller δ :=
  { c with machine := c.machine.raise index }

def setFrequency (c : Controller δ) (frequency : Int) : Controller δ :=
  { c with frequency := frequency }

def edit (c : Controller δ) (change : BreakpointEdit) : Controller δ :=
  { c with machine := c.machine.edit change }

section Runs

variable (c : Controller δ)

theorem run_requireUnstarted :
    requireUnstarted.run c = if c.isStarted then .error .alreadyStarted c else .ok () c := by
  by_cases h : c.isStarted <;> simp [requireUnstarted, h]

theorem run_requireAvailable :
    requireAvailable.run c = if c.isAvailable then .ok () c else .error .notAvailable c := by
  by_cases h : c.isAvailable <;> simp [requireAvailable, h]

theorem run_requireAlive : requireAlive.run c = if c.isKilled then .error .killed c else .ok () c := by
  by_cases h : c.isKilled <;> simp [requireAlive, h]

theorem run_attach [Device δ] (device : δ) :
    (attach device).run c =
      if c.isStarted then .error .alreadyStarted c
      else .ok () { c with machine := c.machine.attach device } := by
  by_cases hstarted : c.isStarted <;> simp [attach, run_requireUnstarted, hstarted]

theorem run_loadRom (image : List Byte) :
    (loadRom image).run c =
      if c.isStarted then .error .alreadyStarted c
      else match c.machine.loadRom image with
        | .ok machine => .ok () { c with machine := machine }
        | .error error => .error (.programTooLarge error) c := by
  by_cases hstarted : c.isStarted
  · simp [loadRom, run_requireUnstarted, hstarted]
  · cases hload : c.machine.loadRom image <;> simp [loadRom, run_requireUnstarted, hstarted, hload]

theorem run_loadProgram (image : List Byte) :
    (loadProgram image).run c =
      if c.isStarted then .error .alreadyStarted c
      else if c.isLoaded then .error .programAlreadyLoaded c
      else match c.machine.loadImage image with
        | .ok machine =>
          .ok () ({ c with machine := machine.boot, isLoaded := true }.note (.programLoaded image.length))
        | .error error => .error (.programTooLarge error) c := by
  by_cases hstarted : c.isStarted
  · simp [loadProgram, run_requireUnstarted, hstarted]
  · by_cases hloaded : c.isLoaded
    · simp [loadProgram, run_requireUnstarted, hstarted, hloaded]
    · cases hload : c.machine.loadImage image <;>
        simp [loadProgram, run_requireUnstarted, hstarted, hloaded, hload]

theorem run_start (singleStep : Bool) :
    (start singleStep).run c =
      if c.isKilled then .error .killed c
      else if !c.isLoaded then .error .notLoaded c
      else if c.isStarted then .error .alreadyStarted c
      else .ok () ({ c with
        isStarted := true, inSingleStep := c.inSingleStep || singleStep }.note (.loopStarted singleStep)) := by
  by_cases hkilled : c.isKilled
  · simp [start, run_requireAlive, hkilled]
  · by_cases hloaded : c.isLoaded
    · cases hstarted : c.isStarted with
      | true =>
        -- The switch that is thrown again stays as it is.
        have hsame : { c with isStarted := true } = c := by rw [← hstarted]
        have hnotLoaded : ¬(!c.isLoaded) = true := by simp [hloaded]
        simp only [start, EStateM.run_bind, run_requireAlive, EStateM.run_get, EStateM.run_modifyGet, hsame,
          hstarted, if_neg hkilled, if_pos hloaded, if_neg hnotLoaded, if_true]
        rfl
      | false => cases singleStep <;> simp [start, run_requireAlive, hkilled, hloaded, hstarted]
    · simp [start, run_requireAlive, hkilled, hloaded]

theorem run_halt :
    halt.run c =
      if c.isAvailable then .ok () (if c.isHalted then c else { c with isHalted := true }.note .haltedByHost)
      else .error .notAvailable c := by
  by_cases havailable : c.isAvailable
  · cases hhalted : c.isHalted with
    | true =>
      have hsame : { c with isHalted := true } = c := by rw [← hhalted]
      simp [halt, run_requireAvailable, havailable, hhalted, hsame]
    | false => simp [halt, run_requireAvailable, havailable, hhalted]
  · simp [halt, run_requireAvailable, havailable]

theorem run_resume :
    resume.run c =
      if c.isAvailable then
        .ok () (if c.isHalted || c.isWaiting then
            { c with isHalted := false, isWaiting := false }.note .resumedByHost
          else c)
      else .error .notAvailable c := by
  by_cases havailable : c.isAvailable
  · by_cases hstopped : c.isHalted = true ∨ c.isWaiting = true
    · simp [resume, run_requireAvailable, havailable, hstopped]
    · obtain ⟨hhalted, hwaiting⟩ := not_or.1 hstopped
      rw [Bool.not_eq_true] at hhalted hwaiting
      have hsame : { c with isHalted := false, isWaiting := false } = c := by
        cases c
        cases hhalted
        cases hwaiting
        rfl
      simp [resume, run_requireAvailable, havailable, hhalted, hwaiting, hsame]
  · simp [resume, run_requireAvailable, havailable]

theorem run_reset (toSingleStep : Bool) :
    (reset toSingleStep).run c =
      if c.isKilled then .error .killed c
      else .ok () ({ c with
        machine := c.machine.boot
        isHalted := false
        isWaiting := false
        inSingleStep := toSingleStep }.note (.resetByHost toSingleStep)) := by
  by_cases hkilled : c.isKilled <;> simp [reset, run_requireAlive, hkilled]

theorem run_kill :
    kill.run c =
      if c.isAvailable then .ok () ({ c with isKilled := true }.note .killedByHost)
      else .error .notAvailable c := by
  by_cases havailable : c.isAvailable <;> simp [kill, run_requireAvailable, havailable]

theorem run_activateSingleStep :
    activateSingleStep.run c =
      if !c.isAvailable then .error .notAvailable c
      else if c.inSingleStep then .error .singleStepAlreadyActive c
      else .ok () ({ c with inSingleStep := true }.note .singleStepOn) := by
  by_cases havailable : c.isAvailable
  · cases hsingle : c.inSingleStep with
    | true =>
      have hsame : { c with inSingleStep := true } = c := by rw [← hsingle]
      simp [activateSingleStep, run_requireAvailable, havailable, hsingle, hsame]
    | false => simp [activateSingleStep, run_requireAvailable, havailable, hsingle]
  · simp [activateSingleStep, run_requireAvailable, havailable]

theorem run_deactivateSingleStep :
    deactivateSingleStep.run c =
      if !c.isAvailable then .error .notAvailable c
      else if !c.inSingleStep then .error .singleStepInactive c
      else .ok () ({ c with inSingleStep := false }.note .singleStepOff) := by
  by_cases havailable : c.isAvailable
  · cases hsingle : c.inSingleStep with
    | true => simp [deactivateSingleStep, run_requireAvailable, havailable, hsingle]
    | false =>
      have hsame : { c with inSingleStep := false } = c := by rw [← hsingle]
      simp [deactivateSingleStep, run_requireAvailable, havailable, hsingle, hsame]
  · simp [deactivateSingleStep, run_requireAvailable, havailable]

theorem run_stepOnce [Device δ] :
    stepOnce.run c =
      if !c.isAvailable then .error .notAvailable c
      else if !c.inSingleStep then .error .singleStepInactive c
      else match c.machine.step false with
        | (.killed cycles, machine) => .ok (.killed cycles) { c with machine := machine, isKilled := true }
        | (.aborted error, machine) => .error (.aborted error) { c with machine := machine, isKilled := true }
        | (outcome, machine) => .ok outcome { c with machine := machine } := by
  by_cases havailable : c.isAvailable
  · by_cases hsingle : c.inSingleStep
    · have hactive : ¬ (!c.inSingleStep) = true := by simp [hsingle]
      simp only [stepOnce, EStateM.run_bind, run_requireAvailable, EStateM.run_get, if_pos hsingle,
        if_neg hactive, havailable, if_true, EStateM.run_modifyGet]
      cases htaken : c.machine.step false with
      | mk outcome machine => cases outcome <;> rfl
    · simp [stepOnce, run_requireAvailable, havailable, hsingle]
  · simp [stepOnce, run_requireAvailable, havailable]

end Runs

end Risc32.Controller
