import Risc32.Controller

namespace Risc32.Controller

variable {δ : Type}

/-- Whether the host keeps the loop from stepping. -/
def isParked (c : Controller δ) : Bool :=
  c.isHalted || c.inSingleStep

/-- What the loop makes of a step. -/
def apply (outcome : Outcome) : Control δ Unit :=
  match outcome with
  | .retired .. | .trapped .. => return
  | .halted _ => modify fun c => { c with isWaiting := true }.note .haltedByInstruction
  | .killed _ => modify fun c => { c with isKilled := true }.note .killedByInstruction
  | .breakpoint pc => modify fun c => { c with inSingleStep := true }.note (.stoppedAtBreakpoint pc)
  | .aborted error => do
    modify fun c => { c with isKilled := true }
    throw (.aborted error)

variable [Device δ]

/-- While the run waits, an interrupt on the line wakes it and stays there to be delivered by the next
    step; until then the devices tick. -/
def awaitInterrupt (c : Controller δ) : Controller δ :=
  if c.machine.hasPendingInterrupt then { c with isWaiting := false }.note .wokenByInterrupt
  else { c with machine := c.machine.tick }

/-- One turn of the loop; it answers whether the loop goes on. -/
def turn : Control δ Bool := do
  let c ← get
  if c.isKilled then
    set (c.note .loopEnded)
    return false
  else if c.isParked then
    return true
  else if c.isWaiting then
    set c.awaitInterrupt
    return true
  else
    let taken := c.machine.step true
    set { c with machine := taken.2 }
    apply taken.1
    return true

theorem run_turn (c : Controller δ) :
    turn.run c =
      if c.isKilled then .ok false (c.note .loopEnded)
      else if c.isParked then .ok true c
      else if c.isWaiting then .ok true c.awaitInterrupt
      else match (apply (c.machine.step true).1).run { c with machine := (c.machine.step true).2 } with
        | .ok _ after => .ok true after
        | .error error after => .error error after := by
  simp only [turn, EStateM.run_bind, EStateM.run_get]
  by_cases hkilled : c.isKilled
  · simp only [if_pos hkilled, EStateM.run_bind, EStateM.run_set, EStateM.run_pure]
  · by_cases hparked : c.isParked
    · simp only [if_neg hkilled, if_pos hparked, EStateM.run_pure]
    · by_cases hwaiting : c.isWaiting
      · simp only [if_neg hkilled, if_neg hparked, if_pos hwaiting, EStateM.run_bind, EStateM.run_set,
          EStateM.run_pure]
      · simp only [if_neg hkilled, if_neg hparked, if_neg hwaiting, EStateM.run_bind, EStateM.run_set]
        cases (apply (c.machine.step true).1).run { c with machine := (c.machine.step true).2 } <;> rfl

/-- Whether the run waits and nothing is there to wake it. -/
def isIdle (c : Controller δ) : Bool :=
  !c.isKilled && !c.isParked && c.isWaiting && !c.machine.hasPendingInterrupt

/-- Whether the run has arrived at a given address with no interrupt to deliver first. -/
def hasArrived (c : Controller δ) (target : Option Word) : Bool :=
  c.runState == .running && !c.machine.hasPendingInterrupt && target == some c.machine.pc

/-- Turns the loop until it ends, until only the host can change anything, or until it arrives at
    `target`, but at most `fuel` times. A waiting run gets `patience` ticks in which its own devices
    may wake it. The answer is whether the loop goes on. -/
def settle (target : Option Word) : (patience fuel : Nat) → Control δ Bool
  | _, 0 => return true
  | patience, fuel + 1 => do
    let c ← get
    if (c.isParked && !c.isKilled) || (c.isIdle && patience == 0) || c.hasArrived target then
      return true
    else if ← turn then
      settle target (if c.isIdle then patience - 1 else patience) fuel
    else
      return false

end Risc32.Controller
