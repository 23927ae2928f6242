import Risc32.Proofs.Controller.Switches
import Risc32.Proofs.Machine.Execution

namespace Risc32

/-- On whose behalf the machine makes a step. -/
inductive Stepper where
  | loop
  | host
deriving DecidableEq, Repr

/-- The loop stops at breakpoints; the host steps over them. -/
def Stepper.honorsBreakpoints : Stepper → Bool
  | loop => true
  | host => false

/-- A step of the machine in the course of a run. -/
structure MachineStep (δ : Type) where
  stepper : Stepper
  before : Machine δ

namespace MachineStep

variable {δ : Type} [Device δ]

def outcome (step : MachineStep δ) : Outcome :=
  (step.before.step step.stepper.honorsBreakpoints).1

/-- The step executes an instruction with the given opcode in privileged mode. -/
def Executes (step : MachineStep δ) (opcode : Opcode) : Prop :=
  step.before.ExecutesPrivileged step.stepper.honorsBreakpoints opcode

theorem isHalt_outcome_iff {step : MachineStep δ} :
    step.outcome.isHalt = true ↔ step.Executes .halt := by
  refine Iff.trans ?_ (step.before.step_halted_iff step.stepper.honorsBreakpoints)
  unfold outcome
  cases (step.before.step step.stepper.honorsBreakpoints).1 <;> simp [Outcome.isHalt]

end MachineStep

namespace Controller

variable {δ : Type}

/-- Whether the action can be taken without access to the machine itself: the loop turns once the run has
    begun, and time passes. -/
def allows (c : Controller δ) : Action δ → Bool
  | .turn => c.isStarted
  | .operate (.wait _) => true
  | .operate _ => false
  | _ => true

/-- The step of the machine that the action makes. -/
def stepMade (c : Controller δ) : Action δ → Option (MachineStep δ)
  | .turn => if c.loopSteps then some ⟨.loop, c.machine⟩ else none
  | .stepOnce => if c.hostSteps then some ⟨.host, c.machine⟩ else none
  | _ => none

variable [Device δ]

/-- Whether the actions can be taken one after the other without access to the machine itself. -/
def permits (c : Controller δ) : List (Action δ) → Bool
  | [] => true
  | action :: rest => c.allows action && (c.act action).permits rest

/-- The steps that the machine makes in the course of the actions, in order. -/
def stepsMade (c : Controller δ) : List (Action δ) → List (MachineStep δ)
  | [] => []
  | action :: rest => (c.stepMade action).toList ++ (c.act action).stepsMade rest

end Controller

end Risc32
