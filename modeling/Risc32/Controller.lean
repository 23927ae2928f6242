import Risc32.Machine.Step

namespace Risc32

/-- What a host sees of a run. -/
inductive RunState where
  | notStarted
  | running
  | halted
  | singleStep
  | killed
deriving DecidableEq, Repr

namespace RunState

def isStarted : RunState → Bool
  | notStarted => false
  | _ => true

/-- Whether the host can still control the run. -/
def isAvailable : RunState → Bool
  | running => true
  | halted => true
  | singleStep => true
  | notStarted => false
  | killed => false

end RunState

/-- Why an operation of the host is refused. Only `aborted` reports something that has happened. -/
inductive ControlError where
  | config (error : ConfigError)
  | programAlreadyLoaded
  | programTooLarge (error : ImageTooLarge)
  | alreadyStarted
  | notLoaded
  | notAvailable
  | killed
  | singleStepAlreadyActive
  | singleStepInactive
  | aborted (error : TrapError)
deriving DecidableEq, Repr

def ControlError.message : ControlError → String
  | config error => "invalid configuration: " ++ error.message
  | programAlreadyLoaded => "a program image is already loaded"
  | programTooLarge error => error.message
  | alreadyStarted => "cpu already started"
  | notLoaded => "no program image loaded"
  | notAvailable => "cpu is not available"
  | killed => "cpu has been killed"
  | singleStepAlreadyActive => "single-step mode already active"
  | singleStepInactive => "single-step mode not active"
  | aborted error => "execution aborted: " ++ error.message

/-- A machine together with the switches by which a host runs it. -/
structure Controller (δ : Type) where
  machine : Machine δ
  frequency : Int
  isLoaded : Bool := false
  isStarted : Bool := false
  isKilled : Bool := false
  /-- Stopped by the host. -/
  isHalted : Bool := false
  /-- Stopped by a halt instruction until an interrupt is pending. -/
  isWaiting : Bool := false
  inSingleStep : Bool := false
deriving DecidableEq

/-- An operation of the host. A refusal keeps what was changed before it. -/
abbrev Control (δ : Type) := EStateM ControlError (Controller δ)

namespace Controller

variable {δ : Type}

def ofConfig (config : Config) : Except ControlError (Controller δ) :=
  match Machine.ofConfig config with
  | .ok machine => .ok { machine := machine, frequency := config.frequency }
  | .error error => .error (.config error)

/-- Single-step mode hides whether the run is halted as well. -/
def runState (c : Controller δ) : RunState :=
  if c.isKilled then .killed
  else if !c.isStarted then .notStarted
  else if c.inSingleStep then .singleStep
  else if c.isHalted || c.isWaiting then .halted
  else .running

def isAvailable (c : Controller δ) : Bool :=
  c.runState.isAvailable

def note (c : Controller δ) (notice : Notice) : Controller δ :=
  { c with machine := c.machine.note notice }

end Controller

end Risc32
