import Risc32.Machine.Execute
import Risc32.Machine.Trap
import Risc32.Opcode.Cost

namespace Risc32

/-- What a step did, with the cycles it took. -/
inductive Outcome where
  | retired (opcode : Opcode) (cycles : Nat)
  | trapped (cause : TrapCause) (cycles : Nat)
  | halted (cycles : Nat)
  | killed (cycles : Nat)
  | breakpoint (pc : Word)
  | aborted (error : TrapError)
deriving DecidableEq, Repr

namespace Outcome

def cycles : Outcome → Nat
  | retired _ cycles => cycles
  | trapped _ cycles => cycles
  | halted cycles => cycles
  | killed cycles => cycles
  | breakpoint _ => 0
  | aborted _ => 0

def isBreakpoint : Outcome → Bool
  | breakpoint _ => true
  | _ => false

/-- Whether execution simply goes on. -/
def isOrdinary : Outcome → Bool
  | retired .. => true
  | trapped .. => true
  | _ => false

end Outcome

/-- What a run of several steps comes to. -/
structure RunSummary where
  steps : Nat := 0
  cycles : Nat := 0
  last : Option Outcome := none
deriving DecidableEq, Repr

def RunSummary.add (summary : RunSummary) (outcome : Outcome) : RunSummary where
  steps := summary.steps + 1
  cycles := summary.cycles + outcome.cycles
  last := some outcome

namespace Machine

variable {δ : Type}

/-- Empties the interrupt line, with one notice for each index lost. -/
def dropInterrupts (m : Machine δ) : Machine δ :=
  { m with
    bus := { m.bus with
      line := {}
      journal := (m.bus.line.queue.map Notice.interruptDropped).reverse ++ m.bus.journal } }

/-- The interrupt to deliver now. While interrupts are masked there is none, and all that are pending
    are lost. -/
def pollInterrupt (m : Machine δ) : Option Word × Machine δ :=
  if m.interruptsMasked then
    (none, m.dropInterrupts)
  else
    (m.bus.line.take.1, { m with bus := { m.bus with line := m.bus.line.take.2 } })

/-- A physical breakpoint is hit at the place where the virtual address lies, if it lies anywhere. -/
def breakpointHit (m : Machine δ) (pc : Word) : Bool :=
  m.breakpoints.virtualAddresses.contains pc ||
    match m.resolve pc with
    | .ok address => m.breakpoints.physicalAddresses.contains address
    | .error _ => false

variable [Device δ]

/-- Enters a trap after an instruction that took the given cycles. -/
def trap (m : Machine δ) (cause : TrapCause) (cycles : Nat) : Outcome × Machine δ :=
  match (enterTrap cause).run m with
  | .ok _ m => (.trapped cause (cycles + CostKind.trapEntry.cycles), m)
  | .error error m => (.aborted error, m)

/-- Executes a fetched instruction and turns what it asks for into an outcome. -/
def perform (m : Machine δ) (i : Instruction) : Outcome × Machine δ :=
  match (execute i).run m with
  | .ok .next m => (.retired i.opcode i.opcode.cycles, m)
  | .ok (.softwareInterrupt index) m => m.trap (.software index) i.opcode.cycles
  | .ok .halt m => (.halted i.opcode.cycles, m)
  | .ok .kill m => (.killed i.opcode.cycles, m)
  | .error fault m => m.trap (.fault fault) i.opcode.cycles

/-- Fetches the word at the program counter and executes it. -/
def fetchAndPerform (m : Machine δ) : Outcome × Machine δ :=
  let pc := m.pc
  match (readWord pc).run m with
  | .error fault m => m.trap (.fault fault) 0
  | .ok word m =>
    let m := (m.setPc (pc + 4)).note (.fetched pc word)
    match Instruction.ofWord? word with
    | none => m.trap (.fault .illegalInstruction) CostKind.simple.cycles
    | some i => m.perform i

/-- A step before its tick. A breakpoint is reported once before the instruction at it is executed. -/
def advance (m : Machine δ) (honorBreakpoints : Bool) : Outcome × Machine δ :=
  match m.pollInterrupt with
  | (some index, m) => m.trap (.hardware index) 0
  | (none, m) =>
    if honorBreakpoints && m.resumePast != some m.pc && m.breakpointHit m.pc then
      (.breakpoint m.pc, { m.note (.breakpointHit m.pc) with resumePast := some m.pc })
    else
      fetchAndPerform { m with resumePast := none }

/-- One step. Devices tick after every step that was not stopped by a breakpoint. -/
def step (m : Machine δ) (honorBreakpoints : Bool) : Outcome × Machine δ :=
  let taken := m.advance honorBreakpoints
  (taken.1, if taken.1.isBreakpoint then taken.2 else taken.2.tick)

/-- A run of at most `count` steps that ends with the first outcome that is not ordinary. What came
    before is taken up in the summary. -/
def run (m : Machine δ) (honorBreakpoints : Bool) (summary : RunSummary) :
    (count : Nat) → RunSummary × Machine δ
  | 0 => (summary, m)
  | count + 1 =>
    let taken := m.step honorBreakpoints
    if taken.1.isOrdinary then taken.2.run honorBreakpoints (summary.add taken.1) count
    else (summary.add taken.1, taken.2)

end Machine

end Risc32
