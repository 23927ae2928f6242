import Risc32.Disassembly
import Risc32.Notice

namespace Risc32

inductive Severity where
  | error
  | warning
  | debug
  | trace
deriving DecidableEq, Repr

def Severity.label : Severity → String
  | error => "ERROR"
  | warning => "WARN"
  | debug => "DEBUG"
  | trace => "TRACE"

namespace Notice

/-- An unusable vector ends execution and is an error. What is silently dropped deserves a warning.
    What happens at every instruction or tick is only traced. -/
def severity : Notice → Severity
  | vectorUndefined .. | vectorUnreadable .. => .error
  | interruptDropped _ | unmappedWordRead _ | unmappedWordWrite .. | unmappedByteRead _ | unmappedByteWrite ..
  | romWriteDropped .. | consoleFailed .. => .warning
  | fetched .. | timerRaised .. => .trace
  | _ => .debug

private def truth (b : Bool) : String :=
  if b then "true" else "false"

def text : Notice → String
  | interruptDropped index =>
    "hardware interrupt " ++ index.toNat.repr ++ " dropped while interrupts are masked"
  | breakpointHit pc => "breakpoint hit at " ++ Text.hexWord pc
  | fetched pc word => Text.hexWord pc ++ ": " ++ disassemble word
  | trapTaken cause savedPc slot handler =>
    "trap " ++ cause.text ++ ": saved pc " ++ Text.hexWord savedPc ++ ", vector slot " ++ slot.repr ++ " -> "
      ++ Text.hexWord handler
  | vectorUndefined cause slot => cause.text ++ ": vector slot " ++ slot.repr ++ " is undefined"
  | vectorUnreadable slot address fault =>
    "vector slot " ++ slot.repr ++ " at " ++ Text.hexWord address ++ " unreadable: " ++ fault.message
  | deviceRegistered base size =>
    "mmio device registered at " ++ Text.hexWord base ++ " (+" ++ Text.hex size.toNat ++ ")"
  | unmappedWordRead address => "unmapped mmio word read at " ++ Text.hexWord address
  | unmappedWordWrite address value =>
    "unmapped mmio word write of " ++ Text.hexWord value ++ " at " ++ Text.hexWord address
  | unmappedByteRead address => "unmapped mmio byte read at " ++ Text.hexWord address
  | unmappedByteWrite address value =>
    "unmapped mmio byte write of " ++ Text.hexByte value ++ " at " ++ Text.hexWord address
  | romWriteDropped address value =>
    "write of " ++ Text.hexByte value ++ " to rom at " ++ Text.hexWord address ++ " dropped"
  | consoleFailed base reason =>
    "debug console at " ++ Text.hexWord base ++ ": write failed: " ++ reason
  | timerRaised base index => "timer at " ++ Text.hexWord base ++ " raising irq " ++ index.toNat.repr
  | programLoaded size => "loaded " ++ size.repr ++ " byte program image"
  | loopStarted singleStep => "run loop started (single step: " ++ truth singleStep ++ ")"
  | loopEnded => "run loop exited"
  | wokenByInterrupt => "woken from halt by hardware interrupt"
  | haltedByInstruction => "halted by instruction"
  | killedByInstruction => "killed by instruction"
  | stoppedAtBreakpoint pc => "entering single-step mode at breakpoint " ++ Text.hexWord pc
  | haltedByHost => "halted by host"
  | resumedByHost => "resumed by host"
  | resetByHost singleStep => "reset (single step: " ++ truth singleStep ++ ")"
  | killedByHost => "killed by host"
  | singleStepOn => "single-step mode on"
  | singleStepOff => "single-step mode off"

/-- One line of a journal. -/
def line (notice : Notice) : String :=
  notice.severity.label ++ " " ++ notice.text

end Notice

end Risc32
