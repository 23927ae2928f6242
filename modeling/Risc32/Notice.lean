import Risc32.Trap.Cause

namespace Risc32

/-- What a machine has to say about its own work beside the results of its operations. -/
inductive Notice where
  | interruptDropped (index : Word)
  | breakpointHit (pc : Word)
  | fetched (pc word : Word)
  | trapTaken (cause : TrapCause) (savedPc : Word) (slot : Nat) (handler : Word)
  | vectorUndefined (cause : TrapCause) (slot : Nat)
  | vectorUnreadable (slot : Nat) (address : Word) (fault : Fault)
  | deviceRegistered (base size : Word)
  | unmappedWordRead (address : Word)
  | unmappedWordWrite (address value : Word)
  | unmappedByteRead (address : Word)
  | unmappedByteWrite (address : Word) (value : Byte)
  | romWriteDropped (address : Word) (value : Byte)
  | consoleFailed (base : Word) (reason : String)
  | timerRaised (base index : Word)
  | programLoaded (size : Nat)
  | loopStarted (singleStep : Bool)
  | loopEnded
  | wokenByInterrupt
  | haltedByInstruction
  | killedByInstruction
  | stoppedAtBreakpoint (pc : Word)
  | haltedByHost
  | resumedByHost
  | resetByHost (singleStep : Bool)
  | killedByHost
  | singleStepOn
  | singleStepOff
deriving DecidableEq, Repr

/-- Notices with the newest first. -/
abbrev Journal := List Notice

end Risc32
