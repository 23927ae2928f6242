import Risc32.Device

namespace Risc32

/-- The timer counts microseconds since its last reset and raises an interrupt at the first tick at which the count
    has reached a compare value. -/
structure Timer where
  base : Word
  /-- When the count was last zero. -/
  epoch : Nat
  compare : Nat
  period : Nat := 0
  control : Word := 0
  /-- Set by a match and cleared by an acknowledgement; no further match is looked for meanwhile. -/
  isPending : Bool := false
deriving DecidableEq, Repr

namespace Timer

def sizeInBytes : Word := 16

/-- The index that the timer raises. -/
def interruptIndex : Word := 0

def countLowRegister : Word := 0x0

def countHighRegister : Word := 0x4

def compareRegister : Word := 0x8

def controlRegister : Word := 0xC

/-- Counts and compare values are 64 bits wide and stop at the largest one. -/
def countLimit : Nat := 0xFFFFFFFFFFFFFFFF

/-- A compare value that is not to be reached. -/
def never : Nat := countLimit

def create (base : Word) (now : Nat) : Timer where
  base := base
  epoch := now
  compare := never

def isEnabled (timer : Timer) : Bool := timer.control.getLsbD 0

def raisesInterrupts (timer : Timer) : Bool := timer.control.getLsbD 1

def isPeriodic (timer : Timer) : Bool := timer.control.getLsbD 2

/-- The two commands of a control write. They act at once and are not stored. -/
def isAcknowledgement (value : Word) : Bool := value.getLsbD 3

def isReset (value : Word) : Bool := value.getLsbD 4

def count (timer : Timer) (now : Nat) : Nat :=
  min (now - timer.epoch) countLimit

/-- Starts counting from zero with nothing to match. The period stays. -/
def reset (timer : Timer) (now : Nat) : Timer :=
  { timer with epoch := now, compare := never, isPending := false }

def readWord (now : Nat) (offset : Word) (timer : Timer) : Response Timer Word :=
  let value : Word :=
    if offset = countLowRegister then BitVec.ofNat 32 (timer.count now)
    else if offset = countHighRegister then BitVec.ofNat 32 (timer.count now >>> 32)
    else if offset = compareRegister then BitVec.ofNat 32 timer.compare
    else if offset = controlRegister then timer.control
    else 0
  { value := value, device := timer }

def setCompare (timer : Timer) (value : Word) : Timer :=
  { timer with compare := value.toNat, period := value.toNat }

def setControl (timer : Timer) (now : Nat) (value : Word) : Timer :=
  let timer := if isReset value then timer.reset now else timer
  let timer := if isAcknowledgement value then { timer with isPending := false } else timer
  { timer with control := value &&& ~~~(0x18 : Word) }

def writeWord (now : Nat) (offset value : Word) (timer : Timer) : Response Timer Unit :=
  let written :=
    if offset = compareRegister then timer.setCompare value
    else if offset = controlRegister then timer.setControl now value
    else timer
  { value := (), device := written }

/-- Whether the next tick finds a match. -/
def isDue (timer : Timer) (now : Nat) : Bool :=
  timer.isEnabled && !timer.isPending && timer.compare ≤ timer.count now

/-- A periodic timer goes on to its next multiple and is pending no longer; any other one waits to be
    acknowledged. -/
def afterMatch (timer : Timer) : Timer :=
  if timer.isPeriodic then
    { timer with compare := min (timer.compare + timer.period) countLimit, isPending := false }
  else
    { timer with isPending := true }

def tick (now : Nat) (timer : Timer) : Response Timer Unit :=
  if timer.isDue now then
    if timer.raisesInterrupts then
      { value := ()
        device := timer.afterMatch
        raised := [interruptIndex]
        notices := [.timerRaised timer.base interruptIndex] }
    else
      { value := (), device := timer.afterMatch }
  else
    { value := (), device := timer }

instance : Device Timer where
  base := base
  size _ := sizeInBytes
  readWord := readWord
  writeWord := writeWord
  tick := tick

end Timer

end Risc32
