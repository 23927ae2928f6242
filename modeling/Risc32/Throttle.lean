namespace Risc32

/-- How long an instruction should last at a given clock frequency. -/
structure Throttle where
  /-- Cycles per second; without a frequency execution is not slowed down. -/
  hertz : Option Nat
deriving DecidableEq, Repr

namespace Throttle

def ofFrequency (frequency : Int) : Throttle :=
  ⟨if 0 < frequency then some frequency.toNat else none⟩

def isThrottled (throttle : Throttle) : Bool :=
  throttle.hertz.isSome

def nanosecondsPerSecond : Nat := 1000000000

/-- The longest time that a count of 64 bits can hold. -/
def budgetLimit : Nat := 0xFFFFFFFFFFFFFFFF

/-- Nanoseconds that the given number of cycles should take, rounded down. -/
def budget (throttle : Throttle) (cycles : Nat) : Nat :=
  match throttle.hertz with
  | some hertz => min (cycles * nanosecondsPerSecond / hertz) budgetLimit
  | none => 0

end Throttle

end Risc32
