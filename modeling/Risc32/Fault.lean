namespace Risc32

/-- What can go wrong while an instruction is fetched or executed. -/
inductive Fault where
  | memory
  | privilege
  | illegalInstruction
  | divideByZero
  | stackOverflow
  | stackUnderflow
  | arithmeticOverflow
  | breakpoint
deriving DecidableEq, Repr

namespace Fault

/-- Each fault has a vector slot of its own, between the shared slots and those of the software
    interrupts. -/
def vectorSlot : Fault → Nat
  | memory => 3
  | privilege => 4
  | illegalInstruction => 5
  | divideByZero => 6
  | stackOverflow => 7
  | stackUnderflow => 8
  | arithmeticOverflow => 9
  | breakpoint => 10

def all : List Fault :=
  [memory, privilege, illegalInstruction, divideByZero, stackOverflow, stackUnderflow, arithmeticOverflow,
    breakpoint]

def ofVectorSlot? (slot : Nat) : Option Fault :=
  all.find? (·.vectorSlot == slot)

def name : Fault → String
  | memory => "Memory"
  | privilege => "Privilege"
  | illegalInstruction => "IllegalInstruction"
  | divideByZero => "DivideByZero"
  | stackOverflow => "StackOverflow"
  | stackUnderflow => "StackUnderflow"
  | arithmeticOverflow => "ArithmeticOverflow"
  | breakpoint => "Breakpoint"

def message : Fault → String
  | memory => "memory access outside the translation window or backing store"
  | privilege => "privileged register or instruction used without privilege"
  | illegalInstruction => "illegal instruction"
  | divideByZero => "division by zero"
  | stackOverflow => "stack overflow"
  | stackUnderflow => "stack underflow"
  | arithmeticOverflow => "arithmetic overflow"
  | breakpoint => "breakpoint"

theorem ofVectorSlot?_vectorSlot (fault : Fault) : ofVectorSlot? fault.vectorSlot = some fault := by
  cases fault <;> rfl

end Fault

end Risc32
