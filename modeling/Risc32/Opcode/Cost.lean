import Risc32.Opcode

namespace Risc32

inductive CostKind where
  | simple
  | byteMemory
  | wordMemory
  | multiply
  | divide
  | stack
  | jump
  | call
  | trapEntry
deriving DecidableEq, Repr

namespace CostKind

def all : List CostKind :=
  [simple, byteMemory, wordMemory, multiply, divide, stack, jump, call, trapEntry]

def cycles : CostKind → Nat
  | simple => 1
  | byteMemory => 2
  | wordMemory => 4
  | multiply => 3
  | divide => 8
  | stack => 3
  | jump => 2
  | call => 5
  | trapEntry => 5

end CostKind

namespace Opcode

def costKind : Opcode → CostKind
  | load .byte | store .byte => .byteMemory
  | load .word | store .word => .wordMemory
  | alu .mul | alu .mulUnsigned => .multiply
  | alu .div | alu .divUnsigned | alu .rem | alu .remUnsigned => .divide
  | push | pop => .stack
  | jump _ | jumpRegister => .jump
  | call | callRegister | ret | interrupt => .call
  | _ => .simple

def cycles (opcode : Opcode) : Nat :=
  opcode.costKind.cycles

end Opcode

end Risc32
