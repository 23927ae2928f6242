import Risc32.Condition

namespace Risc32

inductive Width where
  | word
  | byte
deriving DecidableEq, Repr

/-- The operations on two words. -/
inductive AluOp where
  | add
  | sub
  | mul
  | mulUnsigned
  | div
  | divUnsigned
  | rem
  | remUnsigned
  | and
  | or
  | xor
  | shiftRight
  | shiftRightSigned
  | shiftLeft
deriving DecidableEq, Repr

/-- The operations that also come with an immediate second operand. -/
inductive ImmediateOp where
  | add
  | or
  | xor
  | and
  | shiftLeft
  | shiftRightSigned
  | shiftRight
deriving DecidableEq, Repr

def ImmediateOp.toAluOp : ImmediateOp → AluOp
  | add => .add
  | or => .or
  | xor => .xor
  | and => .and
  | shiftLeft => .shiftLeft
  | shiftRightSigned => .shiftRightSigned
  | shiftRight => .shiftRight

/-- What the 24 operand bits of an instruction hold. -/
inductive Shape where
  | bare
  | registers
  | upper
  | displacement
  | immediate
  | memory
deriving DecidableEq, Repr

inductive Opcode where
  | nop
  | move
  | loadUpper
  | loadLower
  | load (width : Width)
  | store (width : Width)
  | alu (op : AluOp)
  | complement
  | immediate (op : ImmediateOp)
  | jump (condition : Condition)
  | jumpRegister
  | compare
  | call
  | callRegister
  | ret
  | interrupt
  | push
  | pop
  | setWindowOffset
  | setWindowBound
  | leavePrivileged
  | maskInterrupts
  | unmaskInterrupts
  | getSavedFlags
  | getSavedPc
  | setFlags
  | halt
  | kill
deriving DecidableEq, Repr

namespace Opcode

/-- All opcodes in the order of their encodings. -/
def all : List Opcode :=
  [nop, move, loadUpper, loadLower, load .word, load .byte, store .word, store .byte,
    alu .add, alu .sub, alu .mul, alu .mulUnsigned, alu .div, alu .divUnsigned, alu .rem, alu .remUnsigned,
    alu .and, alu .or, alu .xor, alu .shiftRight, alu .shiftRightSigned, alu .shiftLeft, complement,
    immediate .add, immediate .or, immediate .xor, immediate .and, immediate .shiftLeft,
    immediate .shiftRightSigned, immediate .shiftRight,
    jump .always, jumpRegister, compare, jump .equal, jump .notEqual, jump .less, jump .greater,
    jump .lessOrEqual, jump .greaterOrEqual, jump .overflow, jump .noOverflow, call, callRegister, ret,
    interrupt, push, pop, setWindowOffset, setWindowBound, leavePrivileged, maskInterrupts, unmaskInterrupts,
    getSavedFlags, getSavedPc, setFlags, halt, kill]

/-- The top byte of an instruction word. -/
def code : Opcode → Byte
  | nop => 0x00
  | move => 0x01
  | loadUpper => 0x02
  | loadLower => 0x03
  | load .word => 0x04
  | load .byte => 0x05
  | store .word => 0x06
  | store .byte => 0x07
  | alu .add => 0x10
  | alu .sub => 0x11
  | alu .mul => 0x12
  | alu .mulUnsigned => 0x13
  | alu .div => 0x14
  | alu .divUnsigned => 0x15
  | alu .rem => 0x16
  | alu .remUnsigned => 0x17
  | alu .and => 0x18
  | alu .or => 0x19
  | alu .xor => 0x1A
  | alu .shiftRight => 0x1B
  | alu .shiftRightSigned => 0x1C
  | alu .shiftLeft => 0x1D
  | complement => 0x1E
  | immediate .add => 0x20
  | immediate .or => 0x21
  | immediate .xor => 0x22
  | immediate .and => 0x23
  | immediate .shiftLeft => 0x24
  | immediate .shiftRightSigned => 0x25
  | immediate .shiftRight => 0x26
  | jump .always => 0x30
  | jumpRegister => 0x31
  | compare => 0x32
  | jump .equal => 0x33
  | jump .notEqual => 0x34
  | jump .less => 0x35
  | jump .greater => 0x36
  | jump .lessOrEqual => 0x37
  | jump .greaterOrEqual => 0x38
  | jump .overflow => 0x39
  | jump .noOverflow => 0x3A
  | call => 0x3B
  | callRegister => 0x3C
  | ret => 0x3D
  | interrupt => 0x3E
  | push => 0x40
  | pop => 0x41
  | setWindowOffset => 0x50
  | setWindowBound => 0x51
  | leavePrivileged => 0x52
  | maskInterrupts => 0x53
  | unmaskInterrupts => 0x54
  | getSavedFlags => 0x55
  | getSavedPc => 0x56
  | setFlags => 0x57
  | halt => 0x7A
  | kill => 0x7B

/-- The opcode that a top byte stands for, if it is assigned. -/
def ofCode? (byte : Byte) : Option Opcode :=
  all.find? (·.code == byte)

def mnemonic : Opcode → String
  | nop => "NOP"
  | move => "MOV"
  | loadUpper => "LUI"
  | loadLower => "LLI"
  | load .word => "LDW"
  | load .byte => "LDB"
  | store .word => "STW"
  | store .byte => "STB"
  | alu .add => "ADD"
  | alu .sub => "SUB"
  | alu .mul => "MUL"
  | alu .mulUnsigned => "UMUL"
  | alu .div => "DIV"
  | alu .divUnsigned => "UDIV"
  | alu .rem => "MOD"
  | alu .remUnsigned => "UMOD"
  | alu .and => "AND"
  | alu .or => "OR"
  | alu .xor => "XOR"
  | alu .shiftRight => "SHR"
  | alu .shiftRightSigned => "SRA"
  | alu .shiftLeft => "SHL"
  | complement => "NOT"
  | immediate .add => "ADDI"
  | immediate .or => "ORI"
  | immediate .xor => "XORI"
  | immediate .and => "ANDI"
  | immediate .shiftLeft => "SHLI"
  | immediate .shiftRightSigned => "SRAI"
  | immediate .shiftRight => "SHRI"
  | jump .always => "JMP"
  | jumpRegister => "JR"
  | compare => "CMP"
  | jump .equal => "JEQ"
  | jump .notEqual => "JNE"
  | jump .less => "JLT"
  | jump .greater => "JGT"
  | jump .lessOrEqual => "JLE"
  | jump .greaterOrEqual => "JGE"
  | jump .overflow => "JOF"
  | jump .noOverflow => "JNO"
  | call => "CALL"
  | callRegister => "CLR"
  | ret => "RET"
  | interrupt => "INT"
  | push => "PUSH"
  | pop => "POP"
  | setWindowOffset => "VMO"
  | setWindowBound => "VMB"
  | leavePrivileged => "HLR"
  | maskInterrupts => "STI"
  | unmaskInterrupts => "CLI"
  | getSavedFlags => "GTFS"
  | getSavedPc => "GTPC"
  | setFlags => "STFS"
  | halt => "HLT"
  | kill => "KILL"

def shape : Opcode → Shape
  | nop | ret | maskInterrupts | unmaskInterrupts | halt | kill => .bare
  | loadUpper | loadLower => .upper
  | load _ | store _ => .memory
  | immediate _ => .immediate
  | jump _ | call | interrupt => .displacement
  | move | alu _ | complement | jumpRegister | compare | callRegister | push | pop | setWindowOffset
  | setWindowBound | leavePrivileged | getSavedFlags | getSavedPc | setFlags => .registers

/-- Refused to user code before any operand is looked at. -/
def isPrivileged : Opcode → Bool
  | setWindowOffset | setWindowBound | leavePrivileged | maskInterrupts | unmaskInterrupts | getSavedFlags
  | getSavedPc | setFlags | halt | kill => true
  | _ => false

/-- The condition under which the opcode does what it does: only conditional jumps have one. -/
def condition : Opcode → Condition
  | jump condition => condition
  | _ => .always

theorem ofCode?_code (opcode : Opcode) : ofCode? opcode.code = some opcode := by
  rcases opcode with _ | _ | _ | _ | (_ | _) | (_ | _) | op | _ | op | condition <;> try rfl
  all_goals first
    | (cases op <;> rfl)
    | (cases condition <;> rfl)

theorem code_of_ofCode? {byte : Byte} {opcode : Opcode} (h : ofCode? byte = some opcode) :
    opcode.code = byte := by
  simpa using List.find?_some h

end Opcode

end Risc32
