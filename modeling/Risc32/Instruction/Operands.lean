import Risc32.Instruction

namespace Risc32

/-- The operands that an instruction means. Immediates are fields of their own width; where they
    are signed they are read in two's complement. -/
inductive Operands where
  | bare
  | registers (r0 r1 r2 : Register)
  | upper (r0 : Register) (value : BitVec 16)
  | displacement (value : BitVec 24)
  | immediate (r0 : Register) (value : BitVec 19)
  | memory (r0 r1 : Register) (value : BitVec 14)
deriving DecidableEq, Repr

namespace Operands

/-- The operand bits of an encoding. Bits outside the fields of the shape are zero. -/
def field : Operands → BitVec 24
  | bare => 0
  | registers r0 r1 r2 => r0.index ++ r1.index ++ r2.index ++ 0#9
  | upper r0 value => r0.index ++ value ++ 0#3
  | displacement value => value
  | immediate r0 value => r0.index ++ value
  | memory r0 r1 value => r0.index ++ r1.index ++ value

/-- The operands of the given shape that lie in operand bits. -/
def ofField (shape : Shape) (bits : BitVec 24) : Operands :=
  let i : Instruction := ⟨.nop, bits⟩
  match shape with
  | .bare => bare
  | .registers => registers i.r0 i.r1 i.r2
  | .upper => upper i.r0 i.upper
  | .displacement => displacement bits
  | .immediate => immediate i.r0 (bits.setWidth 19)
  | .memory => memory i.r0 i.r1 (bits.setWidth 14)

def encode (opcode : Opcode) (operands : Operands) : Word :=
  opcode.code ++ operands.field

end Operands

namespace Instruction

def operands (i : Instruction) : Operands :=
  Operands.ofField i.opcode.shape i.field

/-- The canonical word of the instruction: its operand bits without those that mean nothing. -/
def encode (i : Instruction) : Word :=
  i.operands.encode i.opcode

end Instruction

end Risc32
