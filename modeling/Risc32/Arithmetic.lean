import Risc32.Fault
import Risc32.Flags.Update
import Risc32.Opcode

namespace Risc32

/-- A sum overflows if both operands differ in sign from the result. -/
def addOverflows (a b result : Word) : Bool :=
  ((a ^^^ result) &&& (b ^^^ result)).msb

/-- A difference overflows if the operands differ in sign and the result has not the sign of the
    first one. -/
def subOverflows (a b result : Word) : Bool :=
  ((a ^^^ b) &&& (a ^^^ result)).msb

/-- The test on signs is exact: it tells whether the sum of the numbers that the words stand for is out of
    range. -/
theorem addOverflows_add (a b : Word) : addOverflows a b (a + b) = a.saddOverflow b := by
  rw [addOverflows, BitVec.saddOverflow_eq]
  simp only [BitVec.msb_and, BitVec.msb_xor]
  cases a.msb <;> cases b.msb <;> simp

/-- The test for differences is exact, too. -/
theorem subOverflows_sub (a b : Word) : subOverflows a b (a - b) = a.ssubOverflow b := by
  rw [subOverflows, BitVec.ssubOverflow_eq]
  simp only [BitVec.msb_and, BitVec.msb_xor]
  cases a.msb <;> cases b.msb <;> simp

/-- A result and what it does to the flags. -/
structure Computed where
  result : Word
  update : FlagsUpdate
deriving DecidableEq, Repr

namespace Computed

/-- A sum or difference. -/
def ofArithmetic (result : Word) (overflow : Bool) : Computed :=
  ⟨result, .arithmetic result overflow⟩

/-- A product, a quotient or a remainder. -/
def ofProduct (result : Word) : Computed :=
  ⟨result, .zeroNegative result⟩

/-- The result of a bitwise operation or a shift. -/
def ofBits (result : Word) : Computed :=
  ⟨result, .zero result⟩

end Computed

def addWithFlags (a b : Word) : Computed :=
  .ofArithmetic (a + b) (addOverflows a b (a + b))

def subWithFlags (a b : Word) : Computed :=
  .ofArithmetic (a - b) (subOverflows a b (a - b))

/-- Shifts look at the low five bits of their second operand only. -/
def shiftAmount (b : Word) : Nat :=
  b.toNat % 32

/-- The address that a base and an offset, or a program counter and a displacement, make up. -/
def effectiveAddress (base offset : Word) : Word :=
  base + offset

namespace AluOp

def divides : AluOp → Bool
  | div | divUnsigned | rem | remUnsigned => true
  | _ => false

/-- The result for operands that the operation accepts. Signed division truncates towards zero, and
    products and the one quotient that no word can hold wrap. -/
def compute (a b : Word) : AluOp → Computed
  | add => addWithFlags a b
  | sub => subWithFlags a b
  | mul => .ofProduct (BitVec.ofInt 32 (a.toInt * b.toInt))
  | mulUnsigned => .ofProduct (a * b)
  | div => .ofProduct (a.sdiv b)
  | divUnsigned => .ofProduct (a / b)
  | rem => .ofProduct (a.srem b)
  | remUnsigned => .ofProduct (a % b)
  | and => .ofBits (a &&& b)
  | or => .ofBits (a ||| b)
  | xor => .ofBits (a ^^^ b)
  | shiftRight => .ofBits (a >>> shiftAmount b)
  | shiftRightSigned => .ofBits (a.sshiftRight (shiftAmount b))
  | shiftLeft => .ofBits (a <<< shiftAmount b)

def eval (op : AluOp) (a b : Word) : Except Fault Computed :=
  if op.divides && b == 0 then .error .divideByZero else .ok (op.compute a b)

end AluOp

/-- The result for an immediate operand. Shifts mask the immediate to its low five bits. -/
def ImmediateOp.compute (a immediate : Word) : ImmediateOp → Computed
  | add => addWithFlags a immediate
  | and => .ofBits (a &&& immediate)
  | or => .ofBits (a ||| immediate)
  | xor => .ofBits (a ^^^ immediate)
  | shiftLeft => .ofBits (a <<< (immediate &&& 31#32))
  | shiftRight => .ofBits (a >>> (immediate &&& 31#32))
  | shiftRightSigned => .ofBits (a.sshiftRight' (immediate &&& 31#32))

theorem toNat_and_31 (b : Word) : (b &&& 31#32).toNat = shiftAmount b := by
  rw [BitVec.toNat_and, shiftAmount]
  exact Nat.and_two_pow_sub_one_eq_mod b.toNat 5

/-- The two forms of an operation compute the same, although each has its own cases. -/
theorem compute_toAluOp (op : ImmediateOp) (a b : Word) : op.toAluOp.compute a b = op.compute a b := by
  cases op with
  | shiftLeft =>
    rw [ImmediateOp.toAluOp, AluOp.compute, ImmediateOp.compute, BitVec.shiftLeft_eq', toNat_and_31]
  | shiftRight =>
    rw [ImmediateOp.toAluOp, AluOp.compute, ImmediateOp.compute, BitVec.ushiftRight_eq', toNat_and_31]
  | shiftRightSigned =>
    rw [ImmediateOp.toAluOp, AluOp.compute, ImmediateOp.compute, BitVec.sshiftRight', toNat_and_31]
  | _ => rfl

end Risc32
