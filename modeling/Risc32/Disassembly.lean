import Risc32.Instruction.Operands
import Risc32.Memory

namespace Risc32

namespace Opcode

/-- How many of its register fields a register-shaped instruction uses. -/
def registersUsed : Opcode → Nat
  | jumpRegister | callRegister | push | pop | setWindowOffset | setWindowBound | leavePrivileged
  | getSavedFlags | getSavedPc | setFlags => 1
  | move | complement | compare => 2
  | _ => 3

end Opcode

namespace Operands

/-- The offset inside the brackets of a memory operand; an offset of zero is left out. -/
def offsetText (value : BitVec 14) : String :=
  if value.toInt = 0 then ""
  else if value.toInt < 0 then " - " ++ value.toInt.natAbs.repr
  else " + " ++ value.toInt.natAbs.repr

def text (opcode : Opcode) : Operands → String
  | bare => ""
  | registers r0 r1 r2 => ", ".intercalate (([r0, r1, r2].take opcode.registersUsed).map Register.name)
  | upper r0 value => r0.name ++ ", " ++ Text.paddedHex 4 value.toNat
  | displacement value =>
    if opcode = .interrupt then value.toNat.repr else Text.signedHex value.toInt
  | immediate r0 value => r0.name ++ ", " ++ Text.decimal value.toInt
  | memory r0 r1 value => r0.name ++ ", [" ++ r1.name ++ offsetText value ++ "]"

end Operands

/-- One word of memory with its reading. A word that is no instruction is shown as data. -/
structure DisassemblyRow where
  address : Word
  word : Word
  mnemonic : String
  operands : String
  isIllegal : Bool
deriving DecidableEq, Repr

namespace DisassemblyRow

def ofWord (address word : Word) : DisassemblyRow :=
  match Instruction.ofWord? word with
  | some i => ⟨address, word, i.opcode.mnemonic, i.operands.text i.opcode, false⟩
  | none => ⟨address, word, ".word", Text.hexWord word, true⟩

def text (row : DisassemblyRow) : String :=
  if row.operands.isEmpty then row.mnemonic else row.mnemonic ++ " " ++ row.operands

@[simp]
theorem address_ofWord (address word : Word) : (ofWord address word).address = address := by
  unfold ofWord
  split <;> rfl

@[simp]
theorem word_ofWord (address word : Word) : (ofWord address word).word = word := by
  unfold ofWord
  split <;> rfl

end DisassemblyRow

/-- The text of a word depends on the word alone, not on where it lies. -/
def disassemble (word : Word) : String :=
  (DisassemblyRow.ofWord 0 word).text

/-- The row at an address, if there is such an address and the memory holds the word at it. -/
def Memory.rowAt? (memory : Memory) (address : Nat) : Option DisassemblyRow :=
  if address < addressCount then
    (memory.word? address).map (DisassemblyRow.ofWord (BitVec.ofNat 32 address))
  else none

/-- The rows from `before` words below `center` to `after` words above it, as far as they lie in the
    memory. Below address zero the window is cut off, and rows then count from there. -/
def Memory.disassembleAround (memory : Memory) (center : Word) (before after : Nat) :
    List DisassemblyRow :=
  let start := center.toNat - 4 * before
  let count := min ((center.toNat - start) / 4 + 1 + after) (memory.size / 4)
  (List.range count).filterMap fun k => memory.rowAt? (start + 4 * k)

end Risc32
