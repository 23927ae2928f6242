import Risc32.Opcode
import Risc32.Register

namespace Risc32

/-- The operand bits are kept as they were fetched. Every field can be read from them whatever the
    opcode, and bits that the opcode gives no meaning stay visible. -/
structure Instruction where
  opcode : Opcode
  field : BitVec 24
deriving DecidableEq, Repr

namespace Instruction

def r0 (i : Instruction) : Register := ⟨i.field.extractLsb' 19 5⟩

def r1 (i : Instruction) : Register := ⟨i.field.extractLsb' 14 5⟩

def r2 (i : Instruction) : Register := ⟨i.field.extractLsb' 9 5⟩

def upper (i : Instruction) : BitVec 16 := i.field.extractLsb' 3 16

/-- The second operand of the immediate operations. -/
def immediate (i : Instruction) : Word := signExtend 19 i.field

/-- What loads and stores add to their base register. -/
def offset (i : Instruction) : Word := signExtend 14 i.field

/-- What jumps and calls add to the address behind them. -/
def displacement (i : Instruction) : Word := signExtend 24 i.field

/-- The whole field as an unsigned number: the index of a software interrupt. -/
def index (i : Instruction) : Word := i.field.setWidth 32

def word (i : Instruction) : Word := i.opcode.code ++ i.field

/-- Only the top byte decides whether a word is an instruction. -/
def ofWord? (word : Word) : Option Instruction :=
  (Opcode.ofCode? (word.extractLsb' 24 8)).map fun opcode => ⟨opcode, word.setWidth 24⟩

theorem word_extractLsb'_append (word : Word) :
    word.extractLsb' 24 8 ++ word.setWidth 24 = word := by
  apply BitVec.eq_of_getLsbD_eq
  intro i hi
  simp only [BitVec.getLsbD_append, BitVec.getLsbD_extractLsb', BitVec.getLsbD_setWidth]
  grind

theorem ofWord?_word (i : Instruction) : ofWord? i.word = some i := by
  have hcode : i.word.extractLsb' 24 8 = i.opcode.code := by
    apply BitVec.eq_of_getLsbD_eq
    intro j hj
    simp only [word, BitVec.getLsbD_append, BitVec.getLsbD_extractLsb']
    grind
  have hfield : i.word.setWidth 24 = i.field := by
    apply BitVec.eq_of_getLsbD_eq
    intro j hj
    simp only [word, BitVec.getLsbD_append, BitVec.getLsbD_setWidth]
    grind
  simp [ofWord?, hcode, hfield, Opcode.ofCode?_code]

theorem word_of_ofWord? {word : Word} {i : Instruction} (h : ofWord? word = some i) :
    i.word = word := by
  obtain ⟨opcode, hopcode, rfl⟩ := Option.map_eq_some_iff.1 h
  simp only [Instruction.word, Opcode.code_of_ofCode? hopcode]
  exact word_extractLsb'_append word

end Instruction

end Risc32
