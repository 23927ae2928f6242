import Mathlib.Algebra.Group.Int.Defs
import Mathlib.Data.List.Forall2
import Risc32.Instruction.Operands

namespace Risc32

/-- A run of bits in a word, read as a number. -/
structure Field where
  start : Nat
  width : Nat
  isSigned : Bool := false
deriving DecidableEq, Repr

namespace Field

def read (field : Field) (word : Word) : Int :=
  let bits := word.extractLsb' field.start field.width
  if field.isSigned then bits.toInt else bits.toNat

/-- The number fits into the field. -/
def Admits (field : Field) (n : Int) : Prop :=
  if field.isSigned then -2 ^ (field.width - 1) ≤ n ∧ n < 2 ^ (field.width - 1)
  else 0 ≤ n ∧ n < 2 ^ field.width

def covers (field : Field) (bit : Nat) : Bool :=
  field.start ≤ bit && bit < field.start + field.width

end Field

namespace Shape

/-- The fields of an instruction in the order of its operands. -/
def fields : Shape → List Field
  | bare => []
  | registers => [{ start := 19, width := 5 }, { start := 14, width := 5 }, { start := 9, width := 5 }]
  | upper => [{ start := 19, width := 5 }, { start := 3, width := 16 }]
  | displacement => [{ start := 0, width := 24 }]
  | immediate => [{ start := 19, width := 5 }, { start := 0, width := 19, isSigned := true }]
  | memory =>
    [{ start := 19, width := 5 }, { start := 14, width := 5 }, { start := 0, width := 14, isSigned := true }]

/-- Whether a bit belongs to one of the fields. -/
def uses (shape : Shape) (bit : Nat) : Bool :=
  shape.fields.any (·.covers bit)

end Shape

namespace Operands

def shape : Operands → Shape
  | bare => .bare
  | registers .. => .registers
  | upper .. => .upper
  | displacement _ => .displacement
  | immediate .. => .immediate
  | memory .. => .memory

/-- The operands as numbers. Registers count as their indices. -/
def numbers : Operands → List Int
  | bare => []
  | registers r0 r1 r2 => [r0.index.toNat, r1.index.toNat, r2.index.toNat]
  | upper r0 value => [r0.index.toNat, value.toNat]
  | displacement value => [value.toNat]
  | immediate r0 value => [r0.index.toNat, value.toInt]
  | memory r0 r1 value => [r0.index.toNat, r1.index.toNat, value.toInt]

/-- Numbers that fit into the fields of a shape are operands of that shape. -/
theorem exists_numbers_eq {shape : Shape} {numbers : List Int}
    (h : List.Forall₂ Field.Admits shape.fields numbers) :
    ∃ operands : Operands, operands.shape = shape ∧ operands.numbers = numbers := by
  have unsigned {start width : Nat} {n : Int} (hn : Field.Admits ⟨start, width, false⟩ n) :
      ((BitVec.ofInt width n).toNat : Int) = n := by
    obtain ⟨hlow, hhigh⟩ := hn
    rw [BitVec.toNat_ofInt]
    have := Int.emod_eq_of_lt hlow hhigh
    grind
  have signed {start width : Nat} {n : Int} (hwidth : 0 < width) (hn : Field.Admits ⟨start, width, true⟩ n) :
      (BitVec.ofInt width n).toInt = n := by
    obtain ⟨hlow, hhigh⟩ := hn
    exact BitVec.toInt_ofInt_eq_self hwidth hlow hhigh
  match shape, numbers, h with
  | .bare, [], .nil => exact ⟨bare, rfl, rfl⟩
  | .registers, [a, b, c], .cons ha (.cons hb (.cons hc .nil)) =>
    refine ⟨registers ⟨.ofInt 5 a⟩ ⟨.ofInt 5 b⟩ ⟨.ofInt 5 c⟩, rfl, ?_⟩
    simp only [Operands.numbers, unsigned ha, unsigned hb, unsigned hc]
  | .upper, [a, n], .cons ha (.cons hn .nil) =>
    refine ⟨upper ⟨.ofInt 5 a⟩ (.ofInt 16 n), rfl, ?_⟩
    simp only [Operands.numbers, unsigned ha, unsigned hn]
  | .displacement, [n], .cons hn .nil =>
    refine ⟨displacement (.ofInt 24 n), rfl, ?_⟩
    simp only [Operands.numbers, unsigned hn]
  | .immediate, [a, n], .cons ha (.cons hn .nil) =>
    refine ⟨immediate ⟨.ofInt 5 a⟩ (.ofInt 19 n), rfl, ?_⟩
    simp only [Operands.numbers, unsigned ha, signed (by decide) hn]
  | .memory, [a, b, n], .cons ha (.cons hb (.cons hn .nil)) =>
    refine ⟨memory ⟨.ofInt 5 a⟩ ⟨.ofInt 5 b⟩ (.ofInt 14 n), rfl, ?_⟩
    simp only [Operands.numbers, unsigned ha, unsigned hb, signed (by decide) hn]

theorem shape_ofField (shape : Shape) (bits : BitVec 24) : (ofField shape bits).shape = shape := by
  cases shape <;> rfl

/-- Operands are what lies in the fields of their shape. -/
theorem numbers_ofField (shape : Shape) (word : Word) :
    (ofField shape (word.setWidth 24)).numbers = shape.fields.map (·.read word) := by
  cases shape with
  | bare => rfl
  | _ =>
    simp [ofField, numbers, Shape.fields, Field.read, Instruction.r0, Instruction.r1, Instruction.r2,
      Instruction.upper, BitVec.setWidth_eq_extractLsb']

theorem extractLsb'_middle {u v w : Nat} (x : BitVec u) (y : BitVec v) (z : BitVec w) :
    (x ++ y ++ z).extractLsb' w v = y := by
  rw [BitVec.extractLsb'_append_eq_of_le (Nat.le_refl w), Nat.sub_self, BitVec.extractLsb'_append_eq_right]

/-- Operands are found in their encoding. -/
theorem ofField_field (operands : Operands) : ofField operands.shape operands.field = operands := by
  cases operands with
  | bare => rfl
  | registers r0 r1 r2 =>
    have h0 : (r0.index ++ r1.index ++ r2.index ++ 0#9).extractLsb' 19 5 = r0.index := by
      rw [BitVec.extractLsb'_append_eq_of_le (by decide), BitVec.extractLsb'_append_eq_of_le (by decide)]
      exact BitVec.extractLsb'_append_eq_left
    have h1 : (r0.index ++ r1.index ++ r2.index ++ 0#9).extractLsb' 14 5 = r1.index := by
      rw [BitVec.extractLsb'_append_eq_of_le (by decide)]
      exact extractLsb'_middle r0.index r1.index r2.index
    have h2 : (r0.index ++ r1.index ++ r2.index ++ 0#9).extractLsb' 9 5 = r2.index :=
      extractLsb'_middle (r0.index ++ r1.index) r2.index 0#9
    exact congr (congr (congrArg registers (congrArg Register.mk h0)) (congrArg Register.mk h1))
      (congrArg Register.mk h2)
  | upper r0 value =>
    have h0 : (r0.index ++ value ++ 0#3).extractLsb' 19 5 = r0.index := by
      rw [BitVec.extractLsb'_append_eq_of_le (by decide)]
      exact BitVec.extractLsb'_append_eq_left
    exact congr (congrArg upper (congrArg Register.mk h0)) (extractLsb'_middle r0.index value 0#3)
  | displacement value => rfl
  | immediate r0 value =>
    have h0 : (r0.index ++ value).extractLsb' 19 5 = r0.index := BitVec.extractLsb'_append_eq_left
    exact congr (congrArg immediate (congrArg Register.mk h0)) BitVec.setWidth_append_eq_right
  | memory r0 r1 value =>
    have h0 : (r0.index ++ r1.index ++ value).extractLsb' 19 5 = r0.index := by
      rw [BitVec.extractLsb'_append_eq_of_le (by decide)]
      exact BitVec.extractLsb'_append_eq_left
    have h1 : (r0.index ++ r1.index ++ value).extractLsb' 14 5 = r1.index :=
      extractLsb'_middle r0.index r1.index value
    exact congr (congr (congrArg memory (congrArg Register.mk h0)) (congrArg Register.mk h1))
      BitVec.setWidth_append_eq_right

/-- Operand bits that belong to no field are lost, and no others. -/
theorem getLsbD_field_ofField (shape : Shape) (bits : BitVec 24) {bit : Nat} (hbit : bit < 24) :
    (ofField shape bits).field.getLsbD bit = (shape.uses bit && bits.getLsbD bit) := by
  cases shape with
  | bare => simp [ofField, field, Shape.uses, Shape.fields]
  | _ =>
    simp only [ofField, field, Shape.uses, Shape.fields, Field.covers, List.any_cons, List.any_nil,
      Instruction.r0, Instruction.r1, Instruction.r2, Instruction.upper, BitVec.getLsbD_append,
      BitVec.getLsbD_extractLsb', BitVec.getLsbD_setWidth]
    grind

end Operands

namespace Instruction

/-- Decoding fails for no other reason than a top byte that is not assigned. -/
theorem ofWord?_eq_none_iff {word : Word} :
    ofWord? word = none ↔ ∀ opcode ∈ Opcode.all, opcode.code ≠ word.extractLsb' 24 8 := by
  simp [ofWord?, Opcode.ofCode?]

/-- An encoding is an instruction with the operands that were encoded. -/
theorem ofWord?_encode {opcode : Opcode} {operands : Operands} (hshape : operands.shape = opcode.shape) :
    ∃ i, ofWord? (operands.encode opcode) = some i ∧ i.opcode = opcode ∧ i.operands = operands := by
  have hword : operands.encode opcode = (⟨opcode, operands.field⟩ : Instruction).word := rfl
  rw [hword]
  refine ⟨_, ofWord?_word _, rfl, ?_⟩
  rw [Instruction.operands, ← hshape, Operands.ofField_field]

theorem shape_operands (i : Instruction) : i.operands.shape = i.opcode.shape :=
  Operands.shape_ofField ..

theorem parts_of_ofWord? {word : Word} {i : Instruction} (h : ofWord? word = some i) :
    i.opcode.code = word.extractLsb' 24 8 ∧ i.field = word.setWidth 24 := by
  obtain ⟨opcode, hopcode, rfl⟩ := Option.map_eq_some_iff.1 h
  exact ⟨Opcode.code_of_ofCode? hopcode, rfl⟩

theorem encode_eq_word_iff (i : Instruction) : i.encode = i.word ↔ i.operands.field = i.field := by
  unfold encode Operands.encode word
  exact BitVec.append_right_inj _

/-- A canonical word is one whose unused bits are zero. -/
theorem encode_eq_iff {word : Word} {i : Instruction} (h : ofWord? word = some i) :
    i.encode = word ↔ ∀ bit < 24, i.opcode.shape.uses bit = false → word.getLsbD bit = false := by
  have hbits {bit : Nat} (hbit : bit < 24) : i.field.getLsbD bit = word.getLsbD bit := by
    rw [(parts_of_ofWord? h).2, BitVec.getLsbD_setWidth, decide_eq_true hbit, Bool.true_and]
  have hused {bit : Nat} (hbit : bit < 24) :
      i.operands.field.getLsbD bit = (i.opcode.shape.uses bit && word.getLsbD bit) := by
    rw [operands, Operands.getLsbD_field_ofField _ _ hbit, hbits hbit]
  rw [← word_of_ofWord? h, encode_eq_word_iff, word_of_ofWord? h]
  constructor
  · intro hsame bit hbit hunused
    rw [← hbits hbit, ← hsame, hused hbit, hunused, Bool.false_and]
  · intro hzero
    apply BitVec.eq_of_getLsbD_eq
    intro bit hbit
    rw [hused hbit, hbits hbit]
    cases huses : i.opcode.shape.uses bit with
    | true => exact Bool.true_and _
    | false => rw [hzero bit hbit huses, Bool.false_and]

/-- Instructions and words stand for each other. Numbers that fit into the fields of an opcode are its
    operands, and whatever operands are encoded are read again, with the opcode. A word is no instruction
    exactly when its top byte is not assigned. Otherwise that byte gives the opcode and the fields of its
    shape the operands; to encode these again leads to a canonical word with the same reading, which is the
    word itself exactly when all bits are zero that belong neither to the opcode nor to a field. -/
theorem format_faithful :
    (∀ (opcode : Opcode) (numbers : List Int), List.Forall₂ Field.Admits opcode.shape.fields numbers →
      ∃ operands : Operands, operands.shape = opcode.shape ∧ operands.numbers = numbers) ∧
    (∀ (opcode : Opcode) (operands : Operands), operands.shape = opcode.shape →
      ∃ i, ofWord? (operands.encode opcode) = some i ∧ i.opcode = opcode ∧ i.operands = operands) ∧
    (∀ word : Word,
      ofWord? word = none ↔ ∀ opcode ∈ Opcode.all, opcode.code ≠ word.extractLsb' 24 8) ∧
    ∀ (word : Word) (i : Instruction), ofWord? word = some i →
      i.opcode.code = word.extractLsb' 24 8 ∧
      i.operands.numbers = i.opcode.shape.fields.map (·.read word) ∧
      (∃ canonical, ofWord? i.encode = some canonical ∧ canonical.opcode = i.opcode ∧
        canonical.operands = i.operands ∧ canonical.encode = i.encode) ∧
      (i.encode = word ↔ ∀ bit < 24, i.opcode.shape.uses bit = false → word.getLsbD bit = false) := by
  refine ⟨fun _ _ => Operands.exists_numbers_eq, fun _ _ => ofWord?_encode,
    fun _ => ofWord?_eq_none_iff, fun word i hword => ?_⟩
  obtain ⟨hcode, hfield⟩ := parts_of_ofWord? hword
  refine ⟨hcode, ?_, ?_, encode_eq_iff hword⟩
  · rw [operands, hfield, Operands.numbers_ofField]
  · obtain ⟨canonical, hdecode, hopcode, hoperands⟩ := ofWord?_encode i.shape_operands
    refine ⟨canonical, hdecode, hopcode, hoperands, ?_⟩
    rw [encode, encode, hopcode, hoperands]

/-- The displacement of a store has its sign bit in the middle of the word. -/
theorem format_faithful_negative :
    List.Forall₂ Field.Admits (Opcode.store .byte).shape.fields [31, 0, -8192] ∧
      ∃ operands i, operands.numbers = [31, 0, -8192] ∧
        ofWord? (operands.encode (.store .byte)) = some i ∧
        i.opcode = .store .byte ∧ i.operands = operands := by
  have hadmits : List.Forall₂ Field.Admits (Opcode.store .byte).shape.fields [31, 0, -8192] := by
    repeat constructor
  refine ⟨hadmits, ?_⟩
  obtain ⟨operands, hshape, hnumbers⟩ := format_faithful.1 _ _ hadmits
  obtain ⟨i, hdecode, hopcode, hoperands⟩ := format_faithful.2.1 _ _ hshape
  exact ⟨operands, i, hnumbers, hdecode, hopcode, hoperands⟩

end Instruction

end Risc32
