import Mathlib.Data.List.Nodup
import Risc32.Disassembly
import Risc32.Machine.Step
import Risc32.Proofs.InstructionFormat
import Risc32.Proofs.Numerals

namespace Risc32

namespace Text

/-- Names are written in letters and digits. -/
def IsWord (s : String) : Prop :=
  s.toList.all Char.isAlphanum = true

/-- A text that can follow a name without becoming a part of it. -/
def Delimits (s : String) : Prop :=
  s.toList.head?.any Char.isAlphanum = false

instance (s : String) : Decidable (IsWord s) :=
  inferInstanceAs (Decidable (_ = true))

instance (s : String) : Decidable (Delimits s) :=
  inferInstanceAs (Decidable (_ = false))

theorem Delimits.append {s : String} (h : Delimits s) (hs : s ≠ "") (t : String) : Delimits (s ++ t) := by
  unfold Delimits at *
  rw [String.toList_append]
  cases hlist : s.toList with
  | nil => exact absurd (String.toList_eq_nil_iff.1 hlist) hs
  | cons c rest =>
    rw [hlist] at h
    exact h

theorem takeWhile_append_of_isWord {s t : String} (hs : IsWord s) (ht : Delimits t) :
    (s ++ t).toList.takeWhile Char.isAlphanum = s.toList := by
  rw [String.toList_append, List.takeWhile_append_of_pos (List.all_eq_true.1 hs)]
  unfold Delimits at ht
  cases hlist : t.toList with
  | nil => rw [List.takeWhile_nil, List.append_nil]
  | cons c rest =>
    rw [hlist] at ht
    have hc : c.isAlphanum = false := ht
    rw [List.takeWhile_cons_of_neg (by rw [hc]; decide), List.append_nil]

/-- Where a name ends can be seen from the text. -/
theorem append_inj_of_isWord {s s' t t' : String} (hs : IsWord s) (hs' : IsWord s') (ht : Delimits t)
    (ht' : Delimits t') (h : s ++ t = s' ++ t') : s = s' ∧ t = t' := by
  have hword : s = s' := by
    rw [← String.toList_inj, ← takeWhile_append_of_isWord hs ht, h, takeWhile_append_of_isWord hs' ht']
  subst hword
  exact ⟨rfl, (String.append_right_inj s).1 h⟩

end Text

namespace Register

theorem isWord_name (r : Register) : Text.IsWord r.name := by
  have hall : ∀ name ∈ names.toList, Text.IsWord name := by decide +kernel
  exact hall _ (by simp [name])

theorem name_injective : Function.Injective name := by
  intro r s h
  have hnodup : names.toList.Nodup := by decide +kernel
  have hget (r : Register) : r.name = names.toList.get ⟨r.index.toNat, by simp [toNat_index_lt]⟩ := by
    simp [name]
  rw [hget r, hget s] at h
  exact eq_of_toNat_index_eq (congrArg Fin.val (List.nodup_iff_injective_get.1 hnodup h))

theorem name_append_inj {r s : Register} {separator t u : String} (hseparator : Text.Delimits separator)
    (hne : separator ≠ "") (h : r.name ++ separator ++ t = s.name ++ separator ++ u) : r = s ∧ t = u := by
  rw [String.append_assoc, String.append_assoc] at h
  obtain ⟨hname, hrest⟩ := Text.append_inj_of_isWord r.isWord_name s.isWord_name
    (hseparator.append hne t) (hseparator.append hne u) h
  exact ⟨name_injective hname, (String.append_right_inj separator).1 hrest⟩

end Register

namespace Opcode

theorem mem_all (opcode : Opcode) : opcode ∈ all :=
  List.mem_of_find?_eq_some (ofCode?_code opcode)

theorem isWord_mnemonic (opcode : Opcode) : Text.IsWord opcode.mnemonic := by
  have hall : ∀ opcode ∈ all, Text.IsWord opcode.mnemonic := by decide +kernel
  exact hall opcode opcode.mem_all

theorem mnemonic_injective : Function.Injective mnemonic := by
  have hnodup : (all.map mnemonic).Nodup := by decide +kernel
  exact fun first second h => List.inj_on_of_nodup_map hnodup first.mem_all second.mem_all h

theorem mnemonic_ne_empty (opcode : Opcode) : opcode.mnemonic ≠ "" := by
  have hall : ∀ opcode ∈ all, opcode.mnemonic ≠ "" := by decide +kernel
  exact hall opcode opcode.mem_all

theorem registersUsed_cases (opcode : Opcode) :
    opcode.registersUsed = 1 ∨ opcode.registersUsed = 2 ∨ opcode.registersUsed = 3 := by
  cases opcode <;> simp [registersUsed]

end Opcode

namespace Operands

/-- The operands without those registers that the opcode does not use. -/
def visible (opcode : Opcode) : Operands → Operands
  | registers r0 r1 r2 =>
    registers r0 (if 2 ≤ opcode.registersUsed then r1 else .zero)
      (if 3 ≤ opcode.registersUsed then r2 else .zero)
  | operands => operands

theorem intercalate_names_inj {rs ss : List Register} (hlength : rs.length = ss.length)
    (h : ", ".intercalate (rs.map Register.name) = ", ".intercalate (ss.map Register.name)) : rs = ss := by
  induction rs generalizing ss with
  | nil => exact (List.length_eq_zero_iff.1 hlength.symm).symm
  | cons r rs ih =>
    match rs, ss, hlength with
    | [], [s], _ =>
      simp only [List.map_cons, List.map_nil, String.intercalate_singleton] at h
      rw [Register.name_injective h]
    | r' :: rs, s :: s' :: ss, hlength =>
      simp only [List.map_cons, String.intercalate_cons_cons] at h
      obtain ⟨hhead, htail⟩ := Register.name_append_inj (by decide) (by decide) h
      rw [hhead, ih (Nat.succ.inj hlength) htail]

theorem delimits_offsetText_append (value : BitVec 14) : Text.Delimits (offsetText value ++ "]") := by
  unfold offsetText
  split_ifs
  · decide
  · rw [String.append_assoc]
    exact Text.Delimits.append (by decide) (by decide) _
  · rw [String.append_assoc]
    exact Text.Delimits.append (by decide) (by decide) _

theorem offsetText_injective : Function.Injective offsetText := by
  have hsigned (n : Int) (s : String) : (if n < 0 then " - " ++ s else " + " ++ s) ≠ "" := by
    split_ifs <;> simp
  intro a b h
  unfold offsetText at h
  apply BitVec.eq_of_toInt_eq
  by_cases ha : a.toInt = 0 <;> by_cases hb : b.toInt = 0
  · rw [ha, hb]
  · rw [if_pos ha, if_neg hb] at h
    exact absurd h.symm (hsigned _ _)
  · rw [if_neg ha, if_pos hb] at h
    exact absurd h (hsigned _ _)
  · rw [if_neg ha, if_neg hb] at h
    refine Text.eq_of_signed " - " " + " Text.repr_injective (fun m n h => ?_) h
    -- The signs stand behind a blank.
    have := congrArg (·.toList[1]?) h
    simp at this

/-- What the text of an instruction shows can be told from it. -/
theorem visible_eq_of_text_eq {opcode : Opcode} {first second : Operands}
    (hfirst : first.shape = opcode.shape) (hsecond : second.shape = opcode.shape)
    (h : first.text opcode = second.text opcode) : first.visible opcode = second.visible opcode := by
  -- Each shape is read from left to right: a register name ends where a comma, a blank or a bracket follows,
  -- and the number is what is left.
  match first, second, hfirst.trans hsecond.symm with
  | bare, bare, _ => rfl
  | registers r0 r1 r2, registers s0 s1 s2, _ =>
    have hnames := intercalate_names_inj (by simp) h
    rcases opcode.registersUsed_cases with hused | hused | hused
    · obtain rfl : r0 = s0 := by simpa [hused] using hnames
      simp [visible, hused]
    · obtain ⟨rfl, rfl⟩ : r0 = s0 ∧ r1 = s1 := by simpa [hused] using hnames
      simp [visible, hused]
    · obtain ⟨rfl, rfl, rfl⟩ : r0 = s0 ∧ r1 = s1 ∧ r2 = s2 := by simpa [hused] using hnames
      rfl
  | upper r value, upper s value', _ =>
    obtain ⟨hregister, hvalue⟩ := Register.name_append_inj (by decide) (by decide) h
    rw [hregister, BitVec.eq_of_toNat_eq (Text.paddedHex_injective 4 hvalue)]
  | displacement value, displacement value', _ =>
    by_cases hopcode : opcode = .interrupt
    · simp only [text, if_pos hopcode] at h
      rw [BitVec.eq_of_toNat_eq (Text.repr_injective h)]
    · simp only [text, if_neg hopcode] at h
      rw [BitVec.eq_of_toInt_eq (Text.signedHex_injective h)]
  | immediate r value, immediate s value', _ =>
    obtain ⟨hregister, hvalue⟩ := Register.name_append_inj (by decide) (by decide) h
    rw [hregister, BitVec.eq_of_toInt_eq (Text.decimal_injective hvalue)]
  | memory r r' value, memory s s' value', _ =>
    have hassoc : r.name ++ ", [" ++ (r'.name ++ (offsetText value ++ "]")) =
        s.name ++ ", [" ++ (s'.name ++ (offsetText value' ++ "]")) := by
      simpa only [text, String.append_assoc] using h
    obtain ⟨hregister, hrest⟩ := Register.name_append_inj (by decide) (by decide) hassoc
    obtain ⟨hbase, hoffset⟩ := Text.append_inj_of_isWord r'.isWord_name s'.isWord_name
      (delimits_offsetText_append value) (delimits_offsetText_append value') hrest
    rw [hregister, Register.name_injective hbase,
      offsetText_injective ((String.append_left_inj "]").1 hoffset)]

end Operands

namespace Machine

variable {δ : Type} [Device δ]

/-- Execution looks at no operand that the text does not show. -/
theorem execute_eq_of_visible_eq {i j : Instruction} (hopcode : i.opcode = j.opcode)
    (h : i.operands.visible i.opcode = j.operands.visible j.opcode) :
    (execute i : Exec δ Flow) = execute j := by
  obtain ⟨opcode, f⟩ := i
  obtain ⟨_, g⟩ := j
  cases hopcode
  -- The cases are grouped by what the opcode reads. Its visible operands are a constructor applied to just
  -- these fields, so that they agree because the constructor is injective.
  cases opcode with
  | nop | ret | maskInterrupts | unmaskInterrupts | halt | kill => rfl
  | jumpRegister | callRegister | push | pop | setWindowOffset | setWindowBound | leavePrivileged
  | getSavedFlags | getSavedPc | setFlags =>
    have hr0 (opcode : Opcode) : Instruction.r0 ⟨opcode, f⟩ = Instruction.r0 ⟨opcode, g⟩ :=
      (Operands.registers.inj h).1
    simp only [execute, hr0]
  | move | complement | compare =>
    have hr0 (opcode : Opcode) : Instruction.r0 ⟨opcode, f⟩ = Instruction.r0 ⟨opcode, g⟩ :=
      (Operands.registers.inj h).1
    have hr1 (opcode : Opcode) : Instruction.r1 ⟨opcode, f⟩ = Instruction.r1 ⟨opcode, g⟩ :=
      (Operands.registers.inj h).2.1
    simp only [execute, hr0, hr1]
  | alu op =>
    obtain ⟨hr0, hr1, hr2⟩ : Instruction.r0 ⟨.alu op, f⟩ = Instruction.r0 ⟨.alu op, g⟩ ∧
        Instruction.r1 ⟨.alu op, f⟩ = Instruction.r1 ⟨.alu op, g⟩ ∧
        Instruction.r2 ⟨.alu op, f⟩ = Instruction.r2 ⟨.alu op, g⟩ := Operands.registers.inj h
    simp only [execute, executeAlu, hr0, hr1, hr2]
  | loadUpper | loadLower =>
    have hr0 (opcode : Opcode) : Instruction.r0 ⟨opcode, f⟩ = Instruction.r0 ⟨opcode, g⟩ :=
      (Operands.upper.inj h).1
    have hupper (opcode : Opcode) : Instruction.upper ⟨opcode, f⟩ = Instruction.upper ⟨opcode, g⟩ :=
      (Operands.upper.inj h).2
    simp only [execute, hr0, hupper]
  | load width | store width =>
    have hr0 (opcode : Opcode) : Instruction.r0 ⟨opcode, f⟩ = Instruction.r0 ⟨opcode, g⟩ :=
      (Operands.memory.inj h).1
    have hr1 (opcode : Opcode) : Instruction.r1 ⟨opcode, f⟩ = Instruction.r1 ⟨opcode, g⟩ :=
      (Operands.memory.inj h).2.1
    have hoffset (opcode : Opcode) : Instruction.offset ⟨opcode, f⟩ = Instruction.offset ⟨opcode, g⟩ :=
      signExtend_congr (by decide) (by decide) (Operands.memory.inj h).2.2
    simp only [execute, executeLoad, executeStore, hr0, hr1, hoffset]
  | immediate op =>
    have hr0 : Instruction.r0 ⟨.immediate op, f⟩ = Instruction.r0 ⟨.immediate op, g⟩ :=
      (Operands.immediate.inj h).1
    have hvalue : Instruction.immediate ⟨.immediate op, f⟩ = Instruction.immediate ⟨.immediate op, g⟩ :=
      signExtend_congr (by decide) (by decide) (Operands.immediate.inj h).2
    simp only [execute, executeImmediate, hr0, hvalue]
  | jump _ | call | interrupt =>
    obtain rfl : f = g := Operands.displacement.inj h
    rfl

end Machine

namespace DisassemblyRow

/-- What stands behind the mnemonic. -/
def rest (row : DisassemblyRow) : String :=
  if row.operands = "" then "" else " " ++ row.operands

theorem text_eq (row : DisassemblyRow) : row.text = row.mnemonic ++ row.rest := by
  unfold text rest
  by_cases hempty : row.operands = ""
  · rw [if_pos hempty, if_pos (String.isEmpty_iff.2 hempty), String.append_empty]
  · rw [if_neg hempty, if_neg (mt String.isEmpty_iff.1 hempty), String.append_assoc]

theorem delimits_rest (row : DisassemblyRow) : Text.Delimits row.rest := by
  unfold rest
  split_ifs
  · decide
  · exact Text.Delimits.append (by decide) (by decide) _

theorem operands_eq_of_rest_eq {row row' : DisassemblyRow} (h : row.rest = row'.rest) :
    row.operands = row'.operands := by
  unfold rest at h
  split_ifs at h with hempty hempty' hempty'
  · rw [hempty, hempty']
  · simp at h
  · simp at h
  · exact (String.append_right_inj " ").1 h

end DisassemblyRow

namespace Instruction

theorem row_of_some {word : Word} {i : Instruction} (h : ofWord? word = some i) :
    DisassemblyRow.ofWord 0 word = ⟨0, word, i.opcode.mnemonic, i.operands.text i.opcode, false⟩ := by
  rw [DisassemblyRow.ofWord, h]

theorem disassemble_of_none {word : Word} (h : ofWord? word = none) :
    disassemble word = ".word " ++ Text.hexWord word := by
  have hrow : DisassemblyRow.ofWord 0 word = ⟨0, word, ".word", Text.hexWord word, true⟩ := by
    rw [DisassemblyRow.ofWord, h]
  have hne : Text.hexWord word ≠ "" := by simp [Text.hexWord, Text.paddedHex]
  rw [disassemble, hrow, DisassemblyRow.text, if_neg (mt String.isEmpty_iff.1 hne)]
  rfl

/-- Data cannot be taken for an instruction: it begins with a dot, an instruction with a letter. -/
theorem disassemble_ne_of_none {first second : Word} {i : Instruction} (hfirst : ofWord? first = some i)
    (hsecond : ofWord? second = none) : disassemble first ≠ disassemble second := by
  intro h
  rw [disassemble_of_none hsecond, ← String.empty_append (s := _ ++ _), disassemble,
    DisassemblyRow.text_eq, row_of_some hfirst] at h
  obtain ⟨hempty, _⟩ := Text.append_inj_of_isWord i.opcode.isWord_mnemonic (by decide)
    (DisassemblyRow.delimits_rest _) (Text.Delimits.append (by decide) (by decide) _) h
  exact i.opcode.mnemonic_ne_empty hempty

theorem visible_eq_of_disassemble_eq {first second : Word} {i j : Instruction}
    (hfirst : ofWord? first = some i) (hsecond : ofWord? second = some j)
    (h : disassemble first = disassemble second) :
    i.opcode = j.opcode ∧ i.operands.visible i.opcode = j.operands.visible j.opcode := by
  rw [disassemble, disassemble, DisassemblyRow.text_eq, DisassemblyRow.text_eq, row_of_some hfirst,
    row_of_some hsecond] at h
  obtain ⟨hmnemonic, hrest⟩ := Text.append_inj_of_isWord i.opcode.isWord_mnemonic
    j.opcode.isWord_mnemonic (DisassemblyRow.delimits_rest _) (DisassemblyRow.delimits_rest _) h
  have hopcode := Opcode.mnemonic_injective hmnemonic
  have hoperands := DisassemblyRow.operands_eq_of_rest_eq hrest
  refine ⟨hopcode, ?_⟩
  simp only [hopcode] at hoperands
  rw [hopcode]
  exact Operands.visible_eq_of_text_eq (by rw [← hopcode, shape_operands]) j.shape_operands hoperands

/-- Words with the same text are the same data, or they are instructions with the same opcode and the same
    operands as far as these are shown, and every machine does the same with both. -/
theorem disassembly_faithful {first second : Word} (h : disassemble first = disassemble second) :
    (ofWord? first = none ∧ ofWord? second = none ∧ first = second) ∨
    ∃ i j, ofWord? first = some i ∧ ofWord? second = some j ∧ i.opcode = j.opcode ∧
      i.operands.visible i.opcode = j.operands.visible j.opcode ∧
      ∀ (δ : Type) [Device δ] (m : Machine δ),
        (Machine.execute i).run m = (Machine.execute j).run m ∧ m.perform i = m.perform j := by
  cases hfirst : ofWord? first with
  | none =>
    cases hsecond : ofWord? second with
    | none =>
      rw [disassemble_of_none hfirst, disassemble_of_none hsecond, String.append_right_inj] at h
      exact .inl ⟨rfl, rfl, Text.hexWord_injective h⟩
    | some j => exact absurd h.symm (disassemble_ne_of_none hsecond hfirst)
  | some i =>
    cases hsecond : ofWord? second with
    | none => exact absurd h (disassemble_ne_of_none hfirst hsecond)
    | some j =>
      obtain ⟨hopcode, hvisible⟩ := visible_eq_of_disassemble_eq hfirst hsecond h
      refine .inr ⟨i, j, rfl, rfl, hopcode, hvisible, fun δ _ m => ?_⟩
      have hexecute : (Machine.execute i : Exec δ Flow) = Machine.execute j :=
        Machine.execute_eq_of_visible_eq hopcode hvisible
      exact ⟨by rw [hexecute], by rw [Machine.perform, Machine.perform, hexecute, hopcode]⟩

/-- Two comparisons that differ only in bits without a meaning. -/
theorem disassembly_faithful_compare :
    disassemble 0x32088000 = disassemble 0x320883FF ∧
      ∃ i j, ofWord? 0x32088000 = some i ∧ ofWord? 0x320883FF = some j ∧ i ≠ j ∧
        ∀ (δ : Type) [Device δ] (m : Machine δ),
          (Machine.execute i).run m = (Machine.execute j).run m := by
  have htext : disassemble 0x32088000 = disassemble 0x320883FF := by decide +kernel
  refine ⟨htext, ?_⟩
  obtain ⟨hnone, _⟩ | ⟨i, j, hi, hj, _, _, hsame⟩ := disassembly_faithful htext
  · exact absurd hnone (by decide)
  · refine ⟨i, j, hi, hj, ?_, fun δ _ m => (hsame δ m).1⟩
    rintro rfl
    exact absurd (hi.trans hj.symm) (by decide)

end Instruction

end Risc32
