import Risc32.Disassembly

namespace Risc32

namespace Memory

/-- The rows are the readings of the words at `middle + 4 * k`, from `before` words below `middle` to `after`
    words above it, as far as all four bytes of the word lie in the memory; the lowest address comes first. -/
structure WindowAround (memory : Memory) (middle before after : Nat) (rows : List DisassemblyRow) : Prop where
  ascending : rows.Pairwise fun first second => first.address.toNat < second.address.toNat
  mem_iff : ∀ row, row ∈ rows ↔
    (∃ k : Int, -before ≤ k ∧ k ≤ after ∧ (row.address.toNat : Int) = middle + 4 * k) ∧
      memory.word? row.address.toNat = some row.word ∧ row = DisassemblyRow.ofWord row.address row.word

/-- The grid of addresses below `center` reaches down to the lowest one that is asked for, or else it meets
    address zero. -/
def ReachesDown (center : Word) (before : Nat) : Prop :=
  4 * before ≤ center.toNat ∨ center.toNat % 4 = 0

instance (center : Word) (before : Nat) : Decidable (ReachesDown center before) :=
  inferInstanceAs (Decidable (_ ∨ _))

/-- The address that a window is in fact centred at. -/
def windowMiddle (center : Word) (before : Nat) : Nat :=
  if ReachesDown center before then center.toNat else 4 * (center.toNat / 4)

theorem windowMiddle_eq_iff {center : Word} {before : Nat} :
    windowMiddle center before = center.toNat ↔ ReachesDown center before := by
  unfold windowMiddle
  split
  case isTrue h => exact iff_of_true rfl h
  case isFalse h =>
    refine iff_of_false (fun heq => h (.inr ?_)) h
    omega

theorem fits_of_word? {memory : Memory} {index : Nat} {word : Word} (h : memory.word? index = some word) :
    index + 4 ≤ memory.size := by
  by_cases hlast : memory.size ≤ index + 3
  · simp [word?, get?_eq_none_iff.2 hlast] at h
  · omega

theorem exists_word? {memory : Memory} {index : Nat} (h : index + 4 ≤ memory.size) :
    ∃ word, memory.word? index = some word := by
  have hbyte {i : Nat} (hi : i < 4) : ∃ byte, memory.get? (index + i) = some byte :=
    get?_of_lt (by omega)
  obtain ⟨b0, h0⟩ := hbyte (show 0 < 4 by omega)
  obtain ⟨b1, h1⟩ := hbyte (show 1 < 4 by omega)
  obtain ⟨b2, h2⟩ := hbyte (show 2 < 4 by omega)
  obtain ⟨b3, h3⟩ := hbyte (show 3 < 4 by omega)
  refine ⟨Word.ofBytes b0 b1 b2 b3, ?_⟩
  rw [Nat.add_zero] at h0
  simp [word?, h0, h1, h2, h3]

theorem rowAt?_eq_some_iff {memory : Memory} {address : Nat} {row : DisassemblyRow} :
    memory.rowAt? address = some row ↔
      row.address.toNat = address ∧ memory.word? row.address.toNat = some row.word ∧
        row = DisassemblyRow.ofWord row.address row.word := by
  unfold rowAt?
  constructor
  · intro h
    split at h
    case isTrue hspace =>
      obtain ⟨word, hword, rfl⟩ := Option.map_eq_some_iff.1 h
      have haddress : (BitVec.ofNat 32 address).toNat = address := Nat.mod_eq_of_lt hspace
      simp [haddress, hword]
    case isFalse => cases h
  · rintro ⟨rfl, hword, hrow⟩
    have hspace : row.address.toNat < addressCount := row.address.isLt
    rw [if_pos hspace, hword, BitVec.ofNat_toNat, BitVec.setWidth_eq, Option.map_some, ← hrow]

theorem mem_disassembleAround {memory : Memory} {center : Word} {before after : Nat} {row : DisassemblyRow} :
    row ∈ memory.disassembleAround center before after ↔
      (∃ k : Int, -before ≤ k ∧ k ≤ after ∧
        (row.address.toNat : Int) = windowMiddle center before + 4 * k) ∧
      memory.word? row.address.toNat = some row.word ∧ row = DisassemblyRow.ofWord row.address row.word := by
  simp only [disassembleAround, List.mem_filterMap, List.mem_range, rowAt?_eq_some_iff]
  -- Rows are counted from the start of the window here, and from its middle in the statement.
  have hmiddle : windowMiddle center before =
      center.toNat - 4 * before + 4 * ((center.toNat - (center.toNat - 4 * before)) / 4) := by
    unfold windowMiddle
    split
    case isTrue h => rcases h with h | h <;> omega
    case isFalse h =>
      unfold ReachesDown at h
      omega
  constructor
  · rintro ⟨j, hj, haddress, hword, hrow⟩
    refine ⟨⟨j - ((center.toNat - (center.toNat - 4 * before)) / 4 : Nat), ?_, ?_, ?_⟩, hword, hrow⟩ <;> omega
  · rintro ⟨⟨k, hbefore, hafter, haddress⟩, hword, hrow⟩
    have hfits := fits_of_word? hword
    refine ⟨(row.address.toNat - (center.toNat - 4 * before)) / 4, ?_, ?_, hword, hrow⟩ <;> omega

theorem disassembleAround_ascending (memory : Memory) (center : Word) (before after : Nat) :
    (memory.disassembleAround center before after).Pairwise fun first second =>
      first.address.toNat < second.address.toNat := by
  apply List.Pairwise.filterMap _ _ List.pairwise_lt_range
  intro i j hij first hfirst second hsecond
  have hi := (rowAt?_eq_some_iff.1 hfirst).1
  have hj := (rowAt?_eq_some_iff.1 hsecond).1
  omega

/-- Whatever the memory, its size included, and however many rows are asked for, the rows are those of a window
    around its middle, in ascending order and each once. The middle is the address asked for, unless the window
    is cut off at address zero and that address is no multiple of four. Just then the row at the address asked
    for is missing although its word lies in the memory. -/
theorem disassembleAround_centred (memory : Memory) (center : Word) (before after : Nat) :
    let rows := memory.disassembleAround center before after
    WindowAround memory (windowMiddle center before) before after rows ∧
    (windowMiddle center before = center.toNat ↔ ReachesDown center before) ∧
    ((∃ row ∈ rows, row.address = center) ↔ center.toNat + 4 ≤ memory.size ∧ ReachesDown center before) := by
  refine ⟨⟨disassembleAround_ascending .., fun _ => mem_disassembleAround⟩, windowMiddle_eq_iff, ?_⟩
  constructor
  · rintro ⟨row, hrow, rfl⟩
    obtain ⟨⟨k, -, -, haddress⟩, hword, -⟩ := mem_disassembleAround.1 hrow
    refine ⟨fits_of_word? hword, Decidable.byContradiction fun hcut => ?_⟩
    -- The rows of a window that is cut off lie at multiples of four.
    have hmiddle : windowMiddle row.address before = 4 * (row.address.toNat / 4) := if_neg hcut
    have haligned : row.address.toNat % 4 = 0 := by omega
    exact hcut (.inr haligned)
  · rintro ⟨hfits, hreaches⟩
    obtain ⟨word, hword⟩ := exists_word? hfits
    refine ⟨DisassemblyRow.ofWord center word, mem_disassembleAround.2 ⟨⟨0, ?_, ?_, ?_⟩, ?_, ?_⟩, ?_⟩
    · omega
    · omega
    · rw [windowMiddle_eq_iff.2 hreaches, DisassemblyRow.address_ofWord, Int.mul_zero, Int.add_zero]
    · rw [DisassemblyRow.address_ofWord, DisassemblyRow.word_ofWord, hword]
    · rw [DisassemblyRow.address_ofWord, DisassemblyRow.word_ofWord]
    · exact DisassemblyRow.address_ofWord center word

/-- One row before address two and none after it: the word at address two lies in the memory, but what is shown
    is the word at address zero. -/
theorem disassembleAround_off_centre :
    let memory : Memory := ⟨#[0x7A, 0x00, 0x00, 0x00, 0x7B, 0x00, 0x00, 0x00]⟩
    let rows := memory.disassembleAround 2 1 0
    memory.word? 2 = some 0x00007B00 ∧ rows.map (·.address) = [0] ∧ ¬ WindowAround memory 2 1 0 rows := by
  intro memory rows
  have hword : memory.word? 2 = some 0x00007B00 := by decide +kernel
  have haddresses : rows.map (·.address) = [0] := by decide +kernel
  refine ⟨hword, haddresses, fun hwindow => ?_⟩
  have hcenter : DisassemblyRow.ofWord 2 0x00007B00 ∈ rows := by
    refine (hwindow.mem_iff _).2 ⟨⟨0, by decide, by decide, ?_⟩, ?_, ?_⟩
    · rw [DisassemblyRow.address_ofWord]
      rfl
    · rw [DisassemblyRow.address_ofWord, DisassemblyRow.word_ofWord]
      exact hword
    · rw [DisassemblyRow.address_ofWord, DisassemblyRow.word_ofWord]
  have haddress : (2 : Word) ∈ rows.map (·.address) :=
    List.mem_map.2 ⟨_, hcenter, DisassemblyRow.address_ofWord ..⟩
  rw [haddresses] at haddress
  exact absurd haddress (by decide)

end Memory

end Risc32
