import Mathlib.Logic.Function.Basic
import Risc32.Text.Number

namespace Risc32.Text

/-- The digit that a character stands for. -/
def digitValue (c : Char) : Nat :=
  if c.isDigit then c.toNat - '0'.toNat else c.toNat - 'a'.toNat + 10

def readHex (digits : List Char) : Nat :=
  digits.foldl (fun n c => 16 * n + digitValue c) 0

theorem digitValue_digitChar : ∀ digit < 16, digitValue digit.digitChar = digit := by
  decide

theorem readHex_concat (digits : List Char) (c : Char) :
    readHex (digits ++ [c]) = 16 * readHex digits + digitValue c := by
  rw [readHex, List.foldl_append]
  rfl

theorem readHex_toDigits (n : Nat) : readHex (Nat.toDigits 16 n) = n := by
  induction n using Nat.strongRecOn with
  | ind n ih =>
    rw [Nat.toDigits_eq_if (by decide)]
    split
    next hlt =>
      rw [← List.nil_append [n.digitChar], readHex_concat, digitValue_digitChar n hlt]
      exact Nat.zero_add n
    next hle =>
      rw [readHex_concat, ih (n / 16) (by omega), digitValue_digitChar _ (Nat.mod_lt n (by decide))]
      exact Nat.div_add_mod n 16

/-- Leading zeros do not count. -/
theorem readHex_replicate_append (count : Nat) (digits : List Char) :
    readHex (List.replicate count '0' ++ digits) = readHex digits := by
  induction count with
  | zero => rfl
  | succ count ih => exact ih

theorem readHex_hexDigits (width n : Nat) : readHex (hexDigits width n) = n := by
  rw [hexDigits, List.leftpad, readHex_replicate_append, readHex_toDigits]

theorem paddedHex_injective (width : Nat) : Function.Injective (paddedHex width) := by
  intro m n h
  have hdigits := String.ofList_injective ((String.append_right_inj "0x").1 h)
  rw [← readHex_hexDigits width m, hdigits, readHex_hexDigits]

theorem hexWord_injective : Function.Injective hexWord :=
  fun _ _ h => BitVec.eq_of_toNat_eq (paddedHex_injective 8 h)

theorem repr_injective : Function.Injective Nat.repr := by
  intro m n h
  have hdigits : Nat.toDigits 10 m = Nat.toDigits 10 n := by
    rw [← Nat.toList_repr, ← Nat.toList_repr, h]
  rw [← Nat.ofDigitChars_ten_toDigits (n := m), hdigits, Nat.ofDigitChars_ten_toDigits]

/-- A number is known from its sign and its size when the marks for the two signs cannot be confused. -/
theorem eq_of_signed (minus plus : String) {write : Nat → String} (hwrite : Function.Injective write)
    (hmarks : ∀ m n, minus ++ write m ≠ plus ++ write n) {a b : Int}
    (h : (if a < 0 then minus ++ write a.natAbs else plus ++ write a.natAbs) =
      if b < 0 then minus ++ write b.natAbs else plus ++ write b.natAbs) : a = b := by
  by_cases ha : a < 0 <;> by_cases hb : b < 0
  · rw [if_pos ha, if_pos hb, String.append_right_inj] at h
    have := hwrite h
    omega
  · rw [if_pos ha, if_neg hb] at h
    exact absurd h (hmarks _ _)
  · rw [if_neg ha, if_pos hb] at h
    exact absurd h.symm (hmarks _ _)
  · rw [if_neg ha, if_neg hb, String.append_right_inj] at h
    have := hwrite h
    omega

/-- No digits begin with a minus. -/
theorem minus_append_ne_repr (s : String) (n : Nat) : "-" ++ s ≠ n.repr := by
  intro h
  have hmem : '-' ∈ n.repr.toList := by
    rw [← h, String.toList_append]
    exact List.mem_append_left _ (List.mem_singleton.2 rfl)
  rw [Nat.toList_repr] at hmem
  exact absurd (Nat.isDigit_of_mem_toDigits (by decide) (by decide) hmem) (by decide)

theorem decimal_injective : Function.Injective decimal := by
  intro a b h
  refine eq_of_signed "-" "" repr_injective (fun m n => ?_) ?_
  · rw [String.empty_append]
    exact minus_append_ne_repr _ n
  · rw [String.empty_append, String.empty_append]
    exact h

theorem signedHex_injective : Function.Injective signedHex := by
  intro a b h
  refine eq_of_signed "-" "+" (paddedHex_injective 1) (fun m n h => ?_) h
  have := congrArg (·.toList.head?) h
  simp at this

end Risc32.Text
