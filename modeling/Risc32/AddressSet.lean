import Risc32.Word

namespace Risc32

/-- A finite set of addresses. -/
structure AddressSet where
  /-- Ascending and without repetition. -/
  toList : List Word := []
deriving DecidableEq, Repr

namespace AddressSet

def contains (addresses : AddressSet) (address : Word) : Bool :=
  addresses.toList.contains address

def isEmpty (addresses : AddressSet) : Bool :=
  addresses.toList.isEmpty

def insert (addresses : AddressSet) (address : Word) : AddressSet :=
  if addresses.contains address then addresses
  else ⟨addresses.toList.takeWhile (· < address) ++ address :: addresses.toList.dropWhile (· < address)⟩

def erase (addresses : AddressSet) (address : Word) : AddressSet :=
  ⟨addresses.toList.filter (· != address)⟩

theorem contains_insert (addresses : AddressSet) (address other : Word) :
    (addresses.insert address).contains other = (addresses.contains other || other == address) := by
  rw [Bool.eq_iff_iff]
  by_cases h : addresses.contains address
  · simp only [insert, h, if_true]
    simp only [contains, List.contains_iff_mem, Bool.or_eq_true, beq_iff_eq] at *
    grind
  · simp only [insert, h]
    simp only [contains, List.contains_iff_mem, Bool.or_eq_true, beq_iff_eq] at *
    have hsplit := List.takeWhile_append_dropWhile (p := fun x => decide (x < address))
      (l := addresses.toList)
    grind

theorem contains_erase (addresses : AddressSet) (address other : Word) :
    (addresses.erase address).contains other = (addresses.contains other && other != address) := by
  rw [Bool.eq_iff_iff]
  simp [erase, contains]

end AddressSet

end Risc32
