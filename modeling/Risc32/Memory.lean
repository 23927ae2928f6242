import Risc32.Text.Number
import Risc32.Word

namespace Risc32

/-- A run of bytes of fixed length, with bounds that are checked before anything is written. -/
structure Memory where
  bytes : Array Byte
deriving DecidableEq, Repr

/-- Why a memory refuses an access or a size. For a range, `index` is the first address of it that
    does not fit. -/
inductive MemoryError where
  | outOfRange (index size : Nat)
  | tooLarge (size : Nat)
deriving DecidableEq, Repr

def MemoryError.message : MemoryError → String
  | outOfRange index size =>
    "address " ++ Text.hex index ++ " is outside the " ++ size.repr ++ "-byte address space"
  | tooLarge size =>
    "address space of " ++ size.repr ++ " bytes exceeds the 4 GiB physical range"

namespace Memory

def zeros (size : Nat) : Memory :=
  ⟨Array.replicate size 0⟩

def ofSize (size : Nat) : Except MemoryError Memory :=
  if size ≤ addressCount then .ok (zeros size) else .error (.tooLarge size)

def size (memory : Memory) : Nat :=
  memory.bytes.size

def isEmpty (memory : Memory) : Bool :=
  memory.size == 0

def get? (memory : Memory) (index : Nat) : Option Byte :=
  memory.bytes[index]?

def get (memory : Memory) (index : Nat) : Except MemoryError Byte :=
  match memory.get? index with
  | some byte => .ok byte
  | none => .error (.outOfRange index memory.size)

/-- Changes one byte. An index outside the memory changes none. -/
def put (memory : Memory) (index : Nat) (byte : Byte) : Memory :=
  ⟨memory.bytes.setIfInBounds index byte⟩

def set (memory : Memory) (index : Nat) (byte : Byte) : Except MemoryError Memory :=
  if index < memory.size then .ok (memory.put index byte) else .error (.outOfRange index memory.size)

/-- Changes consecutive bytes from `start` on. -/
def putAll (memory : Memory) (start : Nat) : List Byte → Memory
  | [] => memory
  | byte :: rest => (memory.put start byte).putAll (start + 1) rest

/-- Writes all of `data` or, when its end lies outside the memory, none of it. -/
def write (memory : Memory) (start : Nat) (data : List Byte) : Except MemoryError Memory :=
  if start + data.length ≤ memory.size then .ok (memory.putAll start data)
  else .error (.outOfRange (max start memory.size) memory.size)

def clear (memory : Memory) : Memory :=
  zeros memory.size

/-- The bytes of a range, if all of it lies in the memory. -/
def slice? (memory : Memory) (start length : Nat) : Option (List Byte) :=
  if start + length ≤ memory.size then some (memory.bytes.extract start (start + length)).toList else none

/-- The big-endian word at an index, if all four of its bytes lie in the memory. -/
def word? (memory : Memory) (index : Nat) : Option Word := do
  let b0 ← memory.get? index
  let b1 ← memory.get? (index + 1)
  let b2 ← memory.get? (index + 2)
  let b3 ← memory.get? (index + 3)
  return Word.ofBytes b0 b1 b2 b3

/-- How a memory is shown: its size stands for its contents. -/
def describe (memory : Memory) : String :=
  "AddressSpace \x7b len: " ++ memory.size.repr ++ ", .. \x7d"

theorem ofSize_of_le {size : Nat} (h : size ≤ addressCount) : ofSize size = .ok (zeros size) :=
  if_pos h

@[simp]
theorem size_zeros (size : Nat) : (zeros size).size = size := by
  simp [zeros, Memory.size]

@[simp]
theorem size_put (memory : Memory) (index : Nat) (byte : Byte) :
    (memory.put index byte).size = memory.size := by
  simp [put, size]

@[simp]
theorem size_putAll (memory : Memory) (start : Nat) (data : List Byte) :
    (memory.putAll start data).size = memory.size := by
  induction data generalizing memory start with
  | nil => rfl
  | cons byte rest ih => simp [putAll, ih]

theorem size_write {memory after : Memory} {start : Nat} {data : List Byte}
    (h : memory.write start data = .ok after) : after.size = memory.size := by
  unfold write at h
  split at h
  · cases h
    exact size_putAll ..
  · cases h

theorem get?_eq_none_iff {memory : Memory} {index : Nat} :
    memory.get? index = none ↔ memory.size ≤ index := by
  simp [get?, size]

theorem get?_put_self {memory : Memory} {index : Nat} (byte : Byte) (hindex : index < memory.size) :
    (memory.put index byte).get? index = some byte := by
  simp only [get?, put, size] at *
  simp [hindex]

theorem get?_put_of_ne (memory : Memory) {index other : Nat} (byte : Byte) (hne : index ≠ other) :
    (memory.put index byte).get? other = memory.get? other := by
  simp [get?, put, Array.getElem?_setIfInBounds_ne hne]

theorem get?_putAll (memory : Memory) (start : Nat) (data : List Byte) {index : Nat}
    (hindex : index < memory.size) :
    (memory.putAll start data).get? index =
      if start ≤ index ∧ index < start + data.length then data[index - start]? else memory.get? index := by
  induction data generalizing memory start with
  | nil =>
    rw [if_neg (by simp)]
    rfl
  | cons byte rest ih =>
    rw [putAll, ih (memory.put start byte) (start + 1) (by rwa [size_put]), List.length_cons]
    by_cases hstart : index = start
    · subst hstart
      rw [if_neg (by omega), if_pos (by omega), get?_put_self byte hindex, Nat.sub_self]
      rfl
    · by_cases hrange : start ≤ index ∧ index < start + (rest.length + 1)
      · have hnext : index - start = index - (start + 1) + 1 := by omega
        rw [if_pos (by omega), if_pos hrange, hnext, List.getElem?_cons_succ]
      · rw [if_neg (by omega), if_neg hrange, get?_put_of_ne memory byte (Ne.symm hstart)]

theorem get?_of_lt {memory : Memory} {index : Nat} (h : index < memory.size) :
    ∃ byte, memory.get? index = some byte :=
  ⟨memory.bytes[index], Array.getElem?_eq_getElem h⟩

end Memory

end Risc32
