import Risc32.Memory

namespace Risc32

namespace Memory

/-- The greatest index. -/
def indexLimit : Nat := 0xFFFFFFFFFFFFFFFF

/-- Where a range ends, by a sum that stops at the greatest index. -/
def rangeEnd (start : BitVec 64) (length : Nat) : Nat :=
  min (start.toNat + length) indexLimit

/-- Writes all of `data` or, when its end lies outside the memory, none of it. -/
def writeAt (memory : Memory) (start : BitVec 64) (data : List Byte) : Except MemoryError Memory :=
  if memory.size < rangeEnd start data.length then .error (.outOfRange (max start.toNat memory.size) memory.size)
  else .ok (memory.putAll start.toNat data)

/-- Stopping the sum does not change which ranges a memory has room for. -/
theorem lt_rangeEnd_iff {size length : Nat} (start : BitVec 64) (hsize : size < indexLimit) :
    size < rangeEnd start length ↔ size < start.toNat + length := by
  rw [rangeEnd, Nat.lt_min, and_iff_left hsize]

/-- Images are loaded by `write`, which has the same effect on every memory that can be built. -/
theorem writeAt_eq_write {memory : Memory} (hsize : memory.size < indexLimit) (start : BitVec 64)
    (data : List Byte) : memory.writeAt start data = memory.write start.toNat data := by
  simp only [writeAt, write, lt_rangeEnd_iff start hsize, ← Nat.not_lt, ite_not]

end Memory

/-- A change asked of a memory. Its indices need not lie in the memory, and the end of a range need not be an
    index. -/
inductive MemoryRequest where
  | set (index : BitVec 64) (value : Byte)
  | write (start : BitVec 64) (data : List Byte)
  | clear
deriving DecidableEq, Repr

def MemoryRequest.perform (memory : Memory) : MemoryRequest → Except MemoryError Memory
  | set index value => memory.set index.toNat value
  | write start data => memory.writeAt start data
  | clear => .ok memory.clear

/-- The memory after a request, whether or not it was refused. -/
def Memory.serve (memory : Memory) (request : MemoryRequest) : Memory :=
  match request.perform memory with
  | .ok after => after
  | .error _ => memory

namespace Memory

variable {memory after : Memory} {request : MemoryRequest}

theorem serve_of_ok (h : request.perform memory = .ok after) : memory.serve request = after := by
  rw [serve, h]

theorem serve_of_error {error : MemoryError} (h : request.perform memory = .error error) :
    memory.serve request = memory := by
  rw [serve, h]

end Memory

end Risc32
