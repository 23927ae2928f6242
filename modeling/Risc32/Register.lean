import Risc32.Word

namespace Risc32

/-- A register is named by the five bits that an instruction spends on it. -/
structure Register where
  index : BitVec 5
deriving DecidableEq, Repr

namespace Register

/-- Reads as zero; writes to it are dropped. -/
def zero : Register := ⟨24⟩

def stackPointer : Register := ⟨25⟩

def programCounter : Register := ⟨26⟩

/-- What the window adds to a virtual address. -/
def windowOffset : Register := ⟨27⟩

/-- How many virtual addresses the window admits; zero admits all of them. -/
def windowBound : Register := ⟨28⟩

/-- The window and the three scratch registers above it belong to privileged code. -/
def isPrivileged (r : Register) : Bool :=
  windowOffset.index ≤ r.index

theorem toNat_index_lt (r : Register) : r.index.toNat < 32 :=
  r.index.isLt

def ofNat? (n : Nat) : Option Register :=
  if n < 32 then some ⟨BitVec.ofNat 5 n⟩ else none

/-- All registers in the order of their indices. -/
def all : List Register :=
  (List.finRange 32).map fun i => ⟨BitVec.ofFin i⟩

def names : Vector String 32 :=
  #v["r0", "r1", "r2", "r3", "r4", "r5", "r6", "r7", "r8", "r9", "r10", "r11", "r12", "r13", "r14", "r15",
     "r16", "r17", "r18", "r19", "r20", "r21", "r22", "r23", "rz", "rsp", "rpc", "hmo", "hmb", "hm1", "hm2",
     "hm3"]

def name (r : Register) : String :=
  getElem names r.index.toNat r.toNat_index_lt

@[simp]
theorem toNat_index_stackPointer : stackPointer.index.toNat = 25 := rfl

@[simp]
theorem toNat_index_programCounter : programCounter.index.toNat = 26 := rfl

@[simp]
theorem toNat_index_windowOffset : windowOffset.index.toNat = 27 := rfl

@[simp]
theorem toNat_index_windowBound : windowBound.index.toNat = 28 := rfl

theorem eq_of_toNat_index_eq {r s : Register} (h : r.index.toNat = s.index.toNat) : r = s := by
  cases r
  cases s
  exact congrArg mk (BitVec.eq_of_toNat_eq h)

theorem ne_of_toNat_index_ne {r s : Register} (h : r.index.toNat ≠ s.index.toNat) : r ≠ s := by
  rintro rfl
  exact h rfl

/-- The registers below the window are other registers than those of the window. -/
theorem ne_window {r : Register} (hr : r.index.toNat < 27) : r ≠ .windowOffset ∧ r ≠ .windowBound := by
  constructor
  · apply ne_of_toNat_index_ne
    rw [toNat_index_windowOffset]
    omega
  · apply ne_of_toNat_index_ne
    rw [toNat_index_windowBound]
    omega

theorem ne_programCounter {r : Register} (hr : r.index.toNat < 26) : r ≠ .programCounter := by
  apply ne_of_toNat_index_ne
  rw [toNat_index_programCounter]
  omega

/-- The scratch registers above the window are other registers than those of the window, too. -/
theorem scratch_ne {r : Register} (hr : 29 ≤ r.index.toNat) :
    r ≠ .programCounter ∧ r ≠ .windowOffset ∧ r ≠ .windowBound := by
  refine ⟨?_, ?_, ?_⟩
  · apply ne_of_toNat_index_ne
    rw [toNat_index_programCounter]
    omega
  · apply ne_of_toNat_index_ne
    rw [toNat_index_windowOffset]
    omega
  · apply ne_of_toNat_index_ne
    rw [toNat_index_windowBound]
    omega

/-- Privileged registers are those from the window on. -/
theorem isPrivileged_iff {r : Register} : r.isPrivileged = true ↔ 27 ≤ r.index.toNat := by
  simp [isPrivileged, windowOffset, BitVec.le_def]

end Register

end Risc32
