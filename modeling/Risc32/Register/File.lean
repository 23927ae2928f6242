import Risc32.Fault
import Risc32.Register

namespace Risc32

/-- Reading and writing by name honours the zero register; the privileged forms also refuse privileged registers to
    user code. -/
structure RegisterFile where
  words : Vector Word 32
deriving DecidableEq, Repr

namespace RegisterFile

def cleared : RegisterFile :=
  ⟨Vector.replicate 32 0⟩

def get (file : RegisterFile) (r : Register) : Word :=
  if r = .zero then 0 else getElem file.words r.index.toNat r.toNat_index_lt

def set (file : RegisterFile) (r : Register) (value : Word) : RegisterFile :=
  if r = .zero then file else ⟨file.words.set r.index.toNat value r.toNat_index_lt⟩

def pc (file : RegisterFile) : Word :=
  file.get .programCounter

def setPc (file : RegisterFile) (value : Word) : RegisterFile :=
  file.set .programCounter value

def sp (file : RegisterFile) : Word :=
  file.get .stackPointer

def setSp (file : RegisterFile) (value : Word) : RegisterFile :=
  file.set .stackPointer value

/-- Whether code of the given privilege may name the register at all. -/
def admits (privileged : Bool) (r : Register) : Bool :=
  privileged || !r.isPrivileged

def read (file : RegisterFile) (privileged : Bool) (r : Register) : Except Fault Word :=
  if admits privileged r then .ok (file.get r) else .error .privilege

def write (file : RegisterFile) (privileged : Bool) (r : Register) (value : Word) :
    Except Fault RegisterFile :=
  if admits privileged r then .ok (file.set r value) else .error .privilege

/-- The words of all registers as code sees them, in the order of their indices. -/
def toList (file : RegisterFile) : List Word :=
  Register.all.map file.get

@[simp]
theorem get_zero (file : RegisterFile) : file.get .zero = 0 := by
  simp [get]

@[simp]
theorem set_zero (file : RegisterFile) (value : Word) : file.set .zero value = file := by
  simp [set]

theorem get_set_self (file : RegisterFile) {r : Register} (value : Word) (hr : r ≠ .zero) :
    (file.set r value).get r = value := by
  simp [get, set, hr]

/-- Only the zero register does not take a value. -/
theorem get_set (file : RegisterFile) (r : Register) (value : Word) :
    (file.set r value).get r = if r = .zero then 0 else value := by
  by_cases hr : r = .zero
  · rw [if_pos hr, hr, get_zero]
  · rw [if_neg hr, get_set_self file value hr]

theorem get_set_of_ne (file : RegisterFile) {r s : Register} (value : Word) (hne : r ≠ s) :
    (file.set r value).get s = file.get s := by
  by_cases hr : r = .zero
  · simp [hr]
  · by_cases hs : s = .zero
    · simp [hs]
    · have hindex : r.index.toNat ≠ s.index.toNat := fun h => hne (Register.eq_of_toNat_index_eq h)
      simp only [get, set, hr, hs, if_false]
      exact Vector.getElem_set_ne _ _ hindex

@[simp]
theorem set_set (file : RegisterFile) (r : Register) (first second : Word) :
    (file.set r first).set r second = file.set r second := by
  by_cases hr : r = .zero
  · simp [hr]
  · simp [set, hr]

/-- Writing back what a register holds changes nothing. -/
@[simp]
theorem set_get_self (file : RegisterFile) (r : Register) : file.set r (file.get r) = file := by
  by_cases hr : r = .zero
  · simp [hr]
  · simp [set, get, hr]

theorem admits_programCounter (privileged : Bool) : admits privileged .programCounter = true := by
  cases privileged <;> rfl

theorem admits_stackPointer (privileged : Bool) : admits privileged .stackPointer = true := by
  cases privileged <;> rfl

end RegisterFile

end Risc32
