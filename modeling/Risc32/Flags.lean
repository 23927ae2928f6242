import Risc32.Word

namespace Risc32

structure Flags where
  zero : Bool := false
  negative : Bool := false
  overflow : Bool := false
  privileged : Bool := false
deriving DecidableEq, Repr

namespace Flags

/-- A machine boots into privileged code with no condition set. -/
def boot : Flags where
  privileged := true

/-- Zero and negative describe a result; overflow and privilege stay. -/
def setZeroNegative (flags : Flags) (result : Word) : Flags :=
  { flags with zero := result == 0, negative := result.msb }

/-- The condition flags in the top three bits of a word. Privilege is not part of it, so code that
    restores a packed word cannot raise its own privilege. -/
def pack (flags : Flags) : Word :=
  BitVec.ofBool flags.zero ++ BitVec.ofBool flags.negative ++ BitVec.ofBool flags.overflow ++ 0#29

def restore (flags : Flags) (packed : Word) : Flags :=
  { flags with
    zero := packed.getLsbD 31
    negative := packed.getLsbD 30
    overflow := packed.getLsbD 29 }

def toList (flags : Flags) : List Bool :=
  [flags.zero, flags.negative, flags.overflow, flags.privileged]

theorem restore_pack (flags other : Flags) :
    flags.restore other.pack = { other with privileged := flags.privileged } := by
  cases flags with
  | mk _ _ _ privileged =>
    cases other with
    | mk zero negative overflow _ =>
      simp only [restore, pack]
      cases zero <;> cases negative <;> cases overflow <;> simp

end Flags

end Risc32
