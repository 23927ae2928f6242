import Risc32.Fault
import Risc32.Word

namespace Risc32

inductive TrapCause where
  | fault (fault : Fault)
  | software (index : Word)
  | hardware (index : Word)
deriving DecidableEq, Repr

namespace TrapCause

def isInterrupt : TrapCause → Bool
  | fault _ => false
  | software _ => true
  | hardware _ => true

def text : TrapCause → String
  | fault f => "Fault(" ++ f.name ++ ")"
  | software index => "Software(" ++ index.toNat.repr ++ ")"
  | hardware index => "Hardware(" ++ index.toNat.repr ++ ")"

end TrapCause

/-- A trap without a handler ends execution. The slot is the one that was read last. -/
inductive TrapError where
  | undefinedVector (slot : Nat)
  | vectorUnreadable (slot : Nat) (fault : Fault)
deriving DecidableEq, Repr

namespace TrapError

def message : TrapError → String
  | undefinedVector slot =>
    "vector slot " ++ slot.repr ++ " is undefined and its fallback is undefined too"
  | vectorUnreadable slot fault =>
    "vector slot " ++ slot.repr ++ " could not be read: " ++ fault.message

end TrapError

end Risc32
