import Risc32.Flags

namespace Risc32

/-- Bitwise operations and shifts report only whether the result is zero, products and quotients
    also its sign, sums and differences also whether the exact value was out of range. -/
inductive FlagsUpdate where
  | keep
  | zero (result : Word)
  | zeroNegative (result : Word)
  | arithmetic (result : Word) (overflow : Bool)
deriving DecidableEq, Repr

namespace FlagsUpdate

def apply (flags : Flags) : FlagsUpdate → Flags
  | keep => flags
  | zero result => { flags with zero := result == 0 }
  | zeroNegative result => flags.setZeroNegative result
  | arithmetic result overflow => { flags.setZeroNegative result with overflow := overflow }

theorem apply_privileged (flags : Flags) (update : FlagsUpdate) :
    (update.apply flags).privileged = flags.privileged := by
  cases update <;> rfl

end FlagsUpdate

end Risc32
