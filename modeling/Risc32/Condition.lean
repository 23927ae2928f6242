import Risc32.Flags

namespace Risc32

/-- When a jump is taken. -/
inductive Condition where
  | always
  | equal
  | notEqual
  | less
  | greater
  | lessOrEqual
  | greaterOrEqual
  | overflow
  | noOverflow
deriving DecidableEq, Repr

namespace Condition

/-- The order conditions read the zero and negative flags alone: they know the sign of a difference,
    not whether it overflowed. -/
def holds (flags : Flags) : Condition → Bool
  | always => true
  | equal => flags.zero
  | notEqual => !flags.zero
  | less => flags.negative
  | greater => !flags.negative && !flags.zero
  | lessOrEqual => flags.negative || flags.zero
  | greaterOrEqual => !flags.negative || flags.zero
  | overflow => flags.overflow
  | noOverflow => !flags.overflow

end Condition

end Risc32
