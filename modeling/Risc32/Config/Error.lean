import Risc32.Text.Number

namespace Risc32

inductive ConfigError where
  | windowsTooLarge (romSize mmioSize : Nat)
  | memoryTooLarge (size limit : Nat)
  | noVectors
  | vectorTableOutOfRange (base : BitVec 32) (endAddress memorySize : Nat)
deriving DecidableEq, Repr

def ConfigError.message : ConfigError → String
  | windowsTooLarge romSize mmioSize =>
    "rom window " ++ Text.hex romSize ++ " and mmio window " ++ Text.hex mmioSize ++ " leave no room for ram"
  | memoryTooLarge size limit =>
    "memory size " ++ Text.hex size ++ " exceeds the ram window of " ++ Text.hex limit ++ " bytes"
  | noVectors => "software and hardware vector counts must be nonzero"
  | vectorTableOutOfRange base endAddress memorySize =>
    "vector table at " ++ Text.hexWord base ++ " ends at " ++ Text.hex endAddress ++ ", past memory size "
      ++ Text.hex memorySize

end Risc32
