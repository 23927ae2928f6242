import Risc32.Word

namespace Risc32

inductive PeripheralEvent where
  | readWord (offset : Word)
  | writeWord (offset value : Word)
  | readByte (offset : Word)
  | writeByte (offset : Word) (value : Byte)
  | sent (bytes : List Byte)
deriving DecidableEq, Repr

end Risc32
