import Risc32.Device.Response

namespace Risc32

/-- Bytes of a word device lie in their word with the least significant byte first, unlike those of
    main memory. -/
def laneShift (offset : Word) : Nat :=
  8 * (offset.toNat % 4)

def alignedOffset (offset : Word) : Word :=
  offset &&& ~~~(3 : Word)

/-- The byte of a word that an offset selects. -/
def laneByte (offset word : Word) : Byte :=
  (word >>> laneShift offset).setWidth 8

/-- The word with one of its bytes replaced. -/
def mergeLane (offset word : Word) (value : Byte) : Word :=
  (word &&& ~~~((0xFF : Word) <<< laneShift offset)) ||| (value.setWidth 32 <<< laneShift offset)

/-- Reads a byte of a device that knows words only. -/
def readByteByWord {δ : Type} (readWord : Word → δ → Response δ Word) (offset : Word) (device : δ) :
    Response δ Byte :=
  (readWord (alignedOffset offset) device).mapValue (laneByte offset)

/-- Writes a byte of a device that knows words only: the rest of its word is read and written back. -/
def writeByteByWord {δ : Type} (readWord : Word → δ → Response δ Word)
    (writeWord : Word → Word → δ → Response δ Unit) (offset : Word) (value : Byte) (device : δ) :
    Response δ Unit :=
  (readWord (alignedOffset offset) device).andThen fun word device =>
    writeWord (alignedOffset offset) (mergeLane offset word value) device

end Risc32
