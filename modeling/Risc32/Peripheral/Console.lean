import Risc32.Device
import Risc32.Peripheral.Event
import Risc32.Text.Number

namespace Risc32

/-- Where a console sends its bytes. Writing and flushing may each fail with a reason; what was
    written stays written when the flush after it fails. -/
class Sink (σ : Type) where
  write : σ → List Byte → Except String σ
  flush : σ → Except String σ

/-- One register sends a byte, one sends a word as text, and one says that the console is always ready. -/
structure Console (σ : Type) where
  base : Word
  sink : σ
deriving DecidableEq, Repr

namespace Console

variable {σ : Type}

def sizeInBytes : Word := 16

def byteRegister : Word := 0x0

def wordRegister : Word := 0x4

def statusRegister : Word := 0x8

/-- The line that shows a word. -/
def wordLine (value : Word) : List Byte :=
  (Text.upperHexWord value ++ "\n").toList.map fun c => BitVec.ofNat 8 c.toNat

def isReady (offset : Word) : Bool :=
  offset == statusRegister

variable [Sink σ]

/-- Sends bytes. A sink that fails costs a notice and nothing else, since a guest could not do
    anything about it. -/
def send (console : Console σ) (bytes : List Byte) : Response (Console σ) Unit :=
  match Sink.write console.sink bytes with
  | .error reason => { value := (), device := console, notices := [.consoleFailed console.base reason] }
  | .ok written =>
    match Sink.flush written with
    | .error reason =>
      { value := ()
        device := { console with sink := written }
        notices := [.consoleFailed console.base reason] }
    | .ok flushed => { value := (), device := { console with sink := flushed } }

def readWord (offset : Word) (console : Console σ) : Response (Console σ) Word :=
  { value := if isReady offset then 1 else 0, device := console }

def readByte (offset : Word) (console : Console σ) : Response (Console σ) Byte :=
  { value := if isReady offset then 1 else 0, device := console }

def writeByte (offset : Word) (value : Byte) (console : Console σ) : Response (Console σ) Unit :=
  if offset = byteRegister then console.send [value] else { value := (), device := console }

/-- A word sent to any register but the word register counts as its low byte. -/
def writeWord (offset value : Word) (console : Console σ) : Response (Console σ) Unit :=
  if offset = wordRegister then console.send (wordLine value)
  else console.writeByte offset (Word.byte value 3)

instance : Device (Console σ) where
  base := base
  size _ := sizeInBytes
  readWord _ := readWord
  writeWord _ := writeWord
  readByte _ := readByte
  writeByte _ := writeByte

end Console

/-- A sink that keeps what it is sent, or fails for a given reason at either stage. -/
structure Transcript where
  /-- The newest comes first. -/
  events : List PeripheralEvent := []
  writeFailure : Option String := none
  flushFailure : Option String := none
deriving DecidableEq, Repr

namespace Transcript

def write (transcript : Transcript) (bytes : List Byte) : Except String Transcript :=
  match transcript.writeFailure with
  | some reason => .error reason
  | none => .ok { transcript with events := .sent bytes :: transcript.events }

def flush (transcript : Transcript) : Except String Transcript :=
  match transcript.flushFailure with
  | some reason => .error reason
  | none => .ok transcript

instance : Sink Transcript where
  write := write
  flush := flush

end Transcript

end Risc32
