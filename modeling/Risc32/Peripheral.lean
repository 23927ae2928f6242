import Risc32.Peripheral.ByteStore
import Risc32.Peripheral.Console
import Risc32.Peripheral.Timer
import Risc32.Peripheral.WordStore

namespace Risc32

/-- All peripherals as one type, so that a bus can hold a mixture of them. -/
inductive Peripheral where
  | words (store : WordStore)
  | bytes (store : ByteStore)
  | console (console : Console Transcript)
  | timer (timer : Timer)
deriving DecidableEq, Repr

namespace Peripheral

instance : Device Peripheral where
  base
    | words d => Device.base d
    | bytes d => Device.base d
    | console d => Device.base d
    | timer d => Device.base d
  size
    | words d => Device.size d
    | bytes d => Device.size d
    | console d => Device.size d
    | timer d => Device.size d
  readWord now offset
    | words d => (Device.readWord now offset d).mapDevice words
    | bytes d => (Device.readWord now offset d).mapDevice bytes
    | console d => (Device.readWord now offset d).mapDevice console
    | timer d => (Device.readWord now offset d).mapDevice timer
  writeWord now offset value
    | words d => (Device.writeWord now offset value d).mapDevice words
    | bytes d => (Device.writeWord now offset value d).mapDevice bytes
    | console d => (Device.writeWord now offset value d).mapDevice console
    | timer d => (Device.writeWord now offset value d).mapDevice timer
  readByte now offset
    | words d => (Device.readByte now offset d).mapDevice words
    | bytes d => (Device.readByte now offset d).mapDevice bytes
    | console d => (Device.readByte now offset d).mapDevice console
    | timer d => (Device.readByte now offset d).mapDevice timer
  writeByte now offset value
    | words d => (Device.writeByte now offset value d).mapDevice words
    | bytes d => (Device.writeByte now offset value d).mapDevice bytes
    | console d => (Device.writeByte now offset value d).mapDevice console
    | timer d => (Device.writeByte now offset value d).mapDevice timer
  tick now
    | words d => (Device.tick now d).mapDevice words
    | bytes d => (Device.tick now d).mapDevice bytes
    | console d => (Device.tick now d).mapDevice console
    | timer d => (Device.tick now d).mapDevice timer

/-- What the peripheral has shown of its use, oldest first. -/
def events : Peripheral → List PeripheralEvent
  | words store => store.events.reverse
  | bytes store => store.events.reverse
  | console c => c.sink.events.reverse
  | timer _ => []

/-- The peripheral with its record emptied. -/
def forgetEvents : Peripheral → Peripheral
  | words store => words { store with events := [] }
  | bytes store => bytes { store with events := [] }
  | console c => console { c with sink := { c.sink with events := [] } }
  | timer t => timer t

end Peripheral

end Risc32
