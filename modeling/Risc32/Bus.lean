import Risc32.Device
import Risc32.InterruptLine

namespace Risc32

/-- The devices of a machine, the interrupt line and the clock they share, and the journal. An address belongs to
    the first registered device that serves it. -/
structure Bus (δ : Type) where
  /-- In order of registration. -/
  devices : List δ := []
  line : InterruptLine := {}
  /-- Microseconds since the machine was built. -/
  now : Nat := 0
  journal : Journal := []
deriving DecidableEq

namespace Bus

variable {δ α : Type}

def note (bus : Bus δ) (notice : Notice) : Bus δ :=
  { bus with journal := notice :: bus.journal }

/-- Lets the clock advance. Nothing else moves it. -/
def wait (bus : Bus δ) (microseconds : Nat) : Bus δ :=
  { bus with now := bus.now + microseconds }

def raise (bus : Bus δ) (index : Word) : Bus δ :=
  { bus with line := bus.line.raise index }

/-- Takes over the devices of a response and what it signals. -/
def absorb (bus : Bus δ) (response : Response (List δ) α) : α × Bus δ :=
  (response.value,
    { bus with
      devices := response.device
      line := bus.line.raiseAll response.raised
      journal := response.notices.reverse ++ bus.journal })

variable [Device δ]

def attach (bus : Bus δ) (device : δ) : Bus δ :=
  let attached := { bus with devices := bus.devices ++ [device] }
  attached.note (.deviceRegistered (Device.base device) (Device.size device))

/-- The device that an address belongs to. -/
def deviceAt? (bus : Bus δ) (address : Word) : Option δ :=
  bus.devices.find? (Device.serves address)

/-- Whether a whole word at the address belongs to one device, so that the device can be asked for
    the word at once. -/
def mapsWord (bus : Bus δ) (address : Word) : Bool :=
  address.toNat + 3 < addressCount && (bus.deviceAt? address).any (Device.serves (address + 3))

/-- Asks the first device that serves the address, with the offset of the address in its window. -/
def askFirst (address : Word) (ask : Word → δ → Response δ α) :
    List δ → Option (Response (List δ) α)
  | [] => none
  | device :: rest =>
    if Device.serves address device then
      some ((ask (address - Device.base device) device).mapDevice (· :: rest))
    else
      (askFirst address ask rest).map (Response.mapDevice (device :: ·))

def ask (bus : Bus δ) (address : Word) (unmapped : α) (notice : Notice)
    (question : Word → δ → Response δ α) : α × Bus δ :=
  match askFirst address question bus.devices with
  | some response => bus.absorb response
  | none => (unmapped, bus.note notice)

def readWord (bus : Bus δ) (address : Word) : Word × Bus δ :=
  bus.ask address 0 (.unmappedWordRead address) (Device.readWord bus.now)

def writeWord (bus : Bus δ) (address value : Word) : Unit × Bus δ :=
  bus.ask address () (.unmappedWordWrite address value) fun offset => Device.writeWord bus.now offset value

def readByte (bus : Bus δ) (address : Word) : Byte × Bus δ :=
  bus.ask address 0 (.unmappedByteRead address) (Device.readByte bus.now)

def writeByte (bus : Bus δ) (address : Word) (value : Byte) : Unit × Bus δ :=
  bus.ask address () (.unmappedByteWrite address value) fun offset => Device.writeByte bus.now offset value

/-- Ticks every device of a list, the first one first. -/
def tickAll (now : Nat) : List δ → Response (List δ) Unit
  | [] => ⟨(), [], [], []⟩
  | device :: rest =>
    let first := Device.tick now device
    let others := tickAll now rest
    { value := ()
      device := first.device :: others.device
      raised := first.raised ++ others.raised
      notices := first.notices ++ others.notices }

def tick (bus : Bus δ) : Bus δ :=
  (bus.absorb (tickAll bus.now bus.devices)).2

/-- How a bus is shown: the windows of its devices in order of registration. -/
def describe (bus : Bus δ) : String :=
  let window (device : δ) : String :=
    "(" ++ (Device.base device).toNat.repr ++ ", " ++ (Device.size device).toNat.repr ++ ")"
  "[" ++ ", ".intercalate (bus.devices.map window) ++ "]"

end Bus

end Risc32
