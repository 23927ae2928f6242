import Risc32.Device
import Risc32.Peripheral.Event

namespace Risc32

/-- A store of words that records its accesses and raises interrupts at planned ticks. It defines no byte accesses
    of its own. -/
structure WordStore where
  base : Word
  size : Word
  words : Array Word
  /-- Pairs of a tick, counted from one, and the index raised at it. -/
  schedule : List (Nat × Word)
  ticks : Nat := 0
  /-- The newest comes first. -/
  events : List PeripheralEvent := []
deriving DecidableEq, Repr

namespace WordStore

/-- A store of as many whole words as fit into `size` bytes, the first of them given. -/
def create (base size : Word) (contents : List Word) (schedule : List (Nat × Word)) : WordStore where
  base := base
  size := size
  words := ((contents.take (size.toNat / 4)).rightpad (size.toNat / 4) 0).toArray
  schedule := schedule

def word (store : WordStore) (offset : Word) : Word :=
  store.words.getD (offset.toNat / 4) 0

def record (store : WordStore) (event : PeripheralEvent) : WordStore :=
  { store with events := event :: store.events }

def readWord (offset : Word) (store : WordStore) : Response WordStore Word :=
  { value := store.word offset, device := store.record (.readWord offset) }

/-- A write behind the last word is recorded and dropped. -/
def writeWord (offset value : Word) (store : WordStore) : Response WordStore Unit :=
  { value := ()
    device := { store.record (.writeWord offset value) with
      words := store.words.setIfInBounds (offset.toNat / 4) value } }

/-- The indices that the schedule holds for a tick, in the order in which they were planned. -/
def dueAt (store : WordStore) (tick : Nat) : List Word :=
  (store.schedule.filter (·.1 == tick)).map (·.2)

def tick (store : WordStore) : Response WordStore Unit :=
  { value := ()
    device := { store with ticks := store.ticks + 1 }
    raised := store.dueAt (store.ticks + 1) }

instance : Device WordStore where
  base := base
  size := size
  readWord _ := readWord
  writeWord _ := writeWord
  tick _ := tick

end WordStore

end Risc32
