import Risc32.Word

namespace Risc32

/-- Devices and the host raise hardware interrupts on a queue: every raise counts, also of an index that is already
    waiting. -/
structure InterruptLine where
  /-- The oldest index comes first. -/
  queue : List Word := []
deriving DecidableEq, Repr

namespace InterruptLine

def raise (line : InterruptLine) (index : Word) : InterruptLine :=
  ⟨line.queue ++ [index]⟩

def raiseAll (line : InterruptLine) (indices : List Word) : InterruptLine :=
  ⟨line.queue ++ indices⟩

/-- The oldest index, and the line without it. -/
def take (line : InterruptLine) : Option Word × InterruptLine :=
  (line.queue.head?, ⟨line.queue.tail⟩)

def hasPending (line : InterruptLine) : Bool :=
  !line.queue.isEmpty

end InterruptLine

end Risc32
