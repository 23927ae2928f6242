import Risc32.Notice

namespace Risc32

/-- The answer of a device: a value, the device afterwards, and what it signals, in order. -/
structure Response (δ α : Type) where
  value : α
  device : δ
  raised : List Word := []
  notices : List Notice := []
deriving DecidableEq

namespace Response

variable {δ ε α β : Type}

/-- Goes on with the device and collects the signals of both parts. -/
def andThen (first : Response δ α) (next : α → δ → Response δ β) : Response δ β :=
  let second := next first.value first.device
  { second with
    raised := first.raised ++ second.raised
    notices := first.notices ++ second.notices }

def mapValue (f : α → β) (response : Response δ α) : Response δ β :=
  { response with value := f response.value }

def mapDevice (f : δ → ε) (response : Response δ α) : Response ε α :=
  { response with device := f response.device }

end Response

end Risc32
