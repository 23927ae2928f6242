import Risc32.Peripheral
import Risc32.Proofs.Machine.Attempt

namespace Risc32.Machine

variable {δ : Type} [Device δ]

end Risc32.Machine
