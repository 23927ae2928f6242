import Risc32.Controller.Loop
import Risc32.Controller.Operations
import Risc32.Disassembly
import Risc32.Memory.Request
import Risc32.Notice.Text
import Risc32.Peripheral
import Risc32.Throttle
import Risc32.Proofs.Exec.Keeps
import Risc32.Proofs.Machine.Fault
import Risc32.Proofs.Machine.TrapEntry
import Risc32.Proofs.Machine.Attempt
import Risc32.Proofs.Machine.Flow
import Risc32.Proofs.PreciseTrap
import Risc32.Proofs.Machine.Frame
import Risc32.Proofs.Machine.Reachable
import Risc32.Proofs.Machine.Vectors
import Risc32.Proofs.TrapRouting
import Risc32.Proofs.UserIsolation
import Risc32.Proofs.Exec.Agrees
import Risc32.Proofs.Machine.Twins
import Risc32.Proofs.Machine.Lockstep
import Risc32.Proofs.UserNoninterference
import Risc32.Proofs.Machine.Footprint
import Risc32.Proofs.InstructionFrame
import Risc32.Proofs.Machine.Alike
import Risc32.Proofs.BreakpointTransparency
import Risc32.Proofs.ProtectedContext
import Risc32.Proofs.Machine.Signals
import Risc32.Proofs.Controller.Actions
import Risc32.Proofs.InterruptConservation
import Risc32.Proofs.BreakpointReports
import Risc32.Proofs.Controller.Runs
import Risc32.Proofs.KilledTerminal
import Risc32.Proofs.HaltWait
import Risc32.Proofs.AtomicRefusals
import Risc32.Proofs.InstructionFormat
import Risc32.Proofs.Numerals
import Risc32.Proofs.FaithfulDisassembly
import Risc32.Proofs.Machine.Replies
import Risc32.Proofs.ResetErasesHistory
import Risc32.Proofs.CompareAndBranch
import Risc32.Proofs.Exec.Succeeds
import Risc32.Proofs.Machine.Places
import Risc32.Proofs.MemoryFaults
import Risc32.Proofs.Machine.MainMemory
import Risc32.Proofs.UntornStores
import Risc32.Proofs.BigEndianMemory
import Risc32.Proofs.Machine.StackSlots
import Risc32.Proofs.StackDiscipline
import Risc32.Proofs.Machine.Computing
import Risc32.Proofs.ExactSums
import Risc32.Proofs.IntegerArithmetic
import Risc32.Proofs.ImmediateForms
import Risc32.Proofs.Machine.Executed
import Risc32.Proofs.InterruptReturn
import Risc32.Proofs.Machine.Privileged
import Risc32.Proofs.DisassemblyWindow
import Risc32.Proofs.Bus.Routing
import Risc32.Proofs.WordRouting
import Risc32.Proofs.Device.Lanes
import Risc32.Proofs.Device.Stationary
import Risc32.Proofs.Device.WordStorage
import Risc32.Proofs.ByteArrayDevices
import Risc32.Proofs.Device.TimerEvents
import Risc32.Proofs.TimerDiscipline
import Risc32.Proofs.SignedFields
import Risc32.Proofs.ConfigValidation
import Risc32.Proofs.MemoryRequests
