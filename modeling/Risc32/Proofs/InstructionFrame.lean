import Risc32.Peripheral
import Risc32.Proofs.Machine.Effects

namespace Risc32.Machine

variable {δ : Type} [Device δ]

/-- An instruction that succeeds changes nothing outside of its footprint, whatever the machine and
    whichever registers it names. When the footprint has no devices, none has been asked: the run would
    have been the same with devices of any other behaviour. -/
theorem execute_framed {i : Instruction} {m after : Machine δ} {flow : Flow}
    (hrun : (execute i).run m = .ok flow after) :
    Within (i.footprint m) m after ∧
      ((i.footprint m).devices = false →
        ∀ behaviour : Device δ, (@execute δ behaviour i).run m = .ok flow after) := by
  refine ⟨execute_within hrun, fun hdevices behaviour => ?_⟩
  rw [execute_of_no_devices hdevices behaviour]
  exact hrun

/-- A call from address 8, with the stack at the end of main memory. -/
theorem execute_framed_call :
    let m : Machine Peripheral :=
      (assemble .standard ⟨0, 1, 1⟩ (Memory.zeros 64) (Memory.zeros 0)).setPc 8
    ∃ after, (execute ⟨.call, 16⟩).run m = .ok .next after ∧
      (Instruction.footprint ⟨.call, 16⟩ m).bytes = [59, 60, 61, 62] ∧
      after.ram.get? 62 = some 8 ∧ after.ram.get? 58 = m.ram.get? 58 ∧ after.savedPc = m.savedPc := by
  intro m
  have hbytes : (Instruction.footprint ⟨.call, 16⟩ m).bytes = [59, 60, 61, 62] := by decide +kernel
  have hstored : (match (execute ⟨.call, 16⟩).run m with
      | .ok .next after => after.ram.get? 62 == some 8
      | _ => false) = true := by decide +kernel
  clear_value m
  cases hrun : (execute ⟨.call, 16⟩).run m with
  | error fault after =>
    rw [hrun] at hstored
    cases hstored
  | ok flow after =>
    obtain ⟨hwithin, -⟩ := execute_framed hrun
    rw [hrun] at hstored
    cases flow with
    | next =>
      refine ⟨after, rfl, hbytes, beq_iff_eq.1 hstored, hwithin.ram 58 ?_, hwithin.savedPc⟩
      rw [hbytes]
      simp
    | _ => cases hstored

end Risc32.Machine
