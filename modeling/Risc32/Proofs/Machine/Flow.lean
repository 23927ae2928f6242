import Risc32.Machine.Execute
import Risc32.Proofs.Exec.Keeps

namespace Risc32.Machine

variable {δ : Type}

/-- An interrupt instruction that is not refused changes nothing itself. -/
theorem executeInterrupt_ok {i : Instruction} {m after : Machine δ} {flow : Flow}
    (hrun : (executeInterrupt i).run m = .ok flow after) :
    after = m ∧ (flow = .next ∨ flow = .softwareInterrupt i.index) := by
  rw [run_executeInterrupt] at hrun
  split at hrun
  · cases hrun
  · split at hrun
    · cases hrun
      exact ⟨rfl, .inl rfl⟩
    · cases hrun
      exact ⟨rfl, .inr rfl⟩

variable [Device δ]

/-- Each request belongs to one opcode; all others simply go on. -/
theorem execute_flow {i : Instruction} {m after : Machine δ} {flow : Flow}
    (hrun : (execute i).run m = .ok flow after) :
    flow = .next ∨ flow = .halt ∧ i.opcode = .halt ∨ flow = .kill ∧ i.opcode = .kill ∨
      after = m ∧ flow = .softwareInterrupt i.index ∧ i.opcode = .interrupt := by
  obtain ⟨opcode, field⟩ := i
  have next {α : Type} {x : Exec δ α} {f : α → Exec δ Flow} (hf : ∀ a, Returns (· = Flow.next) (f a))
      (hx : (x >>= f).run m = .ok flow after) : flow = .next :=
    Returns.bind hf _ _ _ hx
  have last {x : Exec δ Unit} : Returns (· = Flow.next) (do x; return Flow.next) :=
    .bind fun _ => .pure rfl
  cases opcode with
  | nop =>
    cases hrun
    exact .inl rfl
  | move => exact .inl (next (fun _ => last) hrun)
  | loadUpper => exact .inl (last _ _ _ hrun)
  | loadLower => exact .inl (last _ _ _ hrun)
  | load width => exact .inl (last _ _ _ hrun)
  | store width => exact .inl (last _ _ _ hrun)
  | alu op => exact .inl (last _ _ _ hrun)
  | complement => exact .inl (next (fun _ => last) hrun)
  | immediate op => exact .inl (last _ _ _ hrun)
  | compare => exact .inl (next (fun _ => .bind fun _ => last) hrun)
  | jump condition => exact .inl (last _ _ _ hrun)
  | jumpRegister => exact .inl (next (fun _ => last) hrun)
  | call => exact .inl (next (fun _ => last) hrun)
  | callRegister => exact .inl (next (fun _ => last) hrun)
  | ret => exact .inl (next (fun _ => last) hrun)
  | interrupt =>
    obtain ⟨hsame, hflow⟩ := executeInterrupt_ok hrun
    rcases hflow with hnext | hsoftware
    · exact .inl hnext
    · exact .inr (.inr (.inr ⟨hsame, hsoftware, rfl⟩))
  | push => exact .inl (next (fun _ => last) hrun)
  | pop => exact .inl (next (fun _ => .bind fun _ => last) hrun)
  | setWindowOffset => exact .inl (next (fun _ => .bind fun _ => last) hrun)
  | setWindowBound => exact .inl (next (fun _ => .bind fun _ => last) hrun)
  | leavePrivileged => exact .inl (next (fun _ => .bind fun _ => .bind fun _ => last) hrun)
  | maskInterrupts => exact .inl (next (fun _ => last) hrun)
  | unmaskInterrupts => exact .inl (next (fun _ => last) hrun)
  | getSavedFlags => exact .inl (next (fun _ => .bind fun _ => last) hrun)
  | getSavedPc => exact .inl (next (fun _ => .bind fun _ => last) hrun)
  | setFlags => exact .inl (next (fun _ => .bind fun _ => last) hrun)
  | halt =>
    have hhalt : Returns (· = Flow.halt) (execute ⟨.halt, field⟩ : Exec δ Flow) := .bind fun _ => .pure rfl
    exact .inr (.inl ⟨hhalt _ _ _ hrun, rfl⟩)
  | kill =>
    have hkill : Returns (· = Flow.kill) (execute ⟨.kill, field⟩ : Exec δ Flow) := .bind fun _ => .pure rfl
    exact .inr (.inr (.inl ⟨hkill _ _ _ hrun, rfl⟩))

/-- User code is refused a privileged opcode before any operand is looked at. -/
theorem execute_refused {i : Instruction} {m : Machine δ} (hopcode : i.opcode.isPrivileged = true)
    (huser : m.flags.privileged = false) : (execute i).run m = .error .privilege m := by
  simp only [execute, hopcode, if_true, EStateM.run_bind, run_requirePrivilege, huser]
  rfl

end Risc32.Machine
