import Risc32.Machine.Step
import Risc32.Proofs.Machine.Access

namespace Risc32.Machine

variable {δ : Type}

/-- The context of the interrupted code, as its handler finds it. The handler itself starts with the
    window open, privileged and without interrupts; everything else is still there or has been saved. -/
structure ContextKept (before after : Machine δ) : Prop where
  registers : ∀ r : Register, r ≠ .programCounter → r ≠ .windowOffset → r ≠ .windowBound →
    after.registers.get r = before.registers.get r
  windowOffset : after.registers.get .windowOffset = 0
  windowBound : after.registers.get .windowBound = 0
  flags : after.flags = { before.flags with privileged := true }
  savedFlags : after.savedFlags = before.flags.pack
  masked : after.interruptsMasked = true

/-- Saving the context touches no register but those of the window. -/
theorem saveContext_registers_get (m : Machine δ) {r : Register} (hoffset : r ≠ .windowOffset)
    (hbound : r ≠ .windowBound) : m.saveContext.registers.get r = m.registers.get r := by
  have hfirst := RegisterFile.get_set_of_ne m.registers 0 hoffset.symm
  have hsecond := RegisterFile.get_set_of_ne (m.registers.set .windowOffset 0) 0 hbound.symm
  exact hsecond.trans hfirst

theorem saveContext_pc (m : Machine δ) : m.saveContext.pc = m.pc :=
  m.saveContext_registers_get (show Register.programCounter ≠ .windowOffset by decide) (by decide)

/-- Saving the context keeps what the handler must find. -/
theorem contextKept_saveContext (m : Machine δ) : ContextKept m m.saveContext where
  registers r _ hoffset hbound := m.saveContext_registers_get hoffset hbound
  windowOffset := by
    have hbound := RegisterFile.get_set_of_ne (m.registers.set .windowOffset 0) 0
      (show Register.windowBound ≠ Register.windowOffset by decide)
    exact hbound.trans (RegisterFile.get_set_self _ _ (by decide))
  windowBound := RegisterFile.get_set_self _ _ (by decide)
  flags := rfl
  savedFlags := rfl
  masked := rfl

namespace ContextKept

variable {before middle after : Machine δ}

/-- Where the handler lies is no part of the context. -/
theorem setPc (h : ContextKept before after) (handler : Word) :
    ContextKept before (after.setPc handler) where
  registers r hpc hoffset hbound :=
    (RegisterFile.get_set_of_ne _ _ hpc.symm).trans (h.registers r hpc hoffset hbound)
  windowOffset := (RegisterFile.get_set_of_ne _ _ (by decide)).trans h.windowOffset
  windowBound := (RegisterFile.get_set_of_ne _ _ (by decide)).trans h.windowBound
  flags := h.flags
  savedFlags := h.savedFlags
  masked := h.masked

theorem trans_sameCore (h : ContextKept before middle) (hcore : SameCore middle after) :
    ContextKept before after where
  registers r hpc hoffset hbound := by rw [hcore.registers, h.registers r hpc hoffset hbound]
  windowOffset := by rw [hcore.registers, h.windowOffset]
  windowBound := by rw [hcore.registers, h.windowBound]
  flags := by rw [← h.flags]; exact congrArg (·.flags) hcore
  savedFlags := by rw [← h.savedFlags]; exact congrArg (·.savedFlags) hcore
  masked := by rw [← h.masked]; exact congrArg (·.interruptsMasked) hcore

end ContextKept

variable [Device δ]

section Handler

variable {R : Machine δ → Machine δ → Prop} [IsPreorder (Machine δ) R]

/-- What reading physical memory and leaving a notice keep, looking for a handler keeps. -/
theorem readVector_keeps_of (hread : ∀ address, Keeps R (readPhysicalWord address : Exec δ Word))
    (hnote : ∀ (m : Machine δ) (notice : Notice), R m (m.note notice)) (slot : Nat) :
    Keeps R (readVector slot : EStateM TrapError (Machine δ) Word) := by
  apply Keeps.of_run
  · intro m handler after hrun
    rw [run_readVector] at hrun
    split at hrun
    · cases hrun
      exact (hread _).of_ok ‹_›
    · cases hrun
  · intro m error after hrun
    rw [run_readVector] at hrun
    split at hrun
    · cases hrun
    · cases hrun
      exact IsTrans.trans _ _ _ ((hread _).of_error ‹_›) (hnote _ _)

theorem findHandler_keeps_of (hread : ∀ address, Keeps R (readPhysicalWord address : Exec δ Word))
    (hnote : ∀ (m : Machine δ) (notice : Notice), R m (m.note notice)) (slot fallback : Nat) :
    Keeps R (findHandler slot fallback : EStateM TrapError (Machine δ) (Nat × Word)) := by
  unfold findHandler
  refine .bind (readVector_keeps_of hread hnote slot) fun handler => .ite ?_ (.pure _)
  exact .bind (readVector_keeps_of hread hnote fallback) fun _ => .pure _

end Handler

theorem findHandler_keeps (slot fallback : Nat) :
    Keeps SameCore (findHandler slot fallback : EStateM TrapError (Machine δ) (Nat × Word)) :=
  findHandler_keeps_of readPhysicalWord_keeps (fun _ _ => rfl) slot fallback

/-- A successful trap entry saves the context and moves the program counter to the handler. Nothing
    else that instructions can see changes. -/
theorem enterTrap_ok {cause : TrapCause} {m after : Machine δ} {handler : Word}
    (hrun : (enterTrap cause).run m = .ok handler after) :
    SameCore (m.saveContext.setPc handler) after ∧ handler ≠ 0 := by
  rw [run_enterTrap] at hrun
  cases hfind : (findHandler (m.vectors.slotFor m.flags.privileged cause)
      (VectorTable.fallbackFor cause)).run m.saveContext with
  | error error middle =>
    rw [hfind] at hrun
    cases hrun
  | ok found middle =>
    have hkeeps := (findHandler_keeps _ _).of_ok hfind
    rw [hfind] at hrun
    by_cases hzero : found.2 = 0
    · simp only [hzero, if_true] at hrun
      cases hrun
    · simp only [hzero, if_false] at hrun
      cases hrun
      refine ⟨?_, hzero⟩
      exact congrArg (fun s : Machine δ => s.setPc found.2) hkeeps

/-- A trap entry that finds no handler has still saved the context. -/
theorem enterTrap_error {cause : TrapCause} {m after : Machine δ} {error : TrapError}
    (hrun : (enterTrap cause).run m = .error error after) : SameCore m.saveContext after := by
  rw [run_enterTrap] at hrun
  cases hfind : (findHandler (m.vectors.slotFor m.flags.privileged cause)
      (VectorTable.fallbackFor cause)).run m.saveContext with
  | error first middle =>
    have hkeeps := (findHandler_keeps _ _).of_error hfind
    rw [hfind] at hrun
    cases hrun
    exact hkeeps
  | ok found middle =>
    have hkeeps := (findHandler_keeps _ _).of_ok hfind
    rw [hfind] at hrun
    by_cases hzero : found.2 = 0
    · simp only [hzero, if_true] at hrun
      cases hrun
      exact hkeeps
    · simp only [hzero, if_false] at hrun
      cases hrun

end Risc32.Machine
