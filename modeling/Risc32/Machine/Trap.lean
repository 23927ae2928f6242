import Risc32.Machine.Physical

namespace Risc32.Machine

variable {δ : Type} [Device δ]

/-- What a trap does before it looks for its handler. The handler runs privileged, without
    interrupts, and sees physical memory. -/
def saveContext (m : Machine δ) : Machine δ :=
  { m with
    savedPc := m.pc
    savedFlags := m.flags.pack
    flags := { m.flags with privileged := true }
    interruptsMasked := true
    registers := (m.registers.set .windowOffset 0).set .windowBound 0 }

/-- The handler address in a slot; zero if none is set. -/
def readVector (slot : Nat) : EStateM TrapError (Machine δ) Word := fun m =>
  let address := m.vectors.slotAddress slot
  match (readPhysicalWord address).run m with
  | .ok handler m => .ok handler m
  | .error fault m => .error (.vectorUnreadable slot fault) (m.note (.vectorUnreadable slot address fault))

/-- The slot read last and the handler in it. The fallback is tried when the slot itself is empty. -/
def findHandler (slot fallback : Nat) : EStateM TrapError (Machine δ) (Nat × Word) := do
  let handler ← readVector slot
  if handler = 0 ∧ fallback ≠ slot then
    return (fallback, ← readVector fallback)
  else
    return (slot, handler)

/-- Enters a trap and answers the address of the handler. -/
def enterTrap (cause : TrapCause) : EStateM TrapError (Machine δ) Word := do
  let slot := (← get).vectors.slotFor (← get).flags.privileged cause
  modify saveContext
  let (used, handler) ← findHandler slot (VectorTable.fallbackFor cause)
  if handler = 0 then
    modify fun m => m.note (.vectorUndefined cause used)
    throw (.undefinedVector used)
  modify fun m => (m.note (.trapTaken cause m.savedPc used handler)).setPc handler
  return handler

theorem run_readVector (slot : Nat) (m : Machine δ) :
    (readVector slot).run m =
      match (readPhysicalWord (m.vectors.slotAddress slot)).run m with
      | .ok handler after => .ok handler after
      | .error fault after =>
        .error (.vectorUnreadable slot fault)
          (after.note (.vectorUnreadable slot (m.vectors.slotAddress slot) fault)) :=
  rfl

theorem run_enterTrap (cause : TrapCause) (m : Machine δ) :
    (enterTrap cause).run m =
      match (findHandler (m.vectors.slotFor m.flags.privileged cause)
          (VectorTable.fallbackFor cause)).run m.saveContext with
      | .ok found after =>
        if found.2 = 0 then
          .error (.undefinedVector found.1) (after.note (.vectorUndefined cause found.1))
        else
          .ok found.2 ((after.note (.trapTaken cause after.savedPc found.1 found.2)).setPc found.2)
      | .error error after => .error error after := by
  simp only [enterTrap, EStateM.run_bind, EStateM.run_get, EStateM.run_modify]
  cases (findHandler (m.vectors.slotFor m.flags.privileged cause)
      (VectorTable.fallbackFor cause)).run m.saveContext with
  | ok found after =>
    by_cases h : found.2 = 0
    · simp only [h, if_true]
      rfl
    · simp only [h, if_false]
      rfl
  | error error after => rfl

end Risc32.Machine
