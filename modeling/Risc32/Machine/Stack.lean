import Risc32.Machine.Window

namespace Risc32.Machine

variable {δ : Type} [Device δ]

/-- The pointer moves only after the word is stored, so a push that faults has not happened. -/
def push (value : Word) : Exec δ Unit := do
  let sp := (← get).registers.sp
  if sp.toNat < 4 then
    throw .stackOverflow
  writeWord (sp - 4) value
  modify fun m => { m with registers := m.registers.setSp (sp - 4) }

def pop : Exec δ Word := do
  let sp := (← get).registers.sp
  if addressCount ≤ sp.toNat + 4 then
    throw .stackUnderflow
  let value ← readWord sp
  modify fun m => { m with registers := m.registers.setSp (sp + 4) }
  return value

theorem run_push (value : Word) (m : Machine δ) :
    (push value).run m =
      if m.registers.sp.toNat < 4 then .error .stackOverflow m
      else match (writeWord (m.registers.sp - 4) value).run m with
        | .ok _ after => .ok () { after with registers := after.registers.setSp (m.registers.sp - 4) }
        | .error fault after => .error fault after := by
  by_cases h : m.registers.sp.toNat < 4
  · simp [push, h]
  · simp only [push, EStateM.run_bind, EStateM.run_get, h, if_false]
    cases (writeWord (m.registers.sp - 4) value).run m <;> rfl

theorem run_pop (m : Machine δ) :
    pop.run m =
      if addressCount ≤ m.registers.sp.toNat + 4 then .error .stackUnderflow m
      else match (readWord m.registers.sp).run m with
        | .ok value after => .ok value { after with registers := after.registers.setSp (m.registers.sp + 4) }
        | .error fault after => .error fault after := by
  by_cases h : addressCount ≤ m.registers.sp.toNat + 4
  · simp [pop, h]
  · simp only [pop, EStateM.run_bind, EStateM.run_get, h, if_false]
    cases (readWord m.registers.sp).run m <;> rfl

end Risc32.Machine
