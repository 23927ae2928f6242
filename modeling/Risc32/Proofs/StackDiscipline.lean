import Risc32.Peripheral
import Risc32.Proofs.Machine.Effects
import Risc32.Proofs.Machine.StackSlots

namespace Risc32

namespace Machine

variable {δ : Type} {m after : Machine δ}

/-- The same stack, seen through the same window. The rest of the machine may have changed. -/
structure SameStack (before after : Machine δ) : Prop extends SameWindow before after where
  ram : after.ram = before.ram
  sp : after.registers.sp = before.registers.sp

variable [Device δ]

/-- Pushes the values one after the other. -/
def pushAll (values : List Word) : Exec δ Unit :=
  forM values push

/-- Pops as many values, the topmost one first. -/
def popAll : Nat → Exec δ (List Word)
  | 0 => return []
  | n + 1 => do
    let value ← pop
    let rest ← popAll n
    return value :: rest

/-- Neither a push nor a pop moves the stack pointer around the end of the addresses: one that would is
    refused without an effect. -/
def PointerNeverWraps (m : Machine δ) : Prop :=
  (m.registers.sp.toNat < 4 → ∀ value, (push value).run m = .error .stackOverflow m) ∧
  (addressCount ≤ m.registers.sp.toNat + 4 → pop.run m = .error .stackUnderflow m) ∧
  (∀ value after, (push value).run m = .ok () after →
    after.registers.sp.toNat + 4 = m.registers.sp.toNat) ∧
  ∀ value after, pop.run m = .ok value after → after.registers.sp.toNat = m.registers.sp.toNat + 4

theorem pointerNeverWraps (m : Machine δ) : m.PointerNeverWraps := by
  refine ⟨fun hlow value => ?_, fun hhigh => ?_, fun value after hrun => ?_, fun value after hrun => ?_⟩
  · rw [run_push, if_pos hlow]
  · rw [run_pop, if_pos hhigh]
  · obtain ⟨hroom, stored, -, rfl⟩ := push_ok hrun
    rw [RegisterFile.sp_setSp, BitVec.toNat_sub_of_le (by rw [BitVec.le_def]; exact hroom)]
    exact Nat.sub_add_cancel hroom
  · obtain ⟨hroom, loaded, -, rfl⟩ := pop_ok hrun
    rw [RegisterFile.sp_setSp]
    exact toNat_add_of_fits hroom

/-- Values pushed onto slots in main memory lie there in the opposite order. -/
theorem pushAll_pushed {values : List Word} (hrun : (pushAll values).run m = .ok () after)
    (hmain : m.SlotsInMain values.length) : Pushed m after values := by
  induction values generalizing m with
  | nil =>
    cases hrun
    exact .nil
  | cons value rest ih =>
    obtain ⟨middle, hfirst, hrest⟩ := run_forM_cons_eq_ok_iff.1 hrun
    rw [List.length_cons] at hmain
    have hpushed := push_pushed hfirst fun k hhigh hlow => hmain k hhigh (by omega)
    refine hpushed.cons (ih hrest fun k hhigh hlow => ?_)
    have hsp := hpushed.toNat_sp
    rw [List.length_singleton] at hsp
    rw [hpushed.sameWindow.place_eq, hpushed.sameWindow.inMain_iff]
    exact hmain k (by omega) (by omega)

/-- Values that lie on the stack are popped from the top, with no effect but on the stack pointer. -/
theorem run_popAll {values : List Word} (h : m.StackHolds m.registers.sp values) :
    (popAll values.length).run m =
      .ok values
        { m with
          registers := m.registers.setSp (m.registers.sp + BitVec.ofNat 32 (4 * values.length)) } := by
  induction values generalizing m with
  | nil =>
    rw [List.length_nil, Nat.mul_zero, BitVec.add_zero, RegisterFile.setSp_sp]
    rfl
  | cons value rest ih =>
    let popped := { m with registers := m.registers.setSp (m.registers.sp + 4) }
    have hsp : popped.registers.sp = m.registers.sp + 4 := RegisterFile.sp_setSp ..
    have hrest : popped.StackHolds popped.registers.sp rest := by
      rw [hsp]
      exact h.2.2.of_sameRam (.setSp m _) rfl
    refine run_bind_eq_ok_iff.2 ⟨value, popped, run_pop_of_holds h, ?_⟩
    refine run_bind_eq_ok_iff.2 ⟨rest, _, ih hrest, ?_⟩
    rw [hsp, slot_succ, List.length_cons]
    simp only [popped, RegisterFile.setSp_setSp]
    rfl

/-- A return behind a word on the stack goes to that address. -/
theorem run_ret {target : Word} {field : BitVec 24} (hend : m.registers.sp.toNat + 4 < addressCount)
    (hholds : m.Holds m.registers.sp target) :
    (execute ⟨.ret, field⟩).run m =
      .ok .next
        { m with registers := (m.registers.setSp (m.registers.sp + 4)).setPc target } := by
  have hstack : m.StackHolds m.registers.sp [target] := ⟨hend, hholds, trivial⟩
  have hexecute : (execute ⟨.ret, field⟩ : Exec δ Flow) = (do jumpTo (← pop); return .next) := rfl
  rw [hexecute, EStateM.run_bind, run_pop_of_holds hstack]
  rfl

/-- A call is a push of the address behind it and a jump. -/
theorem call_pushed {i : Instruction} {flow : Flow} (hcall : i.opcode = .call ∨ i.opcode = .callRegister)
    (hrun : (execute i).run m = .ok flow after) :
    ∃ target pushed, (push m.pc).run m = .ok () pushed ∧ after = pushed.setPc target := by
  obtain ⟨opcode, field⟩ := i
  have hto {target : Word} {a : Unit} (hcallTo : (callTo target).run m = .ok a after) :
      ∃ target pushed, (push m.pc).run m = .ok () pushed ∧ after = pushed.setPc target := by
    obtain ⟨_, _, hget, hrest⟩ := run_bind_eq_ok_iff.1 hcallTo
    cases hget
    obtain ⟨_, pushed, hpush, hjump⟩ := run_bind_eq_ok_iff.1 hrest
    cases hjump
    exact ⟨target, pushed, hpush, rfl⟩
  obtain hopcode | hopcode := hcall
  · cases hopcode
    obtain ⟨_, hcallTo⟩ := next_eq_ok (m := m) hrun
    exact hto hcallTo
  · cases hopcode
    obtain ⟨_, hcallTo⟩ := next_eq_ok (operand_eq_ok hrun)
    exact hto hcallTo

/-- A return takes back the call, whatever has happened in between, if the stack is the one that the call
    has left behind. -/
theorem ret_after_call {i : Instruction} {flow : Flow} {called s : Machine δ} {field : BitVec 24}
    (hcall : i.opcode = .call ∨ i.opcode = .callRegister) (hrun : (execute i).run m = .ok flow called)
    (hmain : m.SlotsInMain 1) (hstack : SameStack called s) :
    (execute ⟨.ret, field⟩).run s =
      .ok .next { s with registers := (s.registers.setSp m.registers.sp).setPc m.pc } := by
  obtain ⟨target, pushed, hpush, rfl⟩ := call_pushed hcall hrun
  have hpushed := push_pushed hpush hmain
  obtain ⟨hend, hholds, -⟩ := hpushed.holds
  have hjump : SameWindow pushed (pushed.setPc target) :=
    ⟨RegisterFile.get_set_of_ne _ _ (by decide), RegisterFile.get_set_of_ne _ _ (by decide), rfl, rfl⟩
  have hsp : s.registers.sp = pushed.registers.sp :=
    hstack.sp.trans (RegisterFile.get_set_of_ne _ _ (by decide))
  have hback : s.registers.sp + 4 = m.registers.sp := by
    rw [hsp, hpushed.sp_eq]
    exact BitVec.sub_add_cancel ..
  rw [← hback]
  refine run_ret ?_ ?_
  · rw [hsp]
    exact hend
  · rw [hsp]
    refine hholds.of_kept (IsTrans.trans _ _ _ hjump hstack.toSameWindow) fun j _ => ?_
    rw [hstack.ram]
    rfl

/-- The stack is last in, first out, on every machine and under every window. The stack pointer never
    wraps. Values that have all been pushed onto slots in main memory are popped in the opposite order,
    which changes no memory and leaves the registers as they were before the first push; the pushes have
    changed only the bytes of these slots. A return on the stack that a call has left in main memory goes
    to the address behind the call and restores the stack pointer, whichever register the target of the
    call has come from. -/
theorem stack_lifo (m : Machine δ) :
    m.PointerNeverWraps ∧
    (∀ (values : List Word) (pushed : Machine δ), (pushAll values).run m = .ok () pushed →
      m.SlotsInMain values.length →
      Pushed m pushed values ∧
      (popAll values.length).run pushed = .ok values.reverse { pushed with registers := m.registers }) ∧
    ∀ (i : Instruction) (flow : Flow) (called s : Machine δ) (field : BitVec 24),
      i.opcode = .call ∨ i.opcode = .callRegister → (execute i).run m = .ok flow called →
      m.SlotsInMain 1 → SameStack called s →
      (execute ⟨.ret, field⟩).run s =
        .ok .next { s with registers := (s.registers.setSp m.registers.sp).setPc m.pc } := by
  refine ⟨m.pointerNeverWraps, ?_, fun i flow called s field => ret_after_call⟩
  intro values pushed hrun hmain
  have hpushed := pushAll_pushed hrun hmain
  have hpopped := run_popAll hpushed.holds
  have hregisters : pushed.registers = m.registers.setSp pushed.registers.sp := by
    rw [hpushed.sp_eq, hpushed.rest]
  have hback : pushed.registers.sp + BitVec.ofNat 32 (4 * values.length) = m.registers.sp := by
    rw [hpushed.sp_eq, BitVec.sub_add_cancel]
  rw [List.length_reverse, hback, hregisters, RegisterFile.setSp_setSp, RegisterFile.setSp_sp] at hpopped
  exact ⟨hpushed, hpopped⟩

/-- Two slots at an unaligned stack pointer, in a window whose physical addresses wrap around to the start
    of main memory. -/
theorem stack_lifo_wrapped :
    let m : Machine Peripheral :=
      { assemble .standard ⟨0, 1, 1⟩ (Memory.zeros 64) (Memory.zeros 0) with
        registers := (RegisterFile.cleared.set .windowOffset 0xFFFFFFF1).setSp 23 }
    (∃ pushed, (pushAll [1, 2]).run m = .ok () pushed ∧
      (popAll 2).run pushed = .ok [2, 1] { pushed with registers := m.registers }) ∧
    ∃ flow called, (execute ⟨.call, 16⟩).run m = .ok flow called ∧
      (execute ⟨.ret, 0⟩).run called =
        .ok .next { called with registers := (called.registers.setSp 23).setPc m.pc } := by
  intro m
  obtain ⟨-, hvalues, hreturn⟩ := stack_lifo m
  obtain ⟨_, pushed, hpushed⟩ : Succeeds (pushAll [1, 2]) m := by decide +kernel
  obtain ⟨flow, called, hcalled⟩ : Succeeds (execute ⟨.call, 16⟩) m := by decide +kernel
  have hsame : SameStack called called := ⟨Std.Refl.refl called, rfl, rfl⟩
  refine ⟨⟨pushed, hpushed, (hvalues [1, 2] pushed hpushed (by decide +kernel)).2⟩, flow, called, hcalled, ?_⟩
  exact hreturn ⟨.call, 16⟩ flow called called 0 (.inl rfl) hcalled (by decide +kernel) hsame

end Machine

end Risc32
