import Risc32.Proofs.Machine.Fault
import Risc32.Proofs.Machine.Flow
import Risc32.Proofs.Machine.Footprint

namespace Risc32.Machine

variable {δ α : Type} {footprint : Footprint} {m after : Machine δ}

section Checks

theorem lift_eq_ok {value : Except Fault α} {a : α}
    (hrun : (Exec.lift value).run m = .ok a after) : value = .ok a ∧ after = m := by
  cases value with
  | ok b =>
    cases hrun
    exact ⟨rfl, rfl⟩
  | error fault => cases hrun

theorem requirePrivilege_eq_ok {a : Unit} (hrun : requirePrivilege.run m = .ok a after) : after = m := by
  rw [run_requirePrivilege] at hrun
  split at hrun
  · cases hrun
    rfl
  · cases hrun

theorem requireAdmitted_eq_ok {r : Register} {a : Unit}
    (hrun : (requireAdmitted r).run m = .ok a after) : after = m := by
  rw [run_requireAdmitted] at hrun
  split at hrun
  · cases hrun
    rfl
  · cases hrun

theorem readRegister_eq_ok {r : Register} {value : Word}
    (hrun : (readRegister r).run m = .ok value after) : value = m.registers.get r ∧ after = m := by
  rw [run_readRegister] at hrun
  split at hrun
  · cases hrun
    exact ⟨rfl, rfl⟩
  · cases hrun

theorem writeRegister_eq_ok {r : Register} {value : Word} {a : Unit}
    (hrun : (writeRegister r value).run m = .ok a after) :
    after = { m with registers := m.registers.set r value } := by
  rw [run_writeRegister] at hrun
  split at hrun
  · cases hrun
    rfl
  · cases hrun

theorem following_eq_ok {address next : Word} {i : Nat}
    (hrun : (following address i).run m = .ok next after) :
    next = address + BitVec.ofNat 32 i ∧ after = m := by
  unfold following at hrun
  split at hrun
  · cases hrun
    exact ⟨rfl, rfl⟩
  · cases hrun

end Checks

theorem writeRegister_within {r : Register} {value : Word} {a : Unit}
    (hrun : (writeRegister r value).run m = .ok a after) (hr : r ∈ footprint.registers) :
    Within footprint m after := by
  rw [writeRegister_eq_ok hrun]
  exact .setRegister m value hr

/-- Both parts of a commitment lie in the footprint. -/
theorem commit_within {r : Register} {computed : Computed} {a : Unit}
    (hrun : (commit r computed).run m = .ok a after) (hr : r ∈ footprint.registers)
    (hflags : ∀ flag ∈ computed.update.conditions, flag ∈ footprint.conditions) :
    Within footprint m after := by
  obtain ⟨_, written, hwrite, hupdate⟩ := run_bind_eq_ok_iff.1 hrun
  cases hupdate
  exact (writeRegister_within hwrite hr).trans (.update written hflags)

theorem executeAlu_within {op : AluOp} {i : Instruction} {a : Unit}
    (hrun : (executeAlu op i).run m = .ok a after) (hr : i.r0 ∈ footprint.registers)
    (hflags : ∀ flag ∈ op.conditions, flag ∈ footprint.conditions) : Within footprint m after := by
  obtain ⟨_, s, hadmitted, hfirst⟩ := run_bind_eq_ok_iff.1 hrun
  obtain rfl := requireAdmitted_eq_ok hadmitted
  obtain ⟨x, t, hx, hsecond⟩ := run_bind_eq_ok_iff.1 hfirst
  obtain ⟨-, rfl⟩ := readRegister_eq_ok hx
  obtain ⟨y, u, hy, hresult⟩ := run_bind_eq_ok_iff.1 hsecond
  obtain ⟨-, rfl⟩ := readRegister_eq_ok hy
  obtain ⟨computed, v, hcomputed, hcommit⟩ := run_bind_eq_ok_iff.1 hresult
  obtain ⟨heval, rfl⟩ := lift_eq_ok hcomputed
  refine commit_within hcommit hr ?_
  unfold AluOp.eval at heval
  split at heval
  · cases heval
  · cases heval
    rwa [AluOp.compute_conditions]

theorem executeImmediate_within {op : ImmediateOp} {i : Instruction} {a : Unit}
    (hrun : (executeImmediate op i).run m = .ok a after) (hr : i.r0 ∈ footprint.registers)
    (hflags : ∀ flag ∈ op.toAluOp.conditions, flag ∈ footprint.conditions) :
    Within footprint m after := by
  obtain ⟨x, s, hx, hcommit⟩ := run_bind_eq_ok_iff.1 hrun
  obtain ⟨-, rfl⟩ := readRegister_eq_ok hx
  refine commit_within hcommit hr ?_
  rwa [← compute_toAluOp, AluOp.compute_conditions]

variable [Device δ]

/-- A byte that is stored in main memory is stored at its relocated address. -/
theorem writeByte_within {address : Word} {value : Byte} {a : Unit}
    (hrun : (writeByte address value).run m = .ok a after) (hbyte : m.relocate address ∈ footprint.bytes)
    (hdevices : footprint.devices = true) : Within footprint m after := by
  rw [run_writeByte] at hrun
  split at hrun
  · rw [run_writePhysicalByte] at hrun
    cases hregion : m.layout.region (m.relocate address) with
    | ram =>
      simp only [hregion] at hrun
      split at hrun
      · cases hrun
        exact { Within.refl footprint m with
          ram := fun index hindex => Memory.get?_put_of_ne _ _ (hindex _ hbyte)
          ramSize := Memory.size_put .. }
      · cases hrun
    | rom =>
      simp only [hregion] at hrun
      cases hrun
      exact .of_sameCore rfl hdevices
    | mmio =>
      simp only [hregion] at hrun
      cases hrun
      exact .of_sameCore rfl hdevices
  · cases hrun

/-- The four bytes are stored through the same window: storing a byte does not move it. -/
theorem writeBytes_within {address value : Word} {a : Unit}
    (hrun : (writeBytes writeByte address value).run m = .ok a after)
    (hbytes : ∀ i < 4, m.relocate (address + BitVec.ofNat 32 i) ∈ footprint.bytes)
    (hoffset : .windowOffset ∉ footprint.registers) (hdevices : footprint.devices = true) :
    Within footprint m after := by
  have hsame {s : Machine δ} (h : Within footprint m s) (address : Word) :
      s.relocate address = m.relocate address := by
    unfold relocate
    rw [h.registers_get hoffset]
  obtain ⟨_, s3, h3, hrest3⟩ := run_bind_eq_ok_iff.1 hrun
  obtain ⟨rfl, rfl⟩ := following_eq_ok h3
  obtain ⟨_, t3, hwrite3, hrun2⟩ := run_bind_eq_ok_iff.1 hrest3
  have hwithin3 := writeByte_within hwrite3 (hbytes 3 (by omega)) hdevices
  obtain ⟨_, s2, h2, hrest2⟩ := run_bind_eq_ok_iff.1 hrun2
  obtain ⟨rfl, rfl⟩ := following_eq_ok h2
  obtain ⟨_, t2, hwrite2, hrun1⟩ := run_bind_eq_ok_iff.1 hrest2
  have hbyte2 := hbytes 2 (by omega)
  rw [← hsame hwithin3] at hbyte2
  have hwithin2 := hwithin3.trans (writeByte_within hwrite2 hbyte2 hdevices)
  obtain ⟨_, s1, h1, hrest1⟩ := run_bind_eq_ok_iff.1 hrun1
  obtain ⟨rfl, rfl⟩ := following_eq_ok h1
  obtain ⟨_, t1, hwrite1, hwrite0⟩ := run_bind_eq_ok_iff.1 hrest1
  have hbyte1 := hbytes 1 (by omega)
  rw [← hsame hwithin2] at hbyte1
  have hwithin1 := hwithin2.trans (writeByte_within hwrite1 hbyte1 hdevices)
  have hbyte0 := hbytes 0 (by omega)
  rw [← hsame hwithin1, BitVec.add_zero] at hbyte0
  exact hwithin1.trans (writeByte_within hwrite0 hbyte0 hdevices)

theorem storeAt_within {width : Width} {address value : Word} {a : Unit}
    (hrun : (storeAt width address value).run m = .ok a after)
    (hbytes : ∀ target ∈ m.storeBytes width address, target ∈ footprint.bytes)
    (hoffset : .windowOffset ∉ footprint.registers) (hdevices : footprint.devices = true) :
    Within footprint m after := by
  have hbyte (i : Nat) (hi : i < width.bytes) :
      m.relocate (address + BitVec.ofNat 32 i) ∈ footprint.bytes :=
    hbytes _ (List.mem_map_of_mem (List.mem_range.2 hi))
  cases width with
  | byte =>
    have hbyte0 := hbyte 0 (by decide)
    rw [BitVec.add_zero] at hbyte0
    exact writeByte_within hrun hbyte0 hdevices
  | word =>
    simp only [storeAt, run_writeWord] at hrun
    cases hdevice : m.deviceWord? address with
    | some target =>
      rw [hdevice] at hrun
      cases hrun
      exact .of_sameCore rfl hdevices
    | none =>
      rw [hdevice] at hrun
      exact writeBytes_within hrun hbyte hoffset hdevices

theorem executeLoad_within {width : Width} {i : Instruction} {a : Unit}
    (hrun : (executeLoad width i).run m = .ok a after) (hr : i.r0 ∈ footprint.registers)
    (hdevices : footprint.devices = true) : Within footprint m after := by
  obtain ⟨_, s, hadmitted, hfirst⟩ := run_bind_eq_ok_iff.1 hrun
  obtain rfl := requireAdmitted_eq_ok hadmitted
  obtain ⟨base, t, hbase, hsecond⟩ := run_bind_eq_ok_iff.1 hfirst
  obtain ⟨-, rfl⟩ := readRegister_eq_ok hbase
  obtain ⟨value, loaded, hload, hwrite⟩ := run_bind_eq_ok_iff.1 hsecond
  have hloaded := (loadAt_keeps width _).of_ok hload
  exact (Within.of_sameCore hloaded hdevices).trans (writeRegister_within hwrite hr)

theorem executeStore_within {width : Width} {i : Instruction} {a : Unit}
    (hrun : (executeStore width i).run m = .ok a after)
    (hbytes : ∀ target ∈ m.storeBytes width (effectiveAddress (m.registers.get i.r1) i.offset),
      target ∈ footprint.bytes)
    (hoffset : .windowOffset ∉ footprint.registers) (hdevices : footprint.devices = true) :
    Within footprint m after := by
  obtain ⟨value, s, hvalue, hfirst⟩ := run_bind_eq_ok_iff.1 hrun
  obtain ⟨-, rfl⟩ := readRegister_eq_ok hvalue
  obtain ⟨base, t, hbase, hstore⟩ := run_bind_eq_ok_iff.1 hfirst
  obtain ⟨rfl, rfl⟩ := readRegister_eq_ok hbase
  exact storeAt_within hstore hbytes hoffset hdevices

theorem push_within {value : Word} {a : Unit} (hrun : (push value).run m = .ok a after)
    (hsp : .stackPointer ∈ footprint.registers)
    (hbytes : ∀ target ∈ m.storeBytes .word (m.registers.sp - 4), target ∈ footprint.bytes)
    (hoffset : .windowOffset ∉ footprint.registers) (hdevices : footprint.devices = true) :
    Within footprint m after := by
  rw [run_push] at hrun
  split at hrun
  · cases hrun
  · split at hrun
    · rename_i stored hwrite
      cases hrun
      have hstore : (storeAt .word (m.registers.sp - 4) value).run m = .ok _ stored := hwrite
      exact (storeAt_within hstore hbytes hoffset hdevices).trans (.setRegister stored _ hsp)
    · cases hrun

theorem pop_within {value : Word} (hrun : pop.run m = .ok value after)
    (hsp : .stackPointer ∈ footprint.registers) (hdevices : footprint.devices = true) :
    Within footprint m after := by
  rw [run_pop] at hrun
  split at hrun
  · cases hrun
  · split at hrun
    · rename_i loaded hread
      cases hrun
      have hloaded := (readWord_keeps _).of_ok hread
      exact (Within.of_sameCore hloaded hdevices).trans (.setRegister loaded _ hsp)
    · cases hrun

theorem callTo_within {target : Word} {a : Unit} (hrun : (callTo target).run m = .ok a after)
    (hsp : .stackPointer ∈ footprint.registers) (hpc : .programCounter ∈ footprint.registers)
    (hbytes : ∀ target ∈ m.storeBytes .word (m.registers.sp - 4), target ∈ footprint.bytes)
    (hoffset : .windowOffset ∉ footprint.registers) (hdevices : footprint.devices = true) :
    Within footprint m after := by
  obtain ⟨_, s, hget, hrest⟩ := run_bind_eq_ok_iff.1 hrun
  cases hget
  obtain ⟨_, pushed, hpush, hjump⟩ := run_bind_eq_ok_iff.1 hrest
  cases hjump
  exact (push_within hpush hsp hbytes hoffset hdevices).trans (.setRegister pushed target hpc)

section Parts

variable {flow : Flow}

omit [Device δ] in
/-- An instruction that goes on with the next one is the computation before that. -/
theorem next_eq_ok {x : Exec δ Unit} (hrun : (do x; return Flow.next).run m = .ok flow after) :
    ∃ a, x.run m = .ok a after := by
  obtain ⟨a, _, hx, hreturn⟩ := run_bind_eq_ok_iff.1 hrun
  cases hreturn
  exact ⟨a, hx⟩

omit [Device δ] in
theorem operand_eq_ok {r : Register} {rest : Word → Exec δ Flow}
    (hrun : (readRegister r >>= rest).run m = .ok flow after) :
    (rest (m.registers.get r)).run m = .ok flow after := by
  obtain ⟨value, _, hread, hrest⟩ := run_bind_eq_ok_iff.1 hrun
  obtain ⟨rfl, rfl⟩ := readRegister_eq_ok hread
  exact hrest

omit [Device δ] in
theorem privileged_eq_ok {x : Exec δ Flow}
    (hrun : (do requirePrivilege; x).run m = .ok flow after) : x.run m = .ok flow after := by
  obtain ⟨_, s, hprivilege, hrest⟩ := run_bind_eq_ok_iff.1 hrun
  obtain rfl := requirePrivilege_eq_ok hprivilege
  exact hrest

omit [Device δ] in
theorem writeNext_within {r : Register} {value : Word}
    (hrun : (do writeRegister r value; return Flow.next).run m = .ok flow after)
    (hr : r ∈ footprint.registers) : Within footprint m after := by
  obtain ⟨_, hwrite⟩ := next_eq_ok hrun
  exact writeRegister_within hwrite hr

end Parts

/-- An instruction that succeeds stays within its footprint. -/
theorem execute_within {i : Instruction} {flow : Flow} (hrun : (execute i).run m = .ok flow after) :
    Within (i.footprint m) m after := by
  obtain ⟨opcode, field⟩ := i
  have hsp : Register.stackPointer ∈ [.stackPointer, .programCounter] := by decide
  have hpc : Register.programCounter ∈ [.stackPointer, .programCounter] := by decide
  have hoffset : Register.windowOffset ∉ [.stackPointer, .programCounter] := by decide
  cases opcode with
  | nop =>
    cases hrun
    exact .refl _ m
  | move => exact writeNext_within (operand_eq_ok hrun) (List.mem_singleton_self _)
  | loadUpper => exact writeNext_within hrun (List.mem_singleton_self _)
  | loadLower => exact writeNext_within hrun (List.mem_singleton_self _)
  | load width =>
    obtain ⟨_, hload⟩ := next_eq_ok hrun
    exact executeLoad_within hload (List.mem_singleton_self _) rfl
  | store width =>
    obtain ⟨_, hstore⟩ := next_eq_ok hrun
    exact executeStore_within hstore (fun _ h => h) List.not_mem_nil rfl
  | alu op =>
    obtain ⟨_, halu⟩ := next_eq_ok hrun
    exact executeAlu_within halu (List.mem_singleton_self _) fun _ h => h
  | complement =>
    obtain ⟨_, hcommit⟩ := next_eq_ok (operand_eq_ok hrun)
    exact commit_within hcommit (List.mem_singleton_self _) fun _ h => h
  | immediate op =>
    obtain ⟨_, himmediate⟩ := next_eq_ok hrun
    exact executeImmediate_within himmediate (List.mem_singleton_self _) fun _ h => h
  | compare =>
    obtain ⟨second, s, hread, hrest⟩ := run_bind_eq_ok_iff.1 (operand_eq_ok hrun)
    obtain ⟨-, rfl⟩ := readRegister_eq_ok hread
    cases hrest
    exact .update s fun _ h => h
  | jump condition =>
    obtain ⟨_, hjump⟩ := next_eq_ok hrun
    simp only [executeJump, EStateM.run_bind, EStateM.run_get] at hjump
    split at hjump
    · rename_i htaken
      cases hjump
      exact .setRegister m _ (by simp [Instruction.footprint, htaken])
    · cases hjump
      exact .refl _ m
  | jumpRegister =>
    cases operand_eq_ok hrun
    exact .setRegister m _ (List.mem_singleton_self _)
  | call =>
    obtain ⟨_, hcall⟩ := next_eq_ok (m := m) hrun
    exact callTo_within hcall hsp hpc (fun _ h => h) hoffset rfl
  | callRegister =>
    obtain ⟨_, hcall⟩ := next_eq_ok (operand_eq_ok hrun)
    exact callTo_within hcall hsp hpc (fun _ h => h) hoffset rfl
  | ret =>
    obtain ⟨target, popped, hpop, hjump⟩ := run_bind_eq_ok_iff.1 hrun
    cases hjump
    exact (pop_within hpop hsp rfl).trans (.setRegister popped target hpc)
  | interrupt =>
    rw [(executeInterrupt_ok hrun).1]
    exact .refl _ m
  | push =>
    obtain ⟨_, hpush⟩ := next_eq_ok (operand_eq_ok hrun)
    have hwindow : Register.windowOffset ∉ [.stackPointer] := by decide
    exact push_within hpush (List.mem_singleton_self _) (fun _ h => h) hwindow rfl
  | pop =>
    obtain ⟨_, s, hadmitted, hrest⟩ := run_bind_eq_ok_iff.1 hrun
    obtain rfl := requireAdmitted_eq_ok hadmitted
    obtain ⟨value, popped, hpop, hwrite⟩ := run_bind_eq_ok_iff.1 hrest
    have hpopped : Within (Instruction.footprint ⟨.pop, field⟩ s) s popped :=
      pop_within hpop (List.mem_cons_of_mem _ (List.mem_singleton_self _)) rfl
    exact hpopped.trans (writeNext_within hwrite List.mem_cons_self)
  | setWindowOffset => exact writeNext_within (operand_eq_ok (privileged_eq_ok hrun)) (List.mem_singleton_self _)
  | setWindowBound => exact writeNext_within (operand_eq_ok (privileged_eq_ok hrun)) (List.mem_singleton_self _)
  | leavePrivileged =>
    cases operand_eq_ok (privileged_eq_ok hrun)
    exact (Within.leave m rfl).trans (.setRegister _ _ (List.mem_singleton_self _))
  | maskInterrupts =>
    cases privileged_eq_ok hrun
    exact .mask m true rfl
  | unmaskInterrupts =>
    cases privileged_eq_ok hrun
    exact .mask m false rfl
  | getSavedFlags =>
    obtain ⟨_, _, hget, hwrite⟩ := run_bind_eq_ok_iff.1 (privileged_eq_ok hrun)
    cases hget
    exact writeNext_within hwrite (List.mem_singleton_self _)
  | getSavedPc =>
    obtain ⟨_, _, hget, hwrite⟩ := run_bind_eq_ok_iff.1 (privileged_eq_ok hrun)
    cases hget
    exact writeNext_within hwrite (List.mem_singleton_self _)
  | setFlags =>
    cases operand_eq_ok (privileged_eq_ok hrun)
    exact .restore m _ fun flag => by cases flag <;> simp [Instruction.footprint]
  | halt =>
    cases privileged_eq_ok hrun
    exact .refl _ m
  | kill =>
    cases privileged_eq_ok hrun
    exact .refl _ m

omit [Device δ] in
/-- Outside of loads, stores and the stack, execution does not ask any device: it is the same for every
    behaviour that devices may have. -/
theorem execute_of_no_devices {i : Instruction} (h : (i.footprint m).devices = false)
    (first second : Device δ) : @execute δ first i = @execute δ second i := by
  obtain ⟨opcode, field⟩ := i
  cases opcode with
  | load width => cases h
  | store width => cases h
  | call => cases h
  | callRegister => cases h
  | ret => cases h
  | push => cases h
  | pop => cases h
  | _ => rfl

end Risc32.Machine
