import Risc32.Proofs.Machine.Reachable

namespace Risc32

namespace Bus

variable {δ α : Type} [Device δ]

/-- What the device at an address raises when it is asked. -/
def raisedAt (bus : Bus δ) (address : Word) (question : Word → δ → Response δ α) : List Word :=
  ((askFirst address question bus.devices).map (·.raised)).getD []

/-- Something happens on a bus, and its devices raise indices meanwhile, in their answers to accesses and
    ticks. -/
inductive Signals : Bus δ → List Word → Bus δ → Prop
  | none (bus : Bus δ) : Signals bus [] bus
  | readWord (bus : Bus δ) (address : Word) :
    Signals bus (bus.raisedAt address (Device.readWord bus.now)) (bus.readWord address).2
  | writeWord (bus : Bus δ) (address value : Word) :
    Signals bus (bus.raisedAt address fun offset => Device.writeWord bus.now offset value)
      (bus.writeWord address value).2
  | readByte (bus : Bus δ) (address : Word) :
    Signals bus (bus.raisedAt address (Device.readByte bus.now)) (bus.readByte address).2
  | writeByte (bus : Bus δ) (address : Word) (value : Byte) :
    Signals bus (bus.raisedAt address fun offset => Device.writeByte bus.now offset value)
      (bus.writeByte address value).2
  | tick (bus : Bus δ) : Signals bus (tickAll bus.now bus.devices).raised bus.tick
  | note (bus : Bus δ) (notice : Notice) : Signals bus [] (bus.note notice)
  | wait (bus : Bus δ) (microseconds : Nat) : Signals bus [] (bus.wait microseconds)
  | attach (bus : Bus δ) (device : δ) : Signals bus [] (bus.attach device)
  | trans {before middle after : Bus δ} {first second : List Word} (hfirst : Signals before first middle)
    (hsecond : Signals middle second after) : Signals before (first ++ second) after

theorem ask_queue (bus : Bus δ) (address : Word) (unmapped : α) (notice : Notice)
    (question : Word → δ → Response δ α) :
    (bus.ask address unmapped notice question).2.line.queue =
      bus.line.queue ++ bus.raisedAt address question := by
  unfold ask raisedAt
  cases askFirst address question bus.devices with
  | some response => rfl
  | none => exact (List.append_nil _).symm

/-- What is raised joins the end of the queue; what was there stays, in its order. -/
theorem Signals.queue {before after : Bus δ} {raised : List Word} (h : Signals before raised after) :
    after.line.queue = before.line.queue ++ raised := by
  induction h with
  | none bus => exact (List.append_nil _).symm
  | readWord bus address => exact ask_queue ..
  | writeWord bus address value => exact ask_queue ..
  | readByte bus address => exact ask_queue ..
  | writeByte bus address value => exact ask_queue ..
  | tick bus => rfl
  | note bus notice => exact (List.append_nil _).symm
  | wait bus microseconds => exact (List.append_nil _).symm
  | attach bus device => exact (List.append_nil _).symm
  | trans _ _ hfirst hsecond => rw [hsecond, hfirst, List.append_assoc]

end Bus

namespace Machine

variable {δ : Type} [Device δ]

/-- The bus of the later machine comes from that of the earlier one without taking anything off the
    line. -/
def OnlyRaises (before after : Machine δ) : Prop :=
  ∃ raised, before.bus.Signals raised after.bus

namespace OnlyRaises

instance : IsPreorder (Machine δ) OnlyRaises where
  refl m := ⟨[], .none m.bus⟩
  trans _ _ _ := fun ⟨_, hfirst⟩ ⟨_, hsecond⟩ => ⟨_, hfirst.trans hsecond⟩

variable {before after : Machine δ}

theorem of_bus_eq (h : after.bus = before.bus) : OnlyRaises before after :=
  ⟨[], by rw [h]; exact .none _⟩

theorem note (h : OnlyRaises before after) (notice : Notice) : OnlyRaises before (after.note notice) :=
  IsTrans.trans _ _ _ h ⟨[], .note after.bus notice⟩

theorem tick (h : OnlyRaises before after) : OnlyRaises before after.tick :=
  IsTrans.trans _ _ _ h ⟨_, .tick after.bus⟩

end OnlyRaises

theorem readPhysicalByte_onlyRaises (address : Word) :
    Keeps OnlyRaises (readPhysicalByte address : Exec δ Byte) := by
  intro m
  rw [run_readPhysicalByte]
  cases m.layout.region address with
  | ram => cases m.ram.get? address.toNat <;> exact .of_bus_eq rfl
  | rom => cases m.rom.get? (address.toNat - m.layout.romStart) <;> exact .of_bus_eq rfl
  | mmio => exact ⟨_, .readByte m.bus address⟩

theorem writePhysicalByte_onlyRaises (address : Word) (value : Byte) :
    Keeps OnlyRaises (writePhysicalByte address value : Exec δ Unit) :=
  writePhysicalByte_keeps_of (fun _ => .of_bus_eq rfl) (fun m => ⟨[], .note m.bus _⟩)
    fun m => ⟨_, .writeByte m.bus address value⟩

theorem readPhysicalWord_onlyRaises (address : Word) :
    Keeps OnlyRaises (readPhysicalWord address : Exec δ Word) :=
  readBytes_keeps readPhysicalByte_onlyRaises address

theorem readByte_onlyRaises (address : Word) : Keeps OnlyRaises (readByte address : Exec δ Byte) :=
  readByte_keeps_of readPhysicalByte_onlyRaises address

theorem writeByte_onlyRaises (address : Word) (value : Byte) :
    Keeps OnlyRaises (writeByte address value : Exec δ Unit) := by
  intro m
  rw [run_writeByte]
  by_cases h : address.toNat < m.windowSize
  · rw [if_pos h]
    exact writePhysicalByte_onlyRaises _ value m
  · rw [if_neg h]
    exact .of_bus_eq rfl

theorem readWord_onlyRaises (address : Word) : Keeps OnlyRaises (readWord address : Exec δ Word) :=
  readWord_keeps_of readByte_onlyRaises (fun m target => ⟨_, .readWord m.bus target⟩) address

theorem writeWord_onlyRaises (address value : Word) :
    Keeps OnlyRaises (writeWord address value : Exec δ Unit) := by
  intro m
  rw [run_writeWord]
  cases m.deviceWord? address with
  | some target => exact ⟨_, .writeWord m.bus target value⟩
  | none => exact writeBytes_keeps writeByte_onlyRaises address value m

/-- Instructions reach the bus only by their loads and stores. -/
theorem OnlyRaises.allowsParts : AllowsParts (OnlyRaises : Machine δ → Machine δ → Prop) where
  load width address := by
    cases width with
    | word => exact readWord_onlyRaises address
    | byte => exact .bind (readByte_onlyRaises address) fun _ => .pure _
  store width address value := by
    cases width with
    | word => exact writeWord_onlyRaises address value
    | byte => exact writeByte_onlyRaises address _
  register _ _ _ _ := .of_bus_eq rfl
  flags _ _ := .of_bus_eq rfl
  leave _ := .of_bus_eq rfl
  mask _ _ := .of_bus_eq rfl
  restore _ _ := .of_bus_eq rfl

theorem findHandler_onlyRaises (slot fallback : Nat) :
    Keeps OnlyRaises (findHandler slot fallback : EStateM TrapError (Machine δ) (Nat × Word)) :=
  findHandler_keeps_of readPhysicalWord_onlyRaises (fun m notice => ⟨[], .note m.bus notice⟩) slot fallback

/-- Trap entry may ask devices for the handler, but takes nothing off the line itself. -/
theorem enterTrap_onlyRaises (cause : TrapCause) :
    Keeps OnlyRaises (enterTrap cause : EStateM TrapError (Machine δ) Word) := by
  intro m
  have hfind := findHandler_onlyRaises (m.vectors.slotFor m.flags.privileged cause)
    (VectorTable.fallbackFor cause) m.saveContext
  rw [run_enterTrap]
  cases hrun : (findHandler (m.vectors.slotFor m.flags.privileged cause)
      (VectorTable.fallbackFor cause)).run m.saveContext with
  | error error after =>
    rw [hrun] at hfind
    exact hfind
  | ok found after =>
    rw [hrun] at hfind
    have hfound : OnlyRaises m after := hfind
    by_cases hzero : found.2 = 0
    · simp only [hzero, if_true]
      exact hfound.note _
    · simp only [hzero, if_false]
      exact hfound.note _

theorem trap_onlyRaises (m : Machine δ) (cause : TrapCause) (cycles : Nat) :
    OnlyRaises m (m.trap cause cycles).2 :=
  trap_keeps (enterTrap_onlyRaises cause) m cycles

theorem perform_onlyRaises (m : Machine δ) (i : Instruction) : OnlyRaises m (m.perform i).2 := by
  have hexecute := OnlyRaises.allowsParts.execute i m
  unfold perform
  cases hrun : (execute i).run m with
  | error fault after =>
    rw [hrun] at hexecute
    exact IsTrans.trans _ _ _ hexecute (after.trap_onlyRaises _ _)
  | ok flow after =>
    rw [hrun] at hexecute
    cases flow with
    | softwareInterrupt index => exact IsTrans.trans _ _ _ hexecute (after.trap_onlyRaises _ _)
    | _ => exact hexecute

theorem fetchAndPerform_onlyRaises (m : Machine δ) : OnlyRaises m m.fetchAndPerform.2 := by
  have hread := readWord_onlyRaises m.pc m
  unfold fetchAndPerform
  dsimp only
  cases hrun : (readWord m.pc).run m with
  | error fault after =>
    rw [hrun] at hread
    exact IsTrans.trans _ _ _ hread (after.trap_onlyRaises _ _)
  | ok word after =>
    rw [hrun] at hread
    have hmoved : OnlyRaises m (after.setPc (m.pc + 4)) := hread
    have hfetched := hmoved.note (.fetched m.pc word)
    dsimp only
    cases Instruction.ofWord? word with
    | none => exact IsTrans.trans _ _ _ hfetched (trap_onlyRaises _ _ _)
    | some i => exact IsTrans.trans _ _ _ hfetched (perform_onlyRaises _ i)

/-- After the poll at its start, a step takes nothing more off the line. -/
theorem step_onlyRaises (m : Machine δ) (honorBreakpoints : Bool) :
    OnlyRaises m.pollInterrupt.2 (m.step honorBreakpoints).2 := by
  have hadvance : OnlyRaises m.pollInterrupt.2 (m.advance honorBreakpoints).2 := by
    cases hpoll : m.pollInterrupt.1 with
    | some index =>
      rw [advance_of_interrupt hpoll]
      exact trap_onlyRaises _ _ _
    | none =>
      rw [advance_of_none hpoll]
      split
      · exact ⟨[], .note m.pollInterrupt.2.bus _⟩
      · exact fetchAndPerform_onlyRaises m.ready
  unfold step
  dsimp only
  split
  · exact hadvance
  · exact hadvance.tick

end Machine

end Risc32
