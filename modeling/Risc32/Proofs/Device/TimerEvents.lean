import Risc32.Peripheral.Timer
import Risc32.Proofs.Device.Lanes

namespace Risc32

namespace Timer

variable {timer : Timer} {now : Nat}

/-- Ticks, and accesses to the words and bytes of the registers. -/
inductive Event where
  | tick
  | readWord (offset : Word)
  | readByte (offset : Word)
  | writeWord (offset value : Word)
  | writeByte (offset : Word) (value : Byte)

namespace Event

/-- How a timer meets an event: the timer afterwards, and what it signals. -/
def meet (timer : Timer) (now : Nat) : Event → Response Timer Unit
  | tick => Device.tick now timer
  | readWord offset => (Device.readWord now offset timer).mapValue fun _ => ()
  | readByte offset => (Device.readByte now offset timer).mapValue fun _ => ()
  | writeWord offset value => Device.writeWord now offset value timer
  | writeByte offset value => Device.writeByte now offset value timer

/-- Whether the event writes a register, or one of its bytes. -/
def writes (register : Word) : Event → Bool
  | writeWord offset _ => offset = register
  | writeByte offset _ => alignedOffset offset = register
  | _ => false

/-- Whether the event writes the control register with a bit set that lies in its first byte. -/
def commands (bit : Nat) : Event → Bool
  | writeWord offset value => offset = controlRegister && value.getLsbD bit
  | writeByte offset value => offset = controlRegister && value.getLsbD bit
  | _ => false

def acknowledges (event : Event) : Bool := event.commands 3

def resets (event : Event) : Bool := event.commands 4

/-- Commands are given by writing the control register. -/
theorem commands_of_not_writes {event : Event} (h : event.writes controlRegister = false) (bit : Nat) :
    event.commands bit = false := by
  cases event with
  | writeWord offset value =>
    have hoffset : ¬ offset = controlRegister := of_decide_eq_false h
    simp [commands, hoffset]
  | writeByte offset value =>
    have haligned : ¬ alignedOffset offset = controlRegister := of_decide_eq_false h
    have hoffset : ¬ offset = controlRegister := fun hsame => haligned (by rw [hsame]; rfl)
    simp [commands, hoffset]
  | _ => rfl

end Event

/-- Commands act at once: no timer keeps one in its control word. -/
def StoresNoCommand (timer : Timer) : Prop :=
  isAcknowledgement timer.control = false ∧ isReset timer.control = false

theorem storesNoCommand_create (base : Word) (start : Nat) : StoresNoCommand (create base start) :=
  ⟨BitVec.getLsbD_zero, BitVec.getLsbD_zero⟩

/-- Writing a byte gives the same command as writing the word that the byte makes of the control word. -/
theorem getLsbD_mergeLane_control {word offset : Word} {bit : Nat} (hword : word.getLsbD bit = false)
    (hbit : bit < 8) (haligned : alignedOffset offset = controlRegister) (value : Byte) :
    (mergeLane offset word value).getLsbD bit = (decide (offset = controlRegister) && value.getLsbD bit) := by
  have hwhole : offset.toNat / 4 * 4 = 12 := by
    rw [← toNat_alignedOffset, haligned]
    rfl
  have hfirst : bit / 8 = offset.toNat % 4 ↔ offset = controlRegister := by
    rw [← BitVec.toNat_inj, show controlRegister.toNat = 12 from rfl]
    omega
  rw [getLsbD_mergeLane _ _ _ (by omega), Nat.mod_eq_of_lt hbit]
  by_cases h : offset = controlRegister
  · rw [if_pos (hfirst.2 h), decide_eq_true h, Bool.true_and]
  · rw [if_neg (mt hfirst.1 h), decide_eq_false h, Bool.false_and, hword]

/-- What an event can do to a timer, by what it writes. -/
inductive Outcome (timer : Timer) (now : Nat) : Event → Response Timer Unit → Prop where
  | tick : Outcome timer now .tick (timer.tick now)
  | rest {event : Event} (htick : event ≠ .tick) (hcompare : event.writes compareRegister = false)
      (hcontrol : event.writes controlRegister = false) :
      Outcome timer now event { value := (), device := timer }
  | compare {event : Event} (value : Word) (hcompare : event.writes compareRegister = true)
      (hcontrol : event.writes controlRegister = false) :
      Outcome timer now event { value := (), device := timer.setCompare value }
  | control {event : Event} (value : Word) (hcontrol : event.writes controlRegister = true)
      (hcompare : event.writes compareRegister = false)
      (hacknowledges : isAcknowledgement value = event.acknowledges)
      (hresets : isReset value = event.resets) :
      Outcome timer now event { value := (), device := timer.setControl now value }

/-- An event that writes a word within a register has the outcome of the register. -/
theorem outcome_writeWord {event : Event} {offset value : Word} (htick : event ≠ .tick)
    (hwrites : ∀ register, event.writes register = decide (offset = register))
    (hacknowledges : offset = controlRegister → isAcknowledgement value = event.acknowledges)
    (hresets : offset = controlRegister → isReset value = event.resets) :
    Outcome timer now event (timer.writeWord now offset value) := by
  unfold writeWord
  by_cases hcompare : offset = compareRegister
  · rw [if_pos hcompare]
    exact .compare value (by rw [hwrites, hcompare]; rfl) (by rw [hwrites, hcompare]; rfl)
  · rw [if_neg hcompare]
    by_cases hcontrol : offset = controlRegister
    · rw [if_pos hcontrol]
      exact .control value (by rw [hwrites, hcontrol]; rfl) (by rw [hwrites, hcontrol]; rfl)
        (hacknowledges hcontrol) (hresets hcontrol)
    · rw [if_neg hcontrol]
      exact .rest htick (by rw [hwrites, decide_eq_false hcompare])
        (by rw [hwrites, decide_eq_false hcontrol])

theorem outcome_meet (h : timer.StoresNoCommand) (event : Event) (now : Nat) :
    Outcome timer now event (event.meet timer now) := by
  cases event with
  | tick => exact .tick
  | readWord offset => exact .rest nofun rfl rfl
  | readByte offset => exact .rest nofun rfl rfl
  | writeWord offset value =>
    refine outcome_writeWord nofun (fun _ => rfl) (fun hcontrol => ?_) (fun hcontrol => ?_)
    · simp [Event.acknowledges, Event.commands, hcontrol, isAcknowledgement]
    · simp [Event.resets, Event.commands, hcontrol, isReset]
  | writeByte offset value =>
    -- The byte is merged into the word that the register shows, and the control register shows no command.
    have hread : ∀ {aligned : Word}, aligned = controlRegister →
        (timer.readWord now aligned).value = timer.control := fun haligned => by rw [haligned]; rfl
    change Outcome timer now _ (timer.writeWord now (alignedOffset offset)
      (mergeLane offset (timer.readWord now (alignedOffset offset)).value value))
    refine outcome_writeWord nofun (fun _ => rfl) (fun haligned => ?_) (fun haligned => ?_)
    · rw [hread haligned]
      exact getLsbD_mergeLane_control h.1 (by omega) haligned value
    · rw [hread haligned]
      exact getLsbD_mergeLane_control h.2 (by omega) haligned value

section Fields

variable (timer : Timer) (now : Nat) (value : Word)

theorem setControl_eq :
    timer.setControl now value =
      { timer with
        epoch := if isReset value then now else timer.epoch
        compare := if isReset value then never else timer.compare
        control := value &&& ~~~(0x18 : Word)
        isPending := timer.isPending && !isReset value && !isAcknowledgement value } := by
  unfold setControl reset
  cases isReset value <;> cases isAcknowledgement value <;> simp

/-- A control write sets the bits that are no commands as they are written. -/
theorem getLsbD_control_setControl {bit : Nat} (hbit : bit < 3) :
    (timer.setControl now value).control.getLsbD bit = value.getLsbD bit := by
  have hmask : (~~~(0x18 : Word)).getLsbD bit = true := by
    obtain rfl | rfl | rfl : bit = 0 ∨ bit = 1 ∨ bit = 2 := by omega
    all_goals decide
  rw [setControl_eq, BitVec.getLsbD_and, hmask, Bool.and_true]

theorem storesNoCommand_setControl : (timer.setControl now value).StoresNoCommand := by
  have hthree : (~~~(0x18 : Word)).getLsbD 3 = false := by decide
  have hfour : (~~~(0x18 : Word)).getLsbD 4 = false := by decide
  rw [setControl_eq]
  constructor
  · simp only [isAcknowledgement, BitVec.getLsbD_and, hthree, Bool.and_false]
  · simp only [isReset, BitVec.getLsbD_and, hfour, Bool.and_false]

theorem isDue_iff :
    timer.isDue now = true ↔
      timer.isEnabled = true ∧ timer.isPending = false ∧ timer.compare ≤ timer.count now := by
  simp [isDue, and_assoc]

theorem afterMatch_eq :
    timer.afterMatch =
      { timer with
        compare := if timer.isPeriodic then min (timer.compare + timer.period) countLimit else timer.compare
        isPending := !timer.isPeriodic } := by
  unfold afterMatch
  cases timer.isPeriodic <;> simp

theorem device_tick : (timer.tick now).device = if timer.isDue now then timer.afterMatch else timer := by
  unfold tick
  split
  · split <;> rfl
  · rfl

theorem raised_tick :
    (timer.tick now).raised = if timer.isDue now && timer.raisesInterrupts then [interruptIndex] else [] := by
  unfold tick
  split
  case isTrue hdue => split <;> simp_all
  case isFalse hdue => simp_all

end Fields

theorem count_lt_countLimit (timer : Timer) (h : now < countLimit) : timer.count now < countLimit := by
  unfold count
  omega

theorem not_isDue_of_isPending (h : timer.isPending = true) (now : Nat) : timer.isDue now = false := by
  simp [isDue, h]

theorem not_isDue_of_never (hnever : timer.compare = never) (hnow : now < countLimit) :
    timer.isDue now = false := by
  rw [Bool.eq_false_iff]
  intro hdue
  have hreached := ((timer.isDue_iff now).1 hdue).2.2
  have hbelow := timer.count_lt_countLimit hnow
  rw [hnever, never] at hreached
  omega

theorem raised_tick_of_not_isDue (h : timer.isDue now = false) : (timer.tick now).raised = [] := by
  rw [raised_tick, h]
  rfl

namespace Outcome

variable {event : Event} {response : Response Timer Unit}

theorem storesNoCommand (houtcome : Outcome timer now event response) (h : timer.StoresNoCommand) :
    response.device.StoresNoCommand := by
  cases houtcome with
  | tick =>
    rw [device_tick]
    split
    · rw [afterMatch_eq]
      exact h
    · exact h
  | rest => exact h
  | compare value => exact h
  | control value => exact storesNoCommand_setControl timer now value

/-- Resets alone move the time that the counter counts from. -/
theorem epoch_eq (houtcome : Outcome timer now event response) :
    response.device.epoch = if event.resets then now else timer.epoch := by
  cases houtcome with
  | tick =>
    change (timer.tick now).device.epoch = timer.epoch
    rw [device_tick]
    split
    · rw [afterMatch_eq]
    · rfl
  | rest _ _ hcontrol | compare _ _ hcontrol =>
    have hresets : event.resets = false := Event.commands_of_not_writes hcontrol 4
    rw [hresets]
    rfl
  | control value _ _ _ hresets => rw [setControl_eq, ← hresets]

/-- Ticks alone raise interrupts. -/
theorem raised_of_ne_tick (houtcome : Outcome timer now event response) (htick : event ≠ .tick) :
    response.raised = [] := by
  cases houtcome with
  | tick => exact absurd rfl htick
  | _ => rfl

/-- A match is pending until it is acknowledged or the timer is reset. -/
theorem isPending (houtcome : Outcome timer now event response) (hpending : timer.isPending = true)
    (hacknowledges : event.acknowledges = false) (hresets : event.resets = false) :
    response.device.isPending = true := by
  cases houtcome with
  | tick =>
    rw [device_tick, not_isDue_of_isPending hpending]
    exact hpending
  | rest => exact hpending
  | compare value => exact hpending
  | control value _ _ hack hreset =>
    rw [setControl_eq, hack, hreset, hacknowledges, hresets, hpending]
    rfl

/-- A reset leaves nothing to match. -/
theorem compare_of_resets (houtcome : Outcome timer now event response) (hresets : event.resets = true) :
    response.device.compare = never := by
  cases houtcome with
  | tick => cases hresets
  | rest _ _ hcontrol | compare _ _ hcontrol =>
    cases hresets.symm.trans (Event.commands_of_not_writes hcontrol 4)
  | control value _ _ _ hreset =>
    rw [setControl_eq, hreset, hresets]
    rfl

/-- There is nothing to match then until compare is written. -/
theorem compare_never (houtcome : Outcome timer now event response) (hnever : timer.compare = never)
    (hcompare : event.writes compareRegister = false) (hnow : now < countLimit) :
    response.device.compare = never := by
  cases houtcome with
  | tick =>
    rw [device_tick, not_isDue_of_never hnever hnow]
    exact hnever
  | rest => exact hnever
  | compare value hwrites => cases hcompare.symm.trans hwrites
  | control value =>
    rw [setControl_eq, hnever]
    exact ite_self never

/-- Between ticks compare and period stay until compare is written or the timer is reset. -/
theorem settings (houtcome : Outcome timer now event response) (htick : event ≠ .tick)
    (hcompare : event.writes compareRegister = false) (hresets : event.resets = false) :
    response.device.compare = timer.compare ∧ response.device.period = timer.period := by
  cases houtcome with
  | tick => exact absurd rfl htick
  | rest => exact ⟨rfl, rfl⟩
  | compare value hwrites => cases hcompare.symm.trans hwrites
  | control value _ _ _ hreset =>
    rw [setControl_eq, hreset, hresets]
    exact ⟨rfl, rfl⟩

end Outcome

end Timer

end Risc32
