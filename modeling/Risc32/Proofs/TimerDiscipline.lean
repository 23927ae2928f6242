import Risc32.Proofs.Device.TimerEvents

namespace Risc32

namespace Timer

/-- Events, each at its time, in the order in which the timer meets them. -/
abbrev History := List (Nat × Event)

def run (timer : Timer) : History → Response Timer Unit
  | [] => { value := (), device := timer }
  | (now, event) :: rest => (event.meet timer now).andThen fun _ next => run next rest

/-- The timer that was created at `start`, after a history. -/
def lived (base : Word) (start : Nat) (history : History) : Timer :=
  ((create base start).run history).device

/-- When the counter was last set to zero: by the last reset, or else at the start. -/
def lastReset (start : Nat) : History → Nat
  | [] => start
  | (now, event) :: rest => lastReset (if event.resets then now else start) rest

/-- The times of a history that has begun at `start` and has come to `now`: the clock never goes back, and it
    stays below the largest count. -/
def Clock (start : Nat) (history : History) (now : Nat) : Prop :=
  (start :: history.map Prod.fst ++ [now]).Pairwise (· ≤ ·) ∧ now < countLimit

/-- The history ends with setting up a periodic timer. A period is written to compare and then, with no tick in
    between and before anything overwrites or resets it, a control word that enables the timer and its
    interrupts, makes it periodic, acknowledges a match and does not reset. -/
def SetsPeriod (period : Word) (history : History) : Prop :=
  ∃ (before between : History) (set armed : Nat) (control : Word),
    history = before ++ (set, .writeWord compareRegister period) :: between ++
      [(armed, .writeWord controlRegister control)] ∧
    (∀ entry ∈ between, entry.2 ≠ .tick ∧ entry.2.writes compareRegister = false ∧ entry.2.resets = false) ∧
    (∀ bit < 4, control.getLsbD bit = true) ∧ control.getLsbD 4 = false

/-- The events write neither compare nor control. -/
def LeavesSettings (history : History) : Prop :=
  ∀ entry ∈ history, entry.2.writes compareRegister = false ∧ entry.2.writes controlRegister = false

/-- How a timer stands, at `now`, that has been set up with a period and has fired so many times since. -/
structure OnSchedule (period fired : Nat) (timer : Timer) (now : Nat) : Prop where
  compare : timer.compare = min (period * (fired + 1)) countLimit
  /-- No fire has come before its time. -/
  notEarly : period * fired ≤ timer.count now
  next : (timer.tick now).raised = [interruptIndex] ↔ timer.compare ≤ timer.count now
  /-- Periods that have been missed are caught up one per tick. -/
  catchesUp : ∀ times : List Nat, (∀ time ∈ times, period * (fired + times.length) ≤ timer.count time) →
    (timer.run (times.map fun time => (time, .tick))).raised = List.replicate times.length interruptIndex

/-- What holds of the tick at `now` of a timer that was created at `start` and has lived through `history`. -/
structure Disciplined (base : Word) (start : Nat) (history : History) (now : Nat) : Prop where
  /-- The counter shows how long ago the last reset was. -/
  counts : lastReset start history + (lived base start history).count now = now
  onlyTicks : ∀ event : Event, event ≠ .tick → (event.meet (lived base start history) now).raised = []
  atMostOnce : ((lived base start history).tick now).raised = [] ∨
    ((lived base start history).tick now).raised = [interruptIndex]
  /-- The control word has bits to enable the timer and its interrupts. -/
  onlyArmed : ((lived base start history).tick now).raised ≠ [] →
    (lived base start history).control.getLsbD 0 = true ∧ (lived base start history).control.getLsbD 1 = true ∧
      (lived base start history).compare ≤ (lived base start history).count now
  /-- After a match that does not repeat nothing is raised until an acknowledgement or a reset. A tick is a match
      when the timer is enabled, has no match pending and has come to compare; bit 2 of the control word makes
      matches repeat. -/
  untilAcknowledged : ∀ (before since : History) (time : Nat), history = before ++ (time, .tick) :: since →
    (lived base start before).control.getLsbD 0 = true → (lived base start before).isPending = false →
    (lived base start before).compare ≤ (lived base start before).count time →
    (lived base start before).control.getLsbD 2 = false →
    (∀ entry ∈ since, entry.2.acknowledges = false ∧ entry.2.resets = false) →
    ((lived base start history).tick now).raised = []
  /-- After a reset nothing is raised until compare is written. -/
  untilCompared : ∀ (before since : History) (time : Nat) (event : Event),
    history = before ++ (time, event) :: since → event.resets = true →
    (∀ entry ∈ since, entry.2.writes compareRegister = false) →
    ((lived base start history).tick now).raised = []
  periodic : ∀ (opening rest : History) (period : Word), history = opening ++ rest → SetsPeriod period opening →
    LeavesSettings rest →
    OnSchedule period.toNat ((lived base start opening).run rest).raised.length (lived base start history) now

section Runs

variable {base : Word} {start now : Nat} {timer : Timer} {history : History}

theorem device_run_append (timer : Timer) (earlier later : History) :
    (timer.run (earlier ++ later)).device = ((timer.run earlier).device.run later).device := by
  induction earlier generalizing timer with
  | nil => rfl
  | cons entry rest ih => exact ih _

theorem lived_append (earlier later : History) :
    lived base start (earlier ++ later) = ((lived base start earlier).run later).device :=
  device_run_append _ earlier later

theorem lived_append_cons (before : History) (time : Nat) (event : Event) (since : History) :
    lived base start (before ++ (time, event) :: since) =
      ((event.meet (lived base start before) time).device.run since).device :=
  lived_append before ((time, event) :: since)

/-- What every event of a history keeps, the history keeps. -/
theorem run_keeps {P : Timer → Prop} (hstores : timer.StoresNoCommand) (h : P timer)
    (hmeet : ∀ entry ∈ history, ∀ timer response, Outcome timer entry.1 entry.2 response → P timer →
      P response.device) :
    P (timer.run history).device := by
  induction history generalizing timer with
  | nil => exact h
  | cons entry rest ih =>
    obtain ⟨hentry, hrest⟩ := List.forall_mem_cons.1 hmeet
    have houtcome := outcome_meet hstores entry.2 entry.1
    exact ih (houtcome.storesNoCommand hstores) (hentry timer _ houtcome h) hrest

theorem StoresNoCommand.run (h : timer.StoresNoCommand) (history : History) :
    (timer.run history).device.StoresNoCommand :=
  run_keeps h h fun _ _ _ _ houtcome hbefore => houtcome.storesNoCommand hbefore

theorem storesNoCommand_lived (base : Word) (start : Nat) (history : History) :
    (lived base start history).StoresNoCommand :=
  (storesNoCommand_create base start).run history

theorem Clock.le (h : Clock start history now) {entry : Nat × Event} (hentry : entry ∈ history) :
    entry.1 ≤ now :=
  (List.pairwise_append.1 h.1).2.2 entry.1 (List.mem_cons_of_mem _ (List.mem_map_of_mem hentry)) now
    (List.mem_singleton_self now)

theorem lastReset_le (hstart : start ≤ now) (h : ∀ entry ∈ history, entry.1 ≤ now) :
    lastReset start history ≤ now := by
  induction history generalizing start with
  | nil => exact hstart
  | cons entry rest ih =>
    obtain ⟨hentry, hrest⟩ := List.forall_mem_cons.1 h
    refine ih ?_ hrest
    split
    · exact hentry
    · exact hstart

theorem epoch_run (h : timer.StoresNoCommand) (history : History) :
    (timer.run history).device.epoch = lastReset timer.epoch history := by
  induction history generalizing timer with
  | nil => rfl
  | cons entry rest ih =>
    have houtcome := outcome_meet h entry.2 entry.1
    change ((entry.2.meet timer entry.1).device.run rest).device.epoch = _
    rw [ih (houtcome.storesNoCommand h), houtcome.epoch_eq]
    rfl

theorem Clock.counts (h : Clock start history now) :
    lastReset start history + (lived base start history).count now = now := by
  have hstart : start ≤ now :=
    (List.pairwise_append.1 h.1).2.2 start List.mem_cons_self now (List.mem_singleton_self now)
  have hreset := lastReset_le hstart fun _ => h.le
  have hlimit := h.2
  rw [count, lived, epoch_run (storesNoCommand_create base start)]
  change lastReset start history + min (now - lastReset start history) countLimit = now
  omega

end Runs

section Quiet

variable {base : Word} {start now : Nat} {timer : Timer} {history : History}

theorem isPending_run (h : timer.StoresNoCommand) (hpending : timer.isPending = true)
    (hsince : ∀ entry ∈ history, entry.2.acknowledges = false ∧ entry.2.resets = false) :
    (timer.run history).device.isPending = true :=
  run_keeps (P := fun timer => timer.isPending = true) h hpending fun entry hentry _ _ houtcome hbefore =>
    houtcome.isPending hbefore (hsince entry hentry).1 (hsince entry hentry).2

theorem compare_run_never (h : timer.StoresNoCommand) (hnever : timer.compare = never)
    (hsince : ∀ entry ∈ history, entry.2.writes compareRegister = false ∧ entry.1 < countLimit) :
    (timer.run history).device.compare = never :=
  run_keeps (P := fun timer => timer.compare = never) h hnever fun entry hentry _ _ houtcome hbefore =>
    houtcome.compare_never hbefore (hsince entry hentry).1 (hsince entry hentry).2

/-- A match that does not repeat is pending from then on. -/
theorem isPending_tick (hdue : timer.isDue now = true) (hperiodic : timer.isPeriodic = false) :
    (timer.tick now).device.isPending = true := by
  rw [device_tick, if_pos hdue, afterMatch_eq, hperiodic]
  rfl

end Quiet

/-- The timer is armed to fire again and again, and has fired so many times since compare was written. -/
structure FiresEvery (period fired : Nat) (timer : Timer) : Prop where
  storesNoCommand : timer.StoresNoCommand
  isEnabled : timer.isEnabled = true
  raisesInterrupts : timer.raisesInterrupts = true
  isPeriodic : timer.isPeriodic = true
  isPending : timer.isPending = false
  period_eq : timer.period = period
  compare_eq : timer.compare = min (period * (fired + 1)) countLimit

namespace FiresEvery

variable {period fired now : Nat} {timer : Timer}

theorem isDue_iff (h : FiresEvery period fired timer) (now : Nat) :
    timer.isDue now = true ↔ timer.compare ≤ timer.count now := by
  rw [Timer.isDue_iff]
  exact ⟨fun hdue => hdue.2.2, fun hreached => ⟨h.isEnabled, h.isPending, hreached⟩⟩

theorem raised_tick (h : FiresEvery period fired timer) (now : Nat) :
    (timer.tick now).raised = if timer.compare ≤ timer.count now then [interruptIndex] else [] := by
  simp only [Timer.raised_tick, h.raisesInterrupts, Bool.and_true, h.isDue_iff]

/-- A match moves compare on by one period, and nothing else. -/
theorem afterMatch (h : FiresEvery period fired timer) : FiresEvery period (fired + 1) timer.afterMatch := by
  have hnext : min (timer.compare + timer.period) countLimit = min (period * (fired + 1 + 1)) countLimit := by
    rw [h.compare_eq, h.period_eq, Nat.mul_succ period (fired + 1)]
    omega
  rw [afterMatch_eq, h.isPeriodic]
  exact ⟨h.storesNoCommand, h.isEnabled, h.raisesInterrupts, h.isPeriodic, rfl, h.period_eq, hnext⟩

theorem tick (h : FiresEvery period fired timer) (now : Nat) :
    FiresEvery period (fired + (timer.tick now).raised.length) (timer.tick now).device := by
  rw [h.raised_tick, device_tick]
  by_cases hreached : timer.compare ≤ timer.count now
  · rw [if_pos hreached, if_pos ((h.isDue_iff now).2 hreached)]
    exact h.afterMatch
  · rw [if_neg hreached, if_neg (mt (h.isDue_iff now).1 hreached)]
    exact h

/-- Events that leave the settings alone do nothing to the timer, ticks apart. -/
theorem outcome (h : FiresEvery period fired timer) {event : Event} {response : Response Timer Unit}
    (houtcome : Outcome timer now event response) (hcompare : event.writes compareRegister = false)
    (hcontrol : event.writes controlRegister = false) :
    FiresEvery period (fired + response.raised.length) response.device := by
  cases houtcome with
  | tick => exact h.tick now
  | rest => exact h
  | compare value hwrites => cases hcompare.symm.trans hwrites
  | control value hwrites => cases hcontrol.symm.trans hwrites

theorem run (h : FiresEvery period fired timer) {history : History} (hleaves : LeavesSettings history) :
    FiresEvery period (fired + (timer.run history).raised.length) (timer.run history).device := by
  induction history generalizing timer fired with
  | nil => exact h
  | cons entry rest ih =>
    obtain ⟨⟨hcompare, hcontrol⟩, hrest⟩ := List.forall_mem_cons.1 hleaves
    have houtcome := outcome_meet h.storesNoCommand entry.2 entry.1
    have hnext := ih (h.outcome houtcome hcompare hcontrol) hrest
    rw [Nat.add_assoc, ← List.length_append] at hnext
    exact hnext

/-- Each tick that comes when the counter has reached compare fires. -/
theorem ticks (h : FiresEvery period fired timer) {times : List Nat}
    (hreached : ∀ time ∈ times, period * (fired + times.length) ≤ timer.count time) :
    (timer.run (times.map fun time => (time, .tick))).raised = List.replicate times.length interruptIndex := by
  induction times generalizing timer fired with
  | nil => rfl
  | cons time rest ih =>
    obtain ⟨hfirst, hrest⟩ := List.forall_mem_cons.1 hreached
    have hcompare : timer.compare ≤ timer.count time := by
      have hsooner := Nat.mul_le_mul_left period (show fired + 1 ≤ fired + (time :: rest).length by simp)
      rw [h.compare_eq]
      omega
    have hdevice : (timer.tick time).device = timer.afterMatch := by
      rw [device_tick, if_pos ((h.isDue_iff time).2 hcompare)]
    have hcount : ∀ later, timer.afterMatch.count later = timer.count later := fun later => by
      rw [afterMatch_eq]
      rfl
    have hlength : fired + (time :: rest).length = fired + 1 + rest.length := by
      rw [List.length_cons]
      omega
    have hlater := ih h.afterMatch fun later hlater => by
      rw [hcount, ← hlength]
      exact hrest later hlater
    change (timer.tick time).raised ++ ((timer.tick time).device.run _).raised = _
    rw [hdevice, hlater, h.raised_tick, if_pos hcompare]
    rfl

/-- A fire does not come before its time: so many periods have passed when compare has been reached. -/
theorem reached_of_compare (h : FiresEvery period fired timer) {time : Nat} (htime : time ≤ now)
    (hnow : now < countLimit) (hcompare : timer.compare ≤ timer.count time) :
    period * (fired + 1) ≤ timer.count now := by
  have hbelow := timer.count_lt_countLimit (Nat.lt_of_le_of_lt htime hnow)
  have hlater : timer.count time ≤ timer.count now := by
    unfold count
    omega
  rw [h.compare_eq] at hcompare
  omega

theorem outcome_reached (h : FiresEvery period fired timer) {event : Event} {response : Response Timer Unit}
    {time : Nat} (houtcome : Outcome timer time event response)
    (hcontrol : event.writes controlRegister = false) (htime : time ≤ now) (hnow : now < countLimit)
    (hreached : period * fired ≤ timer.count now) :
    period * (fired + response.raised.length) ≤ response.device.count now := by
  have hresets : event.resets = false := Event.commands_of_not_writes hcontrol 4
  have hcount : response.device.count now = timer.count now := by
    rw [count, houtcome.epoch_eq, hresets]
    rfl
  rw [hcount]
  cases houtcome with
  | tick =>
    rw [h.raised_tick]
    split
    case isTrue hcompare => exact h.reached_of_compare htime hnow hcompare
    case isFalse => exact hreached
  | _ => exact hreached

theorem run_reached (h : FiresEvery period fired timer) {history : History} (hleaves : LeavesSettings history)
    (htimes : ∀ entry ∈ history, entry.1 ≤ now) (hnow : now < countLimit)
    (hreached : period * fired ≤ timer.count now) :
    period * (fired + (timer.run history).raised.length) ≤ (timer.run history).device.count now := by
  induction history generalizing timer fired with
  | nil => exact hreached
  | cons entry rest ih =>
    obtain ⟨⟨hcompare, hcontrol⟩, hrest⟩ := List.forall_mem_cons.1 hleaves
    obtain ⟨htime, hlater⟩ := List.forall_mem_cons.1 htimes
    have houtcome := outcome_meet h.storesNoCommand entry.2 entry.1
    have hall := ih (h.outcome houtcome hcompare hcontrol) hrest hlater
      (h.outcome_reached houtcome hcontrol htime hnow hreached)
    rw [Nat.add_assoc, ← List.length_append] at hall
    exact hall

end FiresEvery

theorem firesEvery_setControl {timer : Timer} {control : Word} {period : Nat} (now : Nat)
    (hbits : ∀ bit < 4, control.getLsbD bit = true) (hreset : control.getLsbD 4 = false)
    (hcompare : timer.compare = period) (hperiod : timer.period = period) (hlimit : period ≤ countLimit) :
    FiresEvery period 0 (timer.setControl now control) where
  storesNoCommand := storesNoCommand_setControl timer now control
  isEnabled := (getLsbD_control_setControl timer now control (by omega)).trans (hbits 0 (by omega))
  raisesInterrupts := (getLsbD_control_setControl timer now control (by omega)).trans (hbits 1 (by omega))
  isPeriodic := (getLsbD_control_setControl timer now control (by omega)).trans (hbits 2 (by omega))
  isPending := by
    have hacknowledges : isAcknowledgement control = true := hbits 3 (by omega)
    rw [setControl_eq, hacknowledges]
    exact Bool.and_false _
  period_eq := by rw [setControl_eq, hperiod]
  compare_eq := by
    have hnone : isReset control = false := hreset
    rw [setControl_eq, hnone, Nat.zero_add, Nat.mul_one, Nat.min_eq_left hlimit]
    exact hcompare

/-- Setting up a periodic timer arms it, whatever it has lived through. -/
theorem SetsPeriod.firesEvery {history : History} {period : Word} (h : SetsPeriod period history) (base : Word)
    (start : Nat) : FiresEvery period.toNat 0 (lived base start history) := by
  obtain ⟨before, between, set, armed, control, rfl, hbetween, hbits, hreset⟩ := h
  have hstores := storesNoCommand_lived base start (before ++ [(set, .writeWord compareRegister period)])
  rw [lived_append_cons] at hstores
  have hkept := run_keeps (P := fun timer => timer.compare = period.toNat ∧ timer.period = period.toNat)
    hstores ⟨rfl, rfl⟩ fun entry hentry _ _ houtcome hbefore => by
      obtain ⟨htick, hcompare, hresets⟩ := hbetween entry hentry
      obtain ⟨hsame, hperiod⟩ := houtcome.settings htick hcompare hresets
      exact ⟨hsame.trans hbefore.1, hperiod.trans hbefore.2⟩
  have hlimit : period.toNat ≤ countLimit := by
    have hbound := period.isLt
    unfold countLimit
    omega
  rw [List.append_assoc, List.cons_append, lived_append_cons, device_run_append]
  exact firesEvery_setControl armed hbits hreset hkept.1 hkept.2 hlimit

/-- A timer is disciplined at every tick of its life. Nothing is assumed of what is written to it or read from
    it, when it is ticked, or how often. -/
theorem fires_only_as_armed (base : Word) (start : Nat) (history : History) (now : Nat)
    (hclock : Clock start history now) : Disciplined base start history now where
  counts := hclock.counts
  onlyTicks event := (outcome_meet (storesNoCommand_lived base start history) event now).raised_of_ne_tick
  atMostOnce := by
    rw [raised_tick]
    split
    · exact .inr rfl
    · exact .inl rfl
  onlyArmed hraised := by
    rw [raised_tick] at hraised
    split at hraised
    case isTrue hfires =>
      rw [Bool.and_eq_true, isDue_iff] at hfires
      obtain ⟨⟨henabled, -, hreached⟩, hraises⟩ := hfires
      exact ⟨henabled, hraises, hreached⟩
    case isFalse => exact absurd rfl hraised
  untilAcknowledged before since time hhistory henabled hnone hreached hperiodic hsince := by
    have hpending : (lived base start history).isPending = true := by
      have hdue := ((lived base start before).isDue_iff time).2 ⟨henabled, hnone, hreached⟩
      rw [hhistory, lived_append_cons]
      have hstores := storesNoCommand_lived base start (before ++ [(time, .tick)])
      rw [lived_append_cons] at hstores
      exact isPending_run hstores (isPending_tick hdue hperiodic) hsince
    exact raised_tick_of_not_isDue (not_isDue_of_isPending hpending now)
  untilCompared before since time event hhistory hresets hsince := by
    have htimes : ∀ entry ∈ since, entry.1 < countLimit := fun entry hentry => by
      have hmem : entry ∈ history := by
        rw [hhistory]
        exact List.mem_append_right _ (List.mem_cons_of_mem _ hentry)
      exact Nat.lt_of_le_of_lt (hclock.le hmem) hclock.2
    have hstores := storesNoCommand_lived base start before
    have houtcome := outcome_meet hstores event time
    have hnever : (lived base start history).compare = never := by
      rw [hhistory, lived_append_cons]
      exact compare_run_never (houtcome.storesNoCommand hstores) (houtcome.compare_of_resets hresets)
        fun entry hentry => ⟨hsince entry hentry, htimes entry hentry⟩
    exact raised_tick_of_not_isDue (not_isDue_of_never hnever hclock.2)
  periodic opening rest period hhistory hopening hleaves := by
    have hstart := hopening.firesEvery base start
    have hnow := hstart.run hleaves
    rw [hhistory, lived_append]
    have htimes : ∀ entry ∈ rest, entry.1 ≤ now := fun entry hentry =>
      hclock.le (by rw [hhistory]; exact List.mem_append_right _ hentry)
    rw [Nat.zero_add] at hnow
    refine ⟨hnow.compare_eq, ?_, ?_, fun times => hnow.ticks⟩
    · have hreached := hstart.run_reached hleaves htimes hclock.2 (by rw [Nat.mul_zero]; exact Nat.zero_le _)
      rwa [Nat.zero_add] at hreached
    · rw [hnow.raised_tick]
      split
      case isTrue hreached => exact iff_of_true rfl hreached
      case isFalse hreached => exact iff_of_false nofun hreached

/-- A timer that is set up with a period of 3 and first ticked 15 microseconds later fires once at that tick.
    It has missed periods by then, and four more ticks at that very time catch them up. -/
theorem fires_only_as_armed_behind :
    Clock 5 [(5, .writeWord 0x8 3), (5, .writeWord 0xC 0xF), (20, .tick)] 20 ∧
      OnSchedule 3 1 (lived 0xFFFF0010 5 [(5, .writeWord 0x8 3), (5, .writeWord 0xC 0xF), (20, .tick)]) 20 ∧
      ((lived 0xFFFF0010 5 [(5, .writeWord 0x8 3), (5, .writeWord 0xC 0xF), (20, .tick)]).run
        (List.replicate 4 (20, .tick))).raised = List.replicate 4 interruptIndex := by
  have hclock : Clock 5 [(5, .writeWord 0x8 3), (5, .writeWord 0xC 0xF), (20, .tick)] 20 :=
    ⟨by decide, by decide⟩
  have hopening : SetsPeriod 3 [(5, .writeWord 0x8 3), (5, .writeWord 0xC 0xF)] :=
    ⟨[], [], 5, 5, 0xF, rfl, nofun, by decide, by decide⟩
  have hschedule : OnSchedule 3 1 (lived 0xFFFF0010 5 _) 20 :=
    (fires_only_as_armed 0xFFFF0010 5 _ 20 hclock).periodic _ [(20, .tick)] 3 rfl hopening
      (List.forall_mem_singleton.2 ⟨rfl, rfl⟩)
  exact ⟨hclock, hschedule, hschedule.catchesUp [20, 20, 20, 20] (by decide)⟩

end Timer

end Risc32
