import Risc32.Peripheral
import Risc32.Proofs.Controller.Actions
import Risc32.Proofs.Machine.Alike
import Risc32.Proofs.Machine.Execution
import Risc32.Proofs.Machine.Signals

namespace Risc32

/-- How an index leaves the interrupt line. -/
inductive Fate where
  /-- A step went into trap entry for it. -/
  | delivered
  /-- A step began while interrupts were masked. -/
  | dropped
  /-- The machine was booted. -/
  | discarded
deriving DecidableEq, Repr

/-- Whether the operation takes indices off the line. -/
def Operation.drains {δ : Type} : Operation δ → Bool
  | step _ | boot => true
  | _ => false

namespace Machine

variable {δ : Type}

/-- The indices on the line, the oldest first. -/
def queue (m : Machine δ) : List Word :=
  m.bus.line.queue

def withQueue (m : Machine δ) (queue : List Word) : Machine δ :=
  { m with bus := { m.bus with line := ⟨queue⟩ } }

/-- The indices that an operation takes off the line, and what becomes of them. It takes them before it
    does anything else. -/
def settles (m : Machine δ) : Operation δ → List (Word × Fate)
  | .step _ =>
    if m.interruptsMasked then m.queue.map (·, .dropped) else m.queue.head?.toList.map (·, .delivered)
  | .boot => m.queue.map (·, .discarded)
  | _ => []

/-- The machine after an operation has taken indices off the line. -/
def settled (m : Machine δ) : Operation δ → Machine δ
  | .step _ => m.pollInterrupt.2
  | .boot => m.boot
  | _ => m

theorem pollInterrupt_of_queue {m : Machine δ} (hmasked : m.interruptsMasked = false) {index : Word}
    {rest : List Word} (hqueue : m.queue = index :: rest) :
    m.pollInterrupt = (some index, m.withQueue rest) := by
  have htake : m.bus.line.take = (some index, ⟨rest⟩) := by
    show (m.queue.head?, InterruptLine.mk m.queue.tail) = _
    rw [hqueue]
    rfl
  rw [pollInterrupt_of_unmasked hmasked, htake]
  rfl

/-- The indices taken off the line are the oldest, in their order, and the others stay. -/
theorem settled_queue (m : Machine δ) (operation : Operation δ) :
    m.queue = (m.settles operation).map Prod.fst ++ (m.settled operation).queue := by
  have hall (fate : Fate) : (m.queue.map (·, fate)).map Prod.fst = m.queue := by
    rw [List.map_map]
    exact List.map_id m.queue
  cases operation with
  | step honorBreakpoints =>
    simp only [settles, settled]
    cases hmasked : m.interruptsMasked with
    | true =>
      rw [if_pos rfl, hall, pollInterrupt_of_masked hmasked]
      exact (List.append_nil _).symm
    | false =>
      rw [if_neg Bool.false_ne_true]
      cases hqueue : m.queue with
      | nil =>
        have hquiet : m.hasPendingInterrupt = false := by
          simp only [hasPendingInterrupt, InterruptLine.hasPending, show m.bus.line.queue = [] from hqueue,
            List.isEmpty_nil, Bool.not_true]
        rw [pollInterrupt_of_quiet hquiet, hqueue]
        rfl
      | cons index rest =>
        rw [pollInterrupt_of_queue hmasked hqueue]
        rfl
  | boot =>
    simp only [settles, settled, hall]
    exact (List.append_nil _).symm
  | _ => rfl

variable [Device δ]

/-- An operation raises the indices: the host does, or devices do once the operation has taken off the
    line what it takes. -/
inductive Signals (m : Machine δ) : Operation δ → List Word → Prop
  | host (index : Word) : Signals m (.raise index) [index]
  | devices {operation : Operation δ} {raised : List Word}
    (h : (m.settled operation).bus.Signals raised (m.operate operation).bus) : Signals m operation raised

theorem signals_of_onlyRaises {m : Machine δ} {operation : Operation δ}
    (h : OnlyRaises (m.settled operation) (m.operate operation)) :
    ∃ raised, m.Signals operation raised :=
  h.imp fun _ => .devices

theorem operate_signals (m : Machine δ) (operation : Operation δ) :
    ∃ raised, m.Signals operation raised := by
  cases operation with
  | step honorBreakpoints => exact signals_of_onlyRaises (m.step_onlyRaises honorBreakpoints)
  | enterTrap cause => exact signals_of_onlyRaises (afterRun_of_keeps (enterTrap_onlyRaises cause) m)
  | tick => exact ⟨_, .devices (.tick m.bus)⟩
  | loadImage image =>
    refine signals_of_onlyRaises (.of_bus_eq ?_)
    simp only [operate, loadImage, settled]
    cases m.ram.write 0 image <;> rfl
  | loadRom image =>
    refine signals_of_onlyRaises (.of_bus_eq ?_)
    simp only [operate, loadRom, settled]
    cases m.rom.write 0 image <;> rfl
  | attach device => exact ⟨[], .devices (.attach m.bus device)⟩
  | raise index => exact ⟨[index], .host index⟩
  | wait microseconds => exact ⟨[], .devices (.wait m.bus microseconds)⟩
  | readByte address => exact signals_of_onlyRaises (afterRun_of_keeps (readByte_onlyRaises address) m)
  | writeByte address value =>
    exact signals_of_onlyRaises (afterRun_of_keeps (writeByte_onlyRaises address value) m)
  | readWord address => exact signals_of_onlyRaises (afterRun_of_keeps (readWord_onlyRaises address) m)
  | writeWord address value =>
    exact signals_of_onlyRaises (afterRun_of_keeps (writeWord_onlyRaises address value) m)
  | readPhysicalByte address =>
    exact signals_of_onlyRaises (afterRun_of_keeps (readPhysicalByte_onlyRaises address) m)
  | writePhysicalByte address value =>
    exact signals_of_onlyRaises (afterRun_of_keeps (writePhysicalByte_onlyRaises address value) m)
  | readPhysicalWord address =>
    exact signals_of_onlyRaises (afterRun_of_keeps (readPhysicalWord_onlyRaises address) m)
  | boot => exact signals_of_onlyRaises (.of_bus_eq rfl)
  | setBreakpoints breakpoints => exact signals_of_onlyRaises (.of_bus_eq rfl)
  | setRegisters registers => exact signals_of_onlyRaises (.of_bus_eq rfl)
  | setFlags flags => exact signals_of_onlyRaises (.of_bus_eq rfl)

/-- One operation conserves: what was on the line and what is raised is what leaves the line and what is
    left there. -/
theorem Signals.conserved {m : Machine δ} {operation : Operation δ} {raised : List Word}
    (h : m.Signals operation raised) :
    m.queue ++ raised = (m.settles operation).map Prod.fst ++ (m.operate operation).queue := by
  cases h with
  | host index => rfl
  | devices hsignals =>
    have hafter : (m.operate operation).queue = (m.settled operation).queue ++ raised := hsignals.queue
    rw [hafter, ← List.append_assoc, ← m.settled_queue operation]

/-- The indices that operations take off the line, one operation after the other. -/
def settlesAll (m : Machine δ) : List (Operation δ) → List (Word × Fate)
  | [] => []
  | operation :: rest => m.settles operation ++ (m.operate operation).settlesAll rest

/-- The operations raise the indices, one operation after the other. -/
inductive SignalsAll : Machine δ → List (Operation δ) → List Word → Prop
  | nil (m : Machine δ) : SignalsAll m [] []
  | cons {m : Machine δ} {operation : Operation δ} {rest : List (Operation δ)} {raised later : List Word}
    (hfirst : m.Signals operation raised) (hrest : SignalsAll (m.operate operation) rest later) :
    SignalsAll m (operation :: rest) (raised ++ later)

theorem operations_signal (m : Machine δ) (operations : List (Operation δ)) :
    ∃ raised, m.SignalsAll operations raised := by
  induction operations generalizing m with
  | nil => exact ⟨[], .nil m⟩
  | cons operation rest ih =>
    obtain ⟨raised, hfirst⟩ := m.operate_signals operation
    obtain ⟨later, hrest⟩ := ih (m.operate operation)
    exact ⟨raised ++ later, .cons hfirst hrest⟩

theorem SignalsAll.conserved {m : Machine δ} {operations : List (Operation δ)} {raised : List Word}
    (h : m.SignalsAll operations raised) :
    m.queue ++ raised =
      (m.settlesAll operations).map Prod.fst ++ (operations.foldl operate m).queue := by
  induction h with
  | nil m => exact List.append_nil _
  | cons hfirst _ ih =>
    simp only [settlesAll, List.map_append, List.foldl_cons, List.append_assoc]
    rw [← ih, ← List.append_assoc, hfirst.conserved, List.append_assoc]

theorem settlesAll_eq_nil {m : Machine δ} {operations : List (Operation δ)}
    (h : ∀ operation ∈ operations, operation.drains = false) : m.settlesAll operations = [] := by
  induction operations generalizing m with
  | nil => rfl
  | cons operation rest ih =>
    obtain ⟨hfirst, hrest⟩ := List.forall_mem_cons.1 h
    rw [settlesAll, ih hrest, List.append_nil]
    cases operation with
    | step honorBreakpoints => cases hfirst
    | boot => cases hfirst
    | _ => rfl

/-- With interrupts unmasked, a step goes into trap entry for the oldest index on the line, and does
    nothing else before its tick. -/
theorem step_of_queue {m : Machine δ} (hmasked : m.interruptsMasked = false) {index : Word}
    {rest : List Word} (hqueue : m.queue = index :: rest) (honorBreakpoints : Bool) :
    m.step honorBreakpoints =
      (((m.withQueue rest).trap (.hardware index) 0).1,
        ((m.withQueue rest).trap (.hardware index) 0).2.tick) := by
  have hpoll := pollInterrupt_of_queue hmasked hqueue
  rw [step_of_interrupt (congrArg Prod.fst hpoll), hpoll]

/-- With interrupts masked, a step is that of the machine that has dropped them. -/
theorem step_dropInterrupts {m : Machine δ} (hmasked : m.interruptsMasked = true)
    (honorBreakpoints : Bool) : m.dropInterrupts.step honorBreakpoints = m.step honorBreakpoints := by
  have hquiet : m.dropInterrupts.pollInterrupt = (none, m.dropInterrupts) := pollInterrupt_of_quiet rfl
  have hadvance : m.dropInterrupts.advance honorBreakpoints = m.advance honorBreakpoints := by
    rw [advance, advance, hquiet, pollInterrupt_of_masked hmasked]
  rw [step, step, hadvance]

end Machine

namespace Controller

variable {δ : Type} [Device δ]

/-- The indices that leave the line during the actions, in order, and what becomes of them. -/
def settles (c : Controller δ) : List (Action δ) → List (Word × Fate)
  | [] => []
  | action :: rest => c.machine.settlesAll (c.operations action) ++ (c.act action).settles rest

/-- The indices that are raised during the actions, in order. -/
inductive Signals : Controller δ → List (Action δ) → List Word → Prop
  | nil (c : Controller δ) : Signals c [] []
  | cons {c : Controller δ} {action : Action δ} {rest : List (Action δ)} {raised later : List Word}
    (hfirst : c.machine.SignalsAll (c.operations action) raised) (hrest : Signals (c.act action) rest later) :
    Signals c (action :: rest) (raised ++ later)

theorem actions_signal (c : Controller δ) (actions : List (Action δ)) :
    ∃ raised, c.Signals actions raised := by
  induction actions generalizing c with
  | nil => exact ⟨[], .nil c⟩
  | cons action rest ih =>
    obtain ⟨raised, hfirst⟩ := c.machine.operations_signal (c.operations action)
    obtain ⟨later, hrest⟩ := ih (c.act action)
    exact ⟨raised ++ later, .cons hfirst hrest⟩

omit [Device δ] in
theorem OnlyNotes.queue {m : Machine δ} {c : Controller δ} (h : OnlyNotes m c) :
    c.machine.queue = m.queue := by
  obtain ⟨notices, hmachine⟩ := h
  rw [hmachine]
  rfl

theorem act_conserved {c : Controller δ} {action : Action δ} {raised : List Word}
    (h : c.machine.SignalsAll (c.operations action) raised) :
    c.machine.queue ++ raised =
      (c.machine.settlesAll (c.operations action)).map Prod.fst ++ (c.act action).machine.queue := by
  rw [(c.act_machine action).queue]
  exact h.conserved

/-- A run conserves, by induction on its actions. -/
theorem Signals.conserved {c : Controller δ} {actions : List (Action δ)} {raised : List Word}
    (h : c.Signals actions raised) :
    c.machine.queue ++ raised =
      (c.settles actions).map Prod.fst ++ (actions.foldl act c).machine.queue := by
  induction h with
  | nil c => exact List.append_nil _
  | cons hfirst _ ih =>
    simp only [settles, List.map_append, List.foldl_cons, List.append_assoc]
    rw [← ih, ← List.append_assoc, act_conserved hfirst, List.append_assoc]

/-- An action that does not step or boot the machine leaves what is on the line. -/
theorem act_queue_prefix {c : Controller δ} {action : Action δ}
    (h : ∀ operation ∈ c.operations action, operation.drains = false) :
    c.machine.queue <+: (c.act action).machine.queue := by
  obtain ⟨raised, hsignals⟩ := c.machine.operations_signal (c.operations action)
  have hconserved := act_conserved hsignals
  rw [Machine.settlesAll_eq_nil h] at hconserved
  exact ⟨raised, hconserved⟩

/-- An interrupt on the line ends the wait of a halt instruction, and nothing else happens. -/
theorem turn_wakes {c : Controller δ} (hkilled : c.isKilled = false) (hparked : c.isParked = false)
    (hwaiting : c.isWaiting = true) (hpending : c.machine.hasPendingInterrupt = true) :
    turn.run c = .ok true ({ c with isWaiting := false }.note .wokenByInterrupt) := by
  rw [run_turn, if_neg (by simp [hkilled]), if_neg (by simp [hparked]), if_pos hwaiting, awaitInterrupt,
    if_pos hpending]

/-- Hardware interrupts are conserved and delivered in order, in every run that starts anywhere, whatever
    the host does and however the devices behave. What was on the line at the start and what is raised
    meanwhile is, in this order, what has been delivered, dropped or discarded and what is still there.

    From every machine of the run, a step that begins with interrupts unmasked takes the oldest index off
    the line and does nothing but go into its trap. One that begins with interrupts masked drops them all
    and is otherwise the step of the machine with nothing on its line. Waking up takes nothing off the
    line, and no action does that neither steps nor boots the machine. -/
theorem interrupts_conserved (start : Controller δ) (actions : List (Action δ)) :
    let c := actions.foldl act start
    (∃ raised, (∀ other, start.Signals actions other ↔ other = raised) ∧
      start.machine.queue ++ raised = (start.settles actions).map Prod.fst ++ c.machine.queue) ∧
    (∀ (honorBreakpoints : Bool) (index : Word) (rest : List Word),
      c.machine.interruptsMasked = false → c.machine.queue = index :: rest →
        let taken := (c.machine.withQueue rest).trap (.hardware index) 0
        c.machine.settles (.step honorBreakpoints) = [(index, .delivered)] ∧
        c.machine.step honorBreakpoints = (taken.1, taken.2.tick) ∧
        (taken.1 = .trapped (.hardware index) CostKind.trapEntry.cycles ∨
          ∃ error, taken.1 = .aborted error)) ∧
    (∀ honorBreakpoints : Bool, c.machine.interruptsMasked = true →
      c.machine.settles (.step honorBreakpoints) = c.machine.queue.map (·, .dropped) ∧
      Machine.SameOutcome Eq ((c.machine.withQueue []).step honorBreakpoints)
        (c.machine.step honorBreakpoints)) ∧
    (c.isKilled = false → c.isParked = false → c.isWaiting = true → c.machine.hasPendingInterrupt = true →
      turn.run c = .ok true ({ c with isWaiting := false }.note .wokenByInterrupt) ∧
      (c.act .turn).machine.queue = c.machine.queue) ∧
    ∀ action, (∀ operation ∈ c.operations action, operation.drains = false) →
      c.machine.queue <+: (c.act action).machine.queue := by
  intro c
  refine ⟨?_, fun honorBreakpoints index rest hmasked hqueue => ?_, fun honorBreakpoints hmasked => ?_,
    fun hkilled hparked hwaiting hpending => ?_, fun action => act_queue_prefix⟩
  · obtain ⟨raised, hsignals⟩ := start.actions_signal actions
    have hconserved := hsignals.conserved
    refine ⟨raised, fun other => ⟨fun hother => ?_, fun heq => heq ▸ hsignals⟩, hconserved⟩
    exact List.append_cancel_left (hother.conserved.trans hconserved.symm)
  · refine ⟨?_, Machine.step_of_queue hmasked hqueue honorBreakpoints, ?_⟩
    · simp only [Machine.settles, hmasked, Bool.false_eq_true, if_false, hqueue]
      rfl
    · have houtcome := (c.machine.withQueue rest).trap_outcome (.hardware index) 0
      rwa [Nat.zero_add] at houtcome
  · refine ⟨if_pos hmasked, ?_⟩
    have halike : Machine.Alike Eq (c.machine.withQueue []) c.machine.dropInterrupts :=
      ⟨c.machine.dropInterrupts.bus.journal, c.machine.resumePast, rfl, rfl⟩
    rw [← Machine.step_dropInterrupts hmasked]
    exact Machine.step_alike halike fun _ => rfl
  · have hturn := turn_wakes hkilled hparked hwaiting hpending
    refine ⟨hturn, ?_⟩
    rw [act, Action.run, after_discard, after_of_ok hturn]
    rfl

/-- Two indices are raised before a step that takes the first and masks the other, one before a boot and
    one after it. -/
theorem interrupts_conserved_every_fate :
    let start : Controller Peripheral :=
      { machine := .assemble .standard ⟨0, 1, 1⟩ ((Memory.zeros 64).put 11 52) (Memory.zeros 0)
        frequency := 0 }
    let actions : List (Action Peripheral) :=
      [.raise 5, .raise 7, .operate (.step false), .operate (.step false), .raise 9, .operate .boot, .raise 11]
    let c := actions.foldl act start
    start.settles actions = [(5, .delivered), (7, .dropped), (9, .discarded)] ∧
      start.Signals actions [5, 7, 9, 11] ∧
      (c.machine.step false).1 = .trapped (.hardware 11) CostKind.trapEntry.cycles := by
  intro start actions c
  have htested : (start.settles actions == [(5, .delivered), (7, .dropped), (9, .discarded)] &&
      start.machine.queue == [] && c.machine.queue == [11] && !c.machine.interruptsMasked &&
      ((c.machine.step false).1 matches .trapped ..)) = true := by decide +kernel
  clear_value start
  simp only [Bool.and_eq_true, Bool.not_eq_true', beq_iff_eq] at htested
  obtain ⟨⟨⟨⟨hsettles, hstart⟩, hqueue⟩, hmasked⟩, htrapped⟩ := htested
  obtain ⟨⟨raised, hsignals, hconserved⟩, hdelivers, -⟩ := interrupts_conserved start actions
  obtain ⟨-, hstep, houtcome⟩ := hdelivers false 11 [] hmasked hqueue
  rw [hsettles, hstart, show (actions.foldl act start).machine.queue = [11] from hqueue] at hconserved
  refine ⟨hsettles, (hsignals _).2 hconserved.symm, ?_⟩
  rw [hstep] at htrapped ⊢
  obtain houtcome | ⟨error, haborted⟩ := houtcome
  · exact houtcome
  · rw [haborted] at htrapped
    cases htrapped

end Controller

end Risc32
