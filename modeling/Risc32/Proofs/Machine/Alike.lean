import Risc32.Proofs.Machine.Attempt
import Risc32.Proofs.Machine.Mirror

namespace Risc32

namespace Bus

variable {δ α : Type}

/-- A question whose answer does not depend on the journal, nor what becomes of the bus otherwise. -/
def IgnoresJournal (question : Bus δ → α × Bus δ) : Prop :=
  ∀ (bus : Bus δ) (journal : Journal), ∃ written,
    question { bus with journal := journal } =
      ((question bus).1, { (question bus).2 with journal := written })

variable [Device δ]

theorem ask_ignoresJournal (address : Word) (unmapped : α) (notice : Notice)
    (question : Nat → Word → δ → Response δ α) :
    IgnoresJournal fun bus : Bus δ => bus.ask address unmapped notice (question bus.now) := by
  intro bus journal
  simp only [ask]
  cases askFirst address (question bus.now) bus.devices with
  | some response => exact ⟨response.notices.reverse ++ journal, rfl⟩
  | none => exact ⟨notice :: journal, rfl⟩

end Bus

namespace Machine

variable {δ α : Type} {P : Option Word → Option Word → Prop} {first second : Machine δ}

/-- The machines differ at most in their journals and in the breakpoint passed last; these breakpoints
    are related. -/
def Alike (P : Option Word → Option Word → Prop) (first second : Machine δ) : Prop :=
  ∃ journal resumePast, P first.resumePast resumePast ∧
    second = { first with bus := { first.bus with journal := journal }, resumePast := resumePast }

/-- Two answers of a step are the same, from machines that are alike. -/
def SameOutcome (P : Option Word → Option Word → Prop) (first second : Outcome × Machine δ) : Prop :=
  second.1 = first.1 ∧ Alike P first.2 second.2

theorem Alike.of_related (h : Alike P first second) {Q : Option Word → Option Word → Prop}
    {firstPast secondPast : Option Word} (hpast : Q firstPast secondPast) :
    Alike Q { first with resumePast := firstPast } { second with resumePast := secondPast } := by
  obtain ⟨journal, resumePast, -, rfl⟩ := h
  exact ⟨journal, secondPast, hpast, rfl⟩

theorem Alike.note (h : Alike P first second) (notice : Notice) :
    Alike P (first.note notice) (second.note notice) := by
  obtain ⟨journal, resumePast, hpast, rfl⟩ := h
  exact ⟨notice :: journal, resumePast, hpast, rfl⟩

/-- A notice that only one of the machines has left makes no difference. -/
theorem Alike.note_right (h : Alike P first second) (notice : Notice) :
    Alike P first (second.note notice) := by
  obtain ⟨journal, resumePast, hpast, rfl⟩ := h
  exact ⟨notice :: journal, resumePast, hpast, rfl⟩

theorem Alike.pollInterrupt (h : Alike P first second) :
    second.pollInterrupt.1 = first.pollInterrupt.1 ∧
      Alike P first.pollInterrupt.2 second.pollInterrupt.2 := by
  have hmask : second.interruptsMasked = first.interruptsMasked := by
    obtain ⟨journal, resumePast, -, rfl⟩ := h
    rfl
  cases hmasked : first.interruptsMasked with
  | true =>
    rw [pollInterrupt_of_masked hmasked, pollInterrupt_of_masked (hmask.trans hmasked)]
    obtain ⟨journal, resumePast, hpast, rfl⟩ := h
    exact ⟨rfl, _, resumePast, hpast, rfl⟩
  | false =>
    rw [pollInterrupt_of_unmasked hmasked, pollInterrupt_of_unmasked (hmask.trans hmasked)]
    obtain ⟨journal, resumePast, hpast, rfl⟩ := h
    exact ⟨rfl, journal, resumePast, hpast, rfl⟩

theorem Alike.saveContext (h : Alike P first second) :
    Alike P first.saveContext second.saveContext := by
  obtain ⟨journal, resumePast, hpast, rfl⟩ := h
  exact ⟨journal, resumePast, hpast, rfl⟩

theorem askBus_alike {question : Bus δ → α × Bus δ} (hquestion : Bus.IgnoresJournal question) :
    Agrees (Alike P) (askBus question) (askBus question) := by
  rintro first second ⟨journal, resumePast, hpast, rfl⟩
  obtain ⟨written, hwritten⟩ := hquestion first.bus journal
  have hsecond : (askBus question).run
      { first with bus := { first.bus with journal := journal }, resumePast := resumePast } =
        .ok (question first.bus).1
          { first with
            bus := { (question first.bus).2 with journal := written }
            resumePast := resumePast } := by
    show EStateM.Result.ok _ _ = _
    rw [hwritten]
  rw [hsecond]
  exact .ok ⟨written, resumePast, hpast, rfl⟩

variable [Device δ]

theorem Alike.tick (h : Alike P first second) : Alike P first.tick second.tick := by
  obtain ⟨journal, resumePast, hpast, rfl⟩ := h
  exact ⟨_, resumePast, hpast, rfl⟩

theorem readPhysicalByte_alike (address : Word) :
    Agrees (Alike P) (readPhysicalByte address : Exec δ Byte) (readPhysicalByte address) := by
  have hask : Agrees (Alike P) (askBus (·.readByte address) : Exec δ Byte) (askBus (·.readByte address)) :=
    askBus_alike (Bus.ask_ignoresJournal _ _ _ Device.readByte)
  unfold readPhysicalByte
  refine .get_bind fun first second h => ?_
  obtain ⟨journal, resumePast, hpast, rfl⟩ := h
  dsimp only
  cases first.layout.region address with
  | ram =>
    cases first.ram.get? address.toNat with
    | some byte => exact Agrees.pure byte _ _ ⟨journal, resumePast, hpast, rfl⟩
    | none => exact Agrees.throw _ _ _ ⟨journal, resumePast, hpast, rfl⟩
  | rom =>
    cases first.rom.get? (address.toNat - first.layout.romStart) with
    | some byte => exact Agrees.pure byte _ _ ⟨journal, resumePast, hpast, rfl⟩
    | none => exact Agrees.throw _ _ _ ⟨journal, resumePast, hpast, rfl⟩
  | mmio => exact hask _ _ ⟨journal, resumePast, hpast, rfl⟩

theorem writePhysicalByte_alike (address : Word) (value : Byte) :
    Agrees (Alike P) (writePhysicalByte address value : Exec δ Unit) (writePhysicalByte address value) := by
  have hask : Agrees (Alike P) (askBus (·.writeByte address value) : Exec δ Unit)
      (askBus (·.writeByte address value)) :=
    askBus_alike (Bus.ask_ignoresJournal _ _ _ fun now offset => Device.writeByte now offset value)
  have hput : Agrees (Alike P)
      (modify fun m => { m with ram := m.ram.put address.toNat value } : Exec δ Unit)
      (modify fun m => { m with ram := m.ram.put address.toNat value }) := by
    refine .modify ?_
    rintro first _ ⟨journal, resumePast, hpast, rfl⟩
    exact ⟨journal, resumePast, hpast, rfl⟩
  have hdrop : Agrees (Alike P) (modify fun m => m.note (.romWriteDropped address value) : Exec δ Unit)
      (modify fun m => m.note (.romWriteDropped address value)) :=
    .modify fun _ _ h => h.note _
  unfold writePhysicalByte
  refine .get_bind fun first second h => ?_
  obtain ⟨journal, resumePast, hpast, rfl⟩ := h
  dsimp only
  cases first.layout.region address with
  | ram => exact Agrees.ite hput (.throw _) _ _ ⟨journal, resumePast, hpast, rfl⟩
  | rom => exact hdrop _ _ ⟨journal, resumePast, hpast, rfl⟩
  | mmio => exact hask _ _ ⟨journal, resumePast, hpast, rfl⟩

theorem readByte_alike (address : Word) :
    Agrees (Alike P) (readByte address : Exec δ Byte) (readByte address) := by
  unfold readByte
  refine .get_bind fun first second h => ?_
  have hresolve : second.resolve address = first.resolve address := by
    obtain ⟨journal, resumePast, -, rfl⟩ := h
    rfl
  rw [hresolve]
  exact Agrees.bind (lift_agrees _) (fun _ => readPhysicalByte_alike _) first second h

theorem writeByte_alike (address : Word) (value : Byte) :
    Agrees (Alike P) (writeByte address value : Exec δ Unit) (writeByte address value) := by
  unfold writeByte
  refine .get_bind fun first second h => ?_
  have hresolve : second.resolve address = first.resolve address := by
    obtain ⟨journal, resumePast, -, rfl⟩ := h
    rfl
  rw [hresolve]
  exact Agrees.bind (lift_agrees _) (fun _ => writePhysicalByte_alike _ value) first second h

/-- Both machines go to the same device for a word, or byte by byte. -/
theorem Alike.deviceWord?_eq (h : Alike P first second) (address : Word) :
    second.deviceWord? address = first.deviceWord? address := by
  obtain ⟨journal, resumePast, -, rfl⟩ := h
  rfl

theorem readWord_alike (address : Word) :
    Agrees (Alike P) (readWord address : Exec δ Word) (readWord address) := by
  unfold readWord
  refine .get_bind fun first second h => ?_
  rw [h.deviceWord?_eq]
  cases first.deviceWord? address with
  | some target => exact askBus_alike (Bus.ask_ignoresJournal _ _ _ Device.readWord) first second h
  | none => exact readBytes_agrees readByte_alike address first second h

theorem writeWord_alike (address value : Word) :
    Agrees (Alike P) (writeWord address value : Exec δ Unit) (writeWord address value) := by
  unfold writeWord
  refine .get_bind fun first second h => ?_
  rw [h.deviceWord?_eq]
  cases first.deviceWord? address with
  | some target =>
    have hask := Bus.ask_ignoresJournal target () (.unmappedWordWrite target value)
      fun now offset => Device.writeWord (δ := δ) now offset value
    exact askBus_alike hask first second h
  | none => exact writeBytes_agrees writeByte_alike address value first second h

/-- What instructions look at is none of what the machines differ in. -/
theorem Alike.mirrorsParts : MirrorsParts (Alike P : Machine δ → Machine δ → Prop) where
  flags := by
    rintro first _ ⟨journal, resumePast, -, rfl⟩
    rfl
  interruptsMasked := by
    rintro first _ ⟨journal, resumePast, -, rfl⟩
    rfl
  software := by
    rintro first _ ⟨journal, resumePast, -, rfl⟩
    rfl
  registers := by
    rintro first _ r ⟨journal, resumePast, -, rfl⟩ -
    rfl
  setRegister := by
    rintro first _ r value ⟨journal, resumePast, hpast, rfl⟩ -
    exact ⟨journal, resumePast, hpast, rfl⟩
  update := by
    rintro first _ update ⟨journal, resumePast, hpast, rfl⟩
    exact ⟨journal, resumePast, hpast, rfl⟩
  load width address := by
    cases width with
    | word => exact readWord_alike address
    | byte => exact .bind (readByte_alike address) fun _ => .pure _
  store width address value := by
    cases width with
    | word => exact writeWord_alike address value
    | byte => exact writeByte_alike address _
  savedPc := by
    rintro first _ ⟨journal, resumePast, -, rfl⟩
    rfl
  savedFlags := by
    rintro first _ ⟨journal, resumePast, -, rfl⟩
    rfl
  leave := by
    rintro first _ ⟨journal, resumePast, hpast, rfl⟩
    exact ⟨journal, resumePast, hpast, rfl⟩
  mask := by
    rintro first _ masked ⟨journal, resumePast, hpast, rfl⟩
    exact ⟨journal, resumePast, hpast, rfl⟩
  restore := by
    rintro first _ packed ⟨journal, resumePast, hpast, rfl⟩
    exact ⟨journal, resumePast, hpast, rfl⟩

theorem readVector_alike (slot : Nat) :
    Agrees (Alike P) (readVector slot : EStateM TrapError (Machine δ) Word) (readVector slot) := by
  intro first second h
  have hvectors : second.vectors = first.vectors := by
    obtain ⟨journal, resumePast, -, rfl⟩ := h
    rfl
  have hread : SameResult (Alike P) ((readPhysicalWord (first.vectors.slotAddress slot)).run first)
      ((readPhysicalWord (first.vectors.slotAddress slot)).run second) :=
    readBytes_agrees readPhysicalByte_alike _ first second h
  rw [run_readVector, run_readVector, hvectors]
  generalize (readPhysicalWord (first.vectors.slotAddress slot)).run first = result₁ at hread
  generalize (readPhysicalWord (first.vectors.slotAddress slot)).run second = result₂ at hread
  cases hread with
  | ok hafter => exact .ok hafter
  | error hafter => exact .error (hafter.note _)

theorem findHandler_alike (slot fallback : Nat) :
    Agrees (Alike P) (findHandler slot fallback : EStateM TrapError (Machine δ) (Nat × Word))
      (findHandler slot fallback) := by
  unfold findHandler
  refine .bind (readVector_alike slot) fun handler => .ite ?_ (.pure _)
  exact .bind (readVector_alike fallback) fun _ => .pure _

/-- Trap entry finds the same handler, or fails in the same way. -/
theorem enterTrap_alike (cause : TrapCause) :
    Agrees (Alike P) (enterTrap cause : EStateM TrapError (Machine δ) Word) (enterTrap cause) := by
  intro first second h
  have hslot : second.vectors.slotFor second.flags.privileged cause =
      first.vectors.slotFor first.flags.privileged cause := by
    obtain ⟨journal, resumePast, -, rfl⟩ := h
    rfl
  have hfind := findHandler_alike (first.vectors.slotFor first.flags.privileged cause)
    (VectorTable.fallbackFor cause) _ _ h.saveContext
  rw [run_enterTrap, run_enterTrap, hslot]
  generalize (findHandler _ _).run first.saveContext = result₁ at hfind
  generalize (findHandler _ _).run second.saveContext = result₂ at hfind
  cases hfind with
  | error hafter => exact .error hafter
  | @ok found s t hafter =>
    by_cases hzero : found.2 = 0
    · simp only [hzero, if_true]
      exact .error (hafter.note _)
    · simp only [hzero, if_false, Alike.mirrorsParts.savedPc _ _ hafter]
      exact .ok (Alike.mirrorsParts.setPc (hafter.note _) _)

theorem trap_alike (h : Alike P first second) (cause : TrapCause) (cycles : Nat) :
    SameOutcome P (first.trap cause cycles) (second.trap cause cycles) := by
  have henter := enterTrap_alike cause first second h
  unfold trap
  generalize (enterTrap cause).run first = result₁ at henter
  generalize (enterTrap cause).run second = result₂ at henter
  cases henter with
  | ok hafter => exact ⟨rfl, hafter⟩
  | error hafter => exact ⟨rfl, hafter⟩

theorem perform_alike (h : Alike P first second) (i : Instruction) :
    SameOutcome P (first.perform i) (second.perform i) := by
  have hexecute := Alike.mirrorsParts.execute i first second h
  unfold perform
  generalize (execute i).run first = result₁ at hexecute
  generalize (execute i).run second = result₂ at hexecute
  cases hexecute with
  | error hafter => exact trap_alike hafter _ _
  | @ok flow _ _ hafter =>
    cases flow with
    | softwareInterrupt index => exact trap_alike hafter _ _
    | _ => exact ⟨rfl, hafter⟩

theorem fetchAndPerform_alike (h : Alike P first second) :
    SameOutcome P first.fetchAndPerform second.fetchAndPerform := by
  have hpc := Alike.mirrorsParts.pc h
  have hread := readWord_alike first.pc first second h
  unfold fetchAndPerform
  dsimp only
  rw [hpc]
  generalize (readWord first.pc).run first = result₁ at hread
  generalize (readWord first.pc).run second = result₂ at hread
  cases hread with
  | error hafter => exact trap_alike hafter _ _
  | @ok word s t hafter =>
    have hfetched : Alike P ((s.setPc (first.pc + 4)).note (.fetched first.pc word))
        ((t.setPc (first.pc + 4)).note (.fetched first.pc word)) :=
      (Alike.mirrorsParts.setPc hafter _).note _
    dsimp only
    cases Instruction.ofWord? word with
    | none => exact trap_alike hfetched _ _
    | some i => exact perform_alike hfetched i

/-- Machines that are alike advance alike. When breakpoints are honored, both must have
    passed the same one last. -/
theorem advance_alike [Std.Refl P] (h : Alike P first second) {honorBreakpoints : Bool}
    (hpast : honorBreakpoints = true → second.resumePast = first.resumePast) :
    SameOutcome P (first.advance honorBreakpoints) (second.advance honorBreakpoints) := by
  obtain ⟨hindex, hpolled⟩ := h.pollInterrupt
  have hfirst : first.pollInterrupt.2.resumePast = first.resumePast := by rw [pollInterrupt_snd]
  have hsecond : second.pollInterrupt.2.resumePast = second.resumePast := by rw [pollInterrupt_snd]
  rw [← hfirst, ← hsecond] at hpast
  unfold advance
  generalize first.pollInterrupt = taken₁ at hindex hpolled hpast
  generalize second.pollInterrupt = taken₂ at hindex hpolled hpast
  obtain ⟨index, s⟩ := taken₁
  obtain ⟨other, t⟩ := taken₂
  dsimp only at hindex hpolled hpast
  rw [hindex]
  cases index with
  | some index => exact trap_alike hpolled _ _
  | none =>
    have hpc : t.pc = s.pc := Alike.mirrorsParts.pc hpolled
    have hhit : t.breakpointHit s.pc = s.breakpointHit s.pc := by
      obtain ⟨journal, resumePast, -, rfl⟩ := hpolled
      rfl
    have hstop : (honorBreakpoints && t.resumePast != some s.pc && s.breakpointHit s.pc) =
        (honorBreakpoints && s.resumePast != some s.pc && s.breakpointHit s.pc) := by
      cases honorBreakpoints with
      | false => rfl
      | true => rw [hpast rfl]
    dsimp only
    rw [hpc, hhit, hstop]
    split
    · exact ⟨rfl, (hpolled.note _).of_related (Std.Refl.refl _)⟩
    · exact fetchAndPerform_alike (hpolled.of_related (Std.Refl.refl _))

/-- The tick that ends a step does not look at the journal, either. -/
theorem step_alike_of_advance {honorFirst honorSecond : Bool}
    (h : SameOutcome P (first.advance honorFirst) (second.advance honorSecond)) :
    SameOutcome P (first.step honorFirst) (second.step honorSecond) := by
  obtain ⟨houtcome, hafter⟩ := h
  refine ⟨houtcome, ?_⟩
  unfold step
  dsimp only
  rw [houtcome]
  split
  · exact hafter
  · exact hafter.tick

theorem step_alike [Std.Refl P] (h : Alike P first second) {honorBreakpoints : Bool}
    (hpast : honorBreakpoints = true → second.resumePast = first.resumePast) :
    SameOutcome P (first.step honorBreakpoints) (second.step honorBreakpoints) :=
  step_alike_of_advance (advance_alike h hpast)

end Machine

end Risc32
