import Risc32.Proofs.Machine.Alike
import Risc32.Proofs.Machine.Reachable

namespace Risc32

/-- What an operation answers. Those that cannot fail and ask for nothing answer nothing. -/
inductive Reply where
  | done
  | loaded (result : Except ImageTooLarge Unit)
  | stepped (outcome : Outcome)
  | entered (result : Except TrapError Word)
  | byte (result : Except Fault Byte)
  | word (result : Except Fault Word)
  | stored (result : Except Fault Unit)

namespace Machine

variable {δ ε α : Type}

/-- The result of a computation without the machine that it leaves behind. -/
def answer (x : EStateM ε (Machine δ) α) (m : Machine δ) : Except ε α :=
  match x.run m with
  | .ok a _ => .ok a
  | .error error _ => .error error

/-- The machines differ at most in their journals. -/
abbrev AlikeButJournal (first second : Machine δ) : Prop :=
  Alike (· = ·) first second

theorem alikeButJournal_iff {first second : Machine δ} :
    AlikeButJournal first second ↔
      ∃ journal, second = { first with bus := { first.bus with journal := journal } } := by
  constructor
  · rintro ⟨journal, _, rfl, rfl⟩
    exact ⟨journal, rfl⟩
  · rintro ⟨journal, rfl⟩
    exact ⟨journal, first.resumePast, rfl, rfl⟩

theorem answer_alike {P : Option Word → Option Word → Prop} {x : EStateM ε (Machine δ) α}
    (hx : Agrees (Alike P) x x) {first second : Machine δ} (h : Alike P first second) :
    answer x second = answer x first ∧ Alike P (first.afterRun x) (second.afterRun x) := by
  have hresult := hx first second h
  unfold answer afterRun
  generalize x.run first = result₁ at hresult
  generalize x.run second = result₂ at hresult
  cases hresult with
  | ok hafter => exact ⟨rfl, hafter⟩
  | error hafter => exact ⟨rfl, hafter⟩

variable [Device δ]

def reply (m : Machine δ) : Operation δ → Reply
  | .step honorBreakpoints => .stepped (m.step honorBreakpoints).1
  | .enterTrap cause => .entered (m.answer (Machine.enterTrap cause))
  | .loadImage image => .loaded ((m.loadImage image).map fun _ => ())
  | .loadRom image => .loaded ((m.loadRom image).map fun _ => ())
  | .readByte address => .byte (m.answer (Machine.readByte address))
  | .writeByte address value => .stored (m.answer (Machine.writeByte address value))
  | .readWord address => .word (m.answer (Machine.readWord address))
  | .writeWord address value => .stored (m.answer (Machine.writeWord address value))
  | .readPhysicalByte address => .byte (m.answer (Machine.readPhysicalByte address))
  | .writePhysicalByte address value => .stored (m.answer (Machine.writePhysicalByte address value))
  | .readPhysicalWord address => .word (m.answer (Machine.readPhysicalWord address))
  | _ => .done

def operateAll (m : Machine δ) (operations : List (Operation δ)) : Machine δ :=
  operations.foldl operate m

def replies (m : Machine δ) : List (Operation δ) → List Reply
  | [] => []
  | operation :: rest => m.reply operation :: (m.operate operation).replies rest

/-- An operation neither shows the journal nor lets anything but the journal depend on it. -/
theorem operate_alike {first second : Machine δ} (h : AlikeButJournal first second)
    (operation : Operation δ) :
    second.reply operation = first.reply operation ∧
      AlikeButJournal (first.operate operation) (second.operate operation) := by
  cases operation with
  | step honorBreakpoints =>
    have hpast : second.resumePast = first.resumePast := by
      obtain ⟨journal, rfl⟩ := alikeButJournal_iff.1 h
      rfl
    obtain ⟨houtcome, hafter⟩ := step_alike h fun _ => hpast
    exact ⟨congrArg Reply.stepped houtcome, hafter⟩
  | enterTrap cause =>
    obtain ⟨hanswer, hafter⟩ := answer_alike (enterTrap_alike cause) h
    exact ⟨congrArg Reply.entered hanswer, hafter⟩
  | tick => exact ⟨rfl, h.tick⟩
  | loadImage image =>
    obtain ⟨journal, rfl⟩ := alikeButJournal_iff.1 h
    simp only [reply, operate, loadImage]
    cases first.ram.write 0 image with
    | error error => exact ⟨rfl, alikeButJournal_iff.2 ⟨journal, rfl⟩⟩
    | ok ram => exact ⟨rfl, alikeButJournal_iff.2 ⟨journal, rfl⟩⟩
  | loadRom image =>
    obtain ⟨journal, rfl⟩ := alikeButJournal_iff.1 h
    simp only [reply, operate, loadRom]
    cases first.rom.write 0 image with
    | error error => exact ⟨rfl, alikeButJournal_iff.2 ⟨journal, rfl⟩⟩
    | ok rom => exact ⟨rfl, alikeButJournal_iff.2 ⟨journal, rfl⟩⟩
  | readByte address =>
    obtain ⟨hanswer, hafter⟩ := answer_alike (readByte_alike address) h
    exact ⟨congrArg Reply.byte hanswer, hafter⟩
  | writeByte address value =>
    obtain ⟨hanswer, hafter⟩ := answer_alike (writeByte_alike address value) h
    exact ⟨congrArg Reply.stored hanswer, hafter⟩
  | readWord address =>
    obtain ⟨hanswer, hafter⟩ := answer_alike (readWord_alike address) h
    exact ⟨congrArg Reply.word hanswer, hafter⟩
  | writeWord address value =>
    obtain ⟨hanswer, hafter⟩ := answer_alike (writeWord_alike address value) h
    exact ⟨congrArg Reply.stored hanswer, hafter⟩
  | readPhysicalByte address =>
    obtain ⟨hanswer, hafter⟩ := answer_alike (readPhysicalByte_alike address) h
    exact ⟨congrArg Reply.byte hanswer, hafter⟩
  | writePhysicalByte address value =>
    obtain ⟨hanswer, hafter⟩ := answer_alike (writePhysicalByte_alike address value) h
    exact ⟨congrArg Reply.stored hanswer, hafter⟩
  | readPhysicalWord address =>
    obtain ⟨hanswer, hafter⟩ := answer_alike (readBytes_agrees readPhysicalByte_alike address) h
    exact ⟨congrArg Reply.word hanswer, hafter⟩
  | _ =>
    obtain ⟨journal, rfl⟩ := alikeButJournal_iff.1 h
    exact ⟨rfl, alikeButJournal_iff.2 ⟨_, rfl⟩⟩

/-- So does any number of operations. -/
theorem operateAll_alike {first second : Machine δ} (h : AlikeButJournal first second)
    (operations : List (Operation δ)) :
    second.replies operations = first.replies operations ∧
      AlikeButJournal (first.operateAll operations) (second.operateAll operations) := by
  induction operations generalizing first second with
  | nil => exact ⟨rfl, h⟩
  | cons operation rest ih =>
    obtain ⟨hreply, hafter⟩ := operate_alike h operation
    obtain ⟨hreplies, hlast⟩ := ih hafter
    exact ⟨by rw [replies, replies, hreply, hreplies], hlast⟩

/-- The read-only memory keeps its contents as long as it is not loaded. -/
theorem operateAll_retains (m : Machine δ) {operations : List (Operation δ)}
    (h : ∀ operation ∈ operations, operation.loadsRom = false) : Retains m (m.operateAll operations) := by
  induction operations generalizing m with
  | nil => exact Std.Refl.refl m
  | cons operation rest ih =>
    have hfirst := m.operate_retains (h operation List.mem_cons_self)
    have hrest := ih (m.operate operation) fun other hother => h other (List.mem_cons_of_mem _ hother)
    exact IsTrans.trans _ _ _ hfirst hrest

end Machine

end Risc32
