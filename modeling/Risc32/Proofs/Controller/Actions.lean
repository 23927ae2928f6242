import Risc32.Controller.Loop
import Risc32.Controller.Operations
import Risc32.Proofs.Machine.Reachable

namespace Risc32

/-- A machine with some more notices in its journal. -/
def Machine.noteAll {δ : Type} (m : Machine δ) (notices : List Notice) : Machine δ :=
  { m with bus := { m.bus with journal := notices ++ m.bus.journal } }

namespace Controller

variable {δ : Type}

/-- Everything that can happen to a controller: the operations of the host, the turns of the run loop, and what a
    host does with the machine itself. -/
inductive Action (δ : Type) where
  | attach (device : δ)
  | loadRom (image : List Byte)
  | loadProgram (image : List Byte)
  | start (singleStep : Bool)
  | halt
  | resume
  | reset (toSingleStep : Bool)
  | kill
  | activateSingleStep
  | deactivateSingleStep
  | stepOnce
  | raise (index : Word)
  | setFrequency (frequency : Int)
  | edit (change : BreakpointEdit)
  | turn
  | operate (operation : Operation δ)

/-- The controller that an operation leaves behind, whether or not it was refused. -/
def after {α : Type} (c : Controller δ) (x : Control δ α) : Controller δ :=
  match x.run c with
  | .ok _ after => after
  | .error _ after => after

theorem after_of_ok {α : Type} {c after : Controller δ} {x : Control δ α} {a : α}
    (h : x.run c = .ok a after) : c.after x = after := by
  rw [Controller.after, h]

theorem after_of_error {α : Type} {c after : Controller δ} {x : Control δ α} {error : ControlError}
    (h : x.run c = .error error after) : c.after x = after := by
  rw [Controller.after, h]

theorem run_discard {α : Type} (c : Controller δ) (x : Control δ α) :
    (do let _ ← x; return () : Control δ Unit).run c =
      match x.run c with
      | .ok _ after => .ok () after
      | .error error after => .error error after := by
  rw [EStateM.run_bind]
  cases x.run c <;> rfl

/-- What an operation answers does not matter to what it leaves behind. -/
theorem after_discard {α : Type} (c : Controller δ) (x : Control δ α) :
    c.after (do let _ ← x; return () : Control δ Unit) = c.after x := by
  rw [Controller.after, Controller.after, run_discard]
  cases x.run c <;> rfl

variable [Device δ]

/-- An action as a computation. What it answers is of no interest here. -/
def Action.run : Action δ → Control δ Unit
  | attach device => Controller.attach device
  | loadRom image => Controller.loadRom image
  | loadProgram image => Controller.loadProgram image
  | start singleStep => Controller.start singleStep
  | halt => Controller.halt
  | resume => Controller.resume
  | reset toSingleStep => Controller.reset toSingleStep
  | kill => Controller.kill
  | activateSingleStep => Controller.activateSingleStep
  | deactivateSingleStep => Controller.deactivateSingleStep
  | stepOnce => do
    let _ ← Controller.stepOnce
    return
  | raise index => modify fun c => c.raise index
  | setFrequency frequency => modify fun c => c.setFrequency frequency
  | edit change => modify fun c => c.edit change
  | turn => do
    let _ ← Controller.turn
    return
  | operate operation => modify fun c => { c with machine := c.machine.operate operation }

/-- The controller after an action, whether or not that was refused. -/
def act (c : Controller δ) (action : Action δ) : Controller δ :=
  c.after action.run

/-- What an action does to the machine: nothing when it is refused, and nothing that is not an operation
    of the machine itself. -/
def operations (c : Controller δ) : Action δ → List (Operation δ)
  | .attach device => if c.isStarted then [] else [.attach device]
  | .loadRom image => if c.isStarted then [] else [.loadRom image]
  | .loadProgram image =>
    if c.isStarted || c.isLoaded || (c.machine.loadImage image).toOption.isNone then []
    else [.loadImage image, .boot]
  | .reset _ => if c.isKilled then [] else [.boot]
  | .stepOnce => if c.isAvailable && c.inSingleStep then [.step false] else []
  | .raise index => [.raise index]
  | .edit change => [.setBreakpoints (change.apply c.machine.breakpoints)]
  | .turn =>
    if c.isKilled || c.isParked then []
    else if c.isWaiting then if c.machine.hasPendingInterrupt then [] else [.tick]
    else [.step true]
  | .operate operation => [operation]
  | .start _ | .halt | .resume | .kill | .activateSingleStep | .deactivateSingleStep | .setFrequency _ => []

/-- The machine of the later controller is the given one with some more notices. -/
def OnlyNotes (m : Machine δ) (c : Controller δ) : Prop :=
  ∃ notices, c.machine = m.noteAll notices

omit [Device δ] in
theorem OnlyNotes.refl (c : Controller δ) : OnlyNotes c.machine c :=
  ⟨[], rfl⟩

omit [Device δ] in
theorem OnlyNotes.note (c : Controller δ) (notice : Notice) : OnlyNotes c.machine (c.note notice) :=
  ⟨[notice], rfl⟩

omit [Device δ] in
theorem OnlyNotes.of_ok {m : Machine δ} {c after : Controller δ} {α : Type} {x : Control δ α} {a : α}
    (hafter : OnlyNotes m after) (hrun : x.run c = .ok a after) : OnlyNotes m (c.after x) := by
  rw [after_of_ok hrun]
  exact hafter

omit [Device δ] in
/-- A refused operation has changed nothing. -/
theorem OnlyNotes.of_refused {c : Controller δ} {α : Type} {x : Control δ α} {error : ControlError}
    (hrun : x.run c = .error error c) : OnlyNotes c.machine (c.after x) := by
  rw [after_of_error hrun]
  exact .refl c

omit [Device δ] in
/-- What the loop makes of an outcome changes switches and leaves notices. -/
theorem apply_onlyNotes (outcome : Outcome) (c : Controller δ) :
    OnlyNotes c.machine (c.after (apply outcome)) := by
  cases outcome with
  | retired opcode cycles => exact .refl c
  | trapped cause cycles => exact .refl c
  | halted cycles => exact .note { c with isWaiting := true } _
  | killed cycles => exact .note { c with isKilled := true } _
  | breakpoint pc => exact .note { c with inSingleStep := true } _
  | aborted error => exact .refl { c with isKilled := true }

theorem turn_machine (c : Controller δ) :
    OnlyNotes ((c.operations .turn).foldl Machine.operate c.machine) (c.after turn) := by
  have hrun := c.run_turn
  simp only [operations]
  by_cases hkilled : c.isKilled
  · rw [if_pos hkilled] at hrun
    rw [if_pos (by rw [hkilled]; rfl)]
    exact .of_ok (.note c _) hrun
  · rw [if_neg hkilled] at hrun
    by_cases hparked : c.isParked
    · rw [if_pos hparked] at hrun
      rw [if_pos (by rw [hparked, Bool.or_true])]
      exact .of_ok (.refl c) hrun
    · rw [if_neg hparked] at hrun
      rw [if_neg (by simp [hkilled, hparked])]
      by_cases hwaiting : c.isWaiting
      · rw [if_pos hwaiting] at hrun
        rw [if_pos hwaiting]
        refine .of_ok ?_ hrun
        rw [awaitInterrupt]
        by_cases hpending : c.machine.hasPendingInterrupt
        · rw [if_pos hpending, if_pos hpending]
          exact .note { c with isWaiting := false } _
        · rw [if_neg hpending, if_neg hpending]
          exact .refl { c with machine := c.machine.tick }
      · rw [if_neg hwaiting] at hrun
        rw [if_neg hwaiting]
        have happly := apply_onlyNotes (c.machine.step true).1 { c with machine := (c.machine.step true).2 }
        unfold Controller.after at happly ⊢
        rw [hrun]
        generalize (apply (c.machine.step true).1).run { c with machine := (c.machine.step true).2 } = result at happly
        cases result <;> exact happly

theorem stepOnce_machine (c : Controller δ) :
    OnlyNotes ((c.operations .stepOnce).foldl Machine.operate c.machine) (c.after stepOnce) := by
  have hrun := c.run_stepOnce
  simp only [operations]
  by_cases havailable : c.isAvailable
  · rw [if_neg (by simp [havailable])] at hrun
    by_cases hsingle : c.inSingleStep
    · rw [if_neg (by simp [hsingle])] at hrun
      rw [if_pos (by simp [havailable, hsingle])]
      show OnlyNotes (c.machine.step false).2 _
      generalize c.machine.step false = taken at hrun
      obtain ⟨outcome, machine⟩ := taken
      cases outcome with
      | killed cycles => exact .of_ok (.refl { c with machine := machine, isKilled := true }) hrun
      | aborted error =>
        rw [after_of_error hrun]
        exact .refl { c with machine := machine, isKilled := true }
      | _ => exact .of_ok (.refl { c with machine := machine }) hrun
    · rw [if_pos (by simp [hsingle])] at hrun
      rw [if_neg (by simp [hsingle])]
      exact .of_refused hrun
  · rw [if_pos (by simp [havailable])] at hrun
    rw [if_neg (by simp [havailable])]
    exact .of_refused hrun

theorem loadRom_machine (c : Controller δ) (image : List Byte) :
    OnlyNotes ((c.operations (.loadRom image)).foldl Machine.operate c.machine)
      (c.after (loadRom image)) := by
  have hrun := c.run_loadRom image
  simp only [operations]
  by_cases hstarted : c.isStarted
  · rw [if_pos hstarted] at hrun ⊢
    exact .of_refused hrun
  · rw [if_neg hstarted] at hrun ⊢
    show OnlyNotes ((c.machine.loadRom image).toOption.getD c.machine) _
    cases hload : c.machine.loadRom image with
    | ok machine =>
      rw [hload] at hrun
      exact .of_ok (.refl { c with machine := machine }) hrun
    | error error =>
      rw [hload] at hrun
      exact .of_refused hrun

theorem loadProgram_machine (c : Controller δ) (image : List Byte) :
    OnlyNotes ((c.operations (.loadProgram image)).foldl Machine.operate c.machine)
      (c.after (loadProgram image)) := by
  have hrun := c.run_loadProgram image
  simp only [operations]
  by_cases hstarted : c.isStarted
  · rw [if_pos hstarted] at hrun
    rw [if_pos (by simp [hstarted])]
    exact .of_refused hrun
  · rw [if_neg hstarted] at hrun
    by_cases hloaded : c.isLoaded
    · rw [if_pos hloaded] at hrun
      rw [if_pos (by simp [hloaded])]
      exact .of_refused hrun
    · rw [if_neg hloaded] at hrun
      cases hload : c.machine.loadImage image with
      | ok machine =>
        rw [hload] at hrun
        rw [if_neg (by simp [hstarted, hloaded, Except.toOption])]
        show OnlyNotes ((c.machine.loadImage image).toOption.getD c.machine).boot _
        rw [hload]
        exact .of_ok (.note { c with machine := machine.boot, isLoaded := true } _) hrun
      | error error =>
        rw [hload] at hrun
        rw [if_pos (by simp [Except.toOption])]
        exact .of_refused hrun

/-- An action does to the machine what its operations do, and may leave notices. -/
theorem act_machine (c : Controller δ) (action : Action δ) :
    OnlyNotes ((c.operations action).foldl Machine.operate c.machine) (c.act action) := by
  cases action with
  | attach device =>
    have hrun := c.run_attach device
    simp only [operations]
    split at hrun
    · rw [if_pos ‹_›]
      exact .of_refused hrun
    · rw [if_neg ‹_›]
      exact .of_ok (.refl { c with machine := c.machine.attach device }) hrun
  | loadRom image => exact c.loadRom_machine image
  | loadProgram image => exact c.loadProgram_machine image
  | start singleStep =>
    have hrun := c.run_start singleStep
    split at hrun
    · exact .of_refused hrun
    · split at hrun
      · exact .of_refused hrun
      · split at hrun
        · exact .of_refused hrun
        · exact .of_ok (.note { c with
            isStarted := true
            inSingleStep := c.inSingleStep || singleStep } _) hrun
  | halt =>
    have hrun := c.run_halt
    split at hrun
    · refine .of_ok ?_ hrun
      split
      · exact .refl c
      · exact .note { c with isHalted := true } _
    · exact .of_refused hrun
  | resume =>
    have hrun := c.run_resume
    split at hrun
    · refine .of_ok ?_ hrun
      split
      · exact .note { c with isHalted := false, isWaiting := false } _
      · exact .refl c
    · exact .of_refused hrun
  | reset toSingleStep =>
    have hrun := c.run_reset toSingleStep
    simp only [operations]
    split at hrun
    · rw [if_pos ‹_›]
      exact .of_refused hrun
    · rw [if_neg ‹_›]
      exact .of_ok (.note { c with
        machine := c.machine.boot
        isHalted := false
        isWaiting := false
        inSingleStep := toSingleStep } _) hrun
  | kill =>
    have hrun := c.run_kill
    split at hrun
    · exact .of_ok (.note { c with isKilled := true } _) hrun
    · exact .of_refused hrun
  | activateSingleStep =>
    have hrun := c.run_activateSingleStep
    split at hrun
    · exact .of_refused hrun
    · split at hrun
      · exact .of_refused hrun
      · exact .of_ok (.note { c with inSingleStep := true } _) hrun
  | deactivateSingleStep =>
    have hrun := c.run_deactivateSingleStep
    split at hrun
    · exact .of_refused hrun
    · split at hrun
      · exact .of_refused hrun
      · exact .of_ok (.note { c with inSingleStep := false } _) hrun
  | stepOnce =>
    rw [act, Action.run, after_discard]
    exact c.stepOnce_machine
  | turn =>
    rw [act, Action.run, after_discard]
    exact c.turn_machine
  | raise index => exact .refl (c.raise index)
  | setFrequency frequency => exact .refl (c.setFrequency frequency)
  | edit change => exact .refl (c.edit change)
  | operate operation => exact .refl { c with machine := c.machine.operate operation }

end Controller

end Risc32
