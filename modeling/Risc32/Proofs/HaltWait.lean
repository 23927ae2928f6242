import Risc32.Peripheral
import Risc32.Proofs.Controller.Runs

namespace Risc32

variable {δ : Type}

/-- The last step that the loop has made among these executed a halt instruction. -/
def LoopHalted [Device δ] (steps : List (MachineStep δ)) : Prop :=
  ∃ earlier halt later, steps = earlier ++ halt :: later ∧
    halt.stepper = .loop ∧ halt.Executes .halt ∧ ∀ step ∈ later, step.stepper = .host

namespace LoopHalted

variable [Device δ] {steps : List (MachineStep δ)}

theorem of_halt (earlier : List (MachineStep δ)) {halt : MachineStep δ} (hloop : halt.stepper = .loop)
    (hexecutes : halt.Executes .halt) : LoopHalted (earlier ++ [halt]) :=
  ⟨earlier, halt, [], rfl, hloop, hexecutes, fun _ hmem => absurd hmem List.not_mem_nil⟩

theorem append (h : LoopHalted steps) {more : List (MachineStep δ)}
    (hhost : ∀ step ∈ more, step.stepper = .host) : LoopHalted (steps ++ more) := by
  obtain ⟨earlier, halt, later, rfl, hloop, hexecutes, hlater⟩ := h
  refine ⟨earlier, halt, later ++ more, by simp, hloop, hexecutes, fun step hmem => ?_⟩
  obtain hbefore | hafter := List.mem_append.1 hmem
  · exact hlater step hbefore
  · exact hhost step hafter

/-- Unless the host has made a step since, the last step of all executed the halt instruction. -/
theorem getLast? (h : LoopHalted steps) :
    ∃ last, steps.getLast? = some last ∧ (last.stepper = .loop → last.Executes .halt) := by
  obtain ⟨earlier, halt, later, rfl, -, hexecutes, hlater⟩ := h
  cases hlast : later.getLast? with
  | none =>
    rw [List.getLast?_eq_none_iff] at hlast
    subst hlast
    exact ⟨halt, List.getLast?_concat, fun _ => hexecutes⟩
  | some last =>
    refine ⟨last, ?_, fun hloop => ?_⟩
    · simp [List.getLast?_append, List.getLast?_cons, hlast]
    · have hhost := hlater last (List.mem_of_getLast? hlast)
      rw [hloop] at hhost
      cases hhost

end LoopHalted

namespace Controller

variable [Device δ]

/-- A run waits after an action when it waited before and the loop has made no step, or when the loop has
    just executed a halt instruction. -/
theorem act_isWaiting {c : Controller δ} {action : Action δ} (h : (c.act action).isWaiting = true) :
    c.isWaiting = true ∧ (∀ step, c.stepMade action = some step → step.stepper = .host) ∨
      ∃ step, c.stepMade action = some step ∧ step.stepper = .loop ∧ step.Executes .halt := by
  have hwaiting : (c.act action).isWaiting = (c.switchesAfter action).isWaiting :=
    congrArg (·.isWaiting) (c.act_switches action)
  rw [hwaiting] at h
  cases action with
  | turn =>
    cases hsteps : c.loopSteps with
    | false =>
      simp only [switchesAfter, hsteps, Bool.false_eq_true, if_false, Bool.and_eq_true] at h
      exact .inl ⟨h.1, by simp [stepMade, hsteps]⟩
    | true =>
      have hquiet : c.isWaiting = false := by
        simp only [loopSteps, Bool.and_eq_true, Bool.not_eq_true'] at hsteps
        exact hsteps.2
      simp only [switchesAfter, hsteps, if_true, Switches.afterOutcome, switches, hquiet, Bool.false_or] at h
      exact .inr ⟨⟨.loop, c.machine⟩, by simp [stepMade, hsteps], rfl, MachineStep.isHalt_outcome_iff.1 h⟩
  | stepOnce =>
    simp only [switchesAfter, switches] at h
    refine .inl ⟨h, fun step hmade => ?_⟩
    cases hsteps : c.hostSteps with
    | false => simp [stepMade, hsteps] at hmade
    | true =>
      simp only [stepMade, hsteps, if_true, Option.some_inj] at hmade
      rw [← hmade]
  | start singleStep =>
    simp only [switchesAfter] at h
    refine .inl ⟨?_, by simp [stepMade]⟩
    split at h <;> exact h
  | resume =>
    simp only [switchesAfter, Bool.and_eq_true] at h
    exact .inl ⟨h.1, by simp [stepMade]⟩
  | reset toSingleStep =>
    simp only [switchesAfter] at h
    refine .inl ⟨?_, by simp [stepMade]⟩
    split at h
    · exact h
    · cases h
  | _ => exact .inl ⟨by simpa only [switchesAfter, switches] using h, by simp [stepMade]⟩

/-- What ends the wait: the host, by a resume or a reset, or the loop, when it finds an interrupt. -/
theorem wait_ends_iff {c : Controller δ} (hwaiting : c.isWaiting = true) (action : Action δ) :
    (c.act action).isWaiting = false ↔
      action = .resume ∧ c.isAvailable = true ∨
      (∃ toSingleStep, action = .reset toSingleStep) ∧ c.isKilled = false ∨
      action = .turn ∧ c.isKilled = false ∧ c.isParked = false ∧ c.machine.hasPendingInterrupt = true := by
  have hafter : (c.act action).isWaiting = (c.switchesAfter action).isWaiting :=
    congrArg (·.isWaiting) (c.act_switches action)
  rw [hafter]
  cases action with
  | turn => simp [switchesAfter, loopSteps, hwaiting, and_assoc]
  | resume => simp [switchesAfter, hwaiting]
  | reset toSingleStep =>
    simp only [switchesAfter]
    cases hkilled : c.isKilled <;> simp [switches, hwaiting]
  | start singleStep =>
    simp only [switchesAfter]
    split <;> simp [switches, hwaiting]
  | _ => simp [switchesAfter, switches, hwaiting]

/-- If a run that waits has been halted by the last step of the loop, it stays so. The induction is on the
    actions. -/
theorem loopHalted_of_waiting {c : Controller δ} {earlier : List (MachineStep δ)}
    (hearlier : c.isWaiting = true → LoopHalted earlier) (actions : List (Action δ))
    (h : (actions.foldl act c).isWaiting = true) : LoopHalted (earlier ++ c.stepsMade actions) := by
  induction actions generalizing c earlier with
  | nil => simpa [stepsMade] using hearlier h
  | cons action rest ih =>
    rw [stepsMade, ← List.append_assoc]
    refine ih (fun hafter => ?_) h
    obtain ⟨hbefore, hhost⟩ | ⟨halt, hmade, hloop, hexecutes⟩ := act_isWaiting hafter
    · exact (hearlier hbefore).append fun step hmem => hhost step (Option.mem_toList.1 hmem)
    · rw [hmade]
      exact .of_halt earlier hloop hexecutes

/-- A step on behalf of the host changes no switch, unless it kills the run. -/
theorem switches_of_stepOnce {c after : Controller δ} {outcome : Outcome}
    (hrun : stepOnce.run c = .ok outcome after) (halive : after.isKilled = false) :
    c.hostSteps = true ∧ after.switches = c.switches := by
  have hafter : after.switches = c.switchesAfter .stepOnce := by
    rw [← stepOnce_switches, after_of_ok hrun]
  have hkilled : (c.switchesAfter .stepOnce).isKilled = false := by rw [← hafter]; exact halive
  refine ⟨?_, ?_⟩
  · rw [run_stepOnce] at hrun
    cases havailable : c.isAvailable with
    | false => simp [havailable] at hrun
    | true =>
      cases hsingle : c.inSingleStep with
      | false => simp [havailable, hsingle] at hrun
      | true => rw [hostSteps, havailable, hsingle, Bool.and_self]
  · rw [hafter]
    simp only [switchesAfter, Bool.or_eq_false_iff] at hkilled ⊢
    rw [hkilled.1, hkilled.2]
    simp [switches, hkilled.1]

/-- A step on behalf of the host that goes into trap entry is answered as such. -/
theorem stepOnce_of_trapped {c : Controller δ} {cause : TrapCause} {cycles : Nat}
    (hsteps : c.hostSteps = true) (houtcome : (c.machine.step false).1 = .trapped cause cycles) :
    ∃ after, stepOnce.run c = .ok (.trapped cause cycles) after ∧ after.isKilled = false := by
  obtain ⟨havailable, hsingle⟩ := Bool.and_eq_true_iff.1 hsteps
  have htaken : c.machine.step false = (.trapped cause cycles, (c.machine.step false).2) := by
    rw [← houtcome]
  refine ⟨{ c with machine := (c.machine.step false).2 }, ?_, alive_of_available havailable⟩
  rw [run_stepOnce, havailable, hsingle, htaken]
  rfl

/-- Whether a run goes on when the host leaves single-step mode after a step depends on the switches from
    before that step, not on what the step has done. -/
theorem deactivate_after_stepOnce {c after : Controller δ} {outcome : Outcome}
    (hrun : stepOnce.run c = .ok outcome after) (halive : after.isKilled = false) :
    ∃ left, deactivateSingleStep.run after = .ok () left ∧
      left.runState = if c.isHalted || c.isWaiting then .halted else .running := by
  obtain ⟨hsteps, hswitches⟩ := switches_of_stepOnce hrun halive
  obtain ⟨havailable, hsingle⟩ := Bool.and_eq_true_iff.1 hsteps
  have hstarted : after.isStarted = true :=
    (congrArg (·.isStarted) hswitches).trans (started_of_available havailable)
  have hparked : after.inSingleStep = true := (congrArg (·.inSingleStep) hswitches).trans hsingle
  have hhalted : after.isHalted = c.isHalted := congrArg (·.isHalted) hswitches
  have hwaiting : after.isWaiting = c.isWaiting := congrArg (·.isWaiting) hswitches
  refine ⟨{ after with inSingleStep := false }.note .singleStepOff, ?_, ?_⟩
  · simp [run_deactivateSingleStep, isAvailable_eq, hstarted, halive, hparked]
  · simp [runState, note, hstarted, halive, hhalted, hwaiting]

/-- A run waits since the loop has executed a halt instruction, after any actions whatever. The loop has
    made no step since; the host may have made some, and no such step ends the wait, even when it delivers
    an interrupt: a run whose host then leaves single-step mode is halted although execution has gone on.
    When the host has made no step since, the halt instruction is the last step of all. -/
theorem waiting_since_halt {config : Config} {built : Controller δ} (hbuilt : ofConfig config = .ok built)
    (actions : List (Action δ)) :
    let c := actions.foldl act built
    (c.isWaiting = true →
      LoopHalted (built.stepsMade actions) ∧
      (∃ last, (built.stepsMade actions).getLast? = some last ∧
        (last.stepper = .loop → last.Executes .halt)) ∧
      ∀ action, (c.act action).isWaiting = false ↔
        action = .resume ∧ c.isAvailable = true ∨
        (∃ toSingleStep, action = .reset toSingleStep) ∧ c.isKilled = false ∨
        action = .turn ∧ c.isKilled = false ∧ c.isParked = false ∧
          c.machine.hasPendingInterrupt = true) ∧
    ∀ outcome after, stepOnce.run c = .ok outcome after → after.isKilled = false →
      ∃ left, deactivateSingleStep.run after = .ok () left ∧
        left.runState = if c.isHalted || c.isWaiting then .halted else .running := by
  intro c
  have hquiet : built.isWaiting = false := congrArg (·.isWaiting) (ofConfig_switches hbuilt)
  have hinitial : built.isWaiting = true → LoopHalted ([] : List (MachineStep δ)) := by
    rw [hquiet]
    exact nofun
  refine ⟨fun hwaiting => ?_, fun outcome after => deactivate_after_stepOnce⟩
  have hhalted : LoopHalted (built.stepsMade actions) :=
    List.nil_append (built.stepsMade actions) ▸ loopHalted_of_waiting hinitial actions hwaiting
  exact ⟨hhalted, hhalted.getLast?, wait_ends_iff hwaiting⟩

/-- A program that halts, and the handler of an interrupt that ends the run. -/
def haltingImage : List Byte :=
  [0x7A, 0, 0, 0] ++ List.replicate 47 0 ++ [52, 0x7B, 0, 0, 0]

/-- The program is loaded, begun and left alone until it has halted; then the host takes over, raises an
    interrupt and makes the step in which that is delivered. -/
theorem waiting_since_halt_interrupted :
    let actions := [.loadProgram haltingImage, .start false, .turn, .activateSingleStep, .raise 0]
    ∃ built : Controller Peripheral, ofConfig ⟨64, 0, 16, 16, 0, 1, 1⟩ = .ok built ∧
      let c := actions.foldl act built
      c.isWaiting = true ∧ LoopHalted (built.stepsMade actions) ∧
        ∃ after left, stepOnce.run c = .ok (.trapped (.hardware 0) 5) after ∧
          deactivateSingleStep.run after = .ok () left ∧ left.runState = .halted := by
  intro actions
  let built : Controller Peripheral :=
    { machine := .assemble ⟨16, 16, by decide⟩ ⟨0, 1, 1⟩ (Memory.zeros 64) (Memory.zeros 16)
      frequency := 0 }
  have hbuilt : ofConfig ⟨64, 0, 16, 16, 0, 1, 1⟩ = .ok built := by rfl
  refine ⟨built, hbuilt, ?_⟩
  intro c
  have hwaiting : c.isWaiting = true := by decide +kernel
  have hsteps : c.hostSteps = true := by decide +kernel
  have houtcome : (c.machine.step false).1 = .trapped (.hardware 0) 5 := by decide +kernel
  obtain ⟨after, hrun, halive⟩ := stepOnce_of_trapped hsteps houtcome
  obtain ⟨hwaits, hdeactivates⟩ := waiting_since_halt hbuilt actions
  obtain ⟨left, hleft, hstate⟩ := hdeactivates _ after hrun halive
  rw [if_pos (by rw [hwaiting, Bool.or_true])] at hstate
  exact ⟨hwaiting, (hwaits hwaiting).1, after, left, hrun, hleft, hstate⟩

/-- The wait of a halt instruction outlives it. The host delivers an interrupt by a step of its own and
    leaves single-step mode; the run then waits, and shows as halted, although the last step of the machine
    was the delivery. The loop does not go on into the handler. -/
theorem wait_outlives_halt :
    let actions := [.loadProgram haltingImage, .start false, .turn, .activateSingleStep, .raise 0, .stepOnce,
      .deactivateSingleStep]
    ∃ built : Controller Peripheral, ofConfig ⟨64, 0, 16, 16, 0, 1, 1⟩ = .ok built ∧
      built.permits actions = true ∧
      let c := actions.foldl act built
      c.isWaiting = true ∧ c.runState = .halted ∧ c.machine.pc = 52 ∧
        c.stepMade .turn = none ∧
        ∃ last, (built.stepsMade actions).getLast? = some last ∧
          last.outcome = .trapped (.hardware 0) 5 ∧ ¬ last.Executes .halt := by
  intro actions
  let built : Controller Peripheral :=
    { machine := .assemble ⟨16, 16, by decide⟩ ⟨0, 1, 1⟩ (Memory.zeros 64) (Memory.zeros 16)
      frequency := 0 }
  have hlast : (built.stepsMade actions).getLast?.map (·.outcome) =
      some (.trapped (.hardware 0) 5) := by decide +kernel
  obtain ⟨last, hmade, houtcome⟩ := Option.map_eq_some_iff.1 hlast
  have htested : (built.permits actions && (actions.foldl act built).isWaiting &&
      (actions.foldl act built).runState == .halted && (actions.foldl act built).machine.pc == 52) = true := by
    decide +kernel
  simp only [Bool.and_eq_true, beq_iff_eq] at htested
  obtain ⟨⟨⟨hpermitted, hwaiting⟩, hstate⟩, hpc⟩ := htested
  have hidle : (actions.foldl act built).stepMade .turn = none := by
    simp [stepMade, loopSteps, hwaiting]
  refine ⟨built, rfl, hpermitted, hwaiting, hstate, hpc, hidle, last, hmade, houtcome, fun hexecutes => ?_⟩
  rw [← MachineStep.isHalt_outcome_iff, houtcome] at hexecutes
  cases hexecutes

end Controller

end Risc32
