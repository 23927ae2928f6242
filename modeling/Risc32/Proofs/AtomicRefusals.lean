import Risc32.Peripheral
import Risc32.Proofs.Controller.Refusals

namespace Risc32

/-- What the host gets back from an action. -/
inductive Answer where
  | done
  | stepped (outcome : Outcome)
  | edited (isEffective : Bool)
  | failed (error : ControlError)
deriving DecidableEq, Repr

/-- Whether the answer is an error other than an abort. An abort reports something that has happened. -/
def Answer.isRefusal : Answer → Bool
  | failed (.aborted _) => false
  | failed _ => true
  | _ => false

namespace Controller

variable {δ : Type} [Device δ]

def answer (c : Controller δ) : Action δ → Answer
  | .stepOnce =>
    match stepOnce.run c with
    | .ok outcome _ => .stepped outcome
    | .error error _ => .failed error
  | .edit change => .edited (change.isEffective c.machine.breakpoints)
  | action =>
    match action.run.run c with
    | .ok .. => .done
    | .error error _ => .failed error

/-- What the host gets back in the course of the actions. -/
def answers (c : Controller δ) : List (Action δ) → List Answer
  | [] => []
  | action :: rest => c.answer action :: (c.act action).answers rest

/-- The actions without those that are refused in their course. -/
def granted (c : Controller δ) : List (Action δ) → List (Action δ)
  | [] => []
  | action :: rest =>
    if (c.answer action).isRefusal then (c.act action).granted rest
    else action :: (c.act action).granted rest

/-- An action fails with an error just when the host gets to see it. -/
theorem answer_eq_failed_iff {c : Controller δ} {action : Action δ} {error : ControlError} :
    c.answer action = .failed error ↔ ∃ after, action.run.run c = .error error after := by
  cases action with
  | stepOnce =>
    rw [answer, Action.run, run_discard]
    cases stepOnce.run c <;> simp
  | edit change => simp [answer, Action.run]
  | _ =>
    simp only [answer]
    split <;> simp [*]

theorem act_of_isRefusal {c : Controller δ} {action : Action δ} (h : (c.answer action).isRefusal = true) :
    c.act action = c := by
  cases hanswer : c.answer action with
  | failed error =>
    rw [hanswer] at h
    obtain ⟨after, hrun⟩ := answer_eq_failed_iff.1 hanswer
    have hplain (cause : TrapError) : error ≠ .aborted cause := by
      rintro rfl
      cases h
    rw [act, after_of_error hrun]
    exact (refusal_of_error hrun hplain).2
  | _ =>
    rw [hanswer] at h
    cases h

/-- A run leaves the same behind without the actions that are refused in it, and the host gets back the
    same but for the refusals. The induction is on the actions. -/
theorem granted_spec (c : Controller δ) (actions : List (Action δ)) :
    (c.granted actions).foldl act c = actions.foldl act c ∧
      c.answers (c.granted actions) = (c.answers actions).filter fun answer => !answer.isRefusal := by
  induction actions generalizing c with
  | nil => exact ⟨rfl, rfl⟩
  | cons action rest ih =>
    obtain ⟨hleft, hanswers⟩ := ih (c.act action)
    rw [granted, answers]
    cases hrefusal : (c.answer action).isRefusal with
    | true =>
      rw [act_of_isRefusal hrefusal] at hleft hanswers
      simp only [if_true, List.foldl_cons, List.filter_cons, hrefusal, Bool.not_true, Bool.false_eq_true,
        if_false, act_of_isRefusal hrefusal]
      exact ⟨hleft, hanswers⟩
    | false =>
      simp only [Bool.false_eq_true, if_false, List.foldl_cons, answers, List.filter_cons, hrefusal,
        Bool.not_false, if_true]
      exact ⟨hleft, congrArg (c.answer action :: ·) hanswers⟩

omit [Device δ] in
/-- An image is refused for its size only when it is too large, and then every image that fits is loaded. -/
theorem loadProgram_retry {c after : Controller δ} {image : List Byte} {error : ImageTooLarge}
    (hrun : (loadProgram image).run c = .error (.programTooLarge error) after) :
    error = ⟨image.length, c.machine.ram.size⟩ ∧ c.machine.ram.size < image.length ∧
      ∀ smaller : List Byte, smaller.length ≤ c.machine.ram.size →
        (loadProgram smaller).run after =
          .ok () ({ c with
            machine := { c.machine with ram := c.machine.ram.putAll 0 smaller }.boot
            isLoaded := true }.note (.programLoaded smaller.length)) := by
  rw [run_loadProgram, Machine.loadImage_eq] at hrun
  cases hstarted : c.isStarted with
  | true => simp [hstarted] at hrun
  | false =>
    cases hloaded : c.isLoaded with
    | true => simp [hstarted, hloaded] at hrun
    | false =>
      by_cases hsize : c.machine.ram.size < image.length
      · simp only [hstarted, hloaded, hsize, Bool.false_eq_true, if_false, if_true] at hrun
        cases hrun
        refine ⟨rfl, hsize, fun smaller hfits => ?_⟩
        rw [run_loadProgram, Machine.loadImage_eq]
        simp only [hstarted, hloaded, Nat.not_lt.2 hfits, Bool.false_eq_true, if_false]
      · simp [hstarted, hloaded, hsize] at hrun

/-- Refusals are atomic, whatever the state of the controller. An operation that fails in any other way
    than by an abort leaves everything as it is, so that a run with refused operations in it leaves the
    same behind, and answers the other operations alike, as the run without them. After an image has been
    refused for its size, every image that fits is loaded. -/
theorem refusals_atomic (c : Controller δ) :
    (∀ action error after, action.run.run c = .error error after → (∀ cause, error ≠ .aborted cause) →
      c.refusal? action = some error ∧ after = c) ∧
    (∀ actions, (c.granted actions).foldl act c = actions.foldl act c ∧
      c.answers (c.granted actions) = (c.answers actions).filter fun answer => !answer.isRefusal) ∧
    ∀ image error after, (loadProgram image).run c = .error (.programTooLarge error) after →
      error = ⟨image.length, c.machine.ram.size⟩ ∧ c.machine.ram.size < image.length ∧
        ∀ smaller : List Byte, smaller.length ≤ c.machine.ram.size →
          (loadProgram smaller).run after =
            .ok () ({ c with
              machine := { c.machine with ram := c.machine.ram.putAll 0 smaller }.boot
              isLoaded := true }.note (.programLoaded smaller.length)) :=
  ⟨fun _ _ _ => refusal_of_error, c.granted_spec, fun _ _ _ => loadProgram_retry⟩

/-- A host that starts too early, loads an image that is one byte too large and then one that fits, loads
    again, begins the run in single-step mode and asks for that once more, and kills a run that has ended. -/
theorem refusals_atomic_retried :
    let c : Controller Peripheral :=
      { machine := .assemble ⟨16, 16, by decide⟩ ⟨0, 1, 1⟩ (Memory.zeros 64) (Memory.zeros 16)
        frequency := 0 }
    let actions : List (Action Peripheral) :=
      [.start false, .loadProgram (List.replicate 65 0), .loadProgram [0x7B, 0, 0, 0], .loadProgram [],
        .start true, .activateSingleStep, .stepOnce, .kill]
    c.answers actions =
      [.failed .notLoaded, .failed (.programTooLarge ⟨65, 64⟩), .done, .failed .programAlreadyLoaded,
        .done, .failed .singleStepAlreadyActive, .stepped (.killed 1), .failed .notAvailable] ∧
      c.answers (c.granted actions) = [.done, .done, .stepped (.killed 1)] ∧
      (c.granted actions).foldl act c = actions.foldl act c ∧
      c.act (.loadProgram (List.replicate 65 0)) = c ∧
      ∃ loaded, (loadProgram (List.replicate 64 0)).run c = .ok () loaded := by
  intro c actions
  have hanswers : c.answers actions =
      [.failed .notLoaded, .failed (.programTooLarge ⟨65, 64⟩), .done, .failed .programAlreadyLoaded,
        .done, .failed .singleStepAlreadyActive, .stepped (.killed 1), .failed .notAvailable] := by
    decide +kernel
  have hlarge : c.answer (.loadProgram (List.replicate 65 0)) = .failed (.programTooLarge ⟨65, 64⟩) := by
    decide +kernel
  obtain ⟨after, hrun⟩ := answer_eq_failed_iff.1 hlarge
  obtain ⟨hatomic, hgranted, hretried⟩ := refusals_atomic c
  obtain ⟨hleft, hkept⟩ := hgranted actions
  rw [hanswers] at hkept
  obtain ⟨-, rfl⟩ := hatomic _ _ after hrun (by simp)
  obtain ⟨-, -, hfits⟩ := hretried _ _ _ hrun
  refine ⟨hanswers, hkept, hleft, ?_, _, hfits (List.replicate 64 0) (by decide)⟩
  rw [act, after_of_error hrun]

end Controller

end Risc32
