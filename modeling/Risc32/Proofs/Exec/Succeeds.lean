import Risc32.Proofs.Exec.Keeps

namespace Risc32

variable {ε σ α β ι : Type} {R : σ → σ → Prop} {P Q : Prop} {start before after : σ}
  {x : EStateM ε σ α} {f : α → EStateM ε σ β}

/-- The computation ends in a value. -/
def Succeeds (x : EStateM ε σ α) (before : σ) : Prop :=
  ∃ a after, x.run before = .ok a after

instance : Decidable (Succeeds x before) :=
  match hrun : x.run before with
  | .ok a after => isTrue ⟨a, after, hrun⟩
  | .error _ _ => isFalse fun ⟨_, _, hok⟩ => by simp [hrun] at hok

theorem not_succeeds_iff : ¬ Succeeds x before ↔ ∃ error after, x.run before = .error error after := by
  unfold Succeeds
  cases x.run before <;> simp

/-- From every state that `R` leads to, the computation succeeds exactly when `P` holds. -/
def SucceedsFrom (R : σ → σ → Prop) (start : σ) (P : Prop) (x : EStateM ε σ α) : Prop :=
  ∀ before, R start before → (Succeeds x before ↔ P)

namespace SucceedsFrom

theorem pure (a : α) : SucceedsFrom R start True (Pure.pure a : EStateM ε σ α) :=
  fun before _ => ⟨fun _ => trivial, fun _ => ⟨a, before, rfl⟩⟩

/-- The first part stays within `R`, so what it leaves behind does not change whether the second part
    succeeds. -/
theorem bind [IsTrans σ R] (hx : SucceedsFrom R start P x) (hkeeps : Keeps R x)
    (hf : ∀ a, SucceedsFrom R start Q (f a)) : SucceedsFrom R start (P ∧ Q) (x >>= f) := by
  intro before hbefore
  constructor
  · rintro ⟨b, after, hrun⟩
    obtain ⟨a, middle, hfirst, hrest⟩ := run_bind_eq_ok_iff.1 hrun
    have hmiddle := IsTrans.trans _ _ _ hbefore (hkeeps.of_ok hfirst)
    exact ⟨(hx before hbefore).1 ⟨a, middle, hfirst⟩, (hf a middle hmiddle).1 ⟨b, after, hrest⟩⟩
  · rintro ⟨hP, hQ⟩
    obtain ⟨a, middle, hfirst⟩ := (hx before hbefore).2 hP
    have hmiddle := IsTrans.trans _ _ _ hbefore (hkeeps.of_ok hfirst)
    obtain ⟨b, after, hrest⟩ := (hf a middle hmiddle).2 hQ
    exact ⟨b, after, run_bind_eq_ok_iff.2 ⟨a, middle, hfirst, hrest⟩⟩

end SucceedsFrom

section Loops

variable {g : ι → EStateM ε σ PUnit}

theorem run_forM_cons_eq_ok_iff {i : ι} {rest : List ι} {u : PUnit} :
    (forM (i :: rest) g).run before = .ok u after ↔
      ∃ middle, (g i).run before = .ok ⟨⟩ middle ∧ (forM rest g).run middle = .ok u after := by
  rw [List.forM_cons, run_bind_eq_ok_iff]
  exact ⟨fun ⟨_, middle, hfirst, hrest⟩ => ⟨middle, hfirst, hrest⟩,
    fun ⟨middle, hfirst, hrest⟩ => ⟨_, middle, hfirst, hrest⟩⟩

theorem Keeps.forM [IsPreorder σ R] {indices : List ι} (h : ∀ i, Keeps R (g i)) :
    Keeps R (forM indices g) := by
  induction indices with
  | nil => exact .pure _
  | cons i rest ih =>
    rw [List.forM_cons]
    exact .bind (h i) fun _ => ih

/-- A loop succeeds when each of its members does. -/
theorem SucceedsFrom.forM [IsTrans σ R] {P : ι → Prop} {indices : List ι} (hkeeps : ∀ i, Keeps R (g i))
    (h : ∀ i ∈ indices, SucceedsFrom R start (P i) (g i)) :
    SucceedsFrom R start (∀ i ∈ indices, P i) (forM indices g) := by
  induction indices with
  | nil =>
    intro before _
    exact iff_of_true ⟨⟨⟩, before, rfl⟩ (List.forall_mem_nil P)
  | cons i rest ih =>
    rw [List.forM_cons, List.forall_mem_cons]
    exact .bind (h i List.mem_cons_self) (hkeeps i) fun _ => ih fun j hj => h j (List.mem_cons_of_mem i hj)

/-- The member at which a loop has failed, and the state in which it was reached. -/
theorem run_forM_eq_error {indices : List ι} {error : ε}
    (hrun : (forM indices g).run before = .error error after) :
    ∃ done i rest middle, indices = done ++ i :: rest ∧
      (forM done g).run before = .ok ⟨⟩ middle ∧ (g i).run middle = .error error after := by
  induction indices generalizing before with
  | nil => cases hrun
  | cons i rest ih =>
    rw [List.forM_cons, EStateM.run_bind] at hrun
    cases hfirst : (g i).run before with
    | error first middle =>
      rw [hfirst] at hrun
      cases hrun
      exact ⟨[], i, rest, before, rfl, rfl, hfirst⟩
    | ok u middle =>
      rw [hfirst] at hrun
      obtain ⟨done, j, others, last, rfl, hdone, hfailed⟩ := ih hrun
      exact ⟨i :: done, j, others, last, rfl, run_forM_cons_eq_ok_iff.2 ⟨middle, hfirst, hdone⟩, hfailed⟩

end Loops

end Risc32
