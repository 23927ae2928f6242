import Mathlib.Order.Defs.Unbundled

/-!
Frame conditions of stateful computations: a relation between the state that a computation finds and
the one it leaves behind. Both predicates are closed under sequencing, so that a program inherits
them from the primitives it is made of.
-/

namespace Risc32

variable {ε σ α β : Type} {R S : σ → σ → Prop} {E F : ε → σ → σ → Prop} {P : ε → Prop}
  {x : EStateM ε σ α} {f : α → EStateM ε σ β}

/-- The relation holds between the state before the computation and the state after it, whether it
    ends in a value or in an error. -/
def Keeps (R : σ → σ → Prop) (x : EStateM ε σ α) : Prop :=
  ∀ before, match x.run before with
    | .ok _ after => R before after
    | .error _ after => R before after

/-- When the computation ends in an error, the relation for that error holds between the state before
    it and the state after it. Nothing is said about computations that succeed. -/
def ErrorKeeps (E : ε → σ → σ → Prop) (x : EStateM ε σ α) : Prop :=
  ∀ before error after, x.run before = .error error after → E error before after

/-- The computation raises no errors but those in `P`. -/
def Raises (P : ε → Prop) (x : EStateM ε σ α) : Prop :=
  ErrorKeeps (fun error _ _ => P error) x

/-- When the computation ends in a value, it is one of those in `Q`. -/
def Returns (Q : α → Prop) (x : EStateM ε σ α) : Prop :=
  ∀ before a after, x.run before = .ok a after → Q a

/-- A sequence ends in a value when both of its parts do. -/
theorem run_bind_eq_ok_iff {before after : σ} {b : β} :
    (x >>= f).run before = .ok b after ↔
      ∃ a middle, x.run before = .ok a middle ∧ (f a).run middle = .ok b after := by
  rw [EStateM.run_bind]
  cases x.run before with
  | ok a middle =>
    constructor
    · intro hrest
      exact ⟨a, middle, rfl, hrest⟩
    · rintro ⟨_, _, hfirst, hrest⟩
      cases hfirst
      exact hrest
  | error error middle =>
    constructor
    · intro hrun
      cases hrun
    · rintro ⟨_, _, hfirst, -⟩
      cases hfirst

theorem Keeps.of_ok (h : Keeps R x) {before after : σ} {a : α} (hrun : x.run before = .ok a after) :
    R before after := by
  have hbefore := h before
  rwa [hrun] at hbefore

theorem Keeps.of_error (h : Keeps R x) {before after : σ} {error : ε}
    (hrun : x.run before = .error error after) : R before after := by
  have hbefore := h before
  rwa [hrun] at hbefore

theorem Keeps.of_run (hok : ∀ before a after, x.run before = .ok a after → R before after)
    (herror : ∀ before error after, x.run before = .error error after → R before after) :
    Keeps R x := by
  intro before
  cases hrun : x.run before with
  | ok a after => exact hok before a after hrun
  | error error after => exact herror before error after hrun

theorem Keeps.mono (h : Keeps R x) (hRS : ∀ before after, R before after → S before after) :
    Keeps S x :=
  .of_run (fun before _ after hrun => hRS before after (h.of_ok hrun))
    (fun before _ after hrun => hRS before after (h.of_error hrun))

/-- A computation that ends in the state it started in keeps everything. -/
theorem Keeps.of_unchanged [Std.Refl R]
    (h : ∀ before, (∃ a, x.run before = .ok a before) ∨ ∃ error, x.run before = .error error before) :
    Keeps R x := by
  intro before
  obtain ⟨a, hrun⟩ | ⟨error, hrun⟩ := h before
  · rw [hrun]
    exact Std.Refl.refl before
  · rw [hrun]
    exact Std.Refl.refl before

theorem Keeps.pure [Std.Refl R] (a : α) : Keeps R (Pure.pure a : EStateM ε σ α) :=
  fun before => Std.Refl.refl before

theorem Keeps.throw [Std.Refl R] (error : ε) : Keeps R (throw error : EStateM ε σ α) :=
  fun before => Std.Refl.refl before

theorem Keeps.modify {g : σ → σ} (h : ∀ before, R before (g before)) :
    Keeps R (modify g : EStateM ε σ Unit) :=
  h

theorem Keeps.bind [IsTrans σ R] (hx : Keeps R x) (hf : ∀ a, Keeps R (f a)) : Keeps R (x >>= f) := by
  intro before
  rw [EStateM.run_bind]
  cases hrun : x.run before with
  | error error after => exact hx.of_error hrun
  | ok a middle =>
    have hfirst := hx.of_ok hrun
    have hrest := hf a middle
    cases hnext : (f a).run middle with
    | ok b after =>
      rw [hnext] at hrest
      simpa only [hnext] using IsTrans.trans _ _ _ hfirst hrest
    | error error after =>
      rw [hnext] at hrest
      simpa only [hnext] using IsTrans.trans _ _ _ hfirst hrest

/-- A continuation that depends on the current state may use that state as it is. -/
theorem Keeps.get_bind {g : σ → EStateM ε σ β}
    (h : ∀ before, match (g before).run before with
      | .ok _ after => R before after
      | .error _ after => R before after) :
    Keeps R (get >>= g) :=
  h

theorem Keeps.ite {c : Prop} [Decidable c] {x y : EStateM ε σ α} (hx : Keeps R x) (hy : Keeps R y) :
    Keeps R (if c then x else y) := by
  split
  · exact hx
  · exact hy

/-- A check that may end the computation keeps what the rest of it keeps. -/
theorem Keeps.check [IsPreorder σ R] {c : Prop} [Decidable c] {error : ε} {rest : PUnit → EStateM ε σ β}
    (hrest : Keeps R (rest ⟨⟩)) : Keeps R (if c then MonadExcept.throw error >>= rest else rest ⟨⟩) := by
  refine .ite ?_ hrest
  intro before
  exact Std.Refl.refl before

theorem ErrorKeeps.mono (h : ErrorKeeps E x)
    (hEF : ∀ error before after, E error before after → F error before after) : ErrorKeeps F x :=
  fun before error after hrun => hEF error before after (h before error after hrun)

theorem Raises.pure (a : α) : Raises P (Pure.pure a : EStateM ε σ α) := by
  intro before error after hrun
  cases hrun

theorem Raises.throw {error : ε} (h : P error) : Raises P (throw error : EStateM ε σ α) := by
  intro before raised after hrun
  cases hrun
  exact h

theorem Raises.modify (g : σ → σ) : Raises P (modify g : EStateM ε σ Unit) := by
  intro before error after hrun
  cases hrun

theorem Raises.bind (hx : Raises P x) (hf : ∀ a, Raises P (f a)) : Raises P (x >>= f) := by
  intro before error after hrun
  rw [EStateM.run_bind] at hrun
  cases hfirst : x.run before with
  | error first middle =>
    rw [hfirst] at hrun
    cases hrun
    exact hx _ _ _ hfirst
  | ok a middle =>
    rw [hfirst] at hrun
    exact hf a _ _ _ hrun

theorem Raises.ite {c : Prop} [Decidable c] {x y : EStateM ε σ α} (hx : Raises P x) (hy : Raises P y) :
    Raises P (if c then x else y) := by
  split
  · exact hx
  · exact hy

/-- What comes before an error is part of it: the first part may change the state within `R`, which
    the error relation absorbs. -/
theorem ErrorKeeps.bind (hx : Keeps R x) (hf : ∀ a, ErrorKeeps E (f a))
    (hstop : ∀ error before after, R before after → E error before after)
    (habsorb : ∀ error before middle after, R before middle → E error middle after → E error before after) :
    ErrorKeeps E (x >>= f) := by
  intro before error after hrun
  rw [EStateM.run_bind] at hrun
  cases hfirst : x.run before with
  | error first middle =>
    rw [hfirst] at hrun
    cases hrun
    exact hstop _ _ _ (hx.of_error hfirst)
  | ok a middle =>
    rw [hfirst] at hrun
    exact habsorb _ _ _ _ (hx.of_ok hfirst) (hf a middle error after hrun)

/-- A continuation that raises nothing adds no error of its own. -/
theorem ErrorKeeps.bind_total (hx : ErrorKeeps E x) (hf : ∀ a, Raises (fun _ => False) (f a)) :
    ErrorKeeps E (x >>= f) := by
  intro before error after hrun
  rw [EStateM.run_bind] at hrun
  cases hfirst : x.run before with
  | error first middle =>
    rw [hfirst] at hrun
    cases hrun
    exact hx _ _ _ hfirst
  | ok a middle =>
    rw [hfirst] at hrun
    exact (hf a middle error after hrun).elim

theorem Returns.pure {Q : α → Prop} {a : α} (h : Q a) : Returns Q (Pure.pure a : EStateM ε σ α) := by
  intro before b after hrun
  cases hrun
  exact h

/-- What a sequence returns is what its last part returns. -/
theorem Returns.bind {Q : β → Prop} (hf : ∀ a, Returns Q (f a)) : Returns Q (x >>= f) := by
  intro before b after hrun
  obtain ⟨a, middle, -, hrest⟩ := run_bind_eq_ok_iff.1 hrun
  exact hf a _ _ _ hrest

end Risc32
