namespace Risc32

variable {ε σ τ α β : Type} {R : σ → τ → Prop}

/-- Two results are the same value, or the same error, in related states. -/
inductive SameResult (R : σ → τ → Prop) : EStateM.Result ε σ α → EStateM.Result ε τ α → Prop
  | ok {a : α} {s : σ} {t : τ} (h : R s t) : SameResult R (.ok a s) (.ok a t)
  | error {error : ε} {s : σ} {t : τ} (h : R s t) : SameResult R (.error error s) (.error error t)

/-- Started in related states, the computations have the same result. -/
def Agrees (R : σ → τ → Prop) (x : EStateM ε σ α) (y : EStateM ε τ α) : Prop :=
  ∀ s t, R s t → SameResult R (x.run s) (y.run t)

namespace Agrees

variable {x : EStateM ε σ α} {y : EStateM ε τ α} {f : α → EStateM ε σ β} {g : α → EStateM ε τ β}

theorem pure (a : α) : Agrees R (Pure.pure a : EStateM ε σ α) (Pure.pure a : EStateM ε τ α) :=
  fun _ _ h => .ok h

theorem throw (error : ε) :
    Agrees R (MonadExcept.throw error : EStateM ε σ α) (MonadExcept.throw error : EStateM ε τ α) :=
  fun _ _ h => .error h

theorem modify {p : σ → σ} {q : τ → τ} (h : ∀ s t, R s t → R (p s) (q t)) :
    Agrees R (modify p : EStateM ε σ Unit) (modify q : EStateM ε τ Unit) :=
  fun s t hst => .ok (h s t hst)

theorem bind (hx : Agrees R x y) (hf : ∀ a, Agrees R (f a) (g a)) : Agrees R (x >>= f) (y >>= g) := by
  intro s t hst
  have hfirst := hx s t hst
  rw [EStateM.run_bind, EStateM.run_bind]
  generalize x.run s = first at hfirst
  generalize y.run t = second at hfirst
  cases hfirst with
  | ok hnext => exact hf _ _ _ hnext
  | error hstop => exact .error hstop

/-- A continuation that depends on the current state may use that the states are related. -/
theorem get_bind {p : σ → EStateM ε σ β} {q : τ → EStateM ε τ β}
    (h : ∀ s t, R s t → SameResult R ((p s).run s) ((q t).run t)) : Agrees R (get >>= p) (get >>= q) :=
  h

theorem ite {c : Prop} [Decidable c] {x' : EStateM ε σ α} {y' : EStateM ε τ α} (hx : Agrees R x y)
    (hy : Agrees R x' y') : Agrees R (if c then x else x') (if c then y else y') := by
  split
  · exact hx
  · exact hy

/-- A check that both computations make alike. -/
theorem check {c : Prop} [Decidable c] {error : ε} {p : PUnit → EStateM ε σ β} {q : PUnit → EStateM ε τ β}
    (h : Agrees R (p ⟨⟩) (q ⟨⟩)) :
    Agrees R (if c then MonadExcept.throw error >>= p else p ⟨⟩)
      (if c then MonadExcept.throw error >>= q else q ⟨⟩) := by
  refine .ite ?_ h
  intro s t hst
  exact .error hst

end Agrees

end Risc32
