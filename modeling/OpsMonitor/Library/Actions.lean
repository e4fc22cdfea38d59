import Mathlib

/-! Actions that may raise: what an action did before it raised stays done. -/

namespace OpsMonitor.Library

variable {ε σ α β : Type}

/-- An action on a state of type `σ` that gives an `α` or raises an `ε`. -/
abbrev Action (ε σ α : Type) := ExceptT ε (StateM σ) α

namespace Action

/-- What the action gives or raises from a state, and the state it leaves. -/
def exec (x : Action ε σ α) (s : σ) : Except ε α × σ := (StateT.run (ExceptT.run x) s).run

@[simp] theorem exec_pure (a : α) (s : σ) : exec (pure a : Action ε σ α) s = (.ok a, s) := rfl

@[simp] theorem exec_throw (e : ε) (s : σ) : exec (throw e : Action ε σ α) s = (.error e, s) := rfl

@[simp] theorem exec_bind (x : Action ε σ α) (f : α → Action ε σ β) (s : σ) :
    exec (x >>= f) s =
      match exec x s with
      | (.ok a, s') => exec (f a) s'
      | (.error e, s') => (.error e, s') := by
  unfold exec
  simp only [ExceptT.run_bind, StateT.run_bind]
  rcases StateT.run (ExceptT.run x) s with ⟨a | e, s'⟩ <;> rfl

@[simp] theorem exec_tryCatch (x : Action ε σ α) (handle : ε → Action ε σ α) (s : σ) :
    exec (tryCatch x handle) s =
      match exec x s with
      | (.ok a, s') => (.ok a, s')
      | (.error e, s') => exec (handle e) s' := by
  unfold exec
  simp only [ExceptT.run_tryCatch, StateT.run_bind]
  rcases StateT.run (ExceptT.run x) s with ⟨a | e, s'⟩ <;> rfl

@[simp] theorem exec_map (f : α → β) (x : Action ε σ α) (s : σ) :
    exec (f <$> x) s = ((exec x s).1.map f, (exec x s).2) := by
  rw [← bind_pure_comp, exec_bind]
  rcases exec x s with ⟨a | e, s'⟩ <;> rfl

@[simp] theorem exec_lift (x : StateM σ α) (s : σ) :
    exec (liftM x : Action ε σ α) s = (.ok (x s).1, (x s).2) := rfl

end Action

end OpsMonitor.Library
