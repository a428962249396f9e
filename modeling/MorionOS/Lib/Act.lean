import Mathlib.Tactic

/-!
# State computations that can stop with an error

`Act σ ε α` is a computation on a state `σ` that returns an `α` or stops with an
error `ε`.  Unlike a transaction it does not roll back: the state reached at the
error stays, which is how imperative code with early returns behaves.

The combinators are those that such code needs: reading and changing the state,
guards, unwrapping, catching the outcome of a call, and loops over a list.
-/

namespace StateAct

/-- A computation that may stop with an error; the state it reached stays. -/
abbrev Act (σ ε α : Type) : Type := σ → Except ε α × σ

namespace Act

variable {σ ε ε' α β : Type}

variable (r : Except ε α × σ)

/-- Continue with the value of a finished computation. -/
def after (f : α → σ → Except ε β × σ) : Except ε β × σ :=
  match r with
  | (.ok a, s) => f a s
  | (.error e, s) => (.error e, s)

instance : Monad (Act σ ε) where
  pure a := fun s => (.ok a, s)
  bind m f := fun s => after (m s) f

@[simp] theorem after_ok (a : α) (s : σ) (f : α → σ → Except ε β × σ) :
    after (.ok a, s) f = f a s := rfl

@[simp] theorem after_error (e : ε) (s : σ) (f : α → σ → Except ε β × σ) :
    after (.error e, s) f = (.error e, s) := rfl

@[simp] theorem pure_apply (a : α) (s : σ) : (pure a : Act σ ε α) s = (.ok a, s) := rfl

@[simp] theorem bind_apply (m : Act σ ε α) (f : α → Act σ ε β) (s : σ) :
    (m >>= f) s = after (m s) f := rfl

theorem pure_then (a : α) (f : α → Act σ ε β) : ((pure a : Act σ ε α) >>= f) = f a := rfl

theorem after_map_snd (f : α → β) :
    (after r fun a s => (.ok (f a), s)).2 = r.2 := by
  obtain ⟨e | a, s⟩ := r <;> rfl

theorem eq_of_fst {r : Except ε α × σ} {a : α} (h : r.1 = .ok a) : r = (.ok a, r.2) := Prod.ext h rfl

/-- A computation that returned did so through the value of its first part. -/
theorem after_eq_ok {r : Except ε α × σ} {f : α → σ → Except ε β × σ} {b : β} {s' : σ}
    (h : after r f = (.ok b, s')) : ∃ a s, r = (.ok a, s) ∧ f a s = (.ok b, s') := by
  obtain ⟨a | a, s⟩ := r
  · cases h
  · exact ⟨a, s, rfl, h⟩

/-- Stop with an error. -/
def throw (e : ε) : Act σ ε α := fun s => (.error e, s)

/-- Change the state. -/
def modify (f : σ → σ) : Act σ ε Unit := fun s => (.ok (), f s)

/-- Hand over the outcome of a finished computation as a value. -/
def caught : Except ε' (Option α) × σ :=
  match r with
  | (.ok a, s) => (.ok (some a), s)
  | (.error _, s) => (.ok none, s)

/-- Run a computation and hand over its outcome as a value. -/
def attempt (m : Act σ ε α) : Act σ ε' (Option α) := fun s => caught (m s)

/-- Report the failure of a finished computation as another error. -/
def relabelled (e : ε') (r : Except ε α × σ) : Except ε' α × σ :=
  match r with
  | (.ok a, s) => (.ok a, s)
  | (.error _, s) => (.error e, s)

@[simp] theorem caught_ok (a : α) (s : σ) :
    caught ((.ok a, s) : Except ε α × σ) = ((.ok (some a), s) : Except ε' (Option α) × σ) := rfl

@[simp] theorem caught_error (e : ε) (s : σ) :
    caught ((.error e, s) : Except ε α × σ) = ((.ok none, s) : Except ε' (Option α) × σ) := rfl

@[simp] theorem relabelled_ok (e : ε') (a : α) (s : σ) :
    relabelled e ((.ok a, s) : Except ε α × σ) = (.ok a, s) := rfl

@[simp] theorem relabelled_error (e : ε') (e₀ : ε) (s : σ) :
    relabelled e ((.error e₀, s) : Except ε α × σ) = (.error e, s) := rfl

end Act

end StateAct
