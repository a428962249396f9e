import MorionOS.Lib.Layered

/-!
# Assertions about the outcome of a program

`Ends r Q E` says what holds after a finished computation: `Q` of its value and
its state when it returned, `E` of its state when it stopped with an error.  The
rules follow the combinators, so a proof about a program goes through its text:
one assertion about each step, then `Ends.bind`.
-/

namespace StateAct

variable {σ τ ε ε' α β : Type}

/-- What holds after a finished computation. -/
def Ends (r : Except ε α × σ) (Q : α → σ → Prop) (E : σ → Prop) : Prop :=
  match r with
  | (.ok a, s) => Q a s
  | (.error _, s) => E s

namespace Ends

variable {r : Except ε α × σ} {Q Q' : α → σ → Prop} {E E' : σ → Prop}

theorem of_ok {a : α} {s : σ} (h : Ends r Q E) (ran : r = (.ok a, s)) : Q a s := by
  rw [ran] at h
  exact h

theorem of_error {e : ε} {s : σ} (h : Ends r Q E) (ran : r = (.error e, s)) : E s := by
  rw [ran] at h
  exact h

theorem mono (h : Ends r Q E) (onOk : ∀ a s, Q a s → Q' a s) (onError : ∀ s, E s → E' s) : Ends r Q' E' := by
  obtain ⟨e | a, s⟩ := r
  · exact onError s h
  · exact onOk a s h

theorem after {f : α → σ → Except ε β × σ} {P : β → σ → Prop} (h : Ends r Q E)
    (onError : ∀ s, E s → E' s) (onOk : ∀ a s, Q a s → Ends (f a s) P E') :
    Ends (Act.after r f) P E' := by
  obtain ⟨e | a, s⟩ := r
  · exact onError s h
  · exact onOk a s h

/-! ## Programs -/

section Programs

variable {abs : σ → τ} {good : σ → Prop} {m : Layered abs good ε α} {f : α → Layered abs good ε β} {t : τ}
  {R : α → τ → Prop} {F F' : τ → Prop} {P : β → τ → Prop}

theorem bind (h : Ends (m.ideal t) R F) (onError : ∀ s, F s → F' s)
    (onOk : ∀ a s, R a s → Ends ((f a).ideal s) P F') : Ends ((m >>= f).ideal t) P F' :=
  h.after onError onOk

/-- The same for the concrete meaning. -/
theorem bindRun {s : σ} {R : α → σ → Prop} {P : β → σ → Prop} {F F' : σ → Prop} (h : Ends (m.run s) R F)
    (onError : ∀ s', F s' → F' s') (onOk : ∀ a s', R a s' → Ends ((f a).run s') P F') :
    Ends ((m >>= f).run s) P F' := h.after onError onOk

/-- From a good state the two meanings end alike. -/
theorem run_iff {s : σ} (ok : good s) :
    Ends (m.run s) (fun a s' => R a (abs s')) (fun s' => F (abs s')) ↔ Ends (m.ideal (abs s)) R F := by
  rw [(m.agree s ok).1]
  rcases m.run s with ⟨e | a, s'⟩ <;> exact Iff.rfl

/-- Behind a guard its condition is known. -/
theorem ensure {c : Bool} {e : ε} {f : Unit → Layered abs good ε β} (onError : c = false → F t)
    (onOk : c = true → Ends ((f ()).ideal t) P F) : Ends ((Layered.ensure c e >>= f).ideal t) P F := by
  cases c
  · exact onError rfl
  · exact onOk rfl

theorem ofOption {o : Option α} {e : ε} (onError : o = none → F t)
    (onOk : ∀ a, o = some a → Ends ((f a).ideal t) P F) :
    Ends ((Layered.ofOption o e >>= f).ideal t) P F := by
  cases o
  · exact onError rfl
  · exact onOk _ rfl

/-- A failure that is caught is one more way to go on. -/
theorem attempt {m : Layered abs good ε' α} {f : Option α → Layered abs good ε β}
    (h : Ends (m.ideal t) R F) (onError : ∀ s, F s → Ends ((f none).ideal s) P F')
    (onOk : ∀ a s, R a s → Ends ((f (some a)).ideal s) P F') :
    Ends ((Layered.attempt m >>= f).ideal t) P F' := by
  rw [Layered.ideal_bind, Layered.ideal_attempt]
  rcases ran : m.ideal t with ⟨e | a, s⟩
  · exact onError s (h.of_error ran)
  · exact onOk a s (h.of_ok ran)

end Programs

end Ends

end StateAct
