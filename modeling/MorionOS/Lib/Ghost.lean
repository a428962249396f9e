import MorionOS.Lib.Act

/-!
# Programs with a ghost state

A program is run on its state together with a ghost state that it cannot read:
`lift` leaves the ghost state alone and `noting` sets it from the outcome.
Erasing the ghost state gives back the program (`erase_lift`, `erase_noting`,
`erase_after`).
-/

namespace StateAct.Ghost

open StateAct

variable {σ γ ε α β : Type}

/-- Run a program and leave the ghost state. -/
def lift (m : Act σ ε α) : Act (σ × γ) ε α := fun p => ((m p.1).1, (m p.1).2, p.2)

/-- Run a program and set the ghost state from the state it started in and its outcome. -/
def noting (note : σ → Except ε α → γ) (m : Act σ ε α) : Act (σ × γ) ε α :=
  fun p => ((m p.1).1, (m p.1).2, note p.1 (m p.1).1)

/-- A finished computation without its ghost state. -/
def erase (r : Except ε α × σ × γ) : Except ε α × σ := (r.1, r.2.1)

theorem erase_lift (m : Act σ ε α) (p : σ × γ) : erase (lift m p) = m p.1 := rfl

theorem erase_noting (note : σ → Except ε α → γ) (m : Act σ ε α) (p : σ × γ) :
    erase (noting note m p) = m p.1 := rfl

/-- Programs that erase to the same part after part erase to the same. -/
theorem erase_after {r' : Except ε α × σ × γ} {r : Except ε α × σ} {f' : α → Act (σ × γ) ε β}
    {f : α → Act σ ε β} (first : erase r' = r) (rest : ∀ a p, erase (f' a p) = f a p.1) :
    erase (Act.after r' f') = Act.after r f := by
  subst first
  obtain ⟨e | a, p⟩ := r'
  · rfl
  · exact rest a p

end StateAct.Ghost
