import MorionOS.Lib.Outcome

/-!
# Invariants of state computations

The combinators that programs without a second level need: guards, unwrapping, giving an
error its name.  `Preserves P m` says that a computation keeps a property of the state whether
it returns or stops, and has one rule for each combinator.
-/

namespace StateAct.Act

variable {σ ε ε' α β : Type}

/-- What holds however a computation ends holds of the state that it leaves. -/
theorem ends_iff {r : Except ε α × σ} {P : σ → Prop} : Ends r (fun _ s => P s) P ↔ P r.2 := by
  obtain ⟨e | a, s⟩ := r
  · exact Iff.rfl
  · exact Iff.rfl

/-- Stop with an error unless the condition holds. -/
def ensure (c : Bool) (e : ε) : Act σ ε Unit := if c then pure () else throw e

/-- The value, or stop with an error. -/
def ofOption (o : Option α) (e : ε) : Act σ ε α :=
  match o with
  | some a => pure a
  | none => throw e

/-- Report a failure as another error. -/
def orErr (m : Act σ ε α) (e : ε') : Act σ ε' α := fun s => relabelled e (m s)

/-- Read something off the state. -/
def reads (f : σ → α) : Act σ ε α := fun s => (.ok (f s), s)

/-- The computation keeps the property, whether it returns or stops. -/
def Preserves (P : σ → Prop) (m : Act σ ε α) : Prop := ∀ s, P s → P (m s).2

namespace Preserves

variable {P : σ → Prop} {m : Act σ ε α} {f : α → Act σ ε β}

theorem pure (a : α) : Preserves P (Pure.pure a : Act σ ε α) := fun _ holds => holds

theorem throw (e : ε) : Preserves P (Act.throw e : Act σ ε α) := fun _ holds => holds

theorem reads (g : σ → α) : Preserves P (Act.reads g : Act σ ε α) := fun _ holds => holds

theorem modify {g : σ → σ} (keep : ∀ s, P s → P (g s)) : Preserves P (Act.modify g : Act σ ε Unit) :=
  fun s holds => keep s holds

theorem bind (first : Preserves P m) (rest : ∀ a, Preserves P (f a)) : Preserves P (m >>= f) := by
  intro s holds
  have mid := ends_iff.mpr (first s holds)
  exact ends_iff.mp (mid.after (fun _ after => after) fun a s' mid => ends_iff.mpr (rest a s' mid))

theorem ite {c : Prop} [Decidable c] {m' : Act σ ε α} (first : Preserves P m) (second : Preserves P m') :
    Preserves P (if c then m else m') := by
  split
  · exact first
  · exact second

theorem ensure (c : Bool) (e : ε) : Preserves P (Act.ensure c e) := ite (pure _) (throw _)

theorem ofOption (o : Option α) (e : ε) : Preserves P (Act.ofOption o e) := by
  cases o with
  | none => exact throw e
  | some a => exact pure a

theorem attempt (keeps : Preserves P m) : Preserves P (Act.attempt m : Act σ ε' (Option α)) := by
  intro s holds
  have after := keeps s holds
  rw [Act.attempt]
  generalize m s = r at after
  obtain ⟨e | a, s'⟩ := r
  · exact after
  · exact after

theorem ends (keeps : Preserves P m) {s : σ} (holds : P s) : Ends (m s) (fun _ s' => P s') P :=
  ends_iff.mpr (keeps s holds)

end Preserves

variable {m : Act σ ε α} {s : σ} {R : β → σ → Prop} {E : σ → Prop}

theorem preserves_of_ends {P : σ → Prop}
    (ends : ∀ s, P s → Ends (m s) (fun _ s' => P s') P) : Preserves P m :=
  fun s holds => ends_iff.mp (ends s holds)

theorem ends_bind {f : α → Act σ ε β} {Q : α → σ → Prop} (first : Ends (m s) Q E)
    (rest : ∀ a s', Q a s' → Ends (f a s') R E) : Ends ((m >>= f) s) R E :=
  first.after (fun _ holds => holds) rest

/-- Behind a guard its condition is known. -/
theorem ends_ensure {c : Bool} {e : ε} {f : Unit → Act σ ε β}
    (onError : c = false → E s) (onOk : c = true → Ends (f () s) R E) :
    Ends ((Act.ensure c e >>= f) s) R E := by
  cases c with
  | true => exact onOk rfl
  | false => exact onError rfl

theorem ends_ofOption {o : Option α} {e : ε} {f : α → Act σ ε β}
    (onError : o = none → E s) (onOk : ∀ a, o = some a → Ends (f a s) R E) :
    Ends ((Act.ofOption o e >>= f) s) R E := by
  cases o with
  | none => exact onError rfl
  | some a => exact onOk a rfl

theorem ends_orErr {e : ε'} {Q : α → σ → Prop} (ends : Ends (m s) Q E) : Ends (m.orErr e s) Q E := by
  rw [Act.orErr]
  generalize m s = r at ends
  obtain ⟨e | a, s'⟩ := r
  · exact ends
  · exact ends

end StateAct.Act
