import MorionOS.Lib.Act

/-!
# Programs with two meanings

A `Layered` program is written once and read twice.  `run` is its meaning on a
concrete state `σ`, with everything the machine does; `ideal` is its meaning on
an abstract state `τ` in which some of the machinery is invisible.  The program
carries the proof that the two agree, along `abs`, from every concrete state
that is `good`, and that a good state stays good.

Programs are composed with the monad operations and the combinators below, so
agreement has to be proved for the primitives only; a result about `ideal`
holds of `run` by `Layered.run_eq`.
-/

namespace StateAct

/-- A program with a concrete and an abstract meaning that agree on good states. -/
structure Layered {σ τ : Type} (abs : σ → τ) (good : σ → Prop) (ε α : Type) where
  run : σ → Except ε α × σ
  ideal : τ → Except ε α × τ
  agree : ∀ s, good s → ideal (abs s) = ((run s).1, abs (run s).2) ∧ good (run s).2

namespace Layered

variable {σ τ : Type} {abs : σ → τ} {good : σ → Prop} {ε ε' α β : Type}

/-- What the abstract meaning says holds of the concrete run. -/
theorem run_eq (m : Layered abs good ε α) {s : σ} (ok : good s) {r : Except ε α} {t : τ}
    (h : m.ideal (abs s) = (r, t)) : (m.run s).1 = r ∧ abs (m.run s).2 = t ∧ good (m.run s).2 := by
  obtain ⟨same, stays⟩ := m.agree s ok
  rw [same] at h
  exact ⟨congrArg Prod.fst h, congrArg Prod.snd h, stays⟩

theorem bind_agree (m : Layered abs good ε α) (f : α → Layered abs good ε β) (s : σ) (ok : good s) :
    Act.after (m.ideal (abs s)) (fun a => (f a).ideal) =
        ((Act.after (m.run s) fun a => (f a).run).1, abs (Act.after (m.run s) fun a => (f a).run).2) ∧
      good (Act.after (m.run s) fun a => (f a).run).2 := by
  obtain ⟨same, stays⟩ := m.agree s ok
  rw [same]
  rcases result : m.run s with ⟨e | a, s'⟩
  · rw [result] at stays
    exact ⟨rfl, stays⟩
  · rw [result] at stays
    exact (f a).agree s' stays

instance : Monad (Layered abs good ε) where
  pure a := ⟨fun s => (.ok a, s), fun t => (.ok a, t), fun _ ok => ⟨rfl, ok⟩⟩
  bind m f :=
    ⟨fun s => Act.after (m.run s) fun a => (f a).run,
     fun t => Act.after (m.ideal t) fun a => (f a).ideal, bind_agree m f⟩

/-- Stop with an error. -/
def throw (e : ε) : Layered abs good ε α :=
  ⟨fun s => (.error e, s), fun t => (.error e, t), fun _ ok => ⟨rfl, ok⟩⟩

/-- Continue only when the condition holds. -/
def ensure (c : Bool) (e : ε) : Layered abs good ε Unit :=
  match c with
  | true => pure ()
  | false => throw e

/-- Unwrap a value that may be missing. -/
def ofOption (o : Option α) (e : ε) : Layered abs good ε α :=
  match o with
  | some a => pure a
  | none => throw e

/-- Run a program and hand over its outcome as a value. -/
def attempt (m : Layered abs good ε α) : Layered abs good ε' (Option α) where
  run s := Act.caught (m.run s)
  ideal t := Act.caught (m.ideal t)
  agree s ok := by
    obtain ⟨same, stays⟩ := m.agree s ok
    rw [same]
    rcases result : m.run s with ⟨e | a, s'⟩ <;>
      · rw [result] at stays
        exact ⟨rfl, stays⟩

/-- Run a program and report its failure as another error. -/
def orErr (m : Layered abs good ε α) (e : ε') : Layered abs good ε' α where
  run s := Act.relabelled e (m.run s)
  ideal t := Act.relabelled e (m.ideal t)
  agree s ok := by
    obtain ⟨same, stays⟩ := m.agree s ok
    rw [same]
    rcases result : m.run s with ⟨e | a, s'⟩ <;>
      · rw [result] at stays
        exact ⟨rfl, stays⟩

/-- Run the body for every element of a list, stopping at the first error. -/
def each : List β → (β → Layered abs good ε Unit) → Layered abs good ε Unit
  | [], _ => pure ()
  | x :: xs, body => do
      body x
      each xs body

/-- The first value that the body finds along a list. -/
def firstSome : List β → (β → Layered abs good ε (Option α)) → Layered abs good ε (Option α)
  | [], _ => pure none
  | x :: xs, body => do
      match ← body x with
      | some a => pure (some a)
      | none => firstSome xs body

/-! ## The meanings of the combinators -/

section Meanings

variable (m : Layered abs good ε α) (f : α → Layered abs good ε β) (s : σ) (t : τ)

@[simp] theorem run_pure (a : α) : (pure a : Layered abs good ε α).run s = (.ok a, s) := rfl
@[simp] theorem ideal_pure (a : α) : (pure a : Layered abs good ε α).ideal t = (.ok a, t) := rfl
@[simp] theorem run_bind : (m >>= f).run s = Act.after (m.run s) fun a => (f a).run := rfl
@[simp] theorem ideal_bind : (m >>= f).ideal t = Act.after (m.ideal t) fun a => (f a).ideal := rfl
@[simp] theorem run_throw (e : ε) : (throw e : Layered abs good ε α).run s = (.error e, s) := rfl
@[simp] theorem ideal_throw (e : ε) :
    (throw e : Layered abs good ε α).ideal t = (.error e, t) := rfl
@[simp] theorem run_attempt :
    (attempt m : Layered abs good ε' (Option α)).run s = Act.caught (m.run s) := rfl
@[simp] theorem ideal_attempt :
    (attempt m : Layered abs good ε' (Option α)).ideal t = Act.caught (m.ideal t) := rfl
@[simp] theorem run_orErr (e : ε') : (orErr m e).run s = Act.relabelled e (m.run s) := rfl
@[simp] theorem throw_bind (e : ε) : (throw e >>= f : Layered abs good ε β) = throw e := rfl
@[simp] theorem pure_bind (a : α) : (pure a >>= f) = f a := rfl
@[simp] theorem ensure_true (e : ε) : (ensure true e : Layered abs good ε Unit) = pure () := rfl
@[simp] theorem ensure_false (e : ε) : (ensure false e : Layered abs good ε Unit) = throw e := rfl
@[simp] theorem ofOption_some (a : α) (e : ε) :
    (ofOption (some a) e : Layered abs good ε α) = pure a := rfl
@[simp] theorem ofOption_none (e : ε) : (ofOption none e : Layered abs good ε α) = throw e := rfl

/-- A search whose body only looks is a search in the list. -/
theorem ideal_firstSome {xs : List β} {body : β → Layered abs good ε (Option α)} {g : β → Option α}
    (looks : ∀ x ∈ xs, (body x).ideal t = (.ok (g x), t)) :
    (firstSome xs body).ideal t = (.ok (xs.findSome? g), t) := by
  induction xs with
  | nil => rfl
  | cons x xs ih =>
    rw [firstSome, ideal_bind, looks x List.mem_cons_self, Act.after_ok, List.findSome?_cons]
    rcases g x with _ | a
    · exact ih fun y mem => looks y (List.mem_cons_of_mem _ mem)
    · rfl

end Meanings

/-! ## Inversion -/

theorem ensure_eq_ok {c : Bool} {e : ε} {t t' : τ} {u : Unit}
    (h : (ensure c e : Layered abs good ε Unit).ideal t = (.ok u, t')) : c = true ∧ t = t' := by
  cases c
  · simp at h
  · exact ⟨rfl, congrArg Prod.snd h⟩

end Layered

end StateAct
