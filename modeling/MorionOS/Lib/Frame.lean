import MorionOS.Lib.Outcome
import Mathlib.Order.Defs.Unbundled

/-!
# What programs keep

`Act.Keeps R m` says that `m` leads, with whatever outcome, from a state to one
that is related to it by the preorder `R`.  A frame condition ("everything else
is unchanged") is such a preorder.  The rules below derive `Keeps` of a program
from that of its parts; for the runs of a `Layered` program (`Layered.Within`) they
are instances, and only loops and case distinctions need a proof.

`Layered.SucceedsAs I m` is about the successful runs of `m` only: from a state
with `I` they are what the abstract meaning says, although other runs may fail
where the abstract meaning does not.
-/

namespace StateAct

/-! ## Frames -/

namespace Act

variable {σ ε ε' α β : Type} (R : σ → σ → Prop)

/-- Every outcome of `m` is related to the state it started from. -/
def Keeps (m : σ → Except ε α × σ) : Prop := ∀ s, R s (m s).2

variable {R} [IsPreorder σ R]

theorem keeps_same (r : σ → Except ε α) : Keeps R fun s => (r s, s) :=
  fun s => refl_of R s

variable {m : σ → Except ε α × σ}

omit [IsPreorder σ R] in
/-- Both outcomes are related to the state before. -/
theorem Keeps.ends (h : Keeps R m) (s : σ) :
    Ends (m s) (fun _ s' => R s s') (R s) := by
  have step := h s
  rcases result : m s with ⟨e | a, s'⟩ <;>
    · rw [result] at step
      exact step

theorem Keeps.after {f : α → σ → Except ε β × σ} (first : Keeps R m)
    (rest : ∀ a, Keeps R (f a)) : Keeps R fun s => Act.after (m s) f := by
  intro s
  have step := first s
  dsimp only
  rcases result : m s with ⟨e | a, s'⟩
  · rw [result] at step
    exact step
  · rw [result] at step
    exact trans_of R step (rest a s')

omit [IsPreorder σ R] in
theorem Keeps.caught (h : Keeps R m) :
    Keeps R fun s => (Act.caught (m s) : Except ε' (Option α) × σ) := by
  intro s
  have step := h s
  dsimp only
  rcases result : m s with ⟨e | a, s'⟩ <;>
    · rw [result] at step
      exact step

omit [IsPreorder σ R] in
theorem Keeps.relabelled (e : ε') (h : Keeps R m) :
    Keeps R fun s => Act.relabelled e (m s) := by
  intro s
  have step := h s
  dsimp only
  rcases result : m s with ⟨e | a, s'⟩ <;>
    · rw [result] at step
      exact step

end Act

namespace Layered

open Act

variable {σ τ : Type} {abs : σ → τ} {good : σ → Prop} {ε ε' α β : Type}

section Run

variable (R : σ → σ → Prop)

/-- Every run of the program keeps `R`.  The rules are instances: a program that is put together from others
keeps `R` when they do. -/
class Within (m : Layered abs good ε α) : Prop where
  keeps : Keeps R m.run

variable {R} {m : Layered abs good ε α}

instance [h : Within R m] : Within R (attempt m : Layered abs good ε' (Option α)) := ⟨h.keeps.caught⟩

instance {e : ε'} [h : Within R m] : Within R (m.orErr e) := ⟨h.keeps.relabelled e⟩

theorem Within.ite {c : Prop} [Decidable c] {m' : Layered abs good ε α} (yes : Within R m) (no : Within R m') :
    Within R (if c then m else m') := by
  split
  · exact yes
  · exact no

instance {c : Prop} [Decidable c] {m' : Layered abs good ε α} [yes : Within R m] [no : Within R m'] :
    Within R (if c then m else m') := yes.ite no

variable [IsPreorder σ R]

theorem Within.bind {f : α → Layered abs good ε β} (first : Within R m) (rest : ∀ a, Within R (f a)) :
    Within R (m >>= f) := ⟨first.keeps.after fun a => (rest a).keeps⟩

theorem Within.next {f : α → Layered abs good ε β} [first : Within R m] (rest : ∀ a, Within R (f a)) :
    Within R (m >>= f) := first.bind rest

instance {f : α → Layered abs good ε β} [first : Within R m] [rest : ∀ a, Within R (f a)] :
    Within R (m >>= f) := first.bind rest

instance {a : α} : Within R (pure a : Layered abs good ε α) := ⟨keeps_same _⟩

instance {e : ε} : Within R (throw e : Layered abs good ε α) := ⟨keeps_same _⟩

instance {c : Bool} {e : ε} : Within R (ensure c e : Layered abs good ε Unit) :=
  ⟨by cases c <;> exact keeps_same _⟩

instance {o : Option α} {e : ε} : Within R (ofOption o e : Layered abs good ε α) :=
  ⟨by cases o <;> exact keeps_same _⟩

variable {xs : List β}

instance {body : β → Layered abs good ε Unit} [h : ∀ x, Within R (body x)] : Within R (each xs body) := by
  induction xs with
  | nil => exact inferInstanceAs (Within R (pure ()))
  | cons x xs ih => exact (h x).bind fun _ => ih

instance {body : β → Layered abs good ε (Option α)} [h : ∀ x, Within R (body x)] :
    Within R (firstSome xs body) := by
  induction xs with
  | nil => exact inferInstanceAs (Within R (pure none))
  | cons x xs ih =>
    refine (h x).bind fun found => ?_
    cases found with
    | none => exact ih
    | some a => exact inferInstanceAs (Within R (pure (some a)))

end Run

/-! ## Successful runs -/

/-- From a state with `I` a successful run does what the abstract meaning says. -/
def SucceedsAs (I : σ → Prop) (m : Layered abs good ε α) : Prop :=
  ∀ s a s', I s → m.run s = (.ok a, s') → m.ideal (abs s) = (.ok a, abs s') ∧ I s'

variable {I : σ → Prop}

theorem succeedsAs_pure (a : α) : SucceedsAs I (pure a : Layered abs good ε α) := by
  rintro s b s' inv ran
  obtain ⟨rfl, rfl⟩ : a = b ∧ s = s' := by simpa using ran
  exact ⟨rfl, inv⟩

theorem succeedsAs_throw (e : ε) : SucceedsAs I (throw e : Layered abs good ε α) := by
  rintro s b s' inv ran
  simp at ran

theorem SucceedsAs.bind {m : Layered abs good ε α} {f : α → Layered abs good ε β}
    (first : SucceedsAs I m) (rest : ∀ a, SucceedsAs I (f a)) : SucceedsAs I (m >>= f) := by
  intro s b s' inv ran
  obtain ⟨a, s₁, ran₁, ran₂⟩ := Act.after_eq_ok ran
  obtain ⟨ideal₁, inv₁⟩ := first s a s₁ inv ran₁
  rw [ideal_bind, ideal₁]
  exact rest a s₁ b s' inv₁ ran₂

theorem succeedsAs_each {xs : List β} {body : β → Layered abs good ε Unit}
    (h : ∀ x ∈ xs, SucceedsAs I (body x)) : SucceedsAs I (each xs body) := by
  induction xs with
  | nil => exact succeedsAs_pure ()
  | cons x xs ih =>
    exact (h x List.mem_cons_self).bind fun _ => ih fun y member => h y (List.mem_cons_of_mem _ member)

end Layered

end StateAct
