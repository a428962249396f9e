import Mathlib.Order.Defs.Unbundled

/-!
# Labelled steps

`Trace step s ls s'` says that the labels `ls`, in this order, lead from `s` to
`s'`.  Forgetting the labels but for a condition on them gives the preorder
`Via step K`: `s'` is reached from `s` by steps whose labels satisfy `K`.
-/

namespace Labelled

variable {σ L : Type} {step : σ → L → σ → Prop}

/-- The labels of a sequence of steps from the first state to the second. -/
inductive Trace (step : σ → L → σ → Prop) : σ → List L → σ → Prop where
  | nil (s : σ) : Trace step s [] s
  | snoc {s s' s'' : σ} {ls : List L} {l : L} :
      Trace step s ls s' → step s' l s'' → Trace step s (ls ++ [l]) s''

variable {s s' : σ}

namespace Trace

theorem single {l : L} (h : step s l s') : Trace step s [l] s' := (nil s).snoc h

theorem append {s'' : σ} {ls ls' : List L} (first : Trace step s ls s')
    (second : Trace step s' ls' s'') : Trace step s (ls ++ ls') s'' := by
  induction second with
  | nil => simpa using first
  | snoc _ last ih =>
    rw [← List.append_assoc]
    exact ih.snoc last

/-- A property that every step with a label in `K` keeps holds at the end. -/
theorem invariant {K : L → Prop} {I : σ → Prop} {ls : List L} (trace : Trace step s ls s')
    (labels : ∀ l ∈ ls, K l) (start : I s) (keep : ∀ s l s', K l → step s l s' → I s → I s') : I s' := by
  induction trace with
  | nil => exact start
  | snoc _ last ih =>
    have before := ih fun l mem => labels l (List.mem_append_left _ mem)
    exact keep _ _ _ (labels _ (by simp)) last before

end Trace

/-- Reached by steps whose labels satisfy `K`. -/
def Via (step : σ → L → σ → Prop) (K : L → Prop) (s s' : σ) : Prop :=
  ∃ ls, Trace step s ls s' ∧ ∀ l ∈ ls, K l

variable {K K' : L → Prop}

instance : IsPreorder σ (Via step K) where
  refl s := ⟨[], .nil s, by simp⟩
  trans _ _ _ first second := by
    obtain ⟨ls, trace, labels⟩ := first
    obtain ⟨ls', trace', labels'⟩ := second
    exact ⟨ls ++ ls', trace.append trace', List.forall_mem_append.mpr ⟨labels, labels'⟩⟩

theorem Via.single {l : L} (h : step s l s') (label : K l) : Via step K s s' :=
  ⟨[l], .single h, by simpa using label⟩

theorem Via.mono (h : Via step K s s') (weaker : ∀ l, K l → K' l) : Via step K' s s' := by
  obtain ⟨ls, trace, labels⟩ := h
  exact ⟨ls, trace, fun l mem => weaker l (labels l mem)⟩

/-- A preorder that holds of every step with a label in `K` holds of all that is reached. -/
theorem Via.induct {R : σ → σ → Prop} [IsPreorder σ R] (h : Via step K s s')
    (keep : ∀ s l s', K l → step s l s' → R s s') : R s s' := by
  obtain ⟨ls, trace, labels⟩ := h
  exact trace.invariant labels (refl_of R s) fun _ _ _ label last before =>
    trans_of R before (keep _ _ _ label last)

end Labelled
