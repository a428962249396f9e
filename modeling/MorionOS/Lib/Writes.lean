import Mathlib.Tactic
import Mathlib.Logic.Function.Basic

/-!
# Sequences of writes to an addressed store

A store is a function from addresses to contents.  `applyWrites` performs a list
of writes from left to right, so the last write to an address wins.
-/

namespace StateAct

open Function

variable {α β : Type} [DecidableEq α]

/-- Perform the writes from left to right. -/
def applyWrites (store : α → β) (ws : List (α × β)) : α → β :=
  ws.foldl (fun st w => update st w.1 w.2) store

variable (store : α → β)

@[simp] theorem applyWrites_nil : applyWrites store [] = store := rfl

@[simp] theorem applyWrites_cons (w : α × β) (ws : List (α × β)) :
    applyWrites store (w :: ws) = applyWrites (update store w.1 w.2) ws := rfl

theorem applyWrites_append (ws vs : List (α × β)) :
    applyWrites store (ws ++ vs) = applyWrites (applyWrites store ws) vs :=
  List.foldl_append

variable {ws : List (α × β)}

/-- Stores that differ only at written addresses are equal after the writes. -/
theorem applyWrites_congr {st st' : α → β}
    (same : ∀ a, (∀ w ∈ ws, w.1 ≠ a) → st a = st' a) : applyWrites st ws = applyWrites st' ws := by
  induction ws generalizing st st' with
  | nil => exact funext fun a => same a (by simp)
  | cons w ws ih =>
    rw [applyWrites_cons, applyWrites_cons]
    apply ih
    intro a untouched
    by_cases here : a = w.1
    · rw [here, update_self, update_self]
    · rw [update_of_ne here, update_of_ne here]
      exact same a (by simpa using ⟨fun h => here h.symm, fun x y h => untouched (x, y) h⟩)

variable (st : α → β)

theorem applyWrites_untouched {a : α}
    (untouched : ∀ w ∈ ws, w.1 ≠ a) : applyWrites st ws a = st a := by
  induction ws generalizing st with
  | nil => rfl
  | cons w ws ih =>
    rw [applyWrites_cons, ih _ fun x h => untouched x (List.mem_cons_of_mem _ h)]
    exact update_of_ne (untouched w List.mem_cons_self).symm _ _

/-- An address holds what is written to it when all writes to it agree. -/
theorem applyWrites_eq_of_mem {a : α} {x : β} (member : (a, x) ∈ ws)
    (agree : ∀ w ∈ ws, w.1 = a → w.2 = x) : applyWrites st ws a = x := by
  induction ws generalizing st with
  | nil => cases member
  | cons w ws ih =>
    rw [applyWrites_cons]
    by_cases later : ∃ w' ∈ ws, w'.1 = a
    · obtain ⟨w', inside, here⟩ := later
      have content := agree w' (List.mem_cons_of_mem _ inside) here
      apply ih
      · rw [← here, ← content]
        exact inside
      · exact fun w'' inside' => agree w'' (List.mem_cons_of_mem _ inside')
    · rcases List.mem_cons.mp member with rfl | inside
      · rw [applyWrites_untouched _ fun w' inside here => later ⟨w', inside, here⟩]
        exact update_self _ _ _
      · exact absurd ⟨(a, x), inside, rfl⟩ later

/-- Repeating a sequence of writes after a part of it was performed changes nothing. -/
theorem applyWrites_then_all {vs : List (α × β)} (part : vs ⊆ ws) :
    applyWrites (applyWrites st vs) ws = applyWrites st ws :=
  applyWrites_congr fun _ untouched => applyWrites_untouched st fun w h => untouched w (part h)

end StateAct
