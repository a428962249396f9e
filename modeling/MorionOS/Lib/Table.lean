import Mathlib.Data.List.GetD
import Mathlib.Tactic.Common

/-!
# Tables that grow on demand

A table is a list of rows.  `row` reads a row and answers `pad` beyond the end,
`put` sets one and grows the table with `pad` when it is too short, so the two
together behave like a total map.  `fill` takes the first empty slot of a row of
slots.
-/

namespace Table

variable {α : Type}

/-- The row with this number; rows beyond the end read as `pad`. -/
def row (pad : α) (t : List α) (i : Nat) : α := t[i]?.getD pad

/-- Set a row, growing the table with `pad` when it is too short. -/
def put (pad : α) (t : List α) (i : Nat) (x : α) : List α :=
  (t ++ List.replicate (i + 1 - t.length) pad).set i x

variable {pad x : α} {t : List α} {i : Nat}

theorem row_of_getElem? (found : t[i]? = some x) : row pad t i = x := by
  rw [row, found, Option.getD_some]

theorem row_set (inside : i < t.length) (j : Nat) :
    row pad (t.set i x) j = if j = i then x else row pad t j := by
  unfold row
  by_cases here : j = i
  · subst here
    simp [inside]
  · simp [here, List.getElem?_set_ne (Ne.symm here)]

theorem row_modify (inside : i < t.length) (f : α → α) (j : Nat) :
    row pad (t.modify i f) j = if j = i then f (row pad t i) else row pad t j := by
  unfold row
  by_cases here : j = i
  · subst here
    simp [inside]
  · simp [here, Ne.symm here]

theorem row_replicate (pad x : α) (n j : Nat) :
    row pad (List.replicate n x) j = if j < n then x else pad := by
  unfold row
  rw [List.getElem?_replicate]
  split <;> rfl

theorem row_append_replicate (pad : α) (t : List α) (n j : Nat) :
    row pad (t ++ List.replicate n pad) j = row pad t j := by
  unfold row
  rcases Nat.lt_or_ge j t.length with inside | beyond
  · rw [List.getElem?_append_left inside]
  · rw [List.getElem?_append_right beyond, List.getElem?_replicate, List.getElem?_eq_none beyond]
    split <;> rfl

theorem row_put (pad : α) (t : List α) (i : Nat) (x : α) (j : Nat) :
    row pad (put pad t i x) j = if j = i then x else row pad t j := by
  rw [put, row_set (by simp; omega), row_append_replicate]

theorem getElem?_put (pad : α) (t : List α) (i : Nat) (x : α) : (put pad t i x)[i]? = some x := by
  rw [put, List.getElem?_set_self (by simp; omega)]

/-- Put `x` into the first empty slot and say which one it was; `none` when all
slots are taken. -/
def fill : List (Option α) → α → Option (Nat × List (Option α))
  | [], _ => none
  | none :: slots, x => some (0, some x :: slots)
  | some y :: slots, x => (fill slots x).map fun filled => (filled.1 + 1, some y :: filled.2)

theorem mem_fill {y : α} {slots slots' : List (Option α)}
    (filled : fill slots x = some (i, slots')) : some y ∈ slots' ↔ y = x ∨ some y ∈ slots := by
  induction slots generalizing i slots' with
  | nil => cases filled
  | cons slot slots ih =>
    cases slot with
    | none =>
      cases filled
      simp
    | some z =>
      obtain ⟨⟨k, rest⟩, inner, eq⟩ := Option.map_eq_some_iff.mp filled
      cases eq
      simp only [List.mem_cons, ih inner]
      tauto

theorem fill_eq_set {slots slots' : List (Option α)} (filled : fill slots x = some (i, slots')) :
    slots[i]? = some none ∧ slots' = slots.set i (some x) := by
  induction slots generalizing i slots' with
  | nil => cases filled
  | cons slot slots ih =>
    cases slot with
    | none =>
      cases filled
      exact ⟨rfl, rfl⟩
    | some z =>
      obtain ⟨⟨k, rest⟩, inner, eq⟩ := Option.map_eq_some_iff.mp filled
      cases eq
      obtain ⟨free, set⟩ := ih inner
      exact ⟨free, by rw [set]; rfl⟩

/-- The slots before the one that is taken are in use. -/
theorem fill_first {slots slots' : List (Option α)} (filled : fill slots x = some (i, slots')) :
    none ∉ slots.take i := by
  induction slots generalizing i slots' with
  | nil => cases filled
  | cons slot slots ih =>
    cases slot with
    | none =>
      cases filled
      exact List.not_mem_nil
    | some z =>
      obtain ⟨⟨k, rest⟩, inner, eq⟩ := Option.map_eq_some_iff.mp filled
      cases eq
      simpa using ih inner

/-- A row without room is full. -/
theorem fill_eq_none {slots : List (Option α)} (full : fill slots x = none) : none ∉ slots := by
  induction slots with
  | nil => exact List.not_mem_nil
  | cons slot slots ih =>
    cases slot with
    | none => cases full
    | some z => simpa using ih (Option.map_eq_none_iff.mp full)

end Table
