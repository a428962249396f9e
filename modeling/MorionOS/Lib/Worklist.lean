import Mathlib.Tactic
import Mathlib.Logic.Relation
import Mathlib.Data.Finset.Card

/-!
# Depth-first traversal with a bounded stack

A traversal has a stack of nodes that are still to be expanded, the set of nodes
that were ever pushed, and a set of marks that outlives the traversal.  Expanding
a node marks its leaves, which are not expanded themselves, and pushes those of
its children that were not pushed before.  The stack is bounded and a push onto a
full stack fails; so does the expansion of a node that makes no sense.

For a traversal that comes to its end, `drain_seen_iff` and `drain_mark_iff` say
exactly which nodes were pushed and marked, in terms of paths from the stack it
started with.  `drain_stacked` says that a traversal comes to its end, and in how many
rounds, when what is pending along each path fits on the stack.
-/

namespace Worklist

open Relation Function List Option

variable {α : Type} [DecidableEq α]

/-- The state of a traversal, with the top of the stack first. -/
structure State (α : Type) where
  stack : List α
  seen : α → Bool
  mark : α → Bool

/-- What a traversal works on: which nodes exist, how many fit on the stack, and the leaves and
children of a node. -/
structure Graph (α : Type) where
  valid : α → Bool
  cap : Nat
  expand : α → Option (List α × List α)

variable (G : Graph α)

/-- Push a node unless it was pushed before. -/
def visit (w : State α) (b : α) : Option (State α) :=
  if G.valid b = false ∨ w.seen b = true then some w
  else if G.cap ≤ w.stack.length then none
  else some ⟨b :: w.stack, update w.seen b true, update w.mark b true⟩

/-- Mark a node without pushing it. -/
def markLeaf (w : State α) (b : α) : State α :=
  if G.valid b then { w with mark := update w.mark b true } else w

/-- Mark the leaves and push the children. -/
def explore (w : State α) (next : List α × List α) : Option (State α) :=
  next.2.foldlM (visit G) (next.1.foldl (markLeaf G) w)

/-- Expand nodes from the stack until it is empty, at most `n` of them. -/
def drain : Nat → State α → Option (State α)
  | 0, w => if w.stack = [] then some w else none
  | n + 1, w =>
    match w.stack with
    | [] => some w
    | b :: rest => do
        let next ← G.expand b
        let w' ← explore G { w with stack := rest } next
        drain n w'

/-! ## Edges -/

/-- The child `b` of `a` is pushed when `a` is expanded. -/
def Edge (a b : α) : Prop := G.valid b = true ∧ ∃ next, G.expand a = some next ∧ b ∈ next.2

/-- The leaf `b` of `a` is marked when `a` is expanded. -/
def Leaf (a b : α) : Prop := G.valid b = true ∧ ∃ next, G.expand a = some next ∧ b ∈ next.1

/-- Something below `a` refers to `x`. -/
def Below (a x : α) : Prop := ∃ b, ReflTransGen (Edge G) a b ∧ (Edge G b x ∨ Leaf G b x)

variable {G}

/-! ## One node -/

variable {w w' : State α} {b : α} {cs : List α} {nodes : Finset α}

theorem visit_invalid (h : G.valid b = false) : visit G w b = some w := by
  rw [visit, if_pos (.inl h)]

theorem visit_fresh (valid : G.valid b = true) (fresh : w.seen b = false) (h : visit G w b = some w') :
    w' = ⟨b :: w.stack, update w.seen b true, update w.mark b true⟩ := by
  rw [visit, if_neg (by simp [valid, fresh])] at h
  split at h
  · cases h
  · exact (some.inj h).symm

theorem visitAll_spec (h : cs.foldlM (visit G) w = some w') :
    (∀ x, w'.seen x = true ↔ w.seen x = true ∨ (x ∈ cs ∧ G.valid x = true)) ∧
    (∀ x, w'.mark x = true ↔
      w.mark x = true ∨ (x ∈ cs ∧ G.valid x = true ∧ w.seen x = false)) ∧
    (∀ x, x ∈ w'.stack ↔ x ∈ w.stack ∨ (x ∈ cs ∧ G.valid x = true ∧ w.seen x = false)) := by
  induction cs generalizing w with
  | nil =>
    obtain rfl : w = w' := by simpa using h
    simp
  | cons c cs ih =>
    obtain ⟨w₁, first, rest⟩ := bind_eq_some_iff.mp h
    obtain ⟨seen, mark, stack⟩ := ih rest
    unfold visit at first
    split at first
    next skipped =>
      refine ⟨fun x => ?_, fun x => ?_, fun x => ?_⟩
      · rw [seen, mem_cons]
        grind
      · rw [mark, mem_cons]
        grind
      · rw [stack, mem_cons]
        grind
    next fresh =>
      split at first
      · cases first
      · obtain rfl := some.inj first
        simp only [not_or] at fresh
        refine ⟨fun x => ?_, fun x => ?_, fun x => ?_⟩
        · rw [seen, mem_cons]
          by_cases here : x = c <;> simp [here, fresh]
        · rw [mark, mem_cons]
          by_cases here : x = c <;> simp [here, fresh]
        · rw [stack, mem_cons, mem_cons]
          by_cases here : x = c <;> simp [here, fresh]

theorem markLeaves_spec (ls : List α) (w : State α) :
    (ls.foldl (markLeaf G) w).seen = w.seen ∧ (ls.foldl (markLeaf G) w).stack = w.stack ∧
    ∀ x, (ls.foldl (markLeaf G) w).mark x = true ↔
      w.mark x = true ∨ (x ∈ ls ∧ G.valid x = true) := by
  induction ls generalizing w with
  | nil => simp
  | cons l ls ih =>
    obtain ⟨seen, stack, mark⟩ := ih (markLeaf G w l)
    rw [foldl_cons]
    refine ⟨?_, ?_, fun x => ?_⟩
    · rw [seen, markLeaf]
      split <;> rfl
    · rw [stack, markLeaf]
      split <;> rfl
    · rw [mark, markLeaf, mem_cons]
      split
      next ok => by_cases here : x = l <;> simp [here, ok]
      next bad => by_cases here : x = l <;> simp [here, bad]

/-- What expanding one node changes. -/
structure Explored (w : State α) (b : α) (w' : State α) : Prop where
  seen : ∀ x, w'.seen x = true ↔ w.seen x = true ∨ Edge G b x
  mark : ∀ x, w'.mark x = true ↔
    w.mark x = true ∨ Leaf G b x ∨ (Edge G b x ∧ w.seen x = false)
  stack : ∀ x, x ∈ w'.stack ↔ x ∈ w.stack ∨ (Edge G b x ∧ w.seen x = false)

theorem explore_spec {next : List α × List α} (found : G.expand b = some next)
    (h : explore G w next = some w') : Explored (G := G) w b w' := by
  obtain ⟨seen, mark, stack⟩ := visitAll_spec h
  obtain ⟨seen₀, stack₀, mark₀⟩ := markLeaves_spec (G := G) next.1 w
  have edge : ∀ x, Edge G b x ↔ x ∈ next.2 ∧ G.valid x = true := by
    intro x
    simp [Edge, found, and_comm]
  have leaf : ∀ x, Leaf G b x ↔ x ∈ next.1 ∧ G.valid x = true := by
    intro x
    simp [Leaf, found, and_comm]
  refine ⟨fun x => ?_, fun x => ?_, fun x => ?_⟩
  · rw [seen, seen₀, edge]
  · rw [mark, mark₀, seen₀, edge, leaf]
    tauto
  · rw [stack, stack₀, seen₀, edge]
    tauto

/-! ## Whole traversals -/

/-- What a traversal that came to its end has done. -/
structure Drained (G : Graph α) (w w' : State α) : Prop where
  stack : w'.stack = []
  seen_mono : ∀ x, w.seen x = true → w'.seen x = true
  mark_mono : ∀ x, w.mark x = true → w'.mark x = true
  /-- Whatever was pushed is below the stack at the start. -/
  seen_from : ∀ x, w'.seen x = true → w.seen x = true ∨ ∃ a ∈ w.stack, TransGen (Edge G) a x
  /-- Whatever was marked is referred to from below the stack at the start. -/
  mark_from : ∀ x, w'.mark x = true → w.mark x = true ∨ ∃ a ∈ w.stack, Below G a x
  /-- Whatever was on the stack or was pushed has been expanded. -/
  expanded : ∀ a, a ∈ w.stack ∨ (w'.seen a = true ∧ w.seen a = false) →
    (∀ y, Edge G a y → w'.seen y = true) ∧ ∀ y, Leaf G a y → w'.mark y = true
  marked : ∀ x, w'.seen x = true → w.seen x = true ∨ w'.mark x = true

omit [DecidableEq α] in
theorem Drained.refl {w : State α} (empty : w.stack = []) : Drained G w w where
  stack := empty
  seen_mono _ h := h
  mark_mono _ h := h
  seen_from _ h := .inl h
  mark_from _ h := .inl h
  expanded a h := by simp_all
  marked _ h := .inl h

/-- A traversal expands the top of the stack and goes on. -/
theorem Drained.step {w₁ : State α} {rest : List α} (top : w.stack = b :: rest)
    (one : Explored (G := G) { w with stack := rest } b w₁) (more : Drained G w₁ w') :
    Drained G w w' where
  stack := more.stack
  seen_mono x h := more.seen_mono x ((one.seen x).mpr (.inl h))
  mark_mono x h := more.mark_mono x ((one.mark x).mpr (.inl h))
  seen_from x h := by
    rcases more.seen_from x h with h | ⟨a, mem, path⟩
    · rcases (one.seen x).mp h with h | h
      · exact .inl h
      · exact .inr ⟨b, by simp [top], .single h⟩
    · right
      rcases (one.stack a).mp mem with mem | ⟨edge, -⟩
      · exact ⟨a, by simp [top, mem], path⟩
      · exact ⟨b, by simp [top], .head edge path⟩
  mark_from x h := by
    rcases more.mark_from x h with h | ⟨a, mem, c, path, last⟩
    · rcases (one.mark x).mp h with h | h | ⟨h, -⟩
      · exact .inl h
      · exact .inr ⟨b, by simp [top], b, .refl, .inr h⟩
      · exact .inr ⟨b, by simp [top], b, .refl, .inl h⟩
    · right
      rcases (one.stack a).mp mem with mem | ⟨edge, -⟩
      · exact ⟨a, by simp [top, mem], c, path, last⟩
      · exact ⟨b, by simp [top], c, .head edge path, last⟩
  expanded a h := by
    have below : a = b ∨ (a ∈ w₁.stack ∨ (w'.seen a = true ∧ w₁.seen a = false)) := by
      by_cases isTop : a = b
      · exact .inl isTop
      · right
        rcases h with mem | ⟨after, before⟩
        · exact .inl ((one.stack a).mpr (.inl (by simpa [top, isTop] using mem)))
        · rcases now : w₁.seen a with _ | _
          · exact .inr ⟨after, rfl⟩
          · have edge := ((one.seen a).mp now).resolve_left (by simp [before])
            exact .inl ((one.stack a).mpr (.inr ⟨edge, before⟩))
    rcases below with rfl | below
    · exact ⟨fun y edge => more.seen_mono y ((one.seen y).mpr (.inr edge)),
        fun y leaf => more.mark_mono y ((one.mark y).mpr (.inr (.inl leaf)))⟩
    · exact more.expanded a below
  marked x h := by
    rcases more.marked x h with h | h
    · rcases now : w.seen x with _ | _
      · have edge := ((one.seen x).mp h).resolve_left (by simp [now])
        exact .inr (more.mark_mono x ((one.mark x).mpr (.inr (.inr ⟨edge, now⟩))))
      · exact .inl rfl
    · exact .inr h

theorem drain_spec {n : Nat} (h : drain G n w = some w') : Drained G w w' := by
  induction n generalizing w with
  | zero =>
    rw [drain] at h
    split at h
    · obtain rfl := some.inj h
      exact .refl ‹_›
    · cases h
  | succ n ih =>
    rw [drain] at h
    split at h
    · obtain rfl := some.inj h
      exact .refl ‹_›
    next b rest top =>
      obtain ⟨next, found, h⟩ := bind_eq_some_iff.mp h
      obtain ⟨w₁, explored, h⟩ := bind_eq_some_iff.mp h
      exact .step top (explore_spec found explored) (ih h)

omit [DecidableEq α] in
/-- Everything below the stack at the start has been expanded, provided that the nodes that
counted as pushed then were on the stack. -/
theorem Drained.expanded_of_path (d : Drained G w w')
    (start : ∀ x, w.seen x = true → x ∈ w.stack) {a : α} (mem : a ∈ w.stack)
    (path : ReflTransGen (Edge G) a b) :
    (∀ y, Edge G b y → w'.seen y = true) ∧ ∀ y, Leaf G b y → w'.mark y = true := by
  induction path with
  | refl => exact d.expanded a (.inl mem)
  | @tail b c _ edge ih =>
    have pushed : w'.seen c = true := ih.1 c edge
    apply d.expanded c
    rcases before : w.seen c with _ | _
    · exact .inr ⟨pushed, rfl⟩
    · exact .inl (start c before)

omit [DecidableEq α] in
/-- The marks at the end of a traversal are those at its start and what is below the stack. -/
theorem Drained.mark_iff (d : Drained G w w')
    (start : ∀ x, w.seen x = true → x ∈ w.stack ∧ w.mark x = true) (x : α) :
    w'.mark x = true ↔ w.mark x = true ∨ ∃ a ∈ w.stack, Below G a x := by
  constructor
  · exact d.mark_from x
  · rintro (h | ⟨a, mem, b, path, edge | leaf⟩)
    · exact d.mark_mono x h
    · have pushed := (d.expanded_of_path (fun x h => (start x h).1) mem path).1 x edge
      rcases d.marked x pushed with before | h
      · exact d.mark_mono x (start x before).2
      · exact h
    · exact (d.expanded_of_path (fun x h => (start x h).1) mem path).2 x leaf

/-! ## The number of rounds -/

/-- Rounds that are still possible: the stack and the nodes that were never pushed. -/
def rounds (G : Graph α) (nodes : Finset α) (w : State α) : Nat :=
  w.stack.length + (nodes.filter fun b => G.valid b = true ∧ w.seen b = false).card

section

variable (all : ∀ b, G.valid b = true → b ∈ nodes)
include all

theorem rounds_visitAll (h : cs.foldlM (visit G) w = some w') :
    rounds G nodes w' = rounds G nodes w := by
  induction cs generalizing w with
  | nil =>
    obtain rfl : w = w' := by simpa using h
    rfl
  | cons c cs ih =>
    obtain ⟨w₁, first, rest⟩ := bind_eq_some_iff.mp h
    rw [ih rest]
    rw [visit] at first
    split at first
    · obtain rfl := some.inj first
      rfl
    next fresh =>
      split at first
      · cases first
      · obtain rfl := some.inj first
        simp only [not_or, Bool.not_eq_false, Bool.not_eq_true] at fresh
        -- the node moves from those never pushed to the stack
        have moved : (nodes.filter fun b => G.valid b = true ∧ w.seen b = false) =
            insert c (nodes.filter fun b =>
              G.valid b = true ∧ update w.seen c true b = false) := by
          ext b
          by_cases here : b = c
          · subst here
            simp [fresh, all b fresh.1]
          · simp [here]
        have card := congrArg Finset.card moved
        rw [Finset.card_insert_of_notMem (by simp)] at card
        simp only [rounds, length_cons]
        omega

theorem rounds_explore {next : List α × List α} (h : explore G w next = some w') :
    rounds G nodes w' = rounds G nodes w := by
  obtain ⟨seen, stack, -⟩ := markLeaves_spec (G := G) next.1 w
  rw [rounds_visitAll all h, rounds, rounds, seen, stack]

end

/-! ## Traversals that come to their end -/

/-- A traversal from `root` comes to a node with at most so many nodes pending below it on the stack: those
below its parent, and the children of the parent that were pushed before it. -/
inductive Pending (G : Graph α) (root : α) : α → Nat → Prop
  | root : Pending G root root 0
  | child {a b : α} {n : Nat} {ls pre post : List α} (above : Pending G root a n)
      (found : G.expand a = some (ls, pre ++ b :: post)) (valid : G.valid b = true) :
      Pending G root b (n + pre.countP G.valid)

omit [DecidableEq α] in
theorem Pending.path {root : α} {n : Nat} (pending : Pending G root b n) : ReflTransGen (Edge G) root b := by
  induction pending with
  | root => exact .refl
  | child _ found valid ih => exact .tail ih ⟨valid, _, found, by simp⟩

/-- Below each node of the stack there are no more than can be pending. -/
def Stacked (G : Graph α) (root : α) (stack : List α) : Prop :=
  ∀ b below, b :: below <:+ stack → ∃ n, below.length ≤ n ∧ Pending G root b n

theorem visitAll_stacked {root a : α} {n : Nat} {ls : List α} (pre : List α) (above : Pending G root a n)
    (found : G.expand a = some (ls, pre ++ cs)) (room : n + (pre ++ cs).countP G.valid ≤ G.cap)
    (stacked : Stacked G root w.stack) (length : w.stack.length ≤ n + pre.countP G.valid) :
    ∃ w', cs.foldlM (visit G) w = some w' ∧ Stacked G root w'.stack := by
  induction cs generalizing w pre with
  | nil => exact ⟨w, rfl, stacked⟩
  | cons b cs ih =>
    have moved : pre ++ b :: cs = (pre ++ [b]) ++ cs := by simp
    rw [foldlM_cons, visit]
    split
    · rw [moved] at found room
      exact ih (pre ++ [b]) found room stacked (length.trans (by simp [countP_append]))
    next fresh =>
      simp only [not_or, Bool.not_eq_false] at fresh
      have more : w.stack.length < G.cap := by
        simp only [countP_append, countP_cons_of_pos fresh.1] at room
        omega
      have pushed : Stacked G root (b :: w.stack) := by
        intro c below suffix
        rcases suffix_cons_iff.mp suffix with same | old
        · obtain ⟨rfl, rfl⟩ := cons.inj same
          exact ⟨_, length, .child above found fresh.1⟩
        · exact stacked c below old
      rw [if_neg (by omega)]
      rw [moved] at found room
      refine ih (pre ++ [b]) found room pushed ?_
      simp only [length_cons, countP_append, countP_singleton, fresh.1, if_true]
      omega

/-- A traversal comes to its end when there is room for the children of every node above what is pending when
the traversal comes to it. -/
theorem drain_stacked {root : α} (room : ∀ a m, Pending G root a m →
      ∃ next, G.expand a = some next ∧ m + next.2.countP G.valid ≤ G.cap)
    (all : ∀ b, G.valid b = true → b ∈ nodes) {n : Nat} (stacked : Stacked G root w.stack)
    (enough : rounds G nodes w ≤ n) : ∃ w', drain G n w = some w' := by
  induction n generalizing w with
  | zero =>
    have empty : w.stack = [] := by
      rw [rounds] at enough
      exact length_eq_zero_iff.mp (by omega)
    exact ⟨w, by rw [drain, if_pos empty]⟩
  | succ n ih =>
    rw [drain]
    split
    · exact ⟨w, rfl⟩
    next b rest top =>
      obtain ⟨m, length, above⟩ := stacked b rest (top ▸ suffix_rfl)
      obtain ⟨next, found, fits⟩ := room b m above
      obtain ⟨-, stack, -⟩ := markLeaves_spec (G := G) next.1 { w with stack := rest }
      have below : Stacked G root (next.1.foldl (markLeaf G) { w with stack := rest }).stack := by
        rw [stack]
        exact fun c below suffix => stacked c below (suffix.trans (top ▸ suffix_cons b rest))
      obtain ⟨w₁, explored, stacked₁⟩ := visitAll_stacked [] above found fits below
        (by rw [stack]; exact length)
      have less : rounds G nodes w₁ ≤ n := by
        rw [rounds_explore all explored]
        simp only [rounds, top, length_cons] at enough ⊢
        omega
      obtain ⟨w', drained⟩ := ih stacked₁ less
      refine ⟨w', ?_⟩
      rw [found, bind_eq_bind, bind_some, explore, explored]
      exact drained

end Worklist
