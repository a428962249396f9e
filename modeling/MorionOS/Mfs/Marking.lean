import MorionOS.Mfs.Reach
import MorionOS.Lib.Frame

/-!
# What garbage collection marks

A successful `mfsGcMark` marks the metadata area and the blocks reachable from the
roots.  The traversal stack is not emptied before a collection, so the blocks that
an earlier, failed traversal left on it are expanded together with the first root;
`LeftBelow` are the blocks that are marked for that reason only.
-/

namespace MorionOS.Mfs

open StateAct Layered

/-- Block `b` is referred to from below a block on `stack`, with the inode table whose index is
block `itab`. -/
def LeftBelow (store : Nat → Block) (total itab : Nat) (stack : List Nat) (b : Nat) : Prop :=
  ∃ index, (store itab).indexTable = some index ∧
    ∃ a ∈ stack, Worklist.Below (blockGraph store index total) a b

variable {store : Nat → Block} {total itab : Nat}

/-! ## The inode table of a root -/

theorem foldlM_guarded {α β : Type} {ok : β → Bool} {f : α → β → α} (xs : List β) (a : α) :
    xs.foldlM (fun a x => if ok x then some (f a x) else none) a =
      if xs.all ok then some (xs.foldl f a) else none := by
  induction xs generalizing a with
  | nil => rfl
  | cons x xs ih =>
    rw [List.foldlM_cons, List.foldl_cons, List.all_cons]
    rcases ok x with _ | _
    · rfl
    · exact ih (f a x)

theorem traverses_markTable (store : Nat → Block) (total : Nat) (index : Nat → Nat) (t : Nat) :
    Traverses store (markTable total t) fun w =>
      if (t == 0 || decide (t < total)) = true
      then some (Worklist.markLeaf (blockGraph store index total) w t) else none := by
  by_cases zero : t = 0
  · simp only [zero]
    exact (traverses_markLeaf index 0).of_eq fun _ => rfl
  · by_cases inside : t < total
    · simpa [markTable, markLeaf, inside] using
        (traverses_ensure true).bind (traverses_markLeaf index t)
    · simpa [markTable, zero, inside] using traverses_throw

theorem traverses_markTables (slots : Nat → Nat) (n : Nat) :
    Traverses store (each (List.range n) fun k => markTable total (slots k)) fun w =>
      if ∀ k < n, slots k = 0 ∨ slots k < total
      then some (((List.range n).map slots).foldl (Worklist.markLeaf (blockGraph store slots total)) w)
      else none := by
  refine (Traverses.each (fun k => traverses_markTable store total slots (slots k)) _).of_eq fun w => ?_
  rw [foldlM_guarded, List.foldl_map]
  simp

variable {c c' : Core}

theorem markTables_ok {slots : Nat → Nat} {n : Nat}
    (h : (each (List.range n) fun k => markTable total (slots k)).ideal c = (.ok (), c')) :
    (∀ k < n, slots k = 0 ∨ slots k < total) ∧
    ∃ mark, c' = c.withWork { c.work with mark := mark } ∧
      ∀ b, mark b = true ↔ c.mem.gc.mark b = true ∨ (b ≠ 0 ∧ ∃ k < n, slots k = b) := by
  obtain ⟨w, marked, rfl⟩ := (traverses_markTables slots n c c' rfl).mp h
  obtain ⟨small, done⟩ := Option.ite_none_right_eq_some.mp marked
  obtain ⟨seen, stack, mark⟩ := Worklist.markLeaves_spec
    (G := blockGraph c.store slots total) ((List.range n).map slots) c.work
  rw [Option.some.inj done] at seen stack mark
  refine ⟨small, w.mark, ?_, fun b => ?_⟩
  · rw [Core.withWork, Core.withWork, seen, stack]
  · rw [mark]
    refine or_congr Iff.rfl ⟨?_, ?_⟩
    · rintro ⟨mem, valid⟩
      simp only [blockGraph, Bool.and_eq_true, bne_iff_ne] at valid
      exact ⟨valid.1, by simpa using mem⟩
    · rintro ⟨nonzero, k, inside, rfl⟩
      refine ⟨List.mem_map.mpr ⟨k, by simpa using inside, rfl⟩, ?_⟩
      simp [blockGraph, nonzero, (small k inside).resolve_left nonzero]

/-- Loading the index of a root marks the index and its table blocks. -/
theorem mfsGcLoadItab_ok {index : Nat → Nat}
    (h : (mfsGcLoadItab itab total).ideal c = (.ok index, c')) :
    itab ≠ 0 ∧ itab < total ∧ (c.store itab).indexTable = some index ∧
    (∀ k < MFS_ITAB_SLOTS, index k = 0 ∨ index k < total) ∧
    ∃ mark, c' = c.withWork { c.work with mark := mark } ∧
      ∀ b, mark b = true ↔ c.mem.gc.mark b = true ∨ b = itab ∨
        (b ≠ 0 ∧ ∃ k < MFS_ITAB_SLOTS, index k = b) := by
  obtain ⟨_, _, ensured, rest⟩ := Act.after_eq_ok h
  obtain ⟨fits, rfl⟩ := ensure_eq_ok ensured
  simp only [Bool.and_eq_true, bne_iff_ne, decide_eq_true_eq] at fits
  obtain ⟨nonzero, inside⟩ := fits
  have marked : (mfsMarkSet itab total).ideal c = (.ok (),
      c.withWork { c.work with mark := Function.update c.mem.gc.mark itab true }) := by
    simp [mfsMarkSet, Gc.markSet, Nat.not_le.mpr inside, Core.withWork, Core.work, Mem.setGc]
  rw [ideal_bind, marked, Act.after_ok, ideal_mfsReadBlk_bind] at rest
  rcases content : c.store itab with _ | _ | _ | _ | _ | _ | _ | _ | _ | _ | _ | _ | slots | _
  case itabx =>
    simp only [Core.store_withWork, content, ideal_bind] at rest
    obtain ⟨_, c₁, looped, ended⟩ := Act.after_eq_ok rest
    obtain ⟨rfl, rfl⟩ : slots = index ∧ c₁ = c' := by simpa using ended
    obtain ⟨small, mark, rfl, marks⟩ := markTables_ok looped
    refine ⟨nonzero, inside, rfl, small, mark, rfl, fun b => ?_⟩
    rw [marks]
    by_cases here : b = itab <;> simp [here]
  all_goals simp [content] at rest

/-! ## One root -/

/-- The traversal from the block `root` on, with nothing seen so far. -/
theorem drain_from_root {index : Nat → Nat} {root n : Nat} {stack : List Nat} {mark : Nat → Bool}
    {w w' : Worklist.State Nat}
    (pushed : Worklist.visit (blockGraph store index total) ⟨stack, fun _ => false, mark⟩ root = some w)
    (drained : Worklist.drain (blockGraph store index total) n w = some w') (nonzero : root ≠ 0) :
    w'.stack = [] ∧ ∀ b, w'.mark b = true ↔ mark b = true ∨
      (root < total ∧ InTree store index total root b) ∨
      ∃ a ∈ stack, Worklist.Below (blockGraph store index total) a b := by
  have spec := Worklist.drain_spec drained
  refine ⟨spec.stack, fun b => ?_⟩
  by_cases inside : root < total
  · -- the root is on the stack, seen and marked
    have fresh : w = ⟨root :: stack, Function.update (fun _ => false) root true,
        Function.update mark root true⟩ :=
      Worklist.visit_fresh (by simp [blockGraph, nonzero, inside]) rfl pushed
    rw [spec.mark_iff (by intro x seen; by_cases here : x = root <;> simp_all) b, fresh]
    by_cases here : b = root <;> simp [here, inside, InTree]
  · -- a root outside the volume is passed over
    rw [Worklist.visit_invalid (by simp [blockGraph, inside])] at pushed
    obtain rfl := Option.some.inj pushed
    rw [spec.mark_iff (by simp) b]
    simp [inside]

theorem ideal_clearSeen (c : Core) :
    (setGc fun g => { g with seen := fun _ => false } : Op Unit Unit).ideal c =
      (.ok (), c.withWork { c.work with seen := fun _ => false }) := rfl

theorem ideal_setMarks (mark : Nat → Bool) (c : Core) :
    (setGc fun g => { g with mark := mark } : Op Unit Unit).ideal c =
      (.ok (), c.withWork { c.work with mark := mark }) := rfl

theorem gcRoot_ok (h : (gcRoot total itab).ideal c = (.ok (), c')) :
    itab < total ∧ ∃ w, c' = c.withWork w ∧ w.stack = [] ∧
      ∀ b, w.mark b = true ↔ c.mem.gc.mark b = true ∨ Reachable c.store total itab b ∨
        LeftBelow c.store total itab c.mem.gc.stack b := by
  obtain ⟨index, c₁, loaded, h⟩ := Act.after_eq_ok h
  obtain ⟨-, inside, table, -, mark, rfl, marks⟩ := mfsGcLoadItab_ok loaded
  rw [ideal_bind, ideal_clearSeen, Act.after_ok, Core.work_withWork, Core.withWork_withWork, ideal_bind,
    ideal_mfsGcInoBlock, Core.store_withWork] at h
  rcases entry : inoBlockIn c.store index MFS_ROOT_INO with _ | root
  · simp [entry] at h
  · rw [entry, Option.elim_some, Act.after_ok, ideal_bind] at h
    obtain ⟨_, _, ensured, h⟩ := Act.after_eq_ok h
    obtain ⟨nonzero, rfl⟩ := ensure_eq_ok ensured
    have walked : Traverses c.store (mfsGcPush root total >>= fun _ => mfsGcDrain index total) _ :=
      (traverses_mfsGcPush index root).bind (traverses_mfsGcDrain index)
    obtain ⟨w, steps, rfl⟩ := (walked (c.withWork ⟨c.mem.gc.stack, fun _ => false, mark⟩) c' rfl).mp h
    rw [Core.work_withWork] at steps
    obtain ⟨w₁, pushed, drained⟩ := Option.bind_eq_some_iff.mp steps
    obtain ⟨empty, below⟩ := drain_from_root pushed drained (by simpa using nonzero)
    refine ⟨inside, w, rfl, empty, fun b => ?_⟩
    rw [below, marks]
    simp only [Reachable, LeftBelow, table, entry, Option.some.injEq, exists_eq_left']
    have nonzero : root ≠ 0 := by simpa using nonzero
    simp [nonzero, or_assoc]

/-! ## All roots -/

theorem not_leftBelow_nil (b : Nat) : ¬ LeftBelow store total itab [] b := by
  rintro ⟨_, _, a, mem, _⟩
  simp at mem

/-- With an empty stack, marking from several roots marks what is reachable from them. -/
theorem gcRoots_ok {roots : List Nat} (empty : c.mem.gc.stack = [])
    (h : (each roots (gcRoot total)).ideal c = (.ok (), c')) :
    (∀ r ∈ roots, r < total) ∧ ∃ w, c' = c.withWork w ∧ w.stack = [] ∧
      ∀ b, w.mark b = true ↔ c.mem.gc.mark b = true ∨ ∃ r ∈ roots, Reachable c.store total r b := by
  induction roots generalizing c with
  | nil =>
    obtain rfl : c = c' := congrArg Prod.snd h
    exact ⟨by simp, c.work, rfl, empty, by simp [Core.work]⟩
  | cons r roots ih =>
    obtain ⟨_, c₁, first, rest⟩ := Act.after_eq_ok h
    obtain ⟨inside, w₁, rfl, empty₁, marks₁⟩ := gcRoot_ok first
    obtain ⟨insides, w, rfl, empty', marks⟩ := ih empty₁ rest
    refine ⟨by simpa [inside] using insides, w, rfl, empty', fun b => ?_⟩
    rw [marks b]
    rw [Core.mark_withWork, marks₁, empty]
    simp [not_leftBelow_nil, or_assoc]

/-- The marks of a successful `mfsGcMark`. -/
structure Marked (store : Nat → Block) (v : Vol) (stack : List Nat) (mark : Nat → Bool) : Prop where
  sized : v.sized = true
  roots : ∀ r ∈ v.roots, r < v.total
  marks : ∀ b, mark b = true ↔ (b < v.dataStart ∧ b < v.total) ∨
    (∃ r ∈ v.roots, Reachable store v.total r b) ∨ LeftBelow store v.total v.itab stack b

theorem mfsGcMark_ok (h : mfsGcMark.ideal c = (.ok (), c')) :
    ∃ w, c' = c.withWork w ∧ w.stack = [] ∧ Marked c.store c.mem.vol c.mem.gc.stack w.mark := by
  obtain ⟨_, _, ensured, h⟩ := Act.after_eq_ok h
  obtain ⟨sized, rfl⟩ := ensure_eq_ok ensured
  rw [ideal_bind, ideal_setMarks, Act.after_ok, Vol.roots, each, ideal_bind] at h
  obtain ⟨_, c₁, first, rest⟩ := Act.after_eq_ok h
  obtain ⟨inside, w₁, rfl, empty₁, marks₁⟩ := gcRoot_ok first
  obtain ⟨insides, w, rfl, empty, marks⟩ := gcRoots_ok empty₁ rest
  refine ⟨w, by simp, empty, sized, ?_, fun b => ?_⟩
  · intro r mem
    rcases List.mem_cons.mp mem with rfl | mem
    · exact inside
    · exact insides r mem
  · rw [marks, Core.mark_withWork, marks₁]
    simp [Vol.roots, Core.work,
      or_assoc, or_comm (b := LeftBelow _ _ _ _ b)]

end MorionOS.Mfs
