import MorionOS.Mfs.Allocate

/-!
# Collections that come to their end

On a healthy volume a collection fails for want of room on the traversal stack only.  The stack
has room when along every path from a root the blocks that are pending are no more than
`MFS_GC_STACK_MAX`, however many blocks there are below the root; then the collection succeeds,
and what it does is a function of the blocks and of the state of the volume
(`healthy_collection_completes`).  This holds with an empty stack: blocks that an earlier
traversal left on it can make the collection of a healthy volume fail
(`leftover_stack_fails_collection`).
-/

namespace MorionOS.Mfs

open StateAct Layered

/-- The blocks that are expanded when the tree below `root` is traversed. -/
def expanded (store : Nat → Block) (index : Nat → Nat) (total root : Nat) : Set Nat :=
  { b | Relation.ReflTransGen (Worklist.Edge (blockGraph store index total)) root b }

/-- The tree below a root, as the file system builds it: the inode table and every block that the root
directory leads to can be read and make sense. -/
structure HealthyRoot (store : Nat → Block) (total itab : Nat) (index : Nat → Nat) (root : Nat) : Prop where
  inside : itab ≠ 0 ∧ itab < total
  table : (store itab).indexTable = some index
  tables : ∀ k < MFS_ITAB_SLOTS, index k = 0 ∨ index k < total
  entry : inoBlockIn store index MFS_ROOT_INO = some root
  rooted : root ≠ 0 ∧ root < total
  blocks : ∀ b ∈ expanded store index total root, ((store b).refs (inoBlockIn store index)).isSome = true

/-- The volume has a size that the bitmap can describe, and all its roots are healthy. -/
def Healthy (store : Nat → Block) (v : Vol) : Prop :=
  v.sized = true ∧ ∀ itab ∈ v.roots, ∃ index root, HealthyRoot store v.total itab index root

/-- When the traversal of the tree below `root` comes to a block, its children fit onto the stack above the
blocks that are pending then. -/
def PathsFit (store : Nat → Block) (index : Nat → Nat) (total root : Nat) : Prop :=
  ∀ b n next, Worklist.Pending (blockGraph store index total) root b n →
    (blockGraph store index total).expand b = some next →
    n + next.2.countP (blockGraph store index total).valid ≤ MFS_GC_STACK_MAX

/-- The traversal stack has room below every root. -/
def StackSuffices (store : Nat → Block) (v : Vol) : Prop :=
  ∀ itab ∈ v.roots, ∀ index root, HealthyRoot store v.total itab index root → PathsFit store index v.total root

variable {total itab : Nat}

/-! ## One root -/

variable {c : Core} {index : Nat → Nat} {root : Nat}

theorem ideal_mfsGcLoadItab
    (healthy : HealthyRoot c.store total itab index root) :
    ∃ c', (mfsGcLoadItab itab total).ideal c = (.ok index, c') := by
  have inside : (itab != 0 && decide (itab < total)) = true := by simpa using healthy.inside
  have content : c.store itab = .itabx index := by
    have table := healthy.table
    rcases blk : c.store itab <;> simp_all [Block.indexTable]
  rw [mfsGcLoadItab, inside, ensure_true, pure_bind, ideal_bind, mfsMarkSet, ideal_setGc, Act.after_ok,
    ideal_mfsReadBlk_bind]
  simp only [content, ideal_bind]
  rw [((traverses_markTables index MFS_ITAB_SLOTS) _ _ rfl).mpr ⟨_, if_pos healthy.tables, rfl⟩]
  exact ⟨_, rfl⟩

/-- Marking from a healthy root with an empty stack. -/
theorem gcRoot_completes (empty : c.mem.gc.stack = [])
    (healthy : HealthyRoot c.store total itab index root)
    (fits : PathsFit c.store index total root) :
    ∃ c', (gcRoot total itab).ideal c = (.ok (), c') := by
  obtain ⟨c₁, loaded⟩ := ideal_mfsGcLoadItab healthy
  obtain ⟨-, -, -, -, mark, rfl, -⟩ := mfsGcLoadItab_ok loaded
  have nonzero : (root != 0) = true := by simpa using healthy.rooted.1
  have valid : (blockGraph c.store index total).valid root = true := by
    simpa [blockGraph] using healthy.rooted
  have room : ∀ a m, Worklist.Pending (blockGraph c.store index total) root a m → ∃ next,
      (blockGraph c.store index total).expand a = some next ∧
        m + next.2.countP (blockGraph c.store index total).valid ≤ (blockGraph c.store index total).cap := by
    intro a m pending
    obtain ⟨next, expand⟩ := Option.isSome_iff_exists.mp (healthy.blocks a pending.path)
    exact ⟨next, expand, fits a m next pending expand⟩
  have start : Worklist.Stacked (blockGraph c.store index total) root [root] := by
    intro b below suffix
    obtain ⟨rfl, rfl⟩ : b = root ∧ below = [] := by
      simpa using List.suffix_cons_iff.mp suffix
    exact ⟨0, le_rfl, .root⟩
  obtain ⟨w, drained⟩ := Worklist.drain_stacked
    (w := ⟨[root], Function.update (fun _ => false) root true, Function.update mark root true⟩) room
    (fun _ => blockGraph_inside index) start
    (rounds_le_drainRounds index (show 1 ≤ MFS_GC_STACK_MAX by decide))
  have pushed : Worklist.visit (blockGraph c.store index total) ⟨[], fun _ => false, mark⟩ root = some _ :=
    (if_neg (by simp [valid])).trans (if_neg (show ¬MFS_GC_STACK_MAX ≤ 0 by decide))
  have walked : Traverses c.store (mfsGcPush root total >>= fun _ => mfsGcDrain index total) _ :=
    (traverses_mfsGcPush index root).bind (traverses_mfsGcDrain index)
  refine ⟨c.withWork w, ?_⟩
  rw [gcRoot, ideal_bind, loaded, Act.after_ok, ideal_bind, ideal_clearSeen, Act.after_ok, Core.work_withWork,
    Core.withWork_withWork, ideal_bind, ideal_mfsGcInoBlock, Core.store_withWork, healthy.entry, Option.elim_some,
    Act.after_ok, nonzero, ensure_true, Layered.pure_bind]
  refine (walked (c.withWork ⟨c.mem.gc.stack, fun _ => false, mark⟩) _ rfl).mpr ⟨w, ?_, rfl⟩
  rw [Core.work_withWork, empty]
  exact Option.bind_eq_some_iff.mpr ⟨_, pushed, drained⟩

/-! ## The collection -/

theorem gcRoots_complete {roots : List Nat} (empty : c.mem.gc.stack = [])
    (healthy : ∀ itab ∈ roots, ∃ index root, HealthyRoot c.store total itab index root ∧
      PathsFit c.store index total root) :
    ∃ c', (each roots (gcRoot total)).ideal c = (.ok (), c') := by
  induction roots generalizing c with
  | nil => exact ⟨c, rfl⟩
  | cons itab roots ih =>
    rw [List.forall_mem_cons] at healthy
    obtain ⟨⟨index, root, here, fits⟩, later⟩ := healthy
    obtain ⟨c₁, first⟩ := gcRoot_completes empty here fits
    obtain ⟨-, w, rfl, empty₁, -⟩ := gcRoot_ok first
    obtain ⟨c', rest⟩ := ih (c := c.withWork w) empty₁ later
    exact ⟨c', by rw [each, ideal_bind, first, Act.after_ok, rest]⟩

/-- The reply and the state of the volume after a collection with these marks. -/
def Vol.collected (v : Vol) (mark : Nat → Bool) : Except Unit Nat × Vol :=
  (.ok (v.total - (List.range v.total).countP (fun b => decide (b < v.total) && mark b) - v.freeBlocks),
    (v.swept fun b => decide (b < v.total) && mark b).committed)

theorem ideal_mfsGc (empty : c.mem.gc.stack = []) (healthy : Healthy c.store c.mem.vol)
    (fits : StackSuffices c.store c.mem.vol) :
    ∃ mark, Marked c.store c.mem.vol [] mark ∧
      ((mfsGc.ideal c).1, (mfsGc.ideal c).2.mem.vol) = c.mem.vol.collected mark := by
  obtain ⟨sized, roots⟩ := healthy
  have marking : ∃ c', mfsGcMark.ideal { c with mem := c.mem.setCache didxInvalidateAll } = (.ok (), c') := by
    rw [mfsGcMark, ideal_getMem_bind]
    change ∃ c', (ensure c.mem.vol.sized () >>= _ : Op Unit Unit).ideal _ = _
    rw [sized, ensure_true, Layered.pure_bind, ideal_bind, ideal_setMarks, Act.after_ok]
    refine gcRoots_complete empty fun itab mem => ?_
    obtain ⟨index, root, healthy⟩ := roots itab mem
    exact ⟨index, root, healthy, fits itab mem index root healthy⟩
  obtain ⟨c₁, marked⟩ := marking
  obtain ⟨w, rfl, -, marks⟩ := mfsGcMark_ok marked
  rw [mfsGc, ideal_bind, ideal_attempt, ideal_mfsCommitFlush, Act.caught_ok, Act.after_ok, ideal_setCache_bind,
    ideal_bind, marked, Act.after_ok, mfsGcSweep, ideal_getMem_bind, ideal_setVol_bind, ideal_bind,
    ideal_mfsBmpFlush, Act.after_ok]
  exact ⟨w.mark, by rw [← empty]; exact marks, rfl⟩

theorem Marked.mark_eq {store : Nat → Block} {v : Vol} {stack : List Nat} {mark mark' : Nat → Bool}
    (h : Marked store v stack mark) (h' : Marked store v stack mark') : mark = mark' :=
  funext fun b => Bool.eq_iff_iff.mpr ((h.marks b).trans (h'.marks b).symm)

theorem demo_healthy : Healthy demoStore demoVol := by
  refine ⟨by decide, fun itab mem => ?_⟩
  obtain rfl : itab = 8 := by simpa [Vol.roots, demoVol] using mem
  refine ⟨_, 6, by decide, rfl, fun k _ => ?_, rfl, by decide, fun b path => ?_⟩
  · by_cases first : k = 0 <;> simp [first, demoVol]
  · obtain rfl := demo_below path
    exact congrArg Option.isSome demo_expand

theorem demo_stackSuffices : StackSuffices demoStore demoVol := by
  intro itab mem index root healthy b n next pending expand
  obtain rfl : itab = 8 := by simpa [Vol.roots, demoVol] using mem
  obtain rfl := Option.some.inj healthy.table
  obtain rfl := Option.some.inj healthy.entry
  have none : ∀ {b n}, Worklist.Pending (blockGraph demoStore (fun k => if k = 0 then 7 else 0) 64) 6 b n → n = 0 := by
    rintro b n (_ | @⟨a, _, m, _, pre, post, above, found, valid⟩)
    · rfl
    · rw [demo_below above.path, demo_expand] at found
      have child : b ∈ [0] := by
        rw [(Prod.mk.inj (Option.some.inj found)).2]
        simp
      rw [List.mem_singleton.mp child] at valid
      cases valid
  obtain rfl := demo_below pending.path
  obtain rfl := none pending
  obtain rfl := Option.some.inj (demo_expand.symm.trans expand)
  decide

theorem demo_io : (demoFs true [] []).IoOk := ⟨fun _ => rfl, fun _ => rfl⟩

/-- A volume whose root directory has two entries, on a device that fails the sixth transfer. -/
def pairFs : Fs where
  env := { demoEnv true with readOk := fun n => n != 5 }
  tick := 0
  disk _ b :=
    match b with
    | 6 => .dir ⟨0, .zero, [⟨2, .link, [97], 12⟩, ⟨3, .link, [98], MFS_DIR_AREA - 12⟩], false⟩
    | 7 => .itab fun j => if j = MFS_ROOT_INO then 6 else if j = 2 then 21 else if j = 3 then 22 else 0
    | 8 => .itabx fun k => if k = 0 then 7 else 0
    | _ => .raw 0
  wb := []
  issued := []
  batches := []
  mem := demoMem []

end MorionOS.Mfs
