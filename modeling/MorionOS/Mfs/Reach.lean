import MorionOS.Mfs.Collect
import MorionOS.Lib.Worklist

/-!
# Reachable blocks

What a block refers to is given by `Block.refs`, where the inode numbers of a
directory are translated with one inode table.  A root of the volume is the index
block of an inode table; the blocks reachable from it are the table itself and
what its root directory leads to through that table.

The traversal of garbage collection is the bounded depth-first traversal of
`Worklist` over this graph (`traverses_mfsGcDrain`).
-/

namespace MorionOS.Mfs

open StateAct Layered Worklist

/-! ## References -/

/-- The slots of an inode table block. -/
def Block.tableSlots : Block → Option (Nat → Nat)
  | .itab slots => some slots
  | _ => none

/-- The slots of an inode table index. -/
def Block.indexTable : Block → Option (Nat → Nat)
  | .itabx slots => some slots
  | _ => none

/-- The block of an inode in the table with index `index`; nothing when the number is impossible
or the table block is damaged. -/
def inoBlockIn (store : Nat → Block) (index : Nat → Nat) (ino : Nat) : Option Nat :=
  if inoValid ino then
    if index (inoSlot ino).1 = 0 then some 0
    else (store (index (inoSlot ino).1)).tableSlots.map fun slots => slots (inoSlot ino).2
  else none

/-- The records that hold an entry. -/
def liveSlots (slots : List DirSlot) : List DirSlot := slots.filter fun e => e.name ≠ []

/-- What a block refers to: data blocks and blocks with references of their own.  Nothing for a
block that no tree can contain. -/
def Block.refs (child : Nat → Option Nat) : Block → Option (List Nat × List Nat)
  | .dir d =>
    if d.broken then none
    else ((liveSlots d.slots).mapM fun e => child e.ino).map fun bs => ([], bs ++ [d.ext])
  | .didx slots => some ([], (List.range MFS_DIR_SLOTS).map slots)
  | .file f => some ((List.range MFS_FILE_DIRECT).map f.direct, [f.ind1, f.ind2, f.ind3])
  | .ind slots => some ((List.range MFS_IND_CAP).map slots, [])
  | .ind2 slots | .ind3 slots => some ([], (List.range MFS_IND_CAP).map slots)
  | .link _ => some ([], [])
  | _ => none

/-- The blocks of a volume with the references between them, for the table with index `index`. -/
def blockGraph (store : Nat → Block) (index : Nat → Nat) (total : Nat) : Worklist.Graph Nat where
  valid b := b != 0 && decide (b < total)
  cap := MFS_GC_STACK_MAX
  expand b := (store b).refs (inoBlockIn store index)

/-- Block `b` belongs to the tree below block `a`. -/
def InTree (store : Nat → Block) (index : Nat → Nat) (total a b : Nat) : Prop :=
  b = a ∨ Worklist.Below (blockGraph store index total) a b

/-- Block `b` is reachable from the inode table whose index is block `itab`: it is the index, a
table block or a block of the tree of the root directory. -/
def Reachable (store : Nat → Block) (total itab b : Nat) : Prop :=
  ∃ index, (store itab).indexTable = some index ∧
    (b = itab ∨ (b ≠ 0 ∧ ∃ k < MFS_ITAB_SLOTS, index k = b) ∨
      ∃ root, inoBlockIn store index MFS_ROOT_INO = some root ∧ root ≠ 0 ∧ root < total ∧
        InTree store index total root b)

/-! ## Programs that only traverse -/

variable (c : Core)

/-- The traversal part of the state. -/
def Core.work : Worklist.State Nat := ⟨c.mem.gc.stack, c.mem.gc.seen, c.mem.gc.mark⟩

def Core.withWork (w : Worklist.State Nat) : Core :=
  { c with mem := c.mem.setGc fun g => { g with stack := w.stack, seen := w.seen, mark := w.mark } }

-- not by definitional unfolding in `simp`, which would be slow to check
variable (w : Worklist.State Nat)

@[simp] theorem Core.store_withWork :
    (c.withWork w).store = c.store := (rfl)

@[simp] theorem Core.mark_withWork :
    (c.withWork w).mem.gc.mark = w.mark := (rfl)

@[simp] theorem Core.stack_withWork :
    (c.withWork w).mem.gc.stack = w.stack := (rfl)

@[simp] theorem Core.work_withWork : (c.withWork w).work = w := (rfl)

@[simp] theorem Core.withWork_work : c.withWork c.work = c := (rfl)

@[simp] theorem Core.withWork_withWork (w w' : Worklist.State Nat) :
    (c.withWork w).withWork w' = c.withWork w' := (rfl)

/-- On blocks with content `store`, the program `m` succeeds exactly when `f` does and changes the
traversal state as `f` does. -/
def Traverses (store : Nat → Block) (m : Op Unit Unit)
    (f : Worklist.State Nat → Option (Worklist.State Nat)) : Prop :=
  ∀ c c', c.store = store → (m.ideal c = (.ok (), c') ↔ ∃ w, f c.work = some w ∧ c' = c.withWork w)

variable {store : Nat → Block} (index : Nat → Nat) {total : Nat}

variable {m : Op Unit Unit}

theorem traverses_of_total {f : Worklist.State Nat → Worklist.State Nat}
    (h : ∀ c, m.ideal c = (.ok (), c.withWork (f c.work))) : Traverses store m fun w => some (f w) := by
  intro c c' _
  simp only [h, Prod.mk.injEq, true_and, Option.some.injEq, exists_eq_left']
  exact eq_comm

theorem traverses_pure : Traverses store (pure ()) some := traverses_of_total fun _ => rfl

theorem traverses_throw : Traverses store (throw ()) fun _ => none := by
  rintro c c' rfl
  simp

variable {f g : Worklist.State Nat → Option (Worklist.State Nat)}

theorem Traverses.bind {m' : Op Unit Unit}
    (first : Traverses store m f) (rest : Traverses store m' g) :
    Traverses store (m >>= fun _ => m') fun w => (f w).bind g := by
  rintro c c' same
  constructor
  · intro h
    obtain ⟨_, c₁, ran₁, ran₂⟩ := Act.after_eq_ok h
    obtain ⟨w₁, step₁, rfl⟩ := (first c c₁ same).mp ran₁
    obtain ⟨w₂, step₂, rfl⟩ := (rest (c.withWork w₁) c' same).mp ran₂
    exact ⟨w₂, Option.bind_eq_some_iff.mpr ⟨w₁, step₁, step₂⟩, rfl⟩
  · rintro ⟨w₂, steps, rfl⟩
    obtain ⟨w₁, step₁, step₂⟩ := Option.bind_eq_some_iff.mp steps
    rw [ideal_bind, (first c _ same).mpr ⟨w₁, step₁, rfl⟩]
    exact (rest (c.withWork w₁) _ same).mpr ⟨w₂, step₂, rfl⟩

theorem Traverses.each {α : Type} {body : α → Op Unit Unit}
    {f : Worklist.State Nat → α → Option (Worklist.State Nat)}
    (h : ∀ x, Traverses store (body x) fun w => f w x) (xs : List α) :
    Traverses store (each xs body) fun w => xs.foldlM f w := by
  induction xs with
  | nil => exact traverses_pure
  | cons x xs ih => exact (h x).bind ih

/-- The same steps, written differently. -/
theorem Traverses.of_eq
    (h : Traverses store m f) (same : ∀ w, f w = g w) : Traverses store m g := by
  obtain rfl : f = g := funext same
  exact h

/-! ## The traversal of garbage collection -/

theorem traverses_mfsGcPush (b : Nat) :
    Traverses store (mfsGcPush b total) fun w => visit (blockGraph store index total) w b := by
  rintro c c' same
  have cond : (b = 0 ∨ total ≤ b ∨ c.mem.gc.seen b = true) ↔
      ((blockGraph store index total).valid b = false ∨ c.work.seen b = true) := by
    simp only [blockGraph, Core.work, Bool.and_eq_false_iff, bne_eq_false_iff_eq,
      decide_eq_false_iff_not, not_lt, or_assoc]
  simp only [mfsGcPush, pushWith, Gc.push, visit, ideal_bind, ideal_getMem, Act.after_ok, cond]
  split
  · simp only [ofOption_some, ideal_pure, Act.after_ok, ideal_setGc, Prod.mk.injEq, true_and,
      Option.some.injEq, exists_eq_left']
    exact eq_comm
  · by_cases full : MFS_GC_STACK_MAX ≤ c.mem.gc.stack.length
    · simp [blockGraph, Core.work, full]
    · simp only [full, blockGraph, Core.work, if_false, ofOption_some, ideal_pure, Act.after_ok,
        ideal_setGc, Prod.mk.injEq, true_and, Option.some.injEq, exists_eq_left']
      exact eq_comm

theorem traverses_markLeaf (b : Nat) :
    Traverses store (markLeaf total b) fun w =>
      some (Worklist.markLeaf (blockGraph store index total) w b) := by
  apply traverses_of_total
  by_cases zero : b = 0
  · simp [markLeaf, Worklist.markLeaf, blockGraph, zero]
  · by_cases inside : b < total <;>
      simp [markLeaf, Worklist.markLeaf, blockGraph, mfsMarkSet, Gc.markSet, Mem.setGc, zero, inside,
        Core.work, Core.withWork]

theorem traverses_ensure (ok : Bool) :
    Traverses store (ensure ok ()) fun w => if ok then some w else none := by
  cases ok
  · exact traverses_throw
  · exact traverses_pure

theorem ideal_mfsGcInoBlock (ino : Nat) (c : Core) :
    (mfsGcInoBlock index ino).ideal c =
      ((inoBlockIn c.store index ino).elim (.error ()) .ok, c) := by
  rw [mfsGcInoBlock, inoBlockIn]
  cases inoValid ino
  · rfl
  · by_cases none : index (inoSlot ino).1 = 0
    · simp [none]
    · simp only [none, ensure_true, if_false, ideal_bind, ideal_pure, Act.after_ok,
        ideal_mfsReadBlk]
      cases c.store (index (inoSlot ino).1) <;> rfl

theorem traverses_pushEntry (e : DirSlot) :
    Traverses store (pushEntry index total e) fun w =>
      if e.name = [] then some w
      else (inoBlockIn store index e.ino).bind (visit (blockGraph store index total) w) := by
  by_cases free : e.name = []
  · simp only [pushEntry, free]
    exact traverses_pure
  · simp only [pushEntry, free, if_false]
    rintro c c' rfl
    rw [ideal_bind, ideal_mfsGcInoBlock]
    rcases inoBlockIn c.store index e.ino with _ | b
    · simp
    · exact traverses_mfsGcPush index b c c' rfl

theorem traverses_pushEntries (slots : List DirSlot) :
    Traverses store (each slots (pushEntry index total)) fun w =>
      ((liveSlots slots).mapM fun e => inoBlockIn store index e.ino).bind fun bs =>
        bs.foldlM (visit (blockGraph store index total)) w := by
  apply (Traverses.each (traverses_pushEntry index) slots).of_eq
  induction slots with
  | nil => intro w; rfl
  | cons e slots ih =>
    intro w
    by_cases free : e.name = []
    · have skip : liveSlots (e :: slots) = liveSlots slots := by simp [liveSlots, free]
      rw [List.foldlM_cons, if_pos free, skip]
      exact ih w
    · have here : liveSlots (e :: slots) = e :: liveSlots slots := by simp [liveSlots, free]
      rw [List.foldlM_cons, if_neg free, here, List.mapM_cons]
      -- whether a later entry is damaged or a push fails first makes no difference
      rcases inoBlockIn store index e.ino with _ | b
      · rfl
      · rcases pushed : visit (blockGraph store index total) w b with _ | w'
        · cases (liveSlots slots).mapM fun e => inoBlockIn store index e.ino <;> simp [pushed]
        · rw [Option.bind_some, pushed, Option.bind_eq_bind, Option.bind_some, ih w']
          cases (liveSlots slots).mapM fun e => inoBlockIn store index e.ino <;> simp [pushed]

theorem traverses_pushAll (slots : Nat → Nat) (n : Nat) :
    Traverses store (each (List.range n) fun i => mfsGcPush (slots i) total) fun w =>
      explore (blockGraph store index total) w ([], (List.range n).map slots) := by
  apply (Traverses.each (fun i => traverses_mfsGcPush index (slots i)) _).of_eq
  intro w
  rw [explore, List.foldlM_map]
  rfl

theorem traverses_markAll (slots : Nat → Nat) (n : Nat) :
    Traverses store (each (List.range n) fun i => markLeaf total (slots i)) fun w =>
      explore (blockGraph store index total) w ((List.range n).map slots, []) := by
  apply (Traverses.each (fun i => traverses_markLeaf index (slots i)) _).of_eq
  intro w
  rw [explore, List.foldl_map]
  exact List.foldlM_pure

/-- Expanding a block pushes and marks what it refers to. -/
theorem traverses_gcExpand (blk : Block) :
    Traverses store (gcExpand index total blk) fun w =>
      (blk.refs (inoBlockIn store index)).bind
        (explore (blockGraph store index total) w) := by
  cases blk with
  | dir d =>
    apply ((traverses_pushEntries index d.slots).bind
      ((traverses_ensure (!d.broken)).bind (traverses_mfsGcPush index d.ext))).of_eq
    rcases bs : (liveSlots d.slots).mapM fun e => inoBlockIn store index e.ino with _ | bs
    · simp [Block.refs, bs]
    · rcases broken : d.broken with _ | _
      · simp [Block.refs, bs, broken, explore]
      · simp [Block.refs, broken]
  | didx slots | ind2 slots | ind3 slots =>
    exact (traverses_pushAll index slots _).of_eq fun _ => by simp [Block.refs]
  | ind slots => exact (traverses_markAll index slots _).of_eq fun _ => by simp [Block.refs]
  | file f =>
    apply ((traverses_markAll index f.direct _).bind ((traverses_mfsGcPush index f.ind1).bind
      ((traverses_mfsGcPush index f.ind2).bind (traverses_mfsGcPush index f.ind3)))).of_eq
    simp [Block.refs, explore]
  | link l => exact traverses_pure
  | super | bmpHeader | bitmap | data | itab | itabx | raw => exact traverses_throw

theorem traverses_drain (n : Nat) :
    Traverses store (drain (gcExpand index total) n)
      (Worklist.drain (blockGraph store index total) n) := by
  induction n with
  | zero =>
    rintro c c' same
    rw [drain, Worklist.drain, ideal_getMem_bind, Gc.pop]
    rcases top : c.mem.gc.stack with _ | ⟨b, rest⟩
    · have empty : c.work.stack = [] := top
      rw [if_pos empty]
      exact traverses_pure c c' same
    · have more : c.work.stack ≠ [] := by rw [Core.work, top]; simp
      rw [if_neg more]
      exact traverses_throw c c' same
  | succ n ih =>
    rintro c c' same
    rw [drain, Worklist.drain, ideal_getMem_bind, Gc.pop]
    rcases top : c.mem.gc.stack with _ | ⟨b, rest⟩
    · have empty : c.work.stack = [] := top
      rw [empty]
      exact traverses_pure c c' same
    · have more : c.work.stack = b :: rest := top
      rw [more]
      have round : Traverses store
          (gcExpand index total (c.store b) >>= fun _ => drain (gcExpand index total) n) _ :=
        (traverses_gcExpand index (c.store b)).bind ih
      refine (round (c.withWork { c.work with stack := rest }) c' same).trans ?_
      simp [same, blockGraph, Option.bind_assoc]

theorem traverses_mfsGcDrain :
    Traverses store (mfsGcDrain index total)
      (Worklist.drain (blockGraph store index total) (drainRounds total)) :=
  traverses_drain index _

theorem blockGraph_inside {b : Nat} (valid : (blockGraph store index total).valid b = true) :
    b ∈ Finset.range total := by
  simp only [blockGraph, Bool.and_eq_true, decide_eq_true_eq] at valid
  exact Finset.mem_range.mpr valid.2

theorem rounds_le_drainRounds {w : Worklist.State Nat} (fits : w.stack.length ≤ MFS_GC_STACK_MAX) :
    rounds (blockGraph store index total) (Finset.range total) w ≤ drainRounds total := by
  have fresh := Finset.card_filter_le (Finset.range total) fun b =>
    (blockGraph store index total).valid b = true ∧ w.seen b = false
  rw [Finset.card_range] at fresh
  rw [rounds, drainRounds]
  omega

end MorionOS.Mfs
