import MorionOS.Mfs.DirChange

/-!
# A directory is a finite map

Inserting and deleting go through records that are split and merged, through a
node block and any number of extension blocks.  Seen from `mfs_dir_lookup` they
are the two changes of a finite map from names to inodes (`HoldsMap`), as long as
each of them finds room for the blocks it writes.

Main results:
* `ends_dirOp`: one operation changes the map as it says, or it is one that is
  refused (`DirOp.Refused`) and changes nothing;
* `directory_implements_finite_map`: the same over any sequence of operations;
* `failed_insert_is_found`: without room a failed change may show.
-/

namespace MorionOS.Mfs

open StateAct Layered Function List

/-! ## Lists with keys -/

theorem find?_middle {α β : Type} [BEq β] [LawfulBEq β] [DecidableEq β] (key : α → β) {l₁ l₂ : List α} {a : α}
    (fresh : ∀ x ∈ l₁, key x ≠ key a) (b : β) :
    (l₁ ++ a :: l₂).find? (fun x => key x == b) =
      if b = key a then some a else (l₁ ++ l₂).find? fun x => key x == b := by
  rw [List.find?_append, List.find?_append, List.find?_cons]
  by_cases here : b = key a
  · have none : l₁.find? (fun x => key x == b) = none := by
      rw [List.find?_eq_none]
      intro x mem
      simpa [here] using fresh x mem
    rw [if_pos here, none]
    simp [here]
  · have other : (key a == b) = false := by simpa using fun same => here same.symm
    rw [if_neg here, other]

/-- The keys of a list with one more element are distinct when it is the only one with its key. -/
theorem nodup_middle {α β : Type} {key : α → β} {l₁ l₂ : List α} {a : α} :
    ((l₁ ++ a :: l₂).map key).Nodup ↔ (∀ x ∈ l₁ ++ l₂, key x ≠ key a) ∧ ((l₁ ++ l₂).map key).Nodup := by
  rw [List.map_append, List.map_cons, List.nodup_middle, List.nodup_cons, ← List.map_append, mem_map]
  simp

/-! ## Operations on one directory -/

/-- What can be done to a directory. -/
inductive DirOp where
  | insert (comp : Name) (child : Nat) (typ : EntType)
  | delete (comp : Name)

def DirOp.run (dir : Nat) : DirOp → Op Unit Unit
  | .insert comp child typ => mfsDirInsert dir comp child typ
  | .delete comp => do
      let loc ← mfsDirLookup dir comp
      mfsDirDelete loc

/-- What the operation does to a map from names to inodes. -/
def DirOp.apply : DirOp → (Name → Option Nat) → Name → Option Nat
  | .insert comp child _, m => update m comp (some child)
  | .delete comp, m => update m comp none

/-- The map after an operation with this outcome: only a success counts. -/
def DirOp.recorded (op : DirOp) (m : Name → Option Nat) : Except Unit Unit → Name → Option Nat
  | .ok _ => op.apply m
  | .error _ => m

/-- What an operation needs: a new name and an inode of the volume for it. -/
def DirOp.Meant (L : Set Nat) (m : Name → Option Nat) : DirOp → Prop
  | .insert comp child _ => m comp = none ∧ inoValid child = true ∧ child ∈ L
  | .delete comp => comp ≠ []

/-- What is refused even with room: a name that no record can hold, a directory whose index is full, and deleting a
name that is not there. -/
def DirOp.Refused (dir : Nat) (m : Name → Option Nat) (c : Core) : DirOp → Prop
  | .insert comp _ _ => comp = [] ∨ MFS_NAME_MAX < comp.length ∨ c.IndexFull dir
  | .delete comp => m comp = none

/-- `mfs_dir_lookup` and the inode of the record that it finds. -/
def dirFind (dir : Nat) (comp : Name) : Op Unit Nat := do
  let loc ← mfsDirLookup dir comp
  let e ← slotAt loc
  pure e.ino

/-- The directory is in order and its entries are the map `m`. -/
structure HoldsMap (L : Set Nat) (dir : Nat) (m : Name → Option Nat) (c : Core) : Prop where
  sound : Sound c L
  known : dir ∈ L
  isDir : ∃ md es, c.tree L dir = some (.dir md es)
  distinct : (((c.tree L).entries dir).map Entry.name).Nodup
  content : ∀ comp, ((c.tree L).lookup dir comp).map Entry.ino = m comp

section Steps

variable {L : Set Nat} {dir : Nat} {m : Name → Option Nat} {c : Core} (holds : HoldsMap L dir m c)
include holds

theorem HoldsMap.of_tree {c' : Core} (sound : Sound c' L) (same : c'.tree L = c.tree L) :
    HoldsMap L dir m c' := by
  obtain ⟨-, known, isDir, distinct, content⟩ := holds
  refine ⟨sound, known, ?_, ?_, ?_⟩ <;> rw [same]
  · exact isDir
  · exact distinct
  · exact content

theorem HoldsMap.enters {c' : Core} {e : Entry} {t' : Tree} (fresh : m e.name = none)
    (enters : (c.tree L).Enters dir e t') (sound : Sound c' L) (tree : c'.tree L = t') :
    HoldsMap L dir (update m e.name (some e.ino)) c' := by
  obtain ⟨md, now, l₁, l₂, before, rfl⟩ := enters
  have old : (c.tree L).entries dir = l₁ ++ l₂ := by rw [Tree.entries, before]; rfl
  have node : c'.tree L dir = some (.dir (md.touch now) (l₁ ++ e :: l₂)) := by
    rw [tree, update_self]
  have new : (c'.tree L).entries dir = l₁ ++ e :: l₂ := by rw [Tree.entries, node]; rfl
  have distinct := holds.distinct
  rw [old] at distinct
  have absent : ∀ x ∈ l₁ ++ l₂, x.name ≠ e.name := by
    have none := holds.content e.name
    rw [fresh, Option.map_eq_none_iff, Tree.lookup, old, List.find?_eq_none] at none
    intro x mem
    simpa using none x mem
  refine ⟨sound, holds.known, ⟨_, _, node⟩, by rw [new]; exact nodup_middle.mpr ⟨absent, distinct⟩, fun comp => ?_⟩
  rw [Tree.lookup, new, find?_middle Entry.name fun x mem => absent x (mem_append_left _ mem)]
  by_cases here : comp = e.name
  · rw [if_pos here, here, update_self]
    rfl
  · rw [if_neg here, update_of_ne here, ← holds.content comp, Tree.lookup, old]

theorem HoldsMap.leaves {c' : Core} {e : Entry} {t' : Tree} (leaves : (c.tree L).Leaves dir e t')
    (sound : Sound c' L) (tree : c'.tree L = t') : HoldsMap L dir (update m e.name none) c' := by
  obtain ⟨md, now, l₁, l₂, before, rfl⟩ := leaves
  have old : (c.tree L).entries dir = l₁ ++ e :: l₂ := by rw [Tree.entries, before]; rfl
  have node : c'.tree L dir = some (.dir (md.touch now) (l₁ ++ l₂)) := by
    rw [tree, update_self]
  have new : (c'.tree L).entries dir = l₁ ++ l₂ := by rw [Tree.entries, node]; rfl
  have distinct := holds.distinct
  rw [old] at distinct
  obtain ⟨absent, distinct⟩ := nodup_middle.mp distinct
  refine ⟨sound, holds.known, ⟨_, _, node⟩, by rw [new]; exact distinct, fun comp => ?_⟩
  rw [Tree.lookup, new]
  by_cases here : comp = e.name
  · have none : (l₁ ++ l₂).find? (fun x => x.name == comp) = none := by
      rw [List.find?_eq_none]
      intro x mem
      simpa [here] using absent x mem
    rw [here] at none ⊢
    rw [none, update_self]
    rfl
  · have before := holds.content comp
    rw [Tree.lookup, old, find?_middle Entry.name fun x mem => absent x (mem_append_left _ mem),
      if_neg here] at before
    rw [update_of_ne here, before]

theorem HoldsMap.dirNode : ∃ b d, c.DirNode dir b d := by
  obtain ⟨md, es, node⟩ := holds.isDir
  rw [Core.tree_of_mem c holds.known] at node
  obtain ⟨b, d, isDir, -⟩ := Core.DirNode.of_node node
  exact ⟨b, d, isDir⟩

/-- One operation changes the map as it says, or it is refused and changes nothing. -/
theorem ends_dirOp (room : 6 ≤ c.mem.vol.room) {op : DirOp} (meant : op.Meant L m) :
    Ends ((op.run dir).ideal c) (fun _ c' => HoldsMap L dir (op.apply m) c')
      fun c' => HoldsMap L dir m c' ∧ op.Refused dir m c := by
  cases op with
  | insert comp child typ =>
    obtain ⟨fresh, valid, inside⟩ := meant
    obtain ⟨b, d, isDir⟩ := holds.dirNode
    refine (ends_mfsDirInsert holds.sound holds.known (e := ⟨comp, child, typ⟩) isDir valid inside).mono
      (fun _ c' h => ?_) fun c' h => ?_
    · obtain ⟨t', enters, becomes⟩ := h
      exact holds.enters fresh enters becomes.sound becomes.tree
    · obtain ⟨refused, becomes⟩ := h.resolve_left (Nat.not_lt.mpr room)
      exact ⟨holds.of_tree becomes.sound becomes.tree, refused⟩
  | delete comp =>
    refine (ends_mfsDirLookup holds.sound holds.known meant).bind (fun c' h => ?_) fun loc c₁ h => ?_
    · refine ⟨holds.of_tree h.1.sound h.1.tree, ?_⟩
      rw [DirOp.Refused, ← holds.content comp, h.2]
      rfl
    · obtain ⟨quiet, same, e, found⟩ := h
      obtain ⟨⟨l₁, l₂, at_, -⟩, name⟩ := found
      have mid := holds.of_tree quiet.sound quiet.tree
      refine (ends_mfsDirDelete quiet.sound (by rw [same]; exact holds.known)
        (quiet.toLooks.entryAt_iff.mpr at_)).mono (fun _ c' h => ?_) fun c' h => ?_
      · obtain ⟨t', leaves, becomes⟩ := h
        rw [same] at leaves
        have gone := mid.leaves leaves becomes.sound becomes.tree
        rw [name] at gone
        exact gone
      · have short : c₁.mem.vol.room < 5 := h
        rw [quiet.vol] at short
        omega

theorem HoldsMap.finds {comp : Name} (named : comp ≠ []) :
    ((dirFind dir comp).ideal c).1.toOption = m comp := by
  have ends := ends_mfsDirLookup holds.sound holds.known named
  rw [dirFind, ideal_bind]
  rcases ran : (mfsDirLookup dir comp).ideal c with ⟨e | loc, c₁⟩
  · rw [← holds.content comp, (ends.of_error ran).2]
    rfl
  · obtain ⟨quiet, same, e, found⟩ := ends.of_ok ran
    have entry := found.lookup holds.known same
    obtain ⟨l₁, l₂, at_, -⟩ := found.place
    obtain ⟨slot, read, rfl⟩ := ideal_slotAt (quiet.toLooks.entryAt_iff.mpr at_)
    rw [Act.after_ok, ideal_bind, read, ← holds.content comp, entry]
    rfl

/-- The records of every block of the directory tile it. -/
theorem HoldsMap.tiled {b : Nat} {d : DirBlock} (node : c.DirNode dir b d) {y : Nat × DirBlock}
    (mem : y ∈ dirBlocks c.store b d) : y.2.Ok := by
  have ok := node.ok holds.sound holds.known
  rw [dirBlocks, mem_cons] at mem
  rcases mem with rfl | mem
  · exact ok.block
  · split at mem
    · cases mem
    next nonzero =>
      obtain ⟨-, slots, content, exts⟩ := ok.index.resolve_left nonzero
      rw [content, Block.didxSlots, Option.elim_some, extsOf, mem_filterMap] at mem
      obtain ⟨k, inside, here⟩ := mem
      split at here
      · cases here
      next live =>
        obtain ⟨-, x, read, xOk⟩ := (exts.ext k (mem_range.mp inside) live).1
        rw [read] at here
        obtain rfl : (slots k, x) = y := Option.some.inj here
        exact xOk

end Steps

/-! ## Runs -/

/-- A sequence of operations on directory `dir`, with the map that their outcomes describe.  Before
each of them six blocks are free. -/
inductive DirRun (L : Set Nat) (dir : Nat) (s : Fs) (m : Name → Option Nat) :
    Fs → (Name → Option Nat) → Prop where
  | start : DirRun L dir s m s m
  | step {s' : Fs} {m' : Name → Option Nat} (op : DirOp) : DirRun L dir s m s' m' →
      6 ≤ s'.mem.vol.room → op.Meant L m' →
      DirRun L dir s m ((op.run dir).run s').2 (op.recorded m' ((op.run dir).run s').1)

theorem DirRun.holds {L : Set Nat} {dir : Nat} {s s' : Fs} {m m' : Name → Option Nat}
    (run : DirRun L dir s m s' m') (ok : s.IoOk) (start : HoldsMap L dir m s.core) :
    s'.IoOk ∧ HoldsMap L dir m' s'.core := by
  induction run with
  | start => exact ⟨ok, start⟩
  | @step s₁ m₁ op _ room meant ih =>
    obtain ⟨ok₁, holds⟩ := ih
    refine ⟨((op.run dir).agree s₁ ok₁).2, ?_⟩
    have ends := (Ends.run_iff ok₁).mpr (ends_dirOp holds room meant)
    generalize (op.run dir).run s₁ = r at ends
    obtain ⟨e | u, s₂⟩ := r
    · exact ends.1
    · exact ends

/-- **A directory is a finite map.**  After any sequence of insertions of new names and deletions,
each of which finds six free blocks, the records of every block of the directory tile it and
`mfs_dir_lookup` finds exactly what the map of the successful operations holds.  With six free blocks
the next operation succeeds unless it is one that is refused. -/
theorem directory_implements_finite_map {L : Set Nat} {dir : Nat} {s s' : Fs} {m m' : Name → Option Nat}
    (ok : s.IoOk) (start : HoldsMap L dir m s.core) (run : DirRun L dir s m s' m') :
    (∀ b d, s'.core.DirNode dir b d → ∀ y ∈ dirBlocks s'.core.store b d, y.2.Ok) ∧
      (∀ comp, comp ≠ [] → ((dirFind dir comp).run s').1.toOption = m' comp) ∧
      ∀ op : DirOp, op.Meant L m' → 6 ≤ s'.mem.vol.room → ¬ op.Refused dir m' s'.core →
        ((op.run dir).run s').1 = .ok () := by
  obtain ⟨ok', holds⟩ := run.holds ok start
  refine ⟨fun b d node y mem => holds.tiled node mem, fun comp named => ?_, fun op meant room allowed => ?_⟩
  · rw [← holds.finds named, ((dirFind dir comp).agree s' ok').1]
  · have ends := (Ends.run_iff ok').mpr (ends_dirOp holds room meant)
    rcases ran : (op.run dir).run s' with ⟨e | u, s''⟩
    · exact absurd (ends.of_error ran).2 allowed
    · rfl

/-! ## The root directory of the small volume -/

/-- The small volume with the blocks from `firstFree` on free and with one directory index. -/
def rootFs (firstFree : Nat) : Fs :=
  { demoFs true [] [] with
    mem := { demoMem [] with
      vol := { demoVol with bmp := fun b => decide (b < firstFree), freeBlocks := 64 - firstFree }
      cache := ⟨none, fun _ => 0, [DIRIDX_EMPTY], 0⟩ } }

theorem rootFs_holds {firstFree : Nat} (used : 10 ≤ firstFree) :
    HoldsMap Set.univ MFS_ROOT_INO (fun _ => none) (rootFs firstFree).core := by
  have sound : Sound (rootFs firstFree).core Set.univ := by
    refine demo_sound rfl rfl (fun b small => decide_eq_true (by omega)) rfl ?_ trivial
    intro x mem
    rw [mem_singleton.mp mem]
    rfl
  have empty : (rootFs firstFree).core.tree Set.univ MFS_ROOT_INO = some (.dir .zero []) := by
    rw [Core.tree_of_mem _ (Set.mem_univ _)]
    rfl
  have none : ((rootFs firstFree).core.tree Set.univ).entries MFS_ROOT_INO = [] := by
    rw [Tree.entries, empty]
    rfl
  refine ⟨sound, trivial, ⟨_, _, empty⟩, ?_, fun comp => ?_⟩
  · rw [none]
    exact nodup_nil
  · rw [Tree.lookup, none]
    rfl

/-- With room an entry that was inserted is found. -/
theorem rootFs_insert_is_found :
    ((mfsDirInsert MFS_ROOT_INO [0x61] 2 .file).run (rootFs 10)).1 = .ok () ∧
      ((dirFind MFS_ROOT_INO [0x61]).run
        ((mfsDirInsert MFS_ROOT_INO [0x61] 2 .file).run (rootFs 10)).2).1.toOption = some 2 := by
  have inserted : ((mfsDirInsert MFS_ROOT_INO [0x61] 2 .file).run (rootFs 10)).1 = .ok () := by
    decide +kernel
  have run : DirRun Set.univ MFS_ROOT_INO (rootFs 10) (fun _ => none) _ _ :=
    .step (.insert [0x61] 2 .file) .start (by decide +kernel) ⟨rfl, by decide, trivial⟩
  have found := (directory_implements_finite_map ⟨fun _ => rfl, fun _ => rfl⟩ (rootFs_holds le_rfl) run).2.1
    [0x61] (by decide)
  refine ⟨inserted, found.trans ?_⟩
  change DirOp.recorded _ _ ((mfsDirInsert MFS_ROOT_INO [0x61] 2 .file).run (rootFs 10)).1 [0x61] = some 2
  rw [inserted, DirOp.recorded, DirOp.apply, update_self]

/-- With a single free block `mfs_dir_insert` fails, and the entry is found all the same: the table
buffer leads to the new node block already. -/
theorem failed_insert_is_found :
    HoldsMap Set.univ MFS_ROOT_INO (fun _ => none) (rootFs 63).core ∧
      ((mfsDirInsert MFS_ROOT_INO [0x61] 2 .file).run (rootFs 63)).1 = .error () ∧
      ((dirFind MFS_ROOT_INO [0x61]).run
        ((mfsDirInsert MFS_ROOT_INO [0x61] 2 .file).run (rootFs 63)).2).1.toOption = some 2 := by
  refine ⟨rootFs_holds (by decide), ?_, ?_⟩ <;> decide +kernel

end MorionOS.Mfs
