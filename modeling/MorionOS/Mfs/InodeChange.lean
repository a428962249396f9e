import MorionOS.Mfs.Sound

/-!
# Changing the inode table

`mfsItabSet` writes a new table block and a new index block and commits the volume.
Afterwards one inode points to another block and everything else is as before.
The programs that write an object, find a free inode or release one are built on
it.
-/

namespace MorionOS.Mfs

open StateAct Layered Function Option

/-- From `c` to `c'` inode `ino` was pointed to block `blk`; `n` blocks were allocated at most. -/
structure Points (n ino blk : Nat) (L : Set Nat) (c c' : Core) : Prop where
  grown : Extends n c c'
  sound : Sound c' (insert ino L)
  here : c'.blockOf ino = some blk
  others : ∀ i ≠ ino, c'.blockOf i = c.blockOf i
  gc : c'.mem.gc = c.mem.gc

/-- The object in block `blk` can become that of `ino` in a tree with the inodes `L`. -/
structure Attachable (c : Core) (L : Set Nat) (ino blk : Nat) : Prop where
  object : blk ≠ 0 → ObjectOk c.store c.mem.vol blk
  children : ∀ md es, blk ≠ 0 → objectAt c.store blk = some (.dir md es) →
    ∀ e ∈ es, inoValid e.ino = true ∧ e.ino ∈ insert ino L

variable {c c' : Core} {nb : Nat} {L : Set Nat}

/-- Nothing but counters and the inode table of the volume has changed. -/
theorem extends_of_vol (store : c'.store = c.store) (env : c'.env = c.env)
    (curVol : c'.mem.curVol = c.mem.curVol) (total : c'.mem.vol.total = c.mem.vol.total)
    (bmp : c'.mem.vol.bmp = c.mem.vol.bmp)
    (bitmaps : c'.mem.vol.bmpDataBlocks = c.mem.vol.bmpDataBlocks)
    (snapCount : c'.mem.vol.snapCount = c.mem.vol.snapCount)
    (snaps : c'.mem.vol.snaps = c.mem.vol.snaps) : Extends 0 c c' := by
  have start : c'.mem.vol.dataStart = c.mem.vol.dataStart := by rw [Vol.dataStart, Vol.dataStart, total]
  refine ⟨⟨total, fun b used => ⟨?_, by rw [store]⟩⟩, env, curVol, bitmaps, snapCount, snaps, ?_⟩
  · rw [Vol.InUse, start, total, bmp]
    exact used
  · rw [Vol.room, Vol.room, start, total, bmp]
    exact Nat.le_add_right _ _

/-! ## Preparing the table block -/

theorem ideal_prepareTable (tabled : Tabled c) {k : Nat} (small : k < MFS_ITAB_SLOTS) :
    (prepareTable k).ideal c =
      (.ok (), c.withBuf (tableOf c.store c.mem.vol.itabTable k) c.mem.cache.itabIdx) := by
  rw [prepareTable, ideal_getMem_bind, ideal_getMem_bind]
  by_cases missing : c.mem.vol.itabTable k = 0
  · rw [if_pos missing, tableOf, if_pos missing]
    rfl
  · obtain ⟨-, slots, content⟩ := tabled.tables k small missing
    rw [if_neg missing]
    by_cases cached : c.mem.cache.itabIdx = some k
    · rw [if_pos cached, ← tabled.cached_buf cached]
      rfl
    · rw [if_neg cached, ideal_loadTable content, tableOf, if_neg missing, content]
      rfl

/-! ## Writing table and index -/

/-- The state with the new table block `nt` in slot `k`. -/
def Core.withTable (c : Core) (ino nt : Nat) (slots : Nat → Nat) : Core :=
  let c₁ := (c.withBuf slots c.mem.cache.itabIdx).withBlock nt (.itab slots)
  { c₁ with mem := ((c₁.mem.setCache fun h => { h with itabIdx := some (inoSlot ino).1 }).setVol fun v =>
      { v with itabMem := update v.itabMem (inoSlot ino).1 nt }).setCache (didxInvalidate ino) }

variable {nt ino n m : Nat}

theorem Core.room_withTable (free : c.mem.vol.Free nt) (ino : Nat) (slots : Nat → Nat) :
    c.mem.vol.room = (c.withTable ino nt slots).mem.vol.room + 1 := by
  exact Vol.room_bmpTake free

/-- The state after the index was written to block `nb` and the volume was committed. -/
def Core.withIndex (c : Core) (nb : Nat) : Core :=
  let c₁ := c.withBlock nb (.itabx c.mem.vol.itabTable)
  let c₂ : Core := { c₁ with mem := c₁.mem.setVol fun v => { v with itab := nb } }
  { c₂.writes c₂.mem.vol.flushWrites with mem := c₂.mem.setVol Vol.committed }

theorem ends_mfsItabFlush (c : Core) :
    Ends (mfsItabFlush.ideal c) (fun _ c' => ∃ nb, c.mem.vol.Free nb ∧ c' = c.withIndex nb)
      fun c' => c' = c ∧ c.mem.vol.room = 0 := by
  refine ends_mfsCommit_bind (fun full => ⟨rfl, full⟩) fun nb free => ?_
  rw [ideal_setVol_bind, ideal_mfsBmpFlush]
  exact ⟨nb, free, rfl⟩

/-- The slots of the changed table block. -/
def newSlots (c : Core) (ino blk : Nat) : Nat → Nat :=
  update (tableOf c.store c.mem.vol.itabTable (inoSlot ino).1) (inoSlot ino).2 blk

/-- What `mfs_itab_set` leaves behind, also where it gives up: without a free block the table buffer
has been changed already, with a single one the new table block is in place as well. -/
theorem ends_mfsItabSet_raw (tabled : Tabled c) (ino blk : Nat) :
    Ends ((mfsItabSet ino blk).ideal c)
      (fun _ c' => inoValid ino = true ∧ ∃ nt nb, c.mem.vol.Free nt ∧
        (c.withTable ino nt (newSlots c ino blk)).mem.vol.Free nb ∧
        c' = (c.withTable ino nt (newSlots c ino blk)).withIndex nb)
      fun c' => (inoValid ino = false ∧ c' = c) ∨
        (inoValid ino = true ∧ c.mem.vol.room = 0 ∧
          c' = c.withBuf (newSlots c ino blk) c.mem.cache.itabIdx) ∨
        (inoValid ino = true ∧ c.mem.vol.room = 1 ∧
          ∃ nt, c.mem.vol.Free nt ∧ c' = c.withTable ino nt (newSlots c ino blk)) := by
  apply Ends.ensure
  · exact fun invalid => .inl ⟨invalid, rfl⟩
  · intro valid
    rw [ideal_bind, ideal_prepareTable tabled (inoSlot_lt valid).1, Act.after_ok, ideal_setCache_bind, ideal_getMem_bind]
    refine ends_mfsCommit_bind (fun full => .inr (.inl ⟨valid, full, rfl⟩)) fun nt free => ?_
    refine (ends_mfsItabFlush _).mono (fun _ c' h => ?_) fun c' full => ?_
    · obtain ⟨nb, free', rfl⟩ := h
      exact ⟨valid, nt, nb, free, free', rfl⟩
    · have room := Core.room_withTable (c := c) free ino (newSlots c ino blk)
      have last : (c.withTable ino nt (newSlots c ino blk)).mem.vol.room = 0 := full.2
      exact .inr (.inr ⟨valid, by omega, nt, free, full.1⟩)

/-! ## The tree afterwards -/

theorem extends_withTable (free : c.mem.vol.Free nt) (ino : Nat) (slots : Nat → Nat) :
    Extends 1 c (c.withTable ino nt slots) ∧ (c.withTable ino nt slots).mem.vol.InUse nt := by
  have before : Extends 0 c (c.withBuf slots c.mem.cache.itabIdx) :=
    extends_of_vol rfl rfl rfl rfl rfl rfl rfl rfl
  obtain ⟨written, used⟩ := extends_withBlock (c := c.withBuf slots c.mem.cache.itabIdx) free (.itab slots)
  have after : Extends 0 _ (c.withTable ino nt slots) :=
    extends_of_vol (c := (c.withBuf slots c.mem.cache.itabIdx).withBlock nt (.itab slots))
      rfl rfl rfl rfl rfl rfl rfl rfl
  exact ⟨((before.trans written).trans after).mono (by omega), (after.grows.keeps _ used).1⟩

theorem extends_withIndex (geometry : c.mem.vol.bmpDataBlocks = bbFor c.mem.vol.total)
    (free : c.mem.vol.Free nb) :
    Extends 1 c (c.withIndex nb) ∧ IndexAt (c.withIndex nb).store (c.withIndex nb).mem.vol
      (c.withIndex nb).mem.vol.itab c.mem.vol.itabTable := by
  obtain ⟨written, used⟩ := extends_withBlock free (.itabx c.mem.vol.itabTable)
  have moved : Extends 0 (c.withBlock nb (.itabx c.mem.vol.itabTable))
      { c.withBlock nb (.itabx c.mem.vol.itabTable) with
        mem := (c.withBlock nb (.itabx c.mem.vol.itabTable)).mem.setVol fun v => { v with itab := nb } } :=
    extends_of_vol rfl rfl rfl rfl rfl rfl rfl rfl
  have both := written.trans moved
  have flushed := extends_flush (c := { c.withBlock nb (.itabx c.mem.vol.itabTable) with
      mem := (c.withBlock nb (.itabx c.mem.vol.itabTable)).mem.setVol fun v => { v with itab := nb } })
    (both.bitmaps.trans (geometry.trans (congrArg bbFor both.grows.size.symm)))
  have later := moved.trans flushed
  obtain ⟨used', kept⟩ := later.grows.keeps nb used
  exact ⟨both.trans flushed, used', c.mem.vol.itabTable, kept.trans (update_self _ _ _),
    fun _ _ => rfl⟩

theorem itabTable_withTable (slots : Nat → Nat) (free : c.mem.vol.Free nt)
    (valid : inoValid ino = true) : (c.withTable ino nt slots).mem.vol.itabTable =
      update c.mem.vol.itabTable (inoSlot ino).1 nt := by
  obtain ⟨count, dirty, eq⟩ := Vol.bmpTake_eq free.inside
  have mem : (c.withTable ino nt slots).mem.vol.itabMem =
      update (c.mem.vol.bmpTake nt).itabMem (inoSlot ino).1 nt := rfl
  funext k
  rw [Vol.itabTable, mem, eq]
  by_cases here : k = (inoSlot ino).1
  · rw [here, if_neg (Nat.not_le.mpr (inoSlot_lt valid).1), update_self, update_self]
  · rw [update_of_ne here, update_of_ne here]
    rfl

theorem mem_didxInvalidate {h : Cache} {x : DirIdx} (nonzero : ino ≠ 0)
    (mem : x ∈ (didxInvalidate ino h).didx) (used : x.used = true) : x ∈ h.didx ∧ x.dirIno ≠ ino := by
  rw [didxInvalidate, if_neg nonzero] at mem
  obtain ⟨y, old, eq⟩ := List.mem_map.mp mem
  split at eq
  · rw [← eq] at used
    cases used
  next other =>
    subst eq
    rw [used, Bool.true_and, beq_iff_eq] at other
    exact ⟨old, other⟩

theorem inoValid_ne_zero (valid : inoValid ino = true) : ino ≠ 0 := by
  rintro rfl
  cases valid

theorem inoSlot_injective {i j : Nat} (block : (inoSlot i).1 = (inoSlot j).1)
    (slot : (inoSlot i).2 = (inoSlot j).2) : i = j := by
  have first := Nat.div_add_mod i MFS_ITAB_SLOTS
  have second := Nat.div_add_mod j MFS_ITAB_SLOTS
  simp only [inoSlot] at block slot
  rw [block, slot] at first
  exact first.symm.trans second

theorem itabTable_withBlock (free : c.mem.vol.Free nb) (blk : Block) :
    (c.withBlock nb blk).mem.vol.itabTable = c.mem.vol.itabTable := by
  obtain ⟨count, dirty, eq⟩ := Vol.bmpTake_eq free.inside
  have vol : (c.withBlock nb blk).mem.vol = c.mem.vol.bmpTake nb := rfl
  rw [vol, eq]
  rfl

theorem itabTable_withIndex (free : c.mem.vol.Free nb) :
    (c.withIndex nb).mem.vol.itabTable = c.mem.vol.itabTable :=
  itabTable_withBlock free (.itabx c.mem.vol.itabTable)

theorem cache_withTable (c : Core) (ino nt : Nat) (slots : Nat → Nat) :
    (c.withTable ino nt slots).mem.cache =
      { didxInvalidate ino c.mem.cache with itabIdx := some (inoSlot ino).1, itabBuf := slots } := by
  change didxInvalidate ino _ = _
  rw [didxInvalidate, didxInvalidate]
  split <;> rfl

section Table

variable {c : Core} (tabled : Tabled c) {ino blk nt : Nat} (valid : inoValid ino = true)
include tabled valid

theorem indexOk_withTable (free : c.mem.vol.Free nt) (slots : Nat → Nat) :
    IndexOk (c.withTable ino nt slots).store (c.withTable ino nt slots).mem.vol
      (c.withTable ino nt slots).mem.vol.itabTable := by
  obtain ⟨grown, used⟩ := extends_withTable free ino slots
  rw [itabTable_withTable slots free valid]
  intro k small nonzero
  by_cases here : k = (inoSlot ino).1
  · rw [here, update_self]
    exact ⟨used, slots, update_self _ _ _⟩
  · rw [update_of_ne here] at nonzero ⊢
    exact tabled.tables.grows grown.grows k small nonzero

/-- With the changed table block the inode has its new block and all others the old one. -/
theorem blockOf_withTable (free : c.mem.vol.Free nt) (i : Nat) :
    (c.withTable ino nt (newSlots c ino blk)).blockOf i = if i = ino then some blk else c.blockOf i := by
  obtain ⟨grown, used⟩ := extends_withTable free ino (newSlots c ino blk)
  have tables := indexOk_withTable tabled valid free (newSlots c ino blk)
  have content : (c.withTable ino nt (newSlots c ino blk)).store nt = .itab (newSlots c ino blk) :=
    update_self _ _ _
  have nonzero := free.ne_zero
  rcases possible : inoValid i with _ | _
  · have other : i ≠ ino := by
      rintro rfl
      rw [valid] at possible
      cases possible
    rw [if_neg other, Core.blockOf, Core.blockOf, inoBlockIn, inoBlockIn, possible]
    rfl
  · rw [Core.blockOf, inoBlockIn_eq tables possible, itabTable_withTable _ free valid, tableOf]
    by_cases block : (inoSlot i).1 = (inoSlot ino).1
    · rw [block, update_self, if_neg nonzero, content]
      change some (newSlots c ino blk (inoSlot i).2) = _
      by_cases same : i = ino
      · rw [if_pos same, same, newSlots, update_self]
      · have slot : (inoSlot i).2 ≠ (inoSlot ino).2 := fun slot => same (inoSlot_injective block slot)
        rw [if_neg same, newSlots, update_of_ne slot, Core.blockOf,
          inoBlockIn_eq tabled.tables possible, block]
    · have other : i ≠ ino := fun same => block (by rw [same])
      rw [if_neg other, update_of_ne block, Core.blockOf,
        inoBlockIn_eq tabled.tables possible, tableOf]
      by_cases missing : c.mem.vol.itabTable (inoSlot i).1 = 0
      · rw [if_pos missing, if_pos missing]
      · have kept := (tabled.tables _ (inoSlot_lt possible).1 missing).1
        rw [if_neg missing, if_neg missing, (grown.grows.keeps _ kept).2]

theorem tabled_withTable (free : c.mem.vol.Free nt) (slots : Nat → Nat) :
    Tabled (c.withTable ino nt slots) := by
  obtain ⟨grown, -⟩ := extends_withTable free ino slots
  refine ⟨grown.bitmaps.trans (tabled.geometry.trans (congrArg bbFor grown.grows.size.symm)),
    indexOk_withTable tabled valid free slots, fun k cached => ?_⟩
  rw [cache_withTable] at cached ⊢
  obtain rfl : (inoSlot ino).1 = k := some.inj cached
  have slot := (inoSlot_lt valid).1
  rw [← Vol.itabTable_of_lt _ slot, itabTable_withTable _ free valid, update_self]
  exact ⟨slot, free.ne_zero, update_self _ _ _⟩

omit valid in
theorem tabled_withIndex (free : c.mem.vol.Free nt) : Tabled (c.withIndex nt) := by
  obtain ⟨grown, -⟩ := extends_withIndex tabled.geometry free
  refine ⟨grown.bitmaps.trans (tabled.geometry.trans (congrArg bbFor grown.grows.size.symm)), ?_, ?_⟩
  · rw [itabTable_withIndex free]
    exact tabled.tables.grows grown.grows
  · intro k cached
    obtain ⟨small, nonzero, content⟩ := tabled.cached k cached
    have same : (c.withIndex nt).mem.vol.itabMem k = c.mem.vol.itabMem k := by
      rw [← Vol.itabTable_of_lt _ small, itabTable_withIndex free, Vol.itabTable_of_lt _ small]
    have used := (tabled.tables k small (by rwa [Vol.itabTable_of_lt _ small])).1
    rw [Vol.itabTable_of_lt _ small] at used
    rw [same, (grown.grows.keeps _ used).2]
    exact ⟨small, nonzero, content⟩

/-- The same once the index is written as well. -/
theorem blockOf_withIndex (free : c.mem.vol.Free nt)
    (free' : (c.withTable ino nt (newSlots c ino blk)).mem.vol.Free nb) (i : Nat) :
    ((c.withTable ino nt (newSlots c ino blk)).withIndex nb).blockOf i =
      if i = ino then some blk else c.blockOf i := by
  have middle := tabled_withTable tabled valid free (newSlots c ino blk)
  obtain ⟨grown, -⟩ := extends_withIndex middle.geometry free'
  rw [Core.blockOf, itabTable_withIndex free', inoBlockIn_grows grown.grows middle.tables]
  exact blockOf_withTable tabled valid free i

end Table

section Setting

variable {c : Core} {L : Set Nat} (sound : Sound c L) {ino blk nt nb : Nat} (valid : inoValid ino = true)
include sound valid

theorem treeOk_withTable (free : c.mem.vol.Free nt) (attach : Attachable c L ino blk) :
    TreeOk (c.withTable ino nt (newSlots c ino blk)).store (c.withTable ino nt (newSlots c ino blk)).mem.vol
      (c.withTable ino nt (newSlots c ino blk)).mem.vol.itabTable (insert ino L) := by
  obtain ⟨grown, -⟩ := extends_withTable free ino (newSlots c ino blk)
  have object : ∀ i ∈ insert ino L, ∀ b, (c.withTable ino nt (newSlots c ino blk)).blockOf i = some b → b ≠ 0 →
      ObjectOk c.store c.mem.vol b := by
    intro i known b found nonzero
    rw [blockOf_withTable sound.tabled valid free] at found
    split at found
    · obtain rfl := some.inj found
      exact attach.object nonzero
    next other => exact sound.tree.object i (known.resolve_left other) b found nonzero
  refine ⟨indexOk_withTable sound.tabled valid free _, .inr sound.tree.root,
    fun i known b found nonzero => (object i known b found nonzero).grows grown.grows, ?_⟩
  intro i known md es node e mem
  obtain ⟨b, found, node⟩ := bind_eq_some_iff.mp node
  split at node
  · cases node
  next zero =>
    rw [objectAt_grows grown.grows (object i known b found zero)] at node
    have found : (c.withTable ino nt (newSlots c ino blk)).blockOf i = some b := found
    rw [blockOf_withTable sound.tabled valid free] at found
    split at found
    · obtain rfl := some.inj found
      exact attach.children md es zero node e mem
    next other =>
      have closed := sound.tree.closed i (known.resolve_left other) md es
        (by rw [nodeAt, show inoBlockIn _ _ i = some b from found, bind_some, if_neg zero, node]) e mem
      exact ⟨closed.1, .inr closed.2⟩

/-- A cached directory index that was not invalidated is still right. -/
theorem agrees_after (grows : Grows c.store c.mem.vol c'.store c'.mem.vol) {x : DirIdx}
    (others : ∀ i ≠ ino, c'.blockOf i = c.blockOf i) (mem : x ∈ (didxInvalidate ino c.mem.cache).didx)
    (used : x.used = true) (here : x.vol = c.mem.curVol) (known : x.dirIno ∈ insert ino L) :
    x.Agrees c'.store c'.mem.vol.itabTable := by
  obtain ⟨old, other⟩ := mem_didxInvalidate (inoValid_ne_zero valid) mem used
  have known := known.resolve_left other
  obtain ⟨b, d, found, nonzero, content, places⟩ := sound.dirs x old used here known
  have object := sound.tree.object _ known b found nonzero
  refine ⟨b, d, (others _ other).trans found, nonzero, (grows.keeps b object.1).2.trans content, ?_⟩
  rw [dirPlaces_grows grows (object.dir content)]
  exact places

theorem points_of_set (attach : Attachable c L ino blk) (free : c.mem.vol.Free nt)
    (free' : (c.withTable ino nt (newSlots c ino blk)).mem.vol.Free nb) :
    Points 2 ino blk L c ((c.withTable ino nt (newSlots c ino blk)).withIndex nb) := by
  obtain ⟨grown₁, -⟩ := extends_withTable free ino (newSlots c ino blk)
  have middle := tabled_withTable sound.tabled valid free (newSlots c ino blk)
  have final := tabled_withIndex middle free'
  obtain ⟨grown₂, index⟩ := extends_withIndex middle.geometry free'
  have tree := treeOk_withTable sound valid free attach
  have table := itabTable_withIndex free'
  have blocks := blockOf_withIndex sound.tabled valid free free'
  have others : ∀ i ≠ ino, ((c.withTable ino nt (newSlots c ino blk)).withIndex nb).blockOf i =
      c.blockOf i := fun i other => (blocks i).trans (if_neg other)
  have cache : ((c.withTable ino nt (newSlots c ino blk)).withIndex nb).mem.cache = _ :=
    cache_withTable c ino nt (newSlots c ino blk)
  refine ⟨grown₁.trans grown₂, ⟨final.geometry, ?_, ?_, final.cached, ?_⟩, (blocks ino).trans (if_pos rfl),
    others, rfl⟩
  · rw [table]
    exact index
  · rw [table]
    exact tree.grows grown₂.grows
  · intro x mem used here known
    rw [cache] at mem
    exact agrees_after sound valid (grown₁.trans grown₂).grows others mem used here known

end Setting

/-- **`mfs_itab_set` points one inode to another block.**  It fails only for an impossible inode
number or when there is no room for the new table. -/
theorem ends_mfsItabSet (sound : Sound c L) {blk : Nat} (attach : Attachable c L ino blk) :
    Ends ((mfsItabSet ino blk).ideal c) (fun _ c' => inoValid ino = true ∧ Points 2 ino blk L c c')
      fun c' => (inoValid ino = false ∧ c' = c) ∨ c.mem.vol.room < 2 := by
  refine (ends_mfsItabSet_raw sound.tabled ino blk).mono (fun _ c' h => ?_) fun c' h => ?_
  · obtain ⟨valid, nt, nb, free, free', rfl⟩ := h
    exact ⟨valid, points_of_set sound valid attach free free'⟩
  · rcases h with unchanged | ⟨-, full, -⟩ | ⟨-, full, -⟩
    · exact .inl unchanged
    · exact .inr (by omega)
    · exact .inr (by omega)

/-! ## The tree of a state -/

/-- What the inodes of a volume stand for. -/
abbrev Tree := Nat → Option Node

open Classical in
/-- The objects of the inodes in `L`. -/
noncomputable def Core.tree (c : Core) (L : Set Nat) : Tree := fun i => if i ∈ L then c.node i else none

/-- The inode has a block. -/
def Core.Allocated (c : Core) (ino : Nat) : Prop := ∃ b, c.blockOf ino = some b ∧ b ≠ 0

/-- From `c` to `c'` the tree has become `t`. -/
structure Becomes (n : Nat) (L L' : Set Nat) (t : Tree) (c c' : Core) : Prop where
  grown : Extends n c c'
  sound : Sound c' L'
  tree : c'.tree L' = t
  allocated : ∀ i, c'.Allocated i → c.Allocated i ∨ i ∈ L'
  larger : L ⊆ L'
  gc : c'.mem.gc = c.mem.gc

theorem Core.tree_of_mem (c : Core) {i : Nat} (known : i ∈ L) : c.tree L i = c.node i := by
  rw [tree, if_pos known]

theorem Looks.tree (h : Looks L c c') : c'.tree L = c.tree L := by
  funext i
  rw [Core.tree, Core.tree, h.node]

theorem Looks.becomes (h : Looks L c c') : Becomes 0 L L (c.tree L) c c' where
  grown := h.extends
  sound := h.sound
  tree := h.tree
  allocated i := by
    rw [Core.Allocated, h.blockOf]
    exact .inl
  larger := subset_rfl
  gc := h.gc

theorem Becomes.trans {L₁ L₂ L₃ : Set Nat} {t t' : Tree} {c₁ c₂ c₃ : Core}
    (h : Becomes n L₁ L₂ t c₁ c₂) (h' : Becomes m L₂ L₃ t' c₂ c₃) : Becomes (n + m) L₁ L₃ t' c₁ c₃ where
  grown := h.grown.trans h'.grown
  sound := h'.sound
  tree := h'.tree
  allocated i new := by
    rcases h'.allocated i new with mid | known
    · exact (h.allocated i mid).imp_right fun known => h'.larger known
    · exact .inr known
  larger := h.larger.trans h'.larger
  gc := h'.gc.trans h.gc

theorem Becomes.mono {L' : Set Nat} {t : Tree} (h : Becomes n L L' t c c') (le : n ≤ m) :
    Becomes m L L' t c c' :=
  { h with grown := h.grown.mono le }

/-- A block was written that nothing refers to yet. -/
theorem Sound.withBlock (sound : Sound c L) {b : Nat} (free : c.mem.vol.Free b) (blk : Block) :
    Becomes 1 L L (c.tree L) c (c.withBlock b blk) := by
  obtain ⟨grown, -⟩ := extends_withBlock free blk
  obtain ⟨count, dirty, eq⟩ := Vol.bmpTake_eq free.inside
  have vol : (c.withBlock b blk).mem.vol = c.mem.vol.bmpTake b := rfl
  have itabMem : (c.withBlock b blk).mem.vol.itabMem = c.mem.vol.itabMem := by rw [vol, eq]
  have table := itabTable_withBlock free blk
  refine ⟨grown, sound.extends grown (by rw [vol, eq]) itabMem rfl, ?_, ?_, subset_rfl, rfl⟩
  · funext i
    by_cases known : i ∈ L
    · rw [Core.tree_of_mem _ known, Core.tree_of_mem _ known, Core.node, table]
      exact sound.tree.nodeAt_grows grown.grows known
    · rw [Core.tree, Core.tree, if_neg known, if_neg known]
  · intro i
    rw [Core.Allocated, Core.blockOf, table, inoBlockIn_grows grown.grows sound.tree.tables]
    exact .inl

theorem Points.becomes {blk : Nat} (h : Points n ino blk L c c') (sound : Sound c L)
    (attach : Attachable c L ino blk) :
    Becomes n L (insert ino L)
      (update (c.tree L) ino (if blk = 0 then none else objectAt c.store blk)) c c' := by
  refine ⟨h.grown, h.sound, ?_, ?_, Set.subset_insert _ _, h.gc⟩
  · funext i
    by_cases same : i = ino
    · rw [same, update_self, Core.tree_of_mem _ (Set.mem_insert _ _), Core.node_eq, h.here,
        bind_some]
      by_cases zero : blk = 0
      · rw [if_pos zero, if_pos zero]
      · rw [if_neg zero, if_neg zero, objectAt_grows h.grown.grows (attach.object zero)]
    · rw [update_of_ne same]
      by_cases known : i ∈ L
      · rw [Core.tree_of_mem _ (Set.mem_insert_of_mem _ known), Core.tree_of_mem _ known, Core.node_eq,
          h.others i same, Core.node_eq]
        apply Option.bind_congr
        intro b found
        by_cases zero : b = 0
        · rw [if_pos zero, if_pos zero]
        · rw [if_neg zero, if_neg zero, objectAt_grows h.grown.grows (sound.tree.object i known b found zero)]
      · rw [Core.tree, Core.tree, if_neg known, if_neg]
        rintro (here | old)
        · exact same here
        · exact known old
  · intro i
    by_cases same : i = ino
    · exact fun _ => .inr (.inl same)
    · rw [Core.Allocated, h.others i same]
      exact .inl

/-! ## Programs that change one inode -/

/-- A change after a look. -/
theorem Looks.ends {α : Type} {P : Tree → Prop} {c₁ : Core} {r : Except Unit α × Core} (looks : Looks L c c₁)
    (h : Ends r (fun _ c' => ∃ t', P t' ∧ Becomes n L L t' c₁ c') fun _ => c₁.mem.vol.room < n) :
    Ends r (fun _ c' => ∃ t', P t' ∧ Becomes n L L t' c c') fun _ => c.mem.vol.room < n := by
  refine h.mono (fun _ c' h => ?_) fun c' short => looks.vol ▸ short
  obtain ⟨t', holds, becomes⟩ := h
  exact ⟨t', holds, (looks.becomes.trans becomes).mono (by omega)⟩

variable {c : Core} {L : Set Nat} (sound : Sound c L)
include sound

/-- `mfs_commit_object` gives an inode a new object, unless there is no room. -/
theorem ends_mfsCommitObject {blk : Block} (valid : inoValid ino = true)
    (attach : ∀ b, c.mem.vol.Free b → Attachable (c.withBlock b blk) L ino b) :
    Ends ((mfsCommitObject ino blk).ideal c)
      (fun b c' => c.mem.vol.Free b ∧ Becomes 3 L (insert ino L)
        (update (c.tree L) ino (objectAt (c.withBlock b blk).store b)) c c')
      fun _ => c.mem.vol.room < 3 := by
  refine ends_mfsCommit_bind (fun full => by omega) fun b free => ?_
  have written := sound.withBlock free blk
  refine (ends_mfsItabSet written.sound (attach b free)).bind (fun c' h => ?_) fun _ c' h => ?_
  · rcases h with ⟨invalid, -⟩ | full
    · cases valid.symm.trans invalid
    · have := written.grown.room
      omega
  · have becomes := h.2.becomes written.sound (attach b free)
    rw [if_neg free.ne_zero, written.tree] at becomes
    exact ⟨free, written.trans becomes⟩

end MorionOS.Mfs
