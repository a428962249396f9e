import MorionOS.Mfs.Allocate

/-!
# Sound states

In a sound state the blocks encode a tree, the index of the inode table in memory
is the one on the disk, and what the caches hold is true: the cached table block
and, of every cached directory index, the places of the entries.

Programs that only look (`Looks`) may change the caches.  The one way in which a
tree changes is `mfsItabSet`, which lets one inode point to another block; its
effect is `Points`.
-/

namespace MorionOS.Mfs

open StateAct Layered

/-! ## What the caches may hold -/

/-- The places of the entries of a directory in the order of a scan. -/
def dirPlaces (store : Nat → Block) (b : Nat) (d : DirBlock) : List DirIdxEnt :=
  (dirBlocks store b d).flatMap fun x => placesFrom x.1 x.2.slots 0

/-- A directory index holds an initial part of the places of its directory, and all of them when it
is complete. -/
def DirIdx.Agrees (store : Nat → Block) (index : Nat → Nat) (x : DirIdx) : Prop :=
  ∃ b d, inoBlockIn store index x.dirIno = some b ∧ b ≠ 0 ∧ store b = .dir d ∧
    x.ents <+: dirPlaces store b d ∧ (x.complete = true → x.ents = dirPlaces store b d)

/-- Block `itab` is the index block of an inode table with index `index`. -/
def IndexAt (store : Nat → Block) (v : Vol) (itab : Nat) (index : Nat → Nat) : Prop :=
  v.InUse itab ∧ ∃ slots, store itab = .itabx slots ∧ ∀ k < MFS_ITAB_SLOTS, slots k = index k

/-- The current volume encodes a tree with the inodes in `L`, and the caches agree with it. -/
structure Sound (c : Core) (L : Set Nat) : Prop where
  geometry : c.mem.vol.bmpDataBlocks = bbFor c.mem.vol.total
  index : IndexAt c.store c.mem.vol c.mem.vol.itab c.mem.vol.itabTable
  tree : TreeOk c.store c.mem.vol c.mem.vol.itabTable L
  table : ∀ k, c.mem.cache.itabIdx = some k → k < MFS_ITAB_SLOTS ∧ c.mem.vol.itabMem k ≠ 0 ∧
    c.store (c.mem.vol.itabMem k) = .itab c.mem.cache.itabBuf
  dirs : ∀ x ∈ c.mem.cache.didx, x.used = true → x.vol = c.mem.curVol → x.dirIno ∈ L →
    x.Agrees c.store c.mem.vol.itabTable

/-- The block of an inode of the current volume. -/
def Core.blockOf (c : Core) (ino : Nat) : Option Nat := inoBlockIn c.store c.mem.vol.itabTable ino

/-- The object of an inode of the current volume. -/
def Core.node (c : Core) (ino : Nat) : Option Node := nodeAt c.store c.mem.vol.itabTable ino

theorem Core.node_eq (c : Core) (ino : Nat) :
    c.node ino = (c.blockOf ino).bind fun b => if b = 0 then none else objectAt c.store b := rfl

variable {k : Nat} {L : Set Nat} {c c' : Core}

theorem Vol.itabTable_of_lt (v : Vol) (small : k < MFS_ITAB_SLOTS) : v.itabTable k = v.itabMem k := if_neg (Nat.not_le.mpr small)

variable {store store' : Nat → Block} {v v' : Vol} {index : Nat → Nat}

theorem dirPlaces_grows (g : Grows store v store' v') {b : Nat}
    {d : DirBlock} (ok : DirOk store v b d) : dirPlaces store' b d = dirPlaces store b d := by
  rw [dirPlaces, dirPlaces, dirBlocks_grows g ok]

theorem IndexAt.grows (g : Grows store v store' v') {itab : Nat}
    (h : IndexAt store v itab index) : IndexAt store' v' itab index := by
  obtain ⟨used, slots, content, same⟩ := h
  obtain ⟨used', kept⟩ := g.keeps _ used
  exact ⟨used', slots, by rw [kept, content], same⟩

/-- The directory behind an object that is in order. -/
theorem ObjectOk.dir {b : Nat} {d : DirBlock} (ok : ObjectOk store v b)
    (content : store b = .dir d) : DirOk store v b d := by
  rcases ok.2 with ⟨d', same, ok⟩ | ⟨f, same, -⟩ | ⟨l, same⟩
  · rw [content] at same
    obtain rfl := Block.dir.inj same
    exact ok
  · rw [content] at same
    cases same
  · rw [content] at same
    cases same

theorem DirIdx.Agrees.grows (g : Grows store v store' v') (ok : TreeOk store v index L) {x : DirIdx}
    (known : x.dirIno ∈ L) (h : x.Agrees store index) : x.Agrees store' index := by
  obtain ⟨b, d, found, nonzero, content, part, whole⟩ := h
  have object := ok.object _ known b found nonzero
  refine ⟨b, d, by rw [inoBlockIn_grows g ok.tables, found], nonzero, ?_, ?_⟩
  · rw [(g.keeps b object.1).2, content]
  · rw [dirPlaces_grows g (object.dir content)]
    exact ⟨part, whole⟩

/-- A state stays sound while the volume grows and inode table and caches stay. -/
theorem Sound.extends {n : Nat} (sound : Sound c L) (ext : Extends n c c')
    (itab : c'.mem.vol.itab = c.mem.vol.itab) (itabMem : c'.mem.vol.itabMem = c.mem.vol.itabMem)
    (cache : c'.mem.cache = c.mem.cache) : Sound c' L := by
  have table : c'.mem.vol.itabTable = c.mem.vol.itabTable := by
    funext k
    rw [Vol.itabTable, Vol.itabTable, itabMem]
  refine ⟨?_, ?_, ?_, ?_, ?_⟩
  · rw [ext.bitmaps, ext.grows.size, sound.geometry]
  · rw [itab, table]
    exact sound.index.grows ext.grows
  · rw [table]
    exact sound.tree.grows ext.grows
  · intro k cached
    rw [cache] at cached
    obtain ⟨small, nonzero, content⟩ := sound.table k cached
    have entry := c.mem.vol.itabTable_of_lt small
    have used := (sound.tree.tables k small (by rw [entry]; exact nonzero)).1
    rw [entry] at used
    rw [itabMem, (ext.grows.keeps _ used).2, cache]
    exact ⟨small, nonzero, content⟩
  · intro x mem used here known
    rw [cache] at mem
    rw [ext.curVol] at here
    rw [table]
    exact (sound.dirs x mem used here known).grows ext.grows sound.tree known

/-! ## Looking -/

/-- Only caches, the clock and the like have changed, and the state is sound. -/
structure Looks (L : Set Nat) (c c' : Core) : Prop where
  store : c'.store = c.store
  vol : c'.mem.vol = c.mem.vol
  env : c'.env = c.env
  curVol : c'.mem.curVol = c.mem.curVol
  gc : c'.mem.gc = c.mem.gc
  sound : Sound c' L

/-- In addition, the entry that the last path resolution found is kept. -/
structure Quiet (L : Set Nat) (c c' : Core) : Prop extends Looks L c c' where
  leaf : c'.mem.leaf = c.mem.leaf

theorem Quiet.refl (sound : Sound c L) : Quiet L c c :=
  ⟨⟨rfl, rfl, rfl, rfl, rfl, sound⟩, rfl⟩

theorem Looks.trans {c₁ c₂ c₃ : Core} (h : Looks L c₁ c₂) (h' : Looks L c₂ c₃) : Looks L c₁ c₃ :=
  ⟨h'.store.trans h.store, h'.vol.trans h.vol, h'.env.trans h.env, h'.curVol.trans h.curVol,
    h'.gc.trans h.gc, h'.sound⟩

theorem Quiet.trans {c₁ c₂ c₃ : Core} (h : Quiet L c₁ c₂) (h' : Quiet L c₂ c₃) : Quiet L c₁ c₃ :=
  ⟨h.toLooks.trans h'.toLooks, h'.leaf.trans h.leaf⟩

theorem Looks.blockOf (h : Looks L c c') : c'.blockOf = c.blockOf := by
  funext ino
  rw [Core.blockOf, Core.blockOf, h.store, h.vol]

theorem Looks.node (h : Looks L c c') : c'.node = c.node := by
  funext ino
  rw [Core.node, Core.node, h.store, h.vol]

theorem Looks.extends (h : Looks L c c') : Extends 0 c c' where
  grows := by
    rw [h.store, h.vol]
    exact .refl _ _
  env := h.env
  curVol := h.curVol
  bitmaps := by rw [h.vol]
  snapCount := by rw [h.vol]
  snaps := by rw [h.vol]
  room := by
    rw [h.vol]
    exact Nat.le_add_right _ _

/-- A change of the clock, of the leaf and of other statics outside volume and caches. -/
theorem Sound.of_same (sound : Sound c L) (store : c'.store = c.store) (vol : c'.mem.vol = c.mem.vol)
    (cache : c'.mem.cache = c.mem.cache) (curVol : c'.mem.curVol = c.mem.curVol) : Sound c' L := by
  obtain ⟨geometry, index, tree, table, dirs⟩ := sound
  constructor
  · rw [vol]; exact geometry
  · rw [vol, store]; exact index
  · rw [vol, store]; exact tree
  · rw [vol, store, cache]; exact table
  · rw [vol, store, cache, curVol]; exact dirs

theorem ends_mfsNow (sound : Sound c L) :
    Ends ((mfsNow : Op Unit Nat).ideal c) (fun _ c' => Quiet L c c') fun _ => False :=
  ⟨⟨rfl, rfl, rfl, rfl, rfl, sound.of_same rfl rfl rfl rfl⟩, rfl⟩

/-! ## Reading the inode table -/

/-- The slots of table block `k` of an index, zeros when it is missing. -/
def tableOf (store : Nat → Block) (index : Nat → Nat) (k : Nat) : Nat → Nat :=
  if index k = 0 then fun _ => 0 else (store (index k)).tableSlots.getD fun _ => 0

theorem inoBlockIn_eq (ok : IndexOk store v index) {ino : Nat} (valid : inoValid ino = true) :
    inoBlockIn store index ino = some (tableOf store index (inoSlot ino).1 (inoSlot ino).2) := by
  rw [inoBlockIn, if_pos valid, tableOf]
  by_cases missing : index (inoSlot ino).1 = 0
  · rw [if_pos missing, if_pos missing]
  · obtain ⟨-, slots, content⟩ := ok _ (inoSlot_lt valid).1 missing
    rw [if_neg missing, if_neg missing, content]
    rfl

/-- The state with another table block in the buffer. -/
def Core.withBuf (c : Core) (buf : Nat → Nat) (idx : Option Nat) : Core :=
  { c with mem := c.mem.setCache fun h => { h with itabBuf := buf, itabIdx := idx } }

@[simp] theorem Core.withBuf_itabIdx (c : Core) (buf : Nat → Nat) (idx : Option Nat) :
    (c.withBuf buf idx).mem.cache.itabIdx = idx := rfl

@[simp] theorem Core.withBuf_vol (c : Core) (buf : Nat → Nat) (idx : Option Nat) :
    (c.withBuf buf idx).mem.vol = c.mem.vol := rfl

theorem ideal_loadTable {t : Nat} {slots : Nat → Nat} (content : c.store t = .itab slots) :
    (loadTable t).ideal c = (.ok (), c.withBuf slots c.mem.cache.itabIdx) := by
  simp only [loadTable, ideal_bind, ideal_attempt, ideal_mfsReadBlk, content]
  rfl

/-- The inode table is in order: its blocks are in use, and the cached one is among them. -/
structure Tabled (c : Core) : Prop where
  geometry : c.mem.vol.bmpDataBlocks = bbFor c.mem.vol.total
  tables : IndexOk c.store c.mem.vol c.mem.vol.itabTable
  cached : ∀ k, c.mem.cache.itabIdx = some k → k < MFS_ITAB_SLOTS ∧ c.mem.vol.itabMem k ≠ 0 ∧
    c.store (c.mem.vol.itabMem k) = .itab c.mem.cache.itabBuf

theorem Tabled.cached_buf (tabled : Tabled c) (cached : c.mem.cache.itabIdx = some k) :
    c.mem.cache.itabBuf = tableOf c.store c.mem.vol.itabTable k := by
  obtain ⟨small, nonzero, content⟩ := tabled.cached k cached
  rw [tableOf, Vol.itabTable_of_lt _ small, if_neg nonzero, content]
  rfl

variable {c : Core} {L : Set Nat} (sound : Sound c L)
include sound

theorem Sound.tabled : Tabled c := ⟨sound.geometry, sound.tree.tables, sound.table⟩

theorem Sound.withBuf (small : k < MFS_ITAB_SLOTS) (nonzero : c.mem.vol.itabTable k ≠ 0) :
    Quiet L c (c.withBuf (tableOf c.store c.mem.vol.itabTable k) (some k)) := by
  refine ⟨⟨rfl, rfl, rfl, rfl, rfl, sound.geometry, sound.index, sound.tree, ?_, sound.dirs⟩, rfl⟩
  intro k' same
  obtain rfl : k = k' := Option.some.inj same
  obtain ⟨-, slots, content⟩ := sound.tree.tables k small nonzero
  have buf : tableOf c.store c.mem.vol.itabTable k = slots := by
    rw [tableOf, if_neg nonzero, content]
    rfl
  rw [Vol.itabTable_of_lt _ small] at nonzero content
  exact ⟨small, nonzero, by rw [buf]; exact content⟩

theorem ends_mfsInoBlock (ino : Nat) :
    Ends ((mfsInoBlock ino).ideal c) (fun b c' => Quiet L c c' ∧ c.blockOf ino = some b)
      fun c' => c' = c ∧ inoValid ino = false := by
  apply Ends.ensure
  · exact fun invalid => ⟨rfl, invalid⟩
  · intro valid
    have slot := inoSlot_lt valid
    rw [ideal_getMem_bind]
    by_cases missing : c.mem.vol.itabTable (inoSlot ino).1 = 0
    · rw [if_pos missing]
      refine ⟨.refl sound, ?_⟩
      rw [Core.blockOf, inoBlockIn_eq sound.tree.tables valid, tableOf, if_pos missing]
    · rw [if_neg missing, cacheTable, ideal_bind, ideal_getMem_bind]
      have found := inoBlockIn_eq sound.tree.tables valid
      by_cases cached : c.mem.cache.itabIdx = some (inoSlot ino).1
      · rw [if_pos cached]
        exact ⟨.refl sound, by rw [Core.blockOf, found, ← sound.tabled.cached_buf cached]⟩
      · obtain ⟨-, slots, content⟩ := sound.tree.tables _ slot.1 missing
        have buf : tableOf c.store c.mem.vol.itabTable (inoSlot ino).1 = slots := by
          rw [tableOf, if_neg missing, content]
          rfl
        rw [if_neg cached, ideal_bind, ideal_loadTable content, Act.after_ok, ideal_setCache, Act.after_ok,
          ideal_getMem]
        have quiet := sound.withBuf slot.1 missing
        rw [buf] at quiet found
        exact ⟨quiet, found⟩

omit sound in
/-- The small volume is sound, whatever else is marked as used and whichever inodes are considered. -/
theorem demo_sound {bmp : Nat → Bool} {free : Nat} (store : c.store = demoStore)
    (vol : c.mem.vol = { demoVol with bmp := bmp, freeBlocks := free }) (used : ∀ b < 10, bmp b = true)
    (table : c.mem.cache.itabIdx = none) (dirs : ∀ x ∈ c.mem.cache.didx, x.used = false)
    (root : MFS_ROOT_INO ∈ L) : Sound c L := by
  have size : c.mem.vol.total = 64 := by rw [vol]; rfl
  have itabMem : c.mem.vol.itabMem = fun k => if k = 0 then 7 else 0 := by rw [vol]; rfl
  have start : c.mem.vol.dataStart = 6 := by
    rw [Vol.dataStart, size]
    decide
  have inUse : ∀ b, 6 ≤ b → b < 10 → c.mem.vol.InUse b := by
    intro b low high
    refine ⟨start.trans_le low, ?_, ?_⟩
    · rw [size]
      omega
    · rw [vol]
      exact used b high
  have index : ∀ k, c.mem.vol.itabTable k = if k = 0 then 7 else 0 := by
    intro k
    rw [Vol.itabTable, itabMem]
    by_cases first : k = 0
    · rw [first]
      decide
    · simp [first]
  have tables : IndexOk c.store c.mem.vol c.mem.vol.itabTable := by
    intro k _ nonzero
    rw [index] at nonzero ⊢
    obtain rfl : k = 0 := by simpa using nonzero
    exact ⟨inUse 7 (by decide) (by decide), _, by rw [store]; rfl⟩
  -- the root is the only inode with a block
  have block : ∀ i b, inoBlockIn c.store c.mem.vol.itabTable i = some b → b ≠ 0 → b = 6 := by
    intro i b found nonzero
    rcases valid : inoValid i with _ | _
    · rw [inoBlockIn, valid] at found
      cases found
    · rw [inoBlockIn_eq tables valid, tableOf, index] at found
      obtain rfl := Option.some.inj found
      by_cases first : (inoSlot i).1 = 0
      · simp only [if_pos first, Nat.reduceEqDiff, if_false, store] at nonzero ⊢
        change (if (inoSlot i).2 = MFS_ROOT_INO then 6 else 0) ≠ 0 at nonzero
        change (if (inoSlot i).2 = MFS_ROOT_INO then 6 else 0) = 6
        simpa using nonzero
      · simp [first] at nonzero
  have content : c.store 6 = .dir (.empty .zero) := by rw [store]; rfl
  refine ⟨?_, ?_, ⟨tables, root, ?_, ?_⟩, ?_, ?_⟩
  · rw [vol]
    exact (show 1 = bbFor 64 by decide)
  · have itab : c.mem.vol.itab = 8 := by rw [vol]; rfl
    refine ⟨by rw [itab]; exact inUse 8 (by decide) (by decide), fun k => if k = 0 then 7 else 0, ?_, ?_⟩
    · rw [itab, store]
      rfl
    · exact fun k _ => (index k).symm
  · intro i _ b found nonzero
    rw [block i b found nonzero]
    exact ⟨inUse 6 (by decide) (by decide), .inl ⟨_, content, DirBlock.empty_ok _, .inl rfl⟩⟩
  · intro i _ md es node e mem
    obtain ⟨b, found, node⟩ := Option.bind_eq_some_iff.mp node
    by_cases zero : b = 0
    · rw [if_pos zero] at node
      cases node
    · rw [if_neg zero, block i b found zero, objectAt, content] at node
      obtain ⟨-, rfl⟩ : _ ∧ _ = es := by simpa using node
      simp [dirEntries, dirBlocks, DirBlock.empty] at mem
      cases mem
  · intro k cached
    rw [table] at cached
    cases cached
  · intro x mem live
    rw [dirs x mem] at live
    cases live

end MorionOS.Mfs
