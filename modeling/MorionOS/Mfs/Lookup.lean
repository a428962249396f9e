import MorionOS.Mfs.InodeChange

/-!
# Finding an entry

A name is looked up in the index of the directory that is kept in memory, which is
built when it is missing, and by a scan of the blocks when the index does not
decide.  In a sound state all of these find the same: the first entry with the name
in the order of a scan.
-/

namespace MorionOS.Mfs

open StateAct Layered List Option

/-! ## Directories in a state -/

/-- Inode `ino` is a directory with node `d` in block `b`. -/
@[mk_iff]
structure Core.DirNode (c : Core) (ino b : Nat) (d : DirBlock) : Prop where
  block : c.blockOf ino = some b
  nonzero : b ≠ 0
  content : c.store b = .dir d

/-- The entries of an object; what is no directory has none. -/
def Node.entries : Node → List Entry
  | .dir _ es => es
  | _ => []

/-- The entries of an inode. -/
def Tree.entries (t : Tree) (ino : Nat) : List Entry := (t ino).elim [] Node.entries

/-- The first entry of a directory with a name. -/
def Tree.lookup (t : Tree) (ino : Nat) (comp : Name) : Option Entry :=
  (t.entries ino).find? fun e => e.name == comp

variable {c c' : Core} {ino b : Nat} {d : DirBlock} {L : Set Nat} {store : Nat → Block} {l₁ l₂ : List Entry}
  {e : Entry} {p : DirIdxEnt} {comp : Name}

theorem Core.DirNode.node (h : c.DirNode ino b d) : c.node ino = some (.dir d.md (dirEntries c.store b d)) := by
  rw [Core.node_eq, h.block, bind_some, if_neg h.nonzero, objectAt, h.content]

theorem Core.DirNode.of_node {md : Meta} {es : List Entry}
    (h : c.node ino = some (.dir md es)) : ∃ b d, c.DirNode ino b d ∧ d.md = md ∧ dirEntries c.store b d = es := by
  obtain ⟨b, found, h⟩ := bind_eq_some_iff.mp h
  split at h
  · cases h
  next nonzero =>
    rw [objectAt] at h
    split at h
    next d content =>
      obtain ⟨rfl, rfl⟩ : d.md = md ∧ dirEntries c.store b d = es := by simpa using h
      exact ⟨b, d, ⟨found, nonzero, content⟩, rfl, rfl⟩
    all_goals simp at h

theorem Core.DirNode.ok (sound : Sound c L)
    (known : ino ∈ L) (h : c.DirNode ino b d) : DirOk c.store c.mem.vol b d :=
  (sound.tree.object ino known b h.block h.nonzero).dir h.content

theorem Core.DirNode.entries (h : c.DirNode ino b d)
    (known : ino ∈ L) : (c.tree L).entries ino = dirEntries c.store b d := by
  rw [Tree.entries, Core.tree_of_mem _ known, h.node]
  rfl

theorem Looks.dirNode_iff (h : Looks L c c') : c'.DirNode ino b d ↔ c.DirNode ino b d := by
  rw [Core.dirNode_iff, Core.dirNode_iff, h.blockOf, h.store]

theorem Looks.dirNode (h : Looks L c c') : c.DirNode ino b d → c'.DirNode ino b d := h.dirNode_iff.mpr

/-! ## Places and entries -/

/-- The entry `e` is record `idx` of block `blk` of the directory with node `d` in block `b`; before
it the directory has the entries `l₁`, behind it `l₂`. -/
def DirAt (store : Nat → Block) (b : Nat) (d : DirBlock) (blk idx : Nat) (l₁ : List Entry) (e : Entry)
    (l₂ : List Entry) : Prop :=
  ∃ before inside after slots₁ slot slots₂,
    dirBlocks store b d = before ++ (blk, inside) :: after ∧
    inside.slots = slots₁ ++ slot :: slots₂ ∧ slots₁.length = idx ∧ slot.name ≠ [] ∧ slot.entry = e ∧
    l₁ = (before.flatMap fun x => x.2.entries) ++ slotEntries slots₁ ∧
    l₂ = slotEntries slots₂ ++ after.flatMap fun x => x.2.entries

/-- The entry `e` is at location `loc`. -/
def Core.EntryAt (c : Core) (loc : MfsLoc) (l₁ : List Entry) (e : Entry) (l₂ : List Entry) : Prop :=
  ∃ b d, c.DirNode loc.dirIno b d ∧ DirAt c.store b d loc.blk loc.idx l₁ e l₂

theorem DirAt.entries {blk idx : Nat}
    (h : DirAt store b d blk idx l₁ e l₂) : dirEntries store b d = l₁ ++ e :: l₂ := by
  obtain ⟨before, inside, after, slots₁, slot, slots₂, blocks, slots, -, live, rfl, rfl, rfl⟩ := h
  rw [dirEntries, blocks, flatMap_append, flatMap_cons, DirBlock.entries, slots,
    slotEntries_append, slotEntries_live live]
  simp

theorem flatMap_split {α β : Type} {f : α → List β} {xs : List α} {ps qs : List β} {p : β}
    (h : xs.flatMap f = ps ++ p :: qs) : ∃ before x after us vs, xs = before ++ x :: after ∧
      f x = us ++ p :: vs ∧ ps = before.flatMap f ++ us ∧ qs = vs ++ after.flatMap f := by
  induction xs generalizing ps with
  | nil => simp at h
  | cons x xs ih =>
    rw [flatMap_cons] at h
    rcases append_eq_append_iff.mp h with ⟨us, rfl, rest⟩ | ⟨us, here, rest⟩
    · obtain ⟨before, y, after, us', vs, rfl, eq, rfl, rfl⟩ := ih rest
      exact ⟨x :: before, y, after, us', vs, rfl, eq, by simp, rfl⟩
    · rcases us with _ | ⟨u, us⟩
      · have later : xs.flatMap f = [] ++ p :: qs := by simpa using rest.symm
        obtain ⟨before, y, after, us', vs, rfl, eq, first, rfl⟩ := ih later
        have first := append_eq_nil_iff.mp first.symm
        refine ⟨x :: before, y, after, us', vs, rfl, eq, ?_, rfl⟩
        rw [flatMap_cons, first.1, first.2, here]
        simp
      · obtain ⟨rfl, rfl⟩ : p = u ∧ qs = us ++ xs.flatMap f := by simpa using rest
        exact ⟨[], x, xs, ps, us, rfl, here, rfl, rfl⟩

theorem flatMap_names (xs : List (Nat × DirBlock)) :
    (xs.flatMap fun x => placesFrom x.1 x.2.slots 0).map DirIdxEnt.name =
      (xs.flatMap fun x => x.2.entries).map Entry.name := by
  induction xs with
  | nil => rfl
  | cons x xs ih =>
    rw [flatMap_cons, flatMap_cons, map_append, map_append, ih, placesFrom_names]
    rfl

theorem dirAt_of_place {ps qs : List DirIdxEnt} (h : dirPlaces store b d = ps ++ p :: qs) :
    ∃ l₁ e l₂, DirAt store b d p.blk p.idx l₁ e l₂ ∧ e.name = p.name ∧
      l₁.map Entry.name = ps.map DirIdxEnt.name := by
  obtain ⟨before, ⟨blk, inside⟩, after, us, vs, blocks, here, rfl, rfl⟩ := flatMap_split h
  obtain ⟨slots₁, slot, slots₂, slots, live, rfl, names⟩ := placesFrom_split here
  refine ⟨_, _, _, ⟨before, inside, after, slots₁, slot, slots₂, blocks, slots, ?_, live, rfl, rfl, rfl⟩,
    rfl, ?_⟩
  · simp
  · rw [map_append, map_append, ← names, flatMap_names]

/-- The place of the first entry with a name. -/
def placeOf (store : Nat → Block) (b : Nat) (d : DirBlock) (comp : Name) : Option DirIdxEnt :=
  (dirPlaces store b d).find? fun p => p.name == comp

theorem dirAt_of_placeOf
    (h : placeOf store b d comp = some p) : ∃ l₁ e l₂, DirAt store b d p.blk p.idx l₁ e l₂ ∧
      e.name = comp ∧ ∀ x ∈ l₁, x.name ≠ comp := by
  obtain ⟨name, ps, qs, split, first⟩ := List.find?_eq_some_iff_append.mp h
  obtain ⟨l₁, e, l₂, at_, same, names⟩ := dirAt_of_place split
  refine ⟨l₁, e, l₂, at_, same.trans (by simpa using name), fun x mem here => ?_⟩
  have : comp ∈ ps.map DirIdxEnt.name := names ▸ mem_map.mpr ⟨x, mem, here⟩
  obtain ⟨p', mem', here'⟩ := mem_map.mp this
  have differs := first p' mem'
  simp [here'] at differs

theorem lookup_of_placeOf_none
    (h : placeOf store b d comp = none) : ∀ e ∈ dirEntries store b d, e.name ≠ comp := by
  intro e mem here
  have : comp ∈ (dirPlaces store b d).map DirIdxEnt.name := by
    rw [dirPlaces, flatMap_names]
    exact mem_map.mpr ⟨e, mem, here⟩
  obtain ⟨p, mem', here'⟩ := mem_map.mp this
  have differs := List.find?_eq_none.mp h p mem'
  simp [here'] at differs

/-! ## Reading the node of an inode -/

section Looking

variable {c : Core} {L : Set Nat} (sound : Sound c L)
include sound

theorem ends_allocatedBlock (ino : Nat) :
    Ends ((allocatedBlock ino).ideal c)
      (fun b c' => Quiet L c c' ∧ c.blockOf ino = some b ∧ b ≠ 0)
      fun c' => Quiet L c c' ∧ ¬ c.Allocated ino := by
  refine (ends_mfsInoBlock sound ino).bind (fun c' h => ?_) fun b c₁ h => ?_
  · obtain ⟨rfl, invalid⟩ := h
    refine ⟨.refl sound, ?_⟩
    rintro ⟨b, found, -⟩
    rw [Core.blockOf, inoBlockIn, invalid] at found
    cases found
  · apply Ends.ensure
    · intro zero
      have zero : b = 0 := by simpa using zero
      refine ⟨h.1, ?_⟩
      rintro ⟨b', found, nonzero⟩
      rw [h.2, zero] at found
      exact nonzero (some.inj found).symm
    · intro nonzero
      exact ⟨h.1, h.2, by simpa using nonzero⟩

theorem ends_dirNode (ino : Nat) :
    Ends ((dirNode ino).ideal c) (fun d c' => Quiet L c c' ∧ ∃ b, c.DirNode ino b d)
      fun c' => Quiet L c c' ∧ ∀ b d, ¬ c.DirNode ino b d := by
  refine (ends_allocatedBlock sound ino).bind (fun c' h => ?_) fun b c₁ h => ?_
  · refine ⟨h.1, fun b d dir => h.2 ⟨b, dir.block, dir.nonzero⟩⟩
  · obtain ⟨quiet, found, nonzero⟩ := h
    rw [ideal_mfsReadBlk_bind, quiet.store]
    rcases content : c.store b with _ | _ | _ | d | _ | _ | _ | _ | _ | _ | _ | _ | _ | _
    case dir => exact ⟨quiet, b, found, nonzero, content⟩
    all_goals
      refine ⟨quiet, fun b' d dir => ?_⟩
      obtain rfl : b = b' := some.inj (found.symm.trans dir.block)
      rw [dir.content] at content
      cases content

end Looking

/-! ## Building an index -/

variable {d : DirBlock} {slots : Nat → Nat} {x : DirIdx}

section Building

variable {store : Nat → Block} {k : Nat} {ks : List Nat}

theorem extsOf_skip (zero : slots k = 0) : extsOf store slots (k :: ks) = extsOf store slots ks := by
  simp [extsOf, zero]

theorem extsOf_cons (nonzero : slots k ≠ 0) (content : store (slots k) = .dir d) :
    extsOf store slots (k :: ks) = (slots k, d) :: extsOf store slots ks := by
  simp [extsOf, nonzero, content, Block.asDir]

/-- The places of a block with room for its entries fit into the arena. -/
theorem fillBlock_first (ok : d.Ok) (base vol dirIno : Nat) :
    DirIdx.fillBlock ⟨true, true, vol, dirIno, []⟩ base d =
      ⟨true, true, vol, dirIno, placesFrom base d.slots 0⟩ := by
  obtain ⟨qs, full, eq, -, whole, cut⟩ := fillSlots_spec base 0 ⟨true, true, vol, dirIno, []⟩ ok.fits
  have fits : full = true := by
    by_contra short
    have excess := cut (by simpa using short)
    have bound := arenaLen_placesFrom base 0 ok.fits
    have area := ok.area
    simp only [nil_append, MFS_DIDX_ARENA, MFS_DIR_AREA, MFS_PAYLOAD, MFS_BLOCK] at excess area
    omega
  rw [DirIdx.fillBlock, ok.whole]
  simp [eq, fits, whole fits]

theorem fillBlock_spec (ok : d.Ok) (blk : Nat) (x : DirIdx) (complete : x.complete = true) :
    ∃ qs full, x.fillBlock blk d = { x with ents := x.ents ++ qs, complete := full } ∧
      qs <+: placesFrom blk d.slots 0 ∧ (full = true → qs = placesFrom blk d.slots 0) := by
  obtain ⟨qs, full, eq, part, whole, -⟩ := fillSlots_spec blk 0 x ok.fits
  refine ⟨qs, full, ?_, part, whole⟩
  rw [DirIdx.fillBlock, ok.whole]
  simp [eq, complete]

/-- Filling an index from the extension blocks adds their places, or an initial part of them. -/
theorem ideal_fillExts {c : Core} {ks : List Nat}
    (exts : ∀ k ∈ ks, slots k ≠ 0 → ∃ d, c.store (slots k) = .dir d ∧ d.Ok)
    (complete : x.complete = true) :
    ∃ qs full, (fillExts slots ks x).ideal c = (.ok { x with ents := x.ents ++ qs, complete := full }, c) ∧
      qs <+: ((extsOf c.store slots ks).flatMap fun y => placesFrom y.1 y.2.slots 0) ∧
      (full = true → qs = (extsOf c.store slots ks).flatMap fun y => placesFrom y.1 y.2.slots 0) := by
  induction ks generalizing x with
  | nil => exact ⟨[], true, by simp [fillExts, ← complete], nil_prefix, fun _ => rfl⟩
  | cons k ks ih =>
    have exts' : ∀ k ∈ ks, slots k ≠ 0 → ∃ d, c.store (slots k) = .dir d ∧ d.Ok :=
      fun k mem => exts k (mem_cons_of_mem _ mem)
    by_cases zero : slots k = 0
    · rw [fillExts, if_pos zero, extsOf_skip zero]
      exact ih exts' complete
    · obtain ⟨d, content, ok⟩ := exts k mem_cons_self zero
      obtain ⟨qs, full, filled, part, whole⟩ := fillBlock_spec ok (slots k) x complete
      rw [fillExts, if_neg zero, ideal_bind, ideal_attempt, ideal_mfsReadBlk, content, Act.caught_ok,
        Act.after_ok, extsOf_cons zero content, flatMap_cons]
      dsimp only
      rw [filled]
      rcases full with _ | _
      · exact ⟨qs, false, rfl, part.trans (prefix_append _ _), by simp⟩
      · obtain ⟨qs', full', eq, part', whole'⟩ :=
          ih exts' (x := { x with ents := x.ents ++ qs, complete := true }) rfl
        rw [whole rfl] at eq ⊢
        refine ⟨placesFrom (slots k) d.slots 0 ++ qs', full', ?_, ?_, fun done => by rw [whole' done]⟩
        · rw [if_pos rfl, eq]
          simp
        · exact (prefix_append_right_inj _).mpr part'

end Building

/-! ## Using an index -/

/-- The answer of an index is right when `place` is where the name is in the directory. -/
def DidxLookup.Right (dirIno : Nat) (place : Option DirIdxEnt) : DidxLookup → Prop
  | .hit loc => ∃ p, place = some p ∧ loc = ⟨dirIno, p.blk, p.idx⟩
  | .absent => place = none
  | .unknown => True

variable {comp : Name}

section Indexes

variable {c : Core} {L : Set Nat} (sound : Sound c L) {dirIno b : Nat} {d : DirBlock}
  (known : dirIno ∈ L) (dir : c.DirNode dirIno b d)
include sound known dir

/-- The extension blocks that the index block of a directory lists can be read. -/
theorem readable_exts (nonzero : d.ext ≠ 0) (content : c.store d.ext = .didx slots) :
    ∀ k ∈ List.range MFS_DIR_SLOTS, slots k ≠ 0 → ∃ d, c.store (slots k) = .dir d ∧ d.Ok := by
  intro k mem here
  rcases (dir.ok sound known).index with zero | ⟨-, slots', same, exts⟩
  · exact absurd zero nonzero
  · rw [content] at same
    obtain rfl := Block.didx.inj same
    exact (exts.ext k (mem_range.mp mem) here).1.2

/-- Filling an index for a directory gives one that agrees with it. -/
theorem ideal_fillFromIndex : ∃ x, (fillFromIndex d.ext
      (DirIdx.fillBlock ⟨true, true, c.mem.curVol, dirIno, []⟩ b d)).ideal c = (.ok x, c) ∧
    x.dirIno = dirIno ∧ x.Agrees c.store c.mem.vol.itabTable := by
  have ok := dir.ok sound known
  rw [fillBlock_first ok.block, fillFromIndex]
  by_cases zero : d.ext = 0
  · have whole : dirPlaces c.store b d = placesFrom b d.slots 0 := by
      simp [dirPlaces, dirBlocks, zero]
    rw [if_pos zero]
    refine ⟨_, rfl, rfl, b, d, dir.block, dir.nonzero, dir.content, ?_, ?_⟩
    · rw [whole]
    · intro _
      rw [whole]
  · obtain ⟨-, slots, content, -⟩ := ok.index.resolve_left zero
    have whole : dirPlaces c.store b d = placesFrom b d.slots 0 ++
        (extsOf c.store slots (List.range MFS_DIR_SLOTS)).flatMap fun y => placesFrom y.1 y.2.slots 0 := by
      simp [dirPlaces, dirBlocks, zero, content, Block.didxSlots]
    obtain ⟨qs, full, filled, part, all⟩ :=
      ideal_fillExts (readable_exts sound known dir zero content)
        (x := ⟨true, true, c.mem.curVol, dirIno, placesFrom b d.slots 0⟩) rfl
    rw [if_neg zero, ideal_bind, ideal_attempt, ideal_mfsReadBlk, content, Act.caught_ok, Act.after_ok]
    rw [filled]
    refine ⟨_, rfl, rfl, b, d, dir.block, dir.nonzero, dir.content, ?_, ?_⟩
    · rw [whole]
      exact (prefix_append_right_inj _).mpr part
    · intro complete
      rw [whole, all complete]

omit sound known in
/-- What an index that agrees with the directory says about a name. -/
theorem lookup_agrees (same : x.dirIno = dirIno) (agrees : x.Agrees c.store c.mem.vol.itabTable)
    (comp : Name) : (x.lookup dirIno comp).Right dirIno (placeOf c.store b d comp) := by
  obtain ⟨b', d', found, -, content, part, whole⟩ := agrees
  rw [same] at found
  obtain rfl : b' = b := some.inj (found.symm.trans dir.block)
  obtain rfl : d' = d := Block.dir.inj (content.symm.trans dir.content)
  obtain ⟨rest, split⟩ := part
  rcases hit : x.ents.find? fun e => e.name == comp with _ | p
  · rcases complete : x.complete with _ | _
    · simp [DirIdx.lookup, hit, complete, DidxLookup.Right]
    · simp [DirIdx.lookup, hit, complete, DidxLookup.Right, placeOf, ← whole complete]
  · have place : placeOf c.store b' d' comp = some p := by
      rw [placeOf, ← split, List.find?_append, hit]
      rfl
    simp [DirIdx.lookup, hit, DidxLookup.Right, place]

omit sound known dir in
theorem mem_didxPut {h : Cache} {y : DirIdx} (mem : y ∈ (h.didxPut x).didx) : y = x ∨ y ∈ h.didx :=
  (mem_or_eq_of_mem_set mem).symm

omit sound known dir in
/-- The search of the cached indexes finds one of this directory and this volume. -/
theorem didxFind_spec {m : Mem} (found : m.didxFind dirIno = some x) :
    x ∈ m.cache.didx ∧ x.used = true ∧ x.dirIno = dirIno ∧ x.vol = m.curVol := by
  have holds := List.find?_some found
  simp only [Bool.and_eq_true, beq_iff_eq] at holds
  exact ⟨mem_of_find?_eq_some found, holds.1.1, holds.1.2, holds.2⟩

/-- What the cached indexes say about a name of the directory. -/
theorem didxLookup_spec {found : DidxLookup} (h : c.mem.didxLookup dirIno comp = some found) :
    found.Right dirIno (placeOf c.store b d comp) := by
  rw [Mem.didxLookup, map_eq_some_iff] at h
  obtain ⟨x, cached, rfl⟩ := h
  obtain ⟨mem, used, same, here⟩ := didxFind_spec cached
  exact lookup_agrees dir same (sound.dirs x mem used here (by rw [same]; exact known)) comp

/-- `mfs_didx_build` adds an index that agrees with its directory. -/
theorem ideal_mfsDidxBuild : ∃ c', (mfsDidxBuild dirIno).ideal c = (.ok (), c') ∧ Quiet L c c' := by
  have base := ends_allocatedBlock sound dirIno
  rcases ran : (allocatedBlock dirIno).ideal c with ⟨e | b', c₁⟩
  · exact absurd ⟨b, dir.block, dir.nonzero⟩ (base.of_error ran).2
  · obtain ⟨quiet, found, -⟩ := base.of_ok ran
    obtain rfl : b' = b := some.inj (found.symm.trans dir.block)
    have dir₁ := quiet.dirNode dir
    obtain ⟨x, filled, same, agrees⟩ := ideal_fillFromIndex quiet.sound known dir₁
    rw [mfsDidxBuild, ideal_bind, ran, Act.after_ok, ideal_mfsReadBlk_bind, dir₁.content]
    rw [ideal_getMem_bind, ideal_bind, filled, Act.after_ok, ideal_setCache]
    refine ⟨_, rfl, quiet.trans ⟨⟨rfl, rfl, rfl, rfl, rfl, ?_⟩, rfl⟩⟩
    have sound₁ := quiet.sound
    refine ⟨sound₁.geometry, sound₁.index, sound₁.tree, sound₁.table, ?_⟩
    intro y mem used here inside
    rcases mem_didxPut mem with rfl | old
    · exact agrees
    · exact sound₁.dirs y old used here inside

/-- `mfs_didx_lookup` gives a right answer. -/
theorem ends_mfsDidxLookup (comp : Name) :
    Ends ((mfsDidxLookup dirIno comp).ideal c)
      (fun found c' => Quiet L c c' ∧ found.Right dirIno (placeOf c.store b d comp)) fun _ => False := by
  rw [mfsDidxLookup, ideal_getMem_bind]
  rcases cached : c.mem.didxLookup dirIno comp with _ | found
  · obtain ⟨c₁, built, quiet⟩ := ideal_mfsDidxBuild sound known dir
    rw [ideal_bind, ideal_attempt, built, Act.caught_ok, Act.after_ok, ideal_getMem]
    refine ⟨quiet, ?_⟩
    rcases again : c₁.mem.didxLookup dirIno comp with _ | found
    · trivial
    · have right := didxLookup_spec quiet.sound known (quiet.dirNode dir) again
      rwa [quiet.store] at right
  · exact ⟨.refl sound, didxLookup_spec sound known dir cached⟩

end Indexes

/-! ## The scan -/

/-- Where a place of a directory is. -/
def DirIdxEnt.loc (p : DirIdxEnt) (dirIno : Nat) : MfsLoc := ⟨dirIno, p.blk, p.idx⟩

theorem placesFrom_blk {blk i : Nat} {slots : List DirSlot}
    (mem : p ∈ placesFrom blk slots i) : p.blk = blk := by
  obtain ⟨before, after, split⟩ := append_of_mem mem
  obtain ⟨_, _, _, -, -, rfl, -⟩ := placesFrom_split split
  rfl

/-- The scan of extension blocks finds the first place with the name. -/
theorem ideal_scanExts (named : comp ≠ []) (dirIno : Nat) {ks : List Nat}
    (exts : ∀ k ∈ ks, slots k ≠ 0 → ∃ d, c.store (slots k) = .dir d ∧ d.Ok) :
    (firstSome ks fun i => scanExt dirIno comp (slots i)).ideal c =
      (.ok ((((extsOf c.store slots ks).flatMap fun y => placesFrom y.1 y.2.slots 0).find?
        fun p => p.name == comp).map fun p => p.loc dirIno), c) := by
  induction ks with
  | nil => rfl
  | cons k ks ih =>
    have later := ih fun k mem => exts k (mem_cons_of_mem _ mem)
    rw [firstSome, ideal_bind, scanExt]
    by_cases zero : slots k = 0
    · rw [if_pos zero, ideal_pure, Act.after_ok, extsOf_skip zero]
      exact later
    · obtain ⟨d, content, -⟩ := exts k mem_cons_self zero
      rw [if_neg zero, ideal_bind, ideal_attempt, ideal_mfsReadBlk, content, Act.caught_ok, Act.after_ok]
      rw [ideal_pure, Act.after_ok, extsOf_cons zero content, flatMap_cons, List.find?_append, scan_eq d (slots k) named]
      rcases hit : (placesFrom (slots k) d.slots 0).find? fun p => p.name == comp with _ | p
      · rw [hit]
        exact later
      · have blk := placesFrom_blk (mem_of_find?_eq_some hit)
        rw [hit]
        simp [DirIdxEnt.loc, blk]

variable {loc : MfsLoc}

section Names

variable {c : Core} {L : Set Nat} (sound : Sound c L) {dirIno : Nat} (known : dirIno ∈ L)
include sound known

/-- The scan of a directory finds the first place with the name. -/
theorem ends_scanDir {b : Nat} (dir : c.DirNode dirIno b d) (named : comp ≠ []) :
    Ends ((scanDir dirIno comp).ideal c)
      (fun loc c' => Quiet L c c' ∧ ∃ p, placeOf c.store b d comp = some p ∧ loc = p.loc dirIno)
      fun c' => Quiet L c c' ∧ placeOf c.store b d comp = none := by
  refine (ends_allocatedBlock sound dirIno).bind (fun c' h => ?_) fun b' c₁ h => ?_
  · exact absurd ⟨b, dir.block, dir.nonzero⟩ h.2
  · obtain ⟨quiet, found, -⟩ := h
    obtain rfl : b' = b := some.inj (found.symm.trans dir.block)
    have dir₁ := quiet.dirNode dir
    rw [ideal_mfsReadBlk_bind, dir₁.content]
    dsimp only
    rw [scan_eq d b' named]
    rcases hit : (placesFrom b' d.slots 0).find? fun p => p.name == comp with _ | p
    · -- not in the node, so the extension blocks decide
      rw [hit]
      apply Ends.ensure
      · intro none
        have zero : d.ext = 0 := by simpa using none
        exact ⟨quiet, by simp [placeOf, dirPlaces, dirBlocks, zero, hit]⟩
      · intro some
        have nonzero : d.ext ≠ 0 := by simpa using some
        obtain ⟨-, slots, content, -⟩ := (dir₁.ok quiet.sound known).index.resolve_left nonzero
        have exts := ideal_scanExts named dirIno (readable_exts quiet.sound known dir₁ nonzero content)
        rw [ideal_mfsReadBlk_bind, content]
        rw [ideal_bind, exts, Act.after_ok]
        rw [quiet.store] at content
        have place : placeOf c.store b' d comp =
            ((extsOf c.store slots (List.range MFS_DIR_SLOTS)).flatMap
              fun y => placesFrom y.1 y.2.slots 0).find? fun p => p.name == comp := by
          simp [placeOf, dirPlaces, dirBlocks, nonzero, content, Block.didxSlots, hit]
        rw [quiet.store, ← place]
        rcases placeOf c.store b' d comp with _ | p
        · exact ⟨quiet, rfl⟩
        · exact ⟨quiet, p, rfl, rfl⟩
    · have place : placeOf c.store b' d comp = some p := by
        rw [placeOf, dirPlaces, dirBlocks, flatMap_cons, List.find?_append, hit]
        rfl
      rw [hit]
      exact ⟨quiet, p, place, by rw [DirIdxEnt.loc, placesFrom_blk (mem_of_find?_eq_some hit)]⟩

/-- The entry at location `loc` is the first one with the name in its directory. -/
structure Core.Holds (c : Core) (loc : MfsLoc) (comp : Name) (e : Entry) : Prop where
  place : ∃ l₁ l₂, c.EntryAt loc l₁ e l₂ ∧ ∀ x ∈ l₁, x.name ≠ comp
  name : e.name = comp

omit sound in
theorem Core.Holds.lookup {e : Entry} (h : c.Holds loc comp e) (same : loc.dirIno = dirIno) :
    (c.tree L).lookup dirIno comp = some e := by
  obtain ⟨⟨l₁, l₂, ⟨b, d, dir, at_⟩, first⟩, name⟩ := h
  rw [same] at dir
  rw [Tree.lookup, dir.entries known, at_.entries, List.find?_eq_some_iff_append]
  refine ⟨by simp [name], l₁, l₂, rfl, fun x mem => ?_⟩
  simpa using first x mem

/-! Of what is no directory neither the index nor the scan finds anything. -/

section NoDirectory

variable (notDir : ∀ b d, ¬ c.DirNode dirIno b d)
include notDir

omit sound in
theorem lookup_of_not_dir (comp : Name) : (c.tree L).lookup dirIno comp = none := by
  rw [Tree.lookup, Tree.entries, Core.tree_of_mem _ known]
  rcases node : c.node dirIno with _ | ⟨md, es⟩ | f | l
  · rfl
  · obtain ⟨b, d, dir, -⟩ := Core.DirNode.of_node node
    exact absurd dir (notDir b d)
  · rfl
  · rfl

omit known in
/-- Reading a block as the node of a directory fails. -/
theorem ends_asDir {β : Type} {P : β → Core → Prop} (body : Nat → DirBlock → Op Unit β) :
    Ends ((allocatedBlock dirIno >>= fun base => mfsReadBlk base >>= fun blk =>
        match blk with
        | .dir d => body base d
        | _ => throw ()).ideal c) P fun c' => Quiet L c c' := by
  refine (ends_allocatedBlock sound dirIno).bind (fun _ h => h.1) fun b c₁ h => ?_
  obtain ⟨quiet, found, nonzero⟩ := h
  rw [ideal_mfsReadBlk_bind, quiet.store]
  rcases content : c.store b with _ | _ | _ | d | _ | _ | _ | _ | _ | _ | _ | _ | _ | _
  case dir => exact absurd ⟨found, nonzero, content⟩ (notDir b d)
  all_goals exact quiet

theorem ends_mfsDidxLookup_other (comp : Name) :
    Ends ((mfsDidxLookup dirIno comp).ideal c) (fun found c' => Quiet L c c' ∧ found = .unknown)
      fun _ => False := by
  rw [mfsDidxLookup, ideal_getMem_bind]
  rcases cached : c.mem.didxLookup dirIno comp with _ | found
  · refine Ends.attempt (R := fun _ _ => False) (F := fun c' => Quiet L c c')
      (ends_asDir sound notDir _) (fun c₁ quiet => ⟨quiet, rfl⟩) fun _ _ h => h.elim
  · rw [Mem.didxLookup, map_eq_some_iff] at cached
    obtain ⟨x, cached, -⟩ := cached
    obtain ⟨mem, used, same, here⟩ := didxFind_spec cached
    obtain ⟨b, d, found, nonzero, content, -⟩ := sound.dirs x mem used here (by rw [same]; exact known)
    rw [same] at found
    exact absurd ⟨found, nonzero, content⟩ (notDir b d)

end NoDirectory

/-- `mfs_dir_lookup` finds the first entry with the name. -/
theorem ends_mfsDirLookup (named : comp ≠ []) :
    Ends ((mfsDirLookup dirIno comp).ideal c)
      (fun loc c' => Quiet L c c' ∧ loc.dirIno = dirIno ∧ ∃ e, c.Holds loc comp e)
      fun c' => Quiet L c c' ∧ (c.tree L).lookup dirIno comp = none := by
  by_cases isDir : ∃ b d, c.DirNode dirIno b d
  · obtain ⟨b, d, dir⟩ := isDir
    have holds : ∀ {p : DirIdxEnt}, placeOf c.store b d comp = some p →
        ∃ e, c.Holds (p.loc dirIno) comp e := by
      intro p place
      obtain ⟨l₁, e, l₂, at_, name, first⟩ := dirAt_of_placeOf place
      exact ⟨e, ⟨l₁, l₂, ⟨b, d, dir, at_⟩, first⟩, name⟩
    have absent : placeOf c.store b d comp = none → (c.tree L).lookup dirIno comp = none := by
      intro none
      rw [Tree.lookup, dir.entries known, List.find?_eq_none]
      intro e mem
      simpa using lookup_of_placeOf_none none e mem
    refine (ends_mfsDidxLookup sound known dir comp).bind (fun _ h => h.elim) fun found c₁ h => ?_
    obtain ⟨quiet, right⟩ := h
    rcases found with loc | _ | _
    · obtain ⟨p, place, rfl⟩ := right
      exact ⟨quiet, rfl, holds place⟩
    · exact ⟨quiet, absent right⟩
    · refine (ends_scanDir quiet.sound known (quiet.dirNode dir) named).mono (fun loc c' h => ?_) fun c' h => ?_
      · obtain ⟨quiet', p, place, rfl⟩ := h
        rw [quiet.store] at place
        exact ⟨quiet.trans quiet', rfl, holds place⟩
      · rw [quiet.store] at h
        exact ⟨quiet.trans h.1, absent h.2⟩
  · have notDir : ∀ b d, ¬ c.DirNode dirIno b d := fun b d dir => isDir ⟨b, d, dir⟩
    refine (ends_mfsDidxLookup_other sound known notDir comp).bind (fun _ h => h.elim) fun found c₁ h => ?_
    obtain ⟨quiet, rfl⟩ := h
    have notDir₁ : ∀ b d, ¬ c₁.DirNode dirIno b d :=
      fun b d dir => notDir b d (quiet.dirNode_iff.mp dir)
    refine (ends_asDir quiet.sound notDir₁ _).mono (fun _ _ h => h) fun c' h => ?_
    exact ⟨quiet.trans h, lookup_of_not_dir known notDir comp⟩

end Names

/-! ## Entries at a location -/

theorem store_of_mem_dirBlocks (content : store b = .dir d)
    {x : Nat × DirBlock} (mem : x ∈ dirBlocks store b d) : store x.1 = .dir x.2 := by
  rw [dirBlocks, mem_cons] at mem
  rcases mem with rfl | mem
  · exact content
  · split at mem
    · cases mem
    · rcases index : (store d.ext).didxSlots with _ | slots
      · simp [index] at mem
      · rw [index, elim_some, extsOf, mem_filterMap] at mem
        obtain ⟨k, -, here⟩ := mem
        split at here
        · cases here
        · obtain ⟨inside, read, rfl⟩ := map_eq_some_iff.mp here
          revert read
          cases store (slots k) <;> simp [Block.asDir]

theorem Core.EntryAt.content (h : c.EntryAt loc l₁ e l₂) :
    ∃ inside slots₁ slot slots₂, c.store loc.blk = .dir inside ∧
      inside.slots = slots₁ ++ slot :: slots₂ ∧ slots₁.length = loc.idx ∧ slot.entry = e := by
  obtain ⟨b, d, dir, before, inside, after, slots₁, slot, slots₂, blocks, slots, idx, -, rfl, -⟩ := h
  have mem : (loc.blk, inside) ∈ dirBlocks c.store b d := by
    rw [blocks]
    simp
  exact ⟨inside, slots₁, slot, slots₂, store_of_mem_dirBlocks dir.content mem, slots, idx, rfl⟩

/-- The record at the place of an entry. -/
theorem ideal_slotAt (h : c.EntryAt loc l₁ e l₂) :
    ∃ slot, (slotAt loc).ideal c = (.ok slot, c) ∧ slot.entry = e := by
  obtain ⟨inside, slots₁, slot, slots₂, content, slots, idx, same⟩ := h.content
  refine ⟨slot, ?_, same⟩
  rw [slotAt, mfsDirLoadLoc, ideal_bind, ideal_mfsReadBlk_bind, content]
  have here : inside.slots[loc.idx]? = some slot := by
    rw [slots, ← idx]
    simp
  rw [ideal_pure, Act.after_ok, here]
  rfl

theorem Looks.entryAt_iff (h : Looks L c c') : c'.EntryAt loc l₁ e l₂ ↔ c.EntryAt loc l₁ e l₂ := by
  simp [Core.EntryAt, h.dirNode_iff, h.store]

end MorionOS.Mfs
