import MorionOS.Mfs.Lookup

/-!
# Changing a directory

A new version of a directory is a new node block, together with a new index block
when an extension block was replaced or added.  Whatever the blocks are, inserting
adds one entry to the entries of the directory and deleting takes one away.
-/

namespace MorionOS.Mfs

open StateAct Layered Function List Option Block

/-! ## Changes of a directory -/

/-- The directory has one more entry. -/
def Tree.Enters (t : Tree) (dir : Nat) (e : Entry) (t' : Tree) : Prop :=
  ∃ md now l₁ l₂, t dir = some (.dir md (l₁ ++ l₂)) ∧
    t' = update t dir (some (.dir (md.touch now) (l₁ ++ e :: l₂)))

/-- The directory has one entry less. -/
def Tree.Leaves (t : Tree) (dir : Nat) (e : Entry) (t' : Tree) : Prop :=
  ∃ md now l₁ l₂, t dir = some (.dir md (l₁ ++ e :: l₂)) ∧
    t' = update t dir (some (.dir (md.touch now) (l₁ ++ l₂)))

/-! ## A new node block -/

/-- The entries in the extension blocks at some positions of an index. -/
def entriesAt (store : Nat → Block) (slots : Nat → Nat) (ks : List Nat) : List Entry :=
  (extsOf store slots ks).flatMap fun x => x.2.entries

/-- The entries in the extension blocks of a directory. -/
def extEntries (store : Nat → Block) (d : DirBlock) : List Entry :=
  if d.ext = 0 then []
  else (store d.ext).didxSlots.elim [] fun slots => entriesAt store slots (List.range MFS_DIR_SLOTS)

/-- The entries name inodes that are known. -/
def Refers (L : Set Nat) (es : List Entry) : Prop := ∀ e ∈ es, inoValid e.ino = true ∧ e.ino ∈ L

variable {l₁ l₂ es : List Entry} {e : Entry} {store : Nat → Block} {b i ino : Nat} {slots : Nat → Nat}
    {d : DirBlock} {ks ks₁ ks₂ : List Nat}

theorem Refers.enter {L : Set Nat} (refers : Refers L (l₁ ++ l₂)) (valid : inoValid e.ino = true)
    (inside : e.ino ∈ L) : Refers L (l₁ ++ e :: l₂) := by
  intro y mem
  rcases mem_cons.mp (perm_middle.mem_iff.mp mem) with rfl | mem
  · exact ⟨valid, inside⟩
  · exact refers y mem

theorem dirEntries_eq (store : Nat → Block) (b : Nat) (d : DirBlock) :
    dirEntries store b d = d.entries ++ extEntries store d := by
  rw [dirEntries, dirBlocks, flatMap_cons, extEntries]
  split
  · rfl
  · rcases (store d.ext).didxSlots with _ | slots
    · rfl
    · simp [entriesAt]

/-- The positions of an index hold extension blocks, each of them in one position. -/
structure SlotsOk (store : Nat → Block) (v : Vol) (slots : Nat → Nat) : Prop where
  ext : ∀ k < MFS_DIR_SLOTS, slots k ≠ 0 → ExtOk store v (slots k)
  once : ∀ k < MFS_DIR_SLOTS, ∀ k' < MFS_DIR_SLOTS, slots k ≠ 0 → slots k = slots k' → k = k'

/-- The blocks behind a node block of a directory that is yet to be written. -/
structure DirParts (store : Nat → Block) (v : Vol) (d : DirBlock) : Prop where
  block : d.Ok
  index : d.ext = 0 ∨ (v.InUse d.ext ∧ ∃ slots, store d.ext = .didx slots ∧ SlotsOk store v slots)

theorem ExtIndexOk.slotsOk {v : Vol} (ok : ExtIndexOk store v b slots) : SlotsOk store v slots :=
  ⟨fun k small here => (ok.ext k small here).1, ok.once⟩

theorem DirOk.parts {v : Vol} (ok : DirOk store v b d) : DirParts store v d := by
  refine ⟨ok.block, ok.index.imp_right ?_⟩
  rintro ⟨used, slots, content, exts⟩
  exact ⟨used, slots, content, exts.slotsOk⟩

section Writing

variable {c : Core} {b : Nat} (free : c.mem.vol.Free b) {slots : Nat → Nat}
  (exts : SlotsOk c.store c.mem.vol slots) {d : DirBlock} (parts : DirParts c.store c.mem.vol d)

include free exts in
theorem SlotsOk.withBlock (blk : Block) :
    ExtIndexOk (c.withBlock b blk).store (c.withBlock b blk).mem.vol b slots ∧
      entriesAt (c.withBlock b blk).store slots (List.range MFS_DIR_SLOTS) =
        entriesAt c.store slots (List.range MFS_DIR_SLOTS) := by
  obtain ⟨grown, -⟩ := extends_withBlock free blk
  have index : ExtIndexOk c.store c.mem.vol b slots :=
    ⟨fun k small here => ⟨exts.ext k small here, (exts.ext k small here).1.ne_free free⟩, exts.once⟩
  refine ⟨⟨fun k small here => ⟨(exts.ext k small here).grows grown.grows, (index.ext k small here).2⟩,
    exts.once⟩, ?_⟩
  rw [entriesAt, extsOf_grows grown.grows index fun k mem => mem_range.mp mem, entriesAt]

include free parts

theorem DirParts.dirOk : DirOk (c.withBlock b (.dir d)).store (c.withBlock b (.dir d)).mem.vol b d := by
  obtain ⟨grown, -⟩ := extends_withBlock free (.dir d)
  refine ⟨parts.block, parts.index.imp_right ?_⟩
  rintro ⟨used, slots, content, exts⟩
  obtain ⟨used', same⟩ := grown.grows.keeps _ used
  exact ⟨used', slots, by rw [same, content], (exts.withBlock free _).1⟩

theorem DirParts.objectAt : objectAt (c.withBlock b (.dir d)).store b =
    some (.dir d.md (d.entries ++ extEntries c.store d)) := by
  have content : (c.withBlock b (.dir d)).store b = .dir d := update_self _ _ _
  have same : extEntries (c.withBlock b (.dir d)).store d = extEntries c.store d := by
    obtain ⟨grown, -⟩ := extends_withBlock free (.dir d)
    rw [extEntries, extEntries]
    rcases parts.index with zero | ⟨used, slots, content, exts⟩
    · simp [zero]
    · rw [(grown.grows.keeps _ used).2, content]
      simp only [didxSlots, elim_some]
      rw [(exts.withBlock free _).2]
  rw [MorionOS.Mfs.objectAt, content]
  dsimp only
  rw [dirEntries_eq, same]

end Writing

section Committing

variable {c : Core} {L : Set Nat} (sound : Sound c L) {ino : Nat} (known : ino ∈ L) (valid : inoValid ino = true)
include sound known valid

theorem ends_commitDir (parts : DirParts c.store c.mem.vol d)
    (children : Refers L (d.entries ++ extEntries c.store d)) :
    Ends ((mfsCommitObject ino (.dir d)).ideal c)
      (fun _ c' => Becomes 3 L L (update (c.tree L) ino
        (some (.dir d.md (d.entries ++ extEntries c.store d)))) c c')
      fun _ => c.mem.vol.room < 3 := by
  have attach : ∀ b, c.mem.vol.Free b → Attachable (c.withBlock b (.dir d)) L ino b := by
    intro b free
    obtain ⟨-, used⟩ := extends_withBlock free (.dir d)
    refine ⟨fun _ => ⟨used, .inl ⟨d, update_self _ _ _, parts.dirOk free⟩⟩, ?_⟩
    intro md es _ object e mem
    rw [parts.objectAt free] at object
    obtain ⟨rfl, rfl⟩ : d.md = md ∧ d.entries ++ extEntries c.store d = es := by simpa using object
    exact ⟨(children e mem).1, .inr (children e mem).2⟩
  refine (ends_mfsCommitObject sound valid attach).mono (fun b c' h => ?_) fun _ h => h
  obtain ⟨free, becomes⟩ := h
  rwa [parts.objectAt free, Set.insert_eq_of_mem known] at becomes

/-- A new index block and a node block for it. -/
abbrev commitIndexed (ino : Nat) (a : DirBlock) (slots : Nat → Nat) : Op Unit Unit := do
  let newIdx ← mfsCommit (.didx slots)
  let _ ← mfsCommitObject ino (.dir { a with ext := newIdx })
  pure ()

theorem ends_commitIndexed {a : DirBlock} (ok : a.Ok) (exts : SlotsOk c.store c.mem.vol slots)
    (entries : es = a.entries ++ entriesAt c.store slots (List.range MFS_DIR_SLOTS))
    (children : Refers L es) :
    Ends ((commitIndexed ino a slots).ideal c)
      (fun _ c' => Becomes 4 L L (update (c.tree L) ino (some (.dir a.md es))) c c')
      fun _ => c.mem.vol.room < 4 := by
  refine ends_mfsCommit_bind (fun full => by omega) fun b free => ?_
  have written := sound.withBlock free (.didx slots)
  obtain ⟨-, used⟩ := extends_withBlock free (.didx slots)
  have content : (c.withBlock b (.didx slots)).store b = .didx slots := update_self _ _ _
  obtain ⟨index, kept⟩ := exts.withBlock free (.didx slots)
  have parts : DirParts (c.withBlock b (.didx slots)).store (c.withBlock b (.didx slots)).mem.vol
      { a with ext := b } :=
    ⟨⟨ok.whole, ok.least, ok.fits, ok.area⟩, .inr ⟨used, slots, content, index.slotsOk⟩⟩
  have all : ({ a with ext := b } : DirBlock).entries ++
      extEntries (c.withBlock b (.didx slots)).store { a with ext := b } = es := by
    rw [extEntries, if_neg (by exact free.ne_zero), content]
    simp only [didxSlots, elim_some]
    rw [kept, entries]
    rfl
  have commit := ends_commitDir written.sound known valid parts (by rw [all]; exact children)
  rw [all, written.tree] at commit
  have room := written.grown.room
  exact commit.bind (fun c' short => by omega) fun _ c' h => written.trans h

end Committing

/-! ## Replacing an extension block -/

theorem extsOf_append (store : Nat → Block) (slots : Nat → Nat) (ks ks' : List Nat) :
    extsOf store slots (ks ++ ks') = extsOf store slots ks ++ extsOf store slots ks' := by
  simp [extsOf]

theorem extsOf_congr {store' : Nat → Block} {slots' : Nat → Nat}
    (same : ∀ k ∈ ks, slots' k = slots k ∧ (slots k ≠ 0 → store' (slots k) = store (slots k))) :
    extsOf store' slots' ks = extsOf store slots ks := by
  apply filterMap_congr
  intro k mem
  obtain ⟨slot, content⟩ := same k mem
  rw [slot]
  split
  · rfl
  next here => rw [content here]

section Replacing

variable {c : Core} {slots : Nat → Nat} (exts : SlotsOk c.store c.mem.vol slots) {x : DirBlock} {b : Nat}
  (free : c.mem.vol.Free b)
include exts free

/-- The index with a new block in position `i`. -/
theorem SlotsOk.put (ok : x.Ok) (i : Nat) : SlotsOk (c.withBlock b (.dir x)).store
    (c.withBlock b (.dir x)).mem.vol (update slots i b) := by
  obtain ⟨grown, used⟩ := extends_withBlock free (.dir x)
  have here : update slots i b i = b := update_self _ _ _
  have there : ∀ {k : Nat}, k ≠ i → update slots i b k = slots k :=
    fun differs => update_of_ne differs _ _
  constructor
  · intro k inside some
    by_cases same : k = i
    · rw [same, here]
      exact ⟨used, x, update_self _ _ _, ok⟩
    · rw [there same] at some ⊢
      exact (exts.ext k inside some).grows grown.grows
  · intro k inside k' inside' some equal
    by_cases same : k = i <;> by_cases same' : k' = i
    · rw [same, same']
    · rw [same, here, there same'] at equal
      exact absurd equal.symm
        ((exts.ext k' inside' (by rw [← equal]; exact free.ne_zero)).1.ne_free free)
    · rw [same', here, there same] at equal
      rw [there same] at some
      exact absurd equal ((exts.ext k inside some).1.ne_free free)
    · rw [there same, there same'] at equal
      rw [there same] at some
      exact exts.once k inside k' inside' some equal

theorem SlotsOk.entriesAt_put (split : List.range MFS_DIR_SLOTS = ks₁ ++ i :: ks₂) :
    entriesAt (c.withBlock b (.dir x)).store (update slots i b) (List.range MFS_DIR_SLOTS) =
      entriesAt c.store slots ks₁ ++ (x.entries ++ entriesAt c.store slots ks₂) := by
  obtain ⟨grown, -⟩ := extends_withBlock free (.dir x)
  have content : (c.withBlock b (.dir x)).store b = .dir x := update_self _ _ _
  have nodup := nodup_range (n := MFS_DIR_SLOTS)
  rw [split, nodup_middle, nodup_cons] at nodup
  have kept : ∀ ks ⊆ ks₁ ++ ks₂, extsOf (c.withBlock b (.dir x)).store (update slots i b) ks =
      extsOf c.store slots ks := by
    intro ks others
    apply extsOf_congr
    intro k mem
    have inside : k ∈ range MFS_DIR_SLOTS := by
      rw [split]
      exact perm_middle.mem_iff.mpr (mem_cons_of_mem i (others mem))
    refine ⟨update_of_ne ?_ _ _, fun some => ?_⟩
    · rintro rfl
      exact nodup.1 (others mem)
    · exact (grown.grows.keeps _ (exts.ext k (mem_range.mp inside) some).1).2
  have middle : extsOf (c.withBlock b (.dir x)).store (update slots i b) (i :: ks₂) =
      (b, x) :: extsOf c.store slots ks₂ := by
    rw [← kept ks₂ (subset_append_right _ _)]
    simp [extsOf, free.ne_zero, content, asDir]
  rw [entriesAt, split, extsOf_append, kept ks₁ (subset_append_left _ _), middle,
    flatMap_append, flatMap_cons]
  rfl

/-- A new version of the extension block in position `i`, or the first one there, with a new index
and a new node. -/
theorem ends_replaceExt {L : Set Nat} (sound : Sound c L) (known : ino ∈ L) (valid : inoValid ino = true)
    {a : DirBlock} (ok : a.Ok) (xOk : x.Ok) (split : List.range MFS_DIR_SLOTS = ks₁ ++ i :: ks₂)
    (entries : es = a.entries ++ entriesAt c.store slots ks₁ ++ x.entries ++ entriesAt c.store slots ks₂)
    (children : Refers L es) {c₁ : Core} (looks : Looks L (c.withBlock b (.dir x)) c₁) :
    Ends ((commitIndexed ino a (update slots i b)).ideal c₁)
      (fun _ c' => Becomes 5 L L (update (c.tree L) ino (some (.dir a.md es))) c c')
      fun _ => c.mem.vol.room < 5 := by
  have written := (sound.withBlock free (.dir x)).trans looks.becomes
  rw [(sound.withBlock free (.dir x)).tree] at written
  have all := exts.entriesAt_put free split (x := x)
  rw [← looks.store] at all
  have commit := ends_commitIndexed looks.sound known valid ok
    (by rw [looks.store, looks.vol]; exact exts.put free xOk i) (by rw [all]; simpa using entries) children
  rw [written.tree] at commit
  have room := written.grown.room
  exact commit.mono (fun _ c' h => written.trans h) fun c' short => by omega

end Replacing

/-! ## Inserting -/

section Inserting

variable {c : Core} {L : Set Nat} (sound : Sound c L) {ino : Nat} (known : ino ∈ L)
include sound known

omit sound known in
theorem Core.DirNode.valid (dir : c.DirNode ino b d) : inoValid ino = true := by
  have found := dir.block
  rw [Core.blockOf, inoBlockIn] at found
  by_contra invalid
  rw [if_neg invalid] at found
  cases found

omit sound in
theorem Core.DirNode.tree (dir : c.DirNode ino b d) :
    c.tree L ino = some (.dir d.md (d.entries ++ extEntries c.store d)) := by
  rw [Core.tree_of_mem _ known, dir.node, dirEntries_eq]

variable {d : DirBlock}

theorem Core.DirNode.children (dir : c.DirNode ino b d) :
    Refers L (d.entries ++ extEntries c.store d) := by
  intro e mem
  rw [← dirEntries_eq _ b] at mem
  exact sound.tree.closed ino known _ _ dir.node e mem

/-- The index of a directory, created if it is missing. -/
theorem ends_ensureIndex (dir : c.DirNode ino b d) :
    Ends ((ensureIndex d.ext).ideal c)
      (fun slots c' => Becomes 1 L L (c.tree L) c c' ∧ SlotsOk c'.store c'.mem.vol slots ∧
        entriesAt c'.store slots (List.range MFS_DIR_SLOTS) = extEntries c.store d ∧
        (d.ext = 0 ∧ slots = (fun _ => 0) ∨ d.ext ≠ 0 ∧ c.store d.ext = .didx slots))
      fun _ => c.mem.vol.room < 1 := by
  rw [ensureIndex]
  by_cases zero : d.ext = 0
  · rw [if_pos zero]
    refine ends_mfsCommit_bind (fun full => by omega) fun b free => ?_
    refine ⟨sound.withBlock free _, ⟨fun k _ some => absurd rfl some, fun k _ k' _ some => absurd rfl some⟩, ?_,
      .inl ⟨zero, rfl⟩⟩
    simp [entriesAt, extsOf, extEntries, zero]
  · obtain ⟨-, slots, content, exts⟩ := (dir.ok sound known).index.resolve_left zero
    rw [if_neg zero, indexSlots, ideal_mfsReadBlk_bind, content]
    refine ⟨(Quiet.refl sound).toLooks.becomes.mono (by omega), exts.slotsOk, ?_, .inr ⟨zero, rfl⟩⟩
    rw [extEntries, if_neg zero, content]
    simp [didxSlots]

omit sound known in
/-- The room that position `k` of an index has. -/
theorem ideal_extWithRoom (c : Core) (slots : Nat → Nat) (need k : Nat) :
    (extWithRoom slots need k).ideal c = (.ok (if slots k = 0 then none else
      (c.store (slots k)).asDir.bind fun d => (d.slotFor need).map fun j => (k, d, j)), c) := by
  rw [extWithRoom]
  split
  · rfl
  · rw [ideal_bind, ideal_attempt, ideal_mfsReadBlk, Act.caught_ok, Act.after_ok]
    cases c.store (slots k) <;> rfl

omit sound known in
/-- What the search for an extension block with room finds. -/
theorem findSome_extWithRoom {need : Nat} {j : Nat}
    (found : (ks.findSome? fun k => if slots k = 0 then none else
      (store (slots k)).asDir.bind fun d => (d.slotFor need).map fun j => (k, d, j)) = some (i, d, j)) :
    i ∈ ks ∧ slots i ≠ 0 ∧ store (slots i) = .dir d ∧ d.slotFor need = some j := by
  obtain ⟨k, mem, here⟩ := exists_of_findSome?_eq_some found
  split at here
  · cases here
  next some =>
    obtain ⟨d', read, here⟩ := bind_eq_some_iff.mp here
    obtain ⟨j', room, same⟩ := map_eq_some_iff.mp here
    obtain ⟨rfl, rfl, rfl⟩ : k = i ∧ d' = d ∧ j' = j := by simpa using same
    refine ⟨mem, some, ?_, room⟩
    revert read
    cases store (slots k) <;> simp [asDir]

omit sound known in
theorem DirBlock.Ok.touch (ok : d.Ok) (now : Nat) : (d.touch now).Ok := ⟨ok.whole, ok.least, ok.fits, ok.area⟩

/-- All positions of the index of a directory are taken. -/
def Core.IndexFull (c : Core) (ino : Nat) : Prop :=
  ∃ b d slots, c.DirNode ino b d ∧ d.ext ≠ 0 ∧ c.store d.ext = .didx slots ∧ ∀ k < MFS_DIR_SLOTS, slots k ≠ 0

/-- Inserting into the extension blocks. -/
theorem ends_insertExt (dir : c.DirNode ino b d) (now : Nat) (named : e.name ≠ [])
    (short : e.name.length ≤ MFS_NAME_MAX) (valid : inoValid e.ino = true) (inside : e.ino ∈ L) :
    Ends ((insertExt ino (d.touch now) e.name e.ino e.typ).ideal c)
      (fun _ c' => ∃ t', (c.tree L).Enters ino e t' ∧ Becomes 6 L L t' c c')
      fun c' => c.mem.vol.room < 6 ∨ (c.IndexFull ino ∧ Becomes 6 L L (c.tree L) c c') := by
  have ok := (dir.ok sound known).block.touch now
  have old := dir.children sound known
  have ext : (d.touch now).ext = d.ext := rfl
  rw [insertExt, ext]
  refine (ends_ensureIndex sound known dir).bind (fun c' short => .inl (by omega)) fun slots c₁ h => ?_
  · have becomes := h.1
    have exts := h.2.1
    have all := h.2.2.1
    have origin := h.2.2.2
    have room := becomes.grown.room
    have looks : ∀ k ∈ range MFS_DIR_SLOTS, _ :=
      fun k _ => ideal_extWithRoom c₁ slots (entNeed e.name.length) k
    rw [ideal_bind, ideal_firstSome c₁ looks, Act.after_ok]
    generalize search : findSome? _ (range MFS_DIR_SLOTS) = found
    -- a new version of position `i` with the entry in it
    have replaced : ∀ {i : Nat} {x : DirBlock} {l₁ l₂ : List Entry}, i < MFS_DIR_SLOTS → x.Ok →
        entriesAt c₁.store slots [i] = l₁ ++ l₂ → x.entries = l₁ ++ e :: l₂ →
        ∀ {b₁ : Nat}, c₁.mem.vol.Free b₁ →
        Ends ((commitIndexed ino (d.touch now) (update slots i b₁)).ideal (c₁.withBlock b₁ (.dir x)))
          (fun _ c' => ∃ t', (c.tree L).Enters ino e t' ∧ Becomes 6 L L t' c c')
          fun c' => c.mem.vol.room < 6 ∨ (c.IndexFull ino ∧ Becomes 6 L L (c.tree L) c c') := by
      intro i x l₁ l₂ small xOk before after b₁ free
      obtain ⟨ks₁, ks₂, split⟩ := append_of_mem (mem_range.mpr small)
      have around : d.entries ++ extEntries c.store d =
          (d.entries ++ entriesAt c₁.store slots ks₁ ++ l₁) ++ (l₂ ++ entriesAt c₁.store slots ks₂) := by
        rw [← all, split, entriesAt, extsOf_append, ← singleton_append, extsOf_append,
          flatMap_append, flatMap_append, ← entriesAt, ← entriesAt, ← entriesAt, before]
        simp
      have children := old
      rw [around] at children
      have looks := (Quiet.refl (becomes.sound.withBlock free (.dir x)).sound).toLooks
      have commit := ends_replaceExt exts free becomes.sound known dir.valid ok xOk split
        (by rw [after]; simp; rfl) (children.enter valid inside) looks
      rw [becomes.tree] at commit
      refine commit.mono (fun _ c' h => ⟨_, ⟨d.md, now, _, _, ?_, rfl⟩, becomes.trans h⟩)
        fun c' short => .inl (by omega)
      rw [dir.tree known, around]
    rcases found with _ | ⟨i, x, j⟩
    · -- no extension block has room
      obtain ⟨xOk, l₁, l₂, none, placed⟩ :=
        place_spec named e.ino e.typ (DirBlock.empty_ok .zero) (slotFor_empty short .zero)
      obtain ⟨rfl, rfl⟩ : l₁ = [] ∧ l₂ = [] := by simpa using none
      rw [addExt, slotFor_empty short]
      generalize position : find? _ (range MFS_DIR_SLOTS) = o
      refine ends_mfsCommit_bind (fun _ => .inl (by omega)) fun b₁ free =>
        Ends.ofOption (fun none => ?_) fun i here => ?_
      · have both := becomes.trans (becomes.sound.withBlock free
          (.dir ((DirBlock.empty .zero).place 0 e.name e.ino e.typ)))
        rw [becomes.tree] at both
        rw [none, find?_eq_none] at position
        have taken : ∀ k < MFS_DIR_SLOTS, slots k ≠ 0 := fun k small =>
          by simpa using position k (mem_range.mpr small)
        rcases origin with ⟨-, rfl⟩ | ⟨nonzero, index⟩
        · exact absurd rfl (taken 0 (by decide))
        · exact .inr ⟨⟨b, d, slots, dir, nonzero, index, taken⟩, both.mono (by omega)⟩
      · rw [here] at position
        have zero : slots i = 0 := by simpa using find?_some position
        have small := mem_range.mp (mem_of_find?_eq_some position)
        exact replaced small xOk (by simp [entriesAt, extsOf, zero]) placed free
    · obtain ⟨mem, some, content, fits⟩ := findSome_extWithRoom search
      have small := mem_range.mp mem
      obtain ⟨-, x', content', xOk⟩ := exts.ext i small some
      obtain rfl : x = x' := Block.dir.inj (content.symm.trans content')
      obtain ⟨xOk', l₁, l₂, before, placed⟩ := place_spec named e.ino e.typ xOk fits
      have here : entriesAt c₁.store slots [i] = l₁ ++ l₂ := by
        simp [entriesAt, extsOf, some, content, asDir, before]
      exact ends_mfsCommit_bind (fun _ => .inl (by omega)) fun b₁ free => replaced small xOk' here placed free

/-- **`mfs_dir_insert` adds one entry to a directory.**  With six free blocks it fails only for a name that is empty
or too long or when the index of the directory is full. -/
theorem ends_mfsDirInsert (isDir : c.DirNode ino b d) (valid : inoValid e.ino = true) (inside : e.ino ∈ L) :
    Ends ((mfsDirInsert ino e.name e.ino e.typ).ideal c)
      (fun _ c' => ∃ t', (c.tree L).Enters ino e t' ∧ Becomes 6 L L t' c c')
      fun c' => c.mem.vol.room < 6 ∨ ((e.name = [] ∨ MFS_NAME_MAX < e.name.length ∨ c.IndexFull ino) ∧
        Becomes 6 L L (c.tree L) c c') := by
  apply Ends.ensure
  · intro bad
    have illegal : e.name = [] ∨ MFS_NAME_MAX < e.name.length := by
      simpa [Bool.and_eq_false_iff, or_iff_not_imp_left] using bad
    exact .inr ⟨by tauto, (Quiet.refl sound).toLooks.becomes.mono (by omega)⟩
  · intro good
    simp only [Bool.and_eq_true, bne_iff_ne, decide_eq_true_eq] at good
    refine (ends_dirNode sound ino).bind (fun c' h => absurd isDir (h.2 _ _)) fun d c₁ h => ?_
    obtain ⟨quiet, b, dir⟩ := h
    refine (ends_mfsNow quiet.sound).bind (fun c' h => h.elim) fun now c₂ quiet' => ?_
    have looks := quiet.toLooks.trans quiet'.toLooks
    have dir₂ := looks.dirNode dir
    have ok := (dir₂.ok looks.sound known).block.touch now
    have later := dir₂.children looks.sound known
    rw [← looks.tree]
    rcases room : (d.touch now).slotFor (entNeed e.name.length) with _ | j
    · refine (ends_insertExt looks.sound known dir₂ now good.1 good.2 valid inside).mono (fun _ c' h => ?_)
        fun c' h => ?_
      · obtain ⟨t', enters, becomes⟩ := h
        exact ⟨t', enters, (looks.becomes.trans becomes).mono (by omega)⟩
      · rcases h with short | ⟨⟨b, d, slots, dir, rest⟩, becomes⟩
        · exact .inl (looks.vol ▸ short)
        · rw [looks.store] at rest
          exact .inr ⟨.inr (.inr ⟨b, d, slots, looks.dirNode_iff.mp dir, rest⟩),
            (looks.becomes.trans becomes).mono (by omega)⟩
    · obtain ⟨placed, l₁, l₂, before, after⟩ := place_spec good.1 e.ino e.typ ok room
      have before : d.entries = l₁ ++ l₂ := before
      have parts : DirParts c₂.store c₂.mem.vol ((d.touch now).place j e.name e.ino e.typ) :=
        ⟨placed, (dir₂.ok looks.sound known).parts.index⟩
      have around : d.entries ++ extEntries c₂.store d = l₁ ++ (l₂ ++ extEntries c₂.store d) := by
        rw [before, append_assoc]
      have all : ((d.touch now).place j e.name e.ino e.typ).entries ++
          extEntries c₂.store ((d.touch now).place j e.name e.ino e.typ) =
          l₁ ++ e :: (l₂ ++ extEntries c₂.store d) := by
        rw [after, append_assoc]
        rfl
      rw [around] at later
      have commit := ends_commitDir looks.sound known dir.valid parts (by
        rw [all]
        exact later.enter valid inside)
      rw [all] at commit
      have vol := looks.vol
      refine commit.bind (fun c' short => .inl (by rw [vol] at short; omega)) fun _ c' h => ?_
      refine ⟨_, ⟨d.md, now, _, _, ?_, rfl⟩, (looks.becomes.trans h).mono (by omega)⟩
      rw [dir₂.tree known, around]

end Inserting

/-! ## Deleting -/

section Deleting

variable {c : Core} {L : Set Nat} (sound : Sound c L)
include sound

variable {x d : DirBlock} {loc : MfsLoc}

omit sound in
/-- The position of an extension block in the index. -/
theorem extsOf_split {before after : List (Nat × DirBlock)} {blk : Nat}
    (h : extsOf store slots ks = before ++ (blk, x) :: after) :
    ∃ ks₁ i ks₂, ks = ks₁ ++ i :: ks₂ ∧ slots i = blk ∧ slots i ≠ 0 ∧ extsOf store slots ks₁ = before ∧
      extsOf store slots ks₂ = after := by
  obtain ⟨ks₁, rest, rfl, first, here⟩ := filterMap_eq_append_iff.mp h
  obtain ⟨skipped, i, ks₂, rfl, none, found, last⟩ := filterMap_eq_cons_iff.mp here
  split at found
  · cases found
  next some =>
    obtain ⟨_, -, same⟩ := map_eq_some_iff.mp found
    refine ⟨ks₁ ++ skipped, i, ks₂, by simp, congrArg Prod.fst same, some, ?_, last⟩
    have nothing : extsOf store slots skipped = [] := filterMap_eq_nil_iff.mpr none
    rw [extsOf_append, nothing, append_nil]
    exact first

/-- An entry in the node block of its directory or in one of the extension blocks. -/
theorem entryAt_cases (known : ino ∈ L) (dir : c.DirNode ino b d) {blk idx : Nat}
    (at_ : DirAt c.store b d blk idx l₁ e l₂) :
    (blk = b ∧ ∃ slots₁ slot slots₂, d.slots = slots₁ ++ slot :: slots₂ ∧ slots₁.length = idx ∧
      l₁ = slotEntries slots₁ ∧ l₂ = slotEntries slots₂ ++ extEntries c.store d) ∨
    (blk ≠ b ∧ ∃ slots x ks₁ i ks₂ slots₁ slot slots₂, d.ext ≠ 0 ∧ c.store d.ext = .didx slots ∧
      List.range MFS_DIR_SLOTS = ks₁ ++ i :: ks₂ ∧ slots i = blk ∧ slots i ≠ 0 ∧ c.store blk = .dir x ∧
      x.slots = slots₁ ++ slot :: slots₂ ∧ slots₁.length = idx ∧
      l₁ = d.entries ++ entriesAt c.store slots ks₁ ++ slotEntries slots₁ ∧
      l₂ = slotEntries slots₂ ++ entriesAt c.store slots ks₂) := by
  obtain ⟨before, x, after, slots₁, slot, slots₂, blocks, records, idx, -, -, rfl, rfl⟩ := at_
  have content : c.store blk = .dir x := by
    have mem : (blk, x) ∈ dirBlocks c.store b d := by
      rw [blocks]
      simp
    exact store_of_mem_dirBlocks dir.content mem
  rcases before with _ | ⟨first, before⟩
  · obtain ⟨⟨rfl, rfl⟩, rest⟩ : (b = blk ∧ d = x) ∧ _ = after := by
      simpa [dirBlocks] using blocks
    refine .inl ⟨rfl, slots₁, slot, slots₂, records, idx, rfl, ?_⟩
    have entries := dirEntries_eq c.store b d
    rw [dirEntries, blocks, nil_append, flatMap_cons] at entries
    rw [append_cancel_left entries]
  · have split : (if d.ext = 0 then [] else (c.store d.ext).didxSlots.elim [] fun slots =>
        extsOf c.store slots (range MFS_DIR_SLOTS)) = before ++ (blk, x) :: after ∧ (b, d) = first := by
      exact ⟨(cons.inj blocks).2, (cons.inj blocks).1⟩
    obtain ⟨split, rfl⟩ := split
    have nonzero : d.ext ≠ 0 := by
      intro zero
      simp [zero] at split
    obtain ⟨-, slots, index, exts⟩ := (dir.ok sound known).index.resolve_left nonzero
    rw [if_neg nonzero, index] at split
    simp only [didxSlots, elim_some] at split
    obtain ⟨ks₁, i, ks₂, positions, rfl, some, rfl, rfl⟩ := extsOf_split split
    have small : i < MFS_DIR_SLOTS := by
      rw [← mem_range, positions]
      simp
    exact .inr ⟨(exts.ext i small some).2, slots, x, ks₁, i, ks₂, slots₁, slot, slots₂, nonzero, index, positions,
      rfl, some, content, records, idx, by simp [entriesAt], rfl⟩

/-- A directory is still there after a free block was written. -/
theorem Core.DirNode.withBlock (known : ino ∈ L) (dir : c.DirNode ino b d) {b₁ : Nat}
    (free : c.mem.vol.Free b₁) (blk : Block) : (c.withBlock b₁ blk).DirNode ino b d := by
  obtain ⟨grown, -⟩ := extends_withBlock free blk
  have used := (sound.tree.object ino known b dir.block dir.nonzero).1
  refine ⟨?_, dir.nonzero, ?_⟩
  · rw [Core.blockOf, itabTable_withBlock free, inoBlockIn_grows grown.grows sound.tree.tables]
    exact dir.block
  · rw [(grown.grows.keeps b used).2, dir.content]

theorem ends_storeExt (known : loc.dirIno ∈ L) (dir : c.DirNode loc.dirIno b d) (nonzero : d.ext ≠ 0)
    (index : c.store d.ext = .didx slots) (positions : List.range MFS_DIR_SLOTS = ks₁ ++ i :: ks₂)
    (here : slots i = loc.blk) (live : slots i ≠ 0) (ok : x.Ok)
    (entries : es = d.entries ++ entriesAt c.store slots ks₁ ++ x.entries ++ entriesAt c.store slots ks₂)
    (children : Refers L es) :
    Ends ((storeExt loc x).ideal c)
      (fun _ c' => ∃ now, Becomes 5 L L
        (update (c.tree L) loc.dirIno (some (.dir (d.md.touch now) es))) c c')
      fun _ => c.mem.vol.room < 5 := by
  obtain ⟨used, slots', index', exts⟩ := (dir.ok sound known).index.resolve_left nonzero
  obtain rfl : slots' = slots := didx.inj (index'.symm.trans index)
  have small : i < MFS_DIR_SLOTS := by
    rw [← mem_range, positions]
    simp
  refine ends_mfsCommit_bind (fun full => by omega) fun b₁ free => ?_
  have written := sound.withBlock free (.dir x)
  obtain ⟨grown, -⟩ := extends_withBlock free (.dir x)
  have dir₁ := dir.withBlock sound known free (.dir x)
  refine (ends_dirNode written.sound loc.dirIno).bind (fun c' h => absurd dir₁ (h.2 _ _)) fun a c₂ h => ?_
  obtain ⟨quiet, b', dir'⟩ := h
  obtain rfl : b' = b := some.inj (dir'.block.symm.trans dir₁.block)
  obtain rfl : a = d := Block.dir.inj (dir'.content.symm.trans dir₁.content)
  refine (ends_mfsNow quiet.sound).bind (fun c' h => h.elim) fun now c₃ quiet' => ?_
  have looks := quiet.toLooks.trans quiet'.toLooks
  have read : c₃.store a.ext = .didx slots' := by
    rw [looks.store, (grown.grows.keeps _ used).2, index]
  apply Ends.ensure
  · intro none
    exact absurd (by simpa using none) nonzero
  · intro _
    rw [ideal_bind, indexSlots, ideal_mfsReadBlk_bind, read]
    rw [ideal_pure, Act.after_ok]
    generalize position : find? _ (range MFS_DIR_SLOTS) = o
    apply Ends.ofOption
    · intro none
      rw [none, find?_eq_none] at position
      exact absurd (position i (mem_range.mpr small)) (by simp [here])
    · intro i' found
      rw [found] at position
      have there : slots' i' = loc.blk := by simpa using find?_some position
      have small' := mem_range.mp (mem_of_find?_eq_some position)
      obtain rfl := exts.once i small i' small' live (here.trans there.symm)
      have commit := ends_replaceExt exts.slotsOk free sound known dir.valid
        ((dir.ok sound known).block.touch now) ok positions entries children looks
      exact commit.mono (fun _ c' h => ⟨now, h⟩) fun c' h => h

/-- Storing a new version of a directory block: in the node or in an extension block. -/
theorem ends_mfsDirStoreLoc (dir : c.DirNode loc.dirIno b d) {P : Tree → Prop}
    (inNode : loc.blk = b → ∀ now c₁, Looks L c c₁ →
      Ends ((mfsCommitObject loc.dirIno (.dir (x.touch now))).ideal c₁)
        (fun _ c' => ∃ t', P t' ∧ Becomes 5 L L t' c₁ c') fun _ => c₁.mem.vol.room < 5)
    (inExt : loc.blk ≠ b → ∀ c₁, Looks L c c₁ → Ends ((storeExt loc x).ideal c₁)
      (fun _ c' => ∃ t', P t' ∧ Becomes 5 L L t' c₁ c') fun _ => c₁.mem.vol.room < 5) :
    Ends ((mfsDirStoreLoc loc x).ideal c) (fun _ c' => ∃ t', P t' ∧ Becomes 5 L L t' c c')
      fun _ => c.mem.vol.room < 5 := by
  refine Ends.attempt (ends_mfsInoBlock sound loc.dirIno) (fun c₁ h => ?_) fun b' c₁ h => ?_
  · obtain ⟨rfl, invalid⟩ := h
    have found := dir.block
    rw [Core.blockOf, inoBlockIn, invalid] at found
    cases found
  · obtain ⟨quiet, found⟩ := h
    obtain rfl : b' = b := some.inj (found.symm.trans dir.block)
    by_cases same : loc.blk = b'
    · rw [if_pos (congrArg some same.symm)]
      refine (ends_mfsNow quiet.sound).bind (fun c' h => h.elim) fun now c₂ quiet' => ?_
      have looks := quiet.toLooks.trans quiet'.toLooks
      exact (looks.ends (inNode same now c₂ looks)).bind (fun c' h => h) fun _ c' h => h
    · rw [if_neg fun h => same (some.inj h).symm]
      exact quiet.toLooks.ends (inExt same c₁ quiet.toLooks)

/-- **`mfs_dir_delete` takes one entry out of a directory.**  It fails only when there is no room for the new
version. -/
theorem ends_mfsDirDelete (known : loc.dirIno ∈ L) (at_ : c.EntryAt loc l₁ e l₂) :
    Ends ((mfsDirDelete loc).ideal c)
      (fun _ c' => ∃ t', (c.tree L).Leaves loc.dirIno e t' ∧ Becomes 5 L L t' c c')
      fun _ => c.mem.vol.room < 5 := by
  obtain ⟨b, d, dir, place⟩ := at_
  have ok := dir.ok sound known
  have all := place.entries
  rw [dirEntries_eq] at all
  have tree : c.tree L loc.dirIno = some (.dir d.md (l₁ ++ e :: l₂)) := by
    rw [dir.tree known, all]
  have children : ∀ y ∈ l₁ ++ l₂, inoValid y.ino = true ∧ y.ino ∈ L := by
    intro y mem
    apply dir.children sound known
    rw [all]
    rcases mem_append.mp mem with mem | mem <;> simp [mem]
  have leaves : ∀ now, (c.tree L).Leaves loc.dirIno e
      (update (c.tree L) loc.dirIno (some (.dir (d.md.touch now) (l₁ ++ l₂)))) :=
    fun now => ⟨d.md, now, l₁, l₂, tree, rfl⟩
  rw [mfsDirDelete, mfsDirLoadLoc, ideal_bind, ideal_mfsReadBlk_bind]
  rcases entryAt_cases sound known dir place with
    ⟨same, slots₁, slot, slots₂, records, idx, rfl, rfl⟩ |
    ⟨differs, slots, x, ks₁, i, ks₂, slots₁, slot, slots₂, nonzero, index, positions, here, live, content, records,
      idx, rfl, rfl⟩
  · obtain ⟨xOk, entries⟩ := remove_spec ok.block records
    rw [same, dir.content]
    rw [ideal_pure, Act.after_ok]
    apply Ends.ensure
    · intro outside
      simp [records, ← idx] at outside
    · intro _
      rw [← idx]
      refine ends_mfsDirStoreLoc sound dir (fun _ now c₁ looks => ?_) (absurd same)
      have parts : DirParts c₁.store c₁.mem.vol
          (({ d with slots := removeSlot d.slots slots₁.length } : DirBlock).touch now) := by
        rw [looks.store, looks.vol]
        exact ⟨xOk.touch now, ok.parts.index⟩
      have exts : extEntries c₁.store
          (({ d with slots := removeSlot d.slots slots₁.length } : DirBlock).touch now) =
          extEntries c.store d := by
        rw [looks.store]
        rfl
      have kept : (({ d with slots := removeSlot d.slots slots₁.length } : DirBlock).touch now).entries =
          slotEntries slots₁ ++ slotEntries slots₂ := entries
      have commit := ends_commitDir looks.sound known dir.valid parts (by
        rw [exts, kept, append_assoc]
        exact children)
      rw [exts, kept, append_assoc, looks.tree] at commit
      exact commit.mono (fun _ c' h => ⟨_, leaves now, h.mono (by omega)⟩) fun c' short => by omega
  · have small : i < MFS_DIR_SLOTS := by
      rw [← mem_range, positions]
      simp
    obtain ⟨-, slots', index', exts⟩ := ok.index.resolve_left nonzero
    obtain rfl : slots' = slots := didx.inj (index'.symm.trans index)
    obtain ⟨-, x', content', oldOk⟩ := (exts.ext i small live).1
    rw [here] at content'
    obtain rfl : x' = x := Block.dir.inj (content'.symm.trans content)
    obtain ⟨xOk, entries⟩ := remove_spec oldOk records
    rw [content]
    rw [ideal_pure, Act.after_ok]
    apply Ends.ensure
    · intro outside
      simp [records, ← idx] at outside
    · intro _
      rw [← idx]
      refine ends_mfsDirStoreLoc sound dir (fun same => absurd same differs) fun _ c₁ looks => ?_
      have store := ends_storeExt looks.sound known (looks.dirNode dir) nonzero (by rw [looks.store]; exact index)
        positions here live xOk (by
          rw [looks.store, entries]
          simp) children
      rw [looks.tree] at store
      exact store.mono (fun _ c' h => ⟨_, leaves h.choose, h.choose_spec⟩) fun c' h => h

end Deleting

end MorionOS.Mfs
