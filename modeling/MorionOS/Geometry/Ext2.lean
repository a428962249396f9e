import MorionOS.Geometry.Volumes

/-!
# The volume that the ext2 service works on

`ext2_mount` of `ext2_srv.rs`, the functions through which blocks, inodes and bitmaps are
found, and the part of `run` that switches the volume.

The parameters of the superblock are overwritten as soon as they pass the checks on them, and
the group descriptors while they are read; the volume number only at the end.  So a volume that
is refused late leaves its layout behind under the number of the volume before it.
-/

namespace MorionOS.Geometry.Ext2

open Blk (Bytes readLe readU32)
open StateAct Act Ext2

def MAGIC : Nat := 0xEF53
def ROOT_INO : Nat := 2
def S_IFMT : Nat := 0xF000
def S_IFDIR : Nat := 0x4000
def MAX_GROUPS : Nat := 4096
def MAX_FD : Nat := 16

/-- The parameters that `ext2_mount` takes from the superblock. -/
structure Layout where
  blockSize : Nat
  inodesPerGroup : Nat
  inodeSize : Nat
  groupCount : Nat
  blocksCount : Nat
  inodesCount : Nat
  firstDataBlock : Nat
  blocksPerGroup : Nat

/-- What is kept of a group descriptor. -/
structure Descriptor where
  blockBitmap : Nat
  inodeBitmap : Nat
  inodeTable : Nat

structure Inode where
  mode : Nat
  size : Nat
  atime : Nat
  ctime : Nat
  mtime : Nat
  links : Nat
  blocks : Nat
  block : List Nat

/-- The global variables. -/
structure Globals where
  vol : Nat
  curVol : Nat
  /-- `u64::MAX` is `none` -/
  geoVol : Option Nat
  layout : Sourced Layout
  table : Nat → Sourced Descriptor
  fds : FdTable
  uses : List Use

/-- Programs of the service. -/
abbrev Prog (α : Type) : Type := Act Globals Unit α

/-- Read a global variable that was filled from a disk. -/
def use {α : Type} (field : Globals → Sourced α) : Prog α := fun g =>
  (.ok (field g).value, { g with uses := g.uses ++ [⟨g.curVol, (field g).source⟩] })

/-! ## Blocks and inodes -/

def Layout.sectors (layout : Layout) : Nat := layout.blockSize / 512 % 2 ^ 16

/-- The sectors of a block. -/
def blockAt (env : Env) (vol : Nat) (layout : Layout) (blockNo : Nat) : Option Bytes :=
  if layout.sectors = 0 then none
  else env.readSectors vol (blockNo * layout.sectors % 2 ^ 32) layout.sectors

/-- `ext2_read_block`; `ext2_write_block` finds the block in the same way. -/
def readBlock (env : Env) (blockNo : Nat) : Prog Bytes := do
  let layout ← use Globals.layout
  let vol ← reads Globals.curVol
  ofOption (blockAt env vol layout blockNo) ()

/-- The fields of an inode. -/
def inodeAt (p : Bytes) : Inode :=
  { mode := readLe p 0 2, size := readU32 p 4, atime := readU32 p 0x08, ctime := readU32 p 0x0C
    mtime := readU32 p 0x10, links := readLe p 0x1A 2, blocks := readU32 p 0x1C
    block := (List.range 15).map fun i => readU32 p (0x28 + i * 4) }

/-- The block of the inode table that holds an inode, and the offset there. -/
def inodePlace (layout : Layout) (inodeTable idx : Nat) : Option (Nat × Nat) :=
  let byteOff := idx % layout.inodesPerGroup * layout.inodeSize
  let blockNo := inodeTable + byteOff / layout.blockSize
  let within := byteOff % layout.blockSize
  if within + layout.inodeSize > layout.blockSize ∨ blockNo ≥ 2 ^ 32 then none
  else some (blockNo, within)

/-- `ext2_read_inode_buf`; `ext2_write_inode_buf` finds the inode in the same way. -/
def readInode (env : Env) (ino : Nat) : Prog Inode := do
  ensure (ino ≠ 0) ()
  let layout ← use Globals.layout
  let group := (ino - 1) / layout.inodesPerGroup
  ensure (group < layout.groupCount) ()
  let d ← use fun g => g.table group
  let (blockNo, within) ← ofOption (inodePlace layout d.inodeTable (ino - 1)) ()
  let buf ← readBlock env blockNo
  pure (inodeAt fun i => buf (within + i))

/-- The bitmap of a group, as the functions that allocate and free find it. -/
def readBitmap (env : Env) (ofInodes : Bool) (group : Nat) : Prog Bytes := do
  let layout ← use Globals.layout
  ensure (group < layout.groupCount) ()
  let d ← use fun g => g.table group
  readBlock env (if ofInodes then d.inodeBitmap else d.blockBitmap)

/-! ## Mounting -/

/-- The checks of `ext2_mount` on the superblock. -/
def parseSuper (sb : Bytes) : Option Layout :=
  let logBlockSize := readU32 sb 0x18
  let inodesCount := readU32 sb 0x00
  let blocksCount := readU32 sb 0x04
  let blocksPerGroup := readU32 sb 0x20
  let inodesPerGroup := readU32 sb 0x28
  let given := readLe sb 0x58 2
  let groups := (blocksCount + blocksPerGroup - 1) / blocksPerGroup
  if readLe sb 0x38 2 ≠ MAGIC ∨ logBlockSize > 6 then none
  else if blocksCount = 0 ∨ inodesCount = 0 ∨ blocksPerGroup = 0 ∨ inodesPerGroup = 0 then none
  else if groups = 0 ∨ groups > MAX_GROUPS then none
  else some
    { blockSize := 1024 * 2 ^ logBlockSize
      inodesPerGroup := inodesPerGroup
      inodeSize := if readU32 sb 0x4C ≠ 0 ∧ given ≥ 128 then given else 128
      groupCount := groups
      blocksCount := blocksCount
      inodesCount := inodesCount
      firstDataBlock := readU32 sb 0x14
      blocksPerGroup := blocksPerGroup }

/-- The superblock of a volume, as far as the checks on it go. -/
def superblock (env : Env) (vol : Nat) : Option Layout := (env.readSectors vol 2 2).bind parseSuper

def setLayout (layout : Layout) (g : Globals) : Globals :=
  { g with layout := ⟨layout, some g.curVol⟩ }

/-- The descriptor at a place of a block of the table. -/
def descriptorAt (buf : Bytes) (k : Nat) : Descriptor :=
  { blockBitmap := readU32 buf (k * 32), inodeBitmap := readU32 buf (k * 32 + 0x04)
    inodeTable := readU32 buf (k * 32 + 0x08) }

/-- `n` descriptors from a block of the table, from group `first` on. -/
def fillGroups (buf : Bytes) (first n : Nat) (g : Globals) : Globals :=
  { g with table := fun i =>
      if first ≤ i ∧ i < first + n then ⟨descriptorAt buf (i - first), some g.curVol⟩ else g.table i }

/-- The loop over the blocks of the descriptor table, from group `first` on. -/
def loadTable (env : Env) (groups perBlock : Nat) : (left first blk : Nat) → Prog Unit
  | 0, _, _ => pure ()
  | left + 1, first, blk =>
    if first < groups then do
      let buf ← readBlock env blk
      let n := min (groups - first) perBlock
      modify (fillGroups buf first n)
      loadTable env groups perBlock left (first + n) ((blk + 1) % 2 ^ 32)
    else pure ()

def Layout.perBlock (layout : Layout) : Nat := layout.blockSize / 32

def Layout.gdtBlock (layout : Layout) : Nat := (layout.firstDataBlock + 1) % 2 ^ 32

def Inode.isDir (inode : Inode) : Bool := inode.mode &&& S_IFMT = S_IFDIR

def mount (env : Env) : Prog Unit := do
  let vol ← reads Globals.curVol
  let layout ← ofOption (superblock env vol) ()
  modify (setLayout layout)
  ensure (layout.perBlock ≠ 0) ()
  loadTable env layout.groupCount layout.perBlock layout.groupCount 0 layout.gdtBlock
  let root ← readInode env ROOT_INO
  ensure root.isDir ()
  modify fun g => { g with geoVol := some g.curVol }

/-! ## Requests -/

/-- What the handlers reach the disk through. -/
inductive Access where
  /-- `ext2_read_block`, `ext2_write_block` -/
  | block (blockNo : Nat)
  /-- `ext2_read_inode_buf`, `ext2_write_inode_buf` -/
  | inode (ino : Nat)
  /-- `ext2_alloc_block`, `ext2_free_block`, `ext2_alloc_inode`, `ext2_free_inode` -/
  | bitmap (ofInodes : Bool) (group : Nat)
  /-- A computation with a parameter of the superblock. -/
  | parameter

def Access.run (env : Env) : Access → Globals → Globals
  | .block blockNo, g => (readBlock env blockNo g).2
  | .inode ino, g => (readInode env ino g).2
  | .bitmap ofInodes group, g => (readBitmap env ofInodes group g).2
  | .parameter, g => (use Globals.layout g).2

/-- The volume that a request is for. -/
def requestVol (g : Globals) (r : Request Access) : Nat :=
  match r.kind with
  | .descriptor fd => (fdGet g.fds fd).getD (volFromEnc r.enc g.vol)
  | _ => volFromEnc r.enc g.vol

/-- The handler, and the descriptors after it. -/
def handle (r : Request Access) (vol : Nat) (g : Globals) : Globals :=
  let g := r.body.foldl (fun g step => step.2.run step.1 g) g
  { g with fds := fdAfter g.fds vol r.kind }

/-- One round of the loop of `run`: the volume is switched when the layout is not its own,
and the request fails when that fails. -/
def serve (g : Globals) (r : Request Access) : Globals :=
  let vol := requestVol g r
  let g := { g with curVol := vol }
  if g.geoVol ≠ some vol then
    match mount r.env g with
    | (.error _, g) => g
    | (.ok _, g) => handle r vol g
  else handle r vol g

/-- The globals when the program starts, with the volume that it claims. -/
def fresh (vol : Nat) : Globals :=
  { vol := vol, curVol := vol, geoVol := none, layout := ⟨⟨0, 0, 0, 0, 0, 0, 0, 0⟩, none⟩
    table := fun _ => ⟨⟨0, 0, 0⟩, none⟩, fds := List.replicate MAX_FD none, uses := [] }

/-- The program reached its loop: the first mount succeeded. -/
def Booted (g : Globals) : Prop :=
  ∃ env vol, (mount env (fresh vol)).1 = .ok () ∧ g = (mount env (fresh vol)).2

/-! ## Volumes that can be mounted -/

/-- The descriptor of a group, on the disk. -/
def descriptor (env : Env) (vol : Nat) (layout : Layout) (group : Nat) : Option Descriptor :=
  (blockAt env vol layout ((layout.gdtBlock + group / layout.perBlock) % 2 ^ 32)).map
    (descriptorAt · (group % layout.perBlock))

/-- The descriptor table, on the disk. -/
def diskTable (env : Env) (vol : Nat) (layout : Layout) (group : Nat) : Descriptor :=
  (descriptor env vol layout group).getD ⟨0, 0, 0⟩

/-- An inode, found through a descriptor table. -/
def inodeOn (env : Env) (vol : Nat) (layout : Layout) (table : Nat → Descriptor) (ino : Nat) :
    Option Inode := do
  guard (ino ≠ 0 ∧ (ino - 1) / layout.inodesPerGroup < layout.groupCount)
  let (blockNo, within) ←
    inodePlace layout (table ((ino - 1) / layout.inodesPerGroup)).inodeTable (ino - 1)
  let buf ← blockAt env vol layout blockNo
  some (inodeAt fun i => buf (within + i))

/-- What is behind an accepted superblock: every block of the descriptor table can be read, and
the root inode is a directory. -/
def Complete (env : Env) (vol : Nat) (layout : Layout) : Prop :=
  (∀ group < layout.groupCount, (descriptor env vol layout group).isSome) ∧
    (inodeOn env vol layout (diskTable env vol layout) ROOT_INO).any Inode.isDir

instance (env : Env) (vol : Nat) (layout : Layout) : Decidable (Complete env vol layout) :=
  inferInstanceAs (Decidable (_ ∧ _))

/-- A request for the volume that is mounted, or for one that is refused for its superblock, or
for one that is complete. -/
def Careful (g : Globals) (r : Request Access) : Prop :=
  g.geoVol = some (requestVol g r) ∨
    (superblock r.env (requestVol g r)).all fun layout => Complete r.env (requestVol g r) layout

instance (g : Globals) (r : Request Access) : Decidable (Careful g r) :=
  inferInstanceAs (Decidable (_ ∨ _))

/-! ## What belongs to the volume -/

/-- Everything that is in use was read from the volume `v`; of the descriptors, those of the
first `loaded` groups. -/
structure Own (v : Nat) (geo : Option Nat) (loaded : Nat) (g : Globals) : Prop where
  here : g.curVol = v
  geo : g.geoVol = geo
  layout : g.layout.source = some v
  table : ∀ i < loaded, (g.table i).source = some v
  uses : ∀ u ∈ g.uses, u.Own

/-- Everything was read from the volume. -/
def Whole (v : Nat) (geo : Option Nat) (g : Globals) : Prop :=
  Own v geo g.layout.value.groupCount g

variable {v loaded : Nat} {geo : Option Nat} {α : Type} {g : Globals}

theorem Own.use (own : Own v geo loaded g) {field : Globals → Sourced α}
    (belongs : (field g).source = some v) : Own v geo loaded (use field g).2 :=
  { own with uses := uses_append own.uses (own.here.symm ▸ belongs) }

theorem Own.readBlock (own : Own v geo loaded g) (env : Env) (blockNo : Nat) :
    Ends (readBlock env blockNo g)
      (fun buf g' => Own v geo loaded g' ∧ g'.layout = g.layout ∧ g'.table = g.table ∧
        blockAt env v g.layout.value blockNo = some buf)
      (fun g' => Own v geo loaded g' ∧ g'.layout = g.layout ∧
        blockAt env v g.layout.value blockNo = none) := by
  have used : Own v geo loaded (Ext2.use Globals.layout g).2 := own.use own.layout
  change Ends (ofOption (blockAt env g.curVol g.layout.value blockNo) ()
    (Ext2.use Globals.layout g).2) _ _
  rw [own.here]
  cases found : blockAt env v g.layout.value blockNo with
  | none => exact ⟨used, rfl, rfl⟩
  | some buf => exact ⟨used, rfl, rfl, rfl⟩

theorem Whole.readBlock (own : Whole v geo g) (env : Env) (blockNo : Nat) :
    Ends (readBlock env blockNo g)
      (fun buf g' => Whole v geo g' ∧ blockAt env v g.layout.value blockNo = some buf)
      (fun g' => Whole v geo g' ∧ blockAt env v g.layout.value blockNo = none) := by
  refine (Own.readBlock own env blockNo).mono ?_ ?_
  · rintro buf g' ⟨after, same, _, found⟩
    exact ⟨by rwa [Whole, same], found⟩
  · rintro g' ⟨after, same, missing⟩
    exact ⟨by rwa [Whole, same], missing⟩

/-- `readInode` reads the inode of the volume that it works on. -/
theorem Whole.readInode (own : Whole v geo g) (env : Env) (ino : Nat) :
    Ends (readInode env ino g)
      (fun inode g' => Whole v geo g' ∧
        inodeOn env v g.layout.value (fun i => (g.table i).value) ino = some inode)
      (fun g' => Whole v geo g' ∧
        inodeOn env v g.layout.value (fun i => (g.table i).value) ino = none) := by
  refine ends_ensure (fun zero => ⟨own, ?_⟩) fun nonzero => ?_
  · simp only [decide_eq_false_iff_not] at zero
    rw [inodeOn, guard, if_neg fun both => zero both.1]
    rfl
  have used : Whole v geo (use Globals.layout g).2 := Own.use own own.layout
  refine ends_ensure (fun outside => ⟨used, ?_⟩) fun inside => ?_
  · simp only [decide_eq_false_iff_not] at outside
    rw [inodeOn, guard, if_neg fun both => outside both.2]
    rfl
  replace nonzero : ino ≠ 0 := of_decide_eq_true nonzero
  replace inside : (ino - 1) / g.layout.value.inodesPerGroup < g.layout.value.groupCount :=
    of_decide_eq_true inside
  replace used : Whole v geo (use (fun g => g.table ((ino - 1) / g.layout.value.inodesPerGroup))
      (use Globals.layout g).2).2 := Own.use used (used.table _ inside)
  rw [inodeOn, guard, if_pos ⟨nonzero, inside⟩]
  refine ends_ofOption (fun nowhere => ⟨used, ?_⟩) fun place found => ?_
  · exact congrArg (Option.bind · _) nowhere
  refine ends_bind ((used.readBlock env place.1).mono (fun _ _ read => read) fun g' none => ?_)
    fun buf g' read => ?_
  · exact ⟨none.1, (congrArg (Option.bind · _) found).trans (congrArg (Option.bind · _) none.2)⟩
  · exact ⟨read.1, (congrArg (Option.bind · _) found).trans (congrArg (Option.bind · _) read.2)⟩

theorem keeps_readBlock (env : Env) (blockNo : Nat) : Act.Preserves (Whole v geo) (readBlock env blockNo) :=
  preserves_of_ends fun _ own => (own.readBlock env blockNo).mono (fun _ _ read => read.1)
    fun _ read => read.1

theorem keeps_readInode (env : Env) (ino : Nat) : Act.Preserves (Whole v geo) (readInode env ino) :=
  preserves_of_ends fun _ own => (own.readInode env ino).mono (fun _ _ read => read.1)
    fun _ read => read.1

theorem keeps_readBitmap (env : Env) (ofInodes : Bool) (group : Nat) :
    Act.Preserves (Whole v geo) (readBitmap env ofInodes group) := by
  refine preserves_of_ends fun g own => ?_
  have used : Whole v geo (use Globals.layout g).2 := Own.use own own.layout
  refine ends_ensure (fun _ => used) fun inside => ?_
  replace used : Whole v geo (use (fun g => g.table group) (use Globals.layout g).2).2 :=
    Own.use used (used.table _ (of_decide_eq_true inside))
  exact (keeps_readBlock env _).ends used

/-! ## A mount that succeeds -/

/-- The descriptors of the first groups are those of the volume. -/
structure Loading (env : Env) (v : Nat) (layout : Layout) (loaded : Nat) (g : Globals) : Prop where
  own : Own v g.geoVol loaded g
  parameters : g.layout.value = layout
  table : ∀ i < loaded, (g.table i).value = diskTable env v layout i

section Mounting

variable {env : Env} {layout : Layout} {g : Globals}

theorem Loading.readBlock (loading : Loading env v layout loaded g) (blockNo : Nat) :
    Ends (readBlock env blockNo g)
      (fun buf g' => Loading env v layout loaded g' ∧ blockAt env v layout blockNo = some buf)
      (fun _ => blockAt env v layout blockNo = none) := by
  refine (loading.own.readBlock env blockNo).mono ?_ ?_
  · rintro buf g' ⟨own, sameLayout, sameTable, found⟩
    rw [loading.parameters] at found
    refine ⟨⟨{ own with geo := rfl }, by rw [sameLayout, loading.parameters], fun i inside => ?_⟩, found⟩
    rw [sameTable, loading.table i inside]
  · rintro g' ⟨_, _, missing⟩
    rwa [loading.parameters] at missing

/-- The descriptors of a block are those of the disk. -/
theorem Loading.fillGroups (loading : Loading env v layout loaded g) {buf : Bytes} {n : Nat}
    (aligned : loaded % layout.perBlock = 0) (fits : n ≤ layout.perBlock)
    (found : blockAt env v layout ((layout.gdtBlock + loaded / layout.perBlock) % 2 ^ 32) = some buf) :
    Loading env v layout (loaded + n) (fillGroups buf loaded n g) := by
  have here : some g.curVol = some v := congrArg some loading.own.here
  refine ⟨{ loading.own with table := fun i inside => ?_ }, loading.parameters, fun i inside => ?_⟩
  · simp only [Ext2.fillGroups]
    split
    · exact here
    · exact loading.own.table i (by omega)
  · simp only [Ext2.fillGroups]
    split
    · obtain ⟨k, rfl⟩ : ∃ k, i = loaded + k := ⟨i - loaded, by omega⟩
      have small : k < layout.perBlock := by omega
      have whole : loaded = layout.perBlock * (loaded / layout.perBlock) := by
        have := Nat.div_add_mod loaded layout.perBlock
        omega
      have block : (loaded + k) / layout.perBlock = loaded / layout.perBlock := by
        conv_lhs => rw [whole, Nat.mul_add_div (by omega), Nat.div_eq_of_lt small]
        omega
      have slot : (loaded + k) % layout.perBlock = k := by
        conv_lhs => rw [whole, Nat.mul_add_mod, Nat.mod_eq_of_lt small]
      rw [diskTable, descriptor, block, found, slot, Nat.add_sub_cancel_left]
      rfl
    · exact loading.table i (by omega)

theorem Loading.loadTable (left blk : Nat) (loading : Loading env v layout loaded g)
    (positive : layout.perBlock ≠ 0)
    (enough : layout.groupCount ≤ loaded + left) (within : loaded ≤ layout.groupCount)
    (place : loaded < layout.groupCount → loaded % layout.perBlock = 0 ∧
      blk = (layout.gdtBlock + loaded / layout.perBlock) % 2 ^ 32) :
    Ends (loadTable env layout.groupCount layout.perBlock left loaded blk g)
      (fun _ g' => Loading env v layout layout.groupCount g')
      (fun _ => ¬ Complete env v layout) := by
  induction left generalizing loaded blk g with
  | zero =>
    obtain rfl : loaded = layout.groupCount := by omega
    exact loading
  | succ left ih =>
    rw [loadTable]
    split
    next more =>
      obtain ⟨aligned, rfl⟩ := place more
      refine ends_bind ((loading.readBlock _).mono (fun _ _ read => read) fun _ missing complete => ?_)
        fun buf g' read => ?_
      · have readable := complete.1 loaded more
        rw [descriptor, missing] at readable
        cases readable
      · obtain ⟨loading, found⟩ := read
        have filled := loading.fillGroups (n := min (layout.groupCount - loaded) layout.perBlock)
          aligned (by omega) found
        refine ih _ filled (by omega) (by omega) fun more => ?_
        have full : min (layout.groupCount - loaded) layout.perBlock = layout.perBlock := by omega
        rw [full, Nat.add_mod_right, Nat.add_div_right _ (Nat.pos_of_ne_zero positive)]
        exact ⟨aligned, by omega⟩
    · obtain rfl : loaded = layout.groupCount := by omega
      exact loading

theorem perBlock_ne_zero {vol : Nat} (accepted : superblock env vol = some layout) :
    layout.perBlock ≠ 0 := by
  obtain ⟨sb, _, parsed⟩ := Option.bind_eq_some_iff.mp accepted
  simp only [parseSuper, Option.ite_none_left_eq_some, Option.some.injEq] at parsed
  obtain ⟨_, _, _, rfl⟩ := parsed
  have : 0 < 2 ^ readU32 sb 0x18 := Nat.two_pow_pos _
  simp only [Layout.perBlock]
  omega

/-- An inode is found through the descriptor of a group that there is. -/
theorem inodeOn_congr {table table' : Nat → Descriptor} (ino : Nat)
    (agree : ∀ i < layout.groupCount, table i = table' i) :
    inodeOn env v layout table ino = inodeOn env v layout table' ino := by
  rw [inodeOn, inodeOn, guard]
  split
  next valid => rw [agree _ valid.2]
  · rfl

theorem Loading.root (loading : Loading env v layout layout.groupCount g) :
    Ends (readInode env ROOT_INO g)
      (fun root g' => Whole v g.geoVol g' ∧
        inodeOn env v layout (diskTable env v layout) ROOT_INO = some root)
      (fun _ => ¬ Complete env v layout) := by
  have own : Whole v g.geoVol g := by rw [Whole, loading.parameters]; exact loading.own
  have same : inodeOn env v g.layout.value (fun i => (g.table i).value) ROOT_INO =
      inodeOn env v layout (diskTable env v layout) ROOT_INO := by
    rw [loading.parameters]
    exact inodeOn_congr ROOT_INO loading.table
  have read := own.readInode env ROOT_INO
  rw [same] at read
  refine read.mono (fun _ _ read => read) fun _ missing complete => ?_
  have root := complete.2
  rw [missing.2] at root
  cases root

/-- A mount that succeeds leaves the layout of the volume, and one that fails had an incomplete
volume before it. -/
theorem mount_ends (accepted : superblock env g.curVol = some layout) (uses : ∀ u ∈ g.uses, u.Own) :
    Ends (mount env g) (fun _ g' => Whole g.curVol (some g.curVol) g')
      (fun _ => ¬ Complete env g.curVol layout) := by
  generalize there : g.curVol = v at *
  have begin : Loading env v layout 0 (setLayout layout g) :=
    ⟨⟨there, rfl, congrArg some there, nofun, uses⟩, rfl, nofun⟩
  have positive := perBlock_ne_zero accepted
  change Ends ((ofOption (superblock env g.curVol) () >>= _ : Prog Unit) g) _ _
  rw [there, accepted]
  refine ends_ofOption nofun fun layout same => ?_
  cases same
  refine ends_ensure (fun zero => absurd positive (of_decide_eq_false zero)) fun _ => ?_
  refine ends_bind (begin.loadTable _ _ positive (by omega) (by omega) fun _ => ?_)
    fun _ g loaded => ?_
  · rw [Nat.zero_mod, Nat.zero_div, Layout.gdtBlock]
    exact ⟨rfl, by omega⟩
  refine ends_bind loaded.root fun root g after => ?_
  refine ends_ensure (fun other complete => ?_) fun _ => ?_
  · have isDir := complete.2
    rw [after.2, Option.any_some, other] at isDir
    cases isDir
  · exact { after.1 with geo := congrArg some after.1.here }

end Mounting

/-! ## Runs -/

/-- The service has the layout and the descriptors of the volume that `geoVol` names. -/
def Settled (g : Globals) : Prop := ∃ v, Whole v (some v) { g with curVol := v }

theorem Settled.uses (settled : Settled g) : ∀ u ∈ g.uses, u.Own :=
  let ⟨_, own⟩ := settled
  own.uses

theorem Whole.settled (own : Whole v (some v) g) : Settled g :=
  ⟨v, { own with here := rfl }⟩

theorem mount_refused {env : Env} (refused : superblock env g.curVol = none) :
    mount env g = (.error (), g) := by
  change (ofOption (superblock env g.curVol) () >>= _ : Prog Unit) g = _
  rw [refused]
  rfl

theorem Booted.settled (booted : Booted g) : Settled g := by
  obtain ⟨env, vol, ok, rfl⟩ := booted
  cases boot : superblock env vol with
  | none =>
    rw [mount_refused boot] at ok
    cases ok
  | some layout =>
    have own := (mount_ends (g := fresh vol) boot nofun).of_ok (eq_of_fst ok)
    exact own.settled

theorem Whole.access (own : Whole v geo g) (env : Env) (a : Access) : Whole v geo (a.run env g) := by
  cases a with
  | block blockNo => exact keeps_readBlock env blockNo g own
  | inode ino => exact keeps_readInode env ino g own
  | bitmap ofInodes group => exact keeps_readBitmap env ofInodes group g own
  | parameter => exact Own.use own own.layout

theorem Whole.handle (own : Whole v (some v) g) (r : Request Access) (vol : Nat) :
    Settled (handle r vol g) := by
  have after : Whole v (some v) (r.body.foldl (fun g step => step.2.run step.1 g) g) :=
    List.foldlRecOn r.body _ own fun _ own step _ => own.access step.1 step.2
  exact ⟨v, { after with here := rfl }⟩

theorem Settled.serve (settled : Settled g) {r : Request Access} (careful : Careful g r) :
    Settled (serve g r) := by
  obtain ⟨v, own⟩ := settled
  rw [Ext2.serve]
  split
  next other =>
    cases boot : superblock r.env (requestVol g r) with
    | none =>
      rw [mount_refused boot]
      exact ⟨v, { own with }⟩
    | some layout =>
      -- the superblock is accepted, so a careful request has a complete volume
      rw [Careful, boot] at careful
      have complete := of_decide_eq_true (careful.resolve_left other)
      have mounted := mount_ends (g := { g with curVol := requestVol g r }) boot own.uses
      generalize mount r.env { g with curVol := requestVol g r } = result at mounted
      obtain ⟨e | u, g'⟩ := result
      · exact absurd complete mounted
      · exact Whole.handle mounted r _
  next same =>
    have asked : requestVol g r = v := Option.some.inj ((not_not.mp same).symm.trans own.geo)
    rw [asked]
    exact own.handle r v

/-- A step of the service on a careful request. -/
def Step (g g' : Globals) : Prop := ∃ r, Careful g r ∧ serve g r = g'

end MorionOS.Geometry.Ext2
