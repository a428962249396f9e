import MorionOS.Mfs.InodeTable

/-!
# Directories

A directory is its node block and, once that is full, an index block (`MFXI`) of
extension blocks.  Entries are records of variable length; an entry is found
through a per-directory index in memory when there is one, else by a scan.
Inserting and deleting write new versions of the blocks involved and end in
`mfsCommitObject` for the directory.
-/

namespace MorionOS.Mfs

open StateAct Layered

/-! ## Records of one block -/

/-- `mfs_ent_need`: bytes of a record for a name of length `n`, rounded up to four. -/
def entNeed (n : Nat) : Nat := (MFS_DIR_ENT_HDR + n + 3) / 4 * 4

/-- Bytes of a record that are in use. -/
def DirSlot.usedLen (e : DirSlot) : Nat := if e.name = [] then 0 else entNeed e.name.length

variable (d : DirBlock)

/-- `mfs_dir_scan`: the index of the record with a name. -/
def DirBlock.scan (comp : Name) : Option Nat :=
  d.slots.findIdx? fun e => e.name != [] && e.name == comp

/-- `mfs_dir_slot`: the first record with room for `need` more bytes; the search stops at a
record whose length is impossible. -/
def DirBlock.slotFor (need : Nat) : Option Nat :=
  (if d.broken then d.slots.dropLast else d.slots).findIdx? fun e => decide (e.usedLen + need ≤ e.recLen)

/-- The records that replace `e` when an entry is put into its unused part. -/
def DirSlot.split (e : DirSlot) (comp : Name) (child : Nat) (typ : EntType) : List DirSlot :=
  let avail := e.recLen - e.usedLen
  let need := entNeed comp.length
  let take := if MFS_DIR_ENT_MIN ≤ avail - need then need else avail
  (if 0 < e.usedLen then [{ e with recLen := e.usedLen }] else []) ++
    ⟨child, typ, comp, take⟩ :: (if take < avail then [.free (avail - take)] else [])

/-- `mfs_ent_place` at record `i`. -/
def DirBlock.place (i : Nat) (comp : Name) (child : Nat) (typ : EntType) : DirBlock :=
  { d with slots := d.slots.take i ++
      ((d.slots[i]?.map fun e => e.split comp child typ).getD []) ++ d.slots.drop (i + 1) }

def DirBlock.hasEntry : Bool := d.slots.any fun e => e.name != []

/-- The records after record `i` was removed: its length goes to the record before it, and
the first record becomes free. -/
def removeSlot : List DirSlot → Nat → List DirSlot
  | [], _ => []
  | e :: rest, 0 => .free e.recLen :: rest
  | e :: e' :: rest, 1 => { e with recLen := e.recLen + e'.recLen } :: rest
  | e :: rest, i + 1 => e :: removeSlot rest i

/-! ## The index of a directory in memory -/

/-- Bytes that index entries take in the arena. -/
def arenaLen (ents : List DirIdxEnt) : Nat := (ents.map fun e => 7 + e.name.length).sum

/-- Add the entries of a list of records, the first of which has index `i`. -/
def DirIdx.fillSlots (blk : Nat) : List DirSlot → Nat → DirIdx → DirIdx
  | [], _, x => x
  | e :: rest, i, x =>
    if e.name = [] then fillSlots blk rest (i + 1) x
    else if e.recLen < entNeed e.name.length then { x with complete := false }
    else if MFS_DIDX_ARENA < arenaLen x.ents + 7 + e.name.length then { x with complete := false }
    else fillSlots blk rest (i + 1) { x with ents := x.ents ++ [⟨blk, i, e.name⟩] }

def DirIdx.fillBlock (x : DirIdx) (blk : Nat) (d : DirBlock) : DirIdx :=
  let x' := DirIdx.fillSlots blk d.slots 0 x
  if d.broken then { x' with complete := false } else x'

/-- The extension blocks of an index, in order, until the arena is full. -/
def fillExts (slots : Nat → Nat) : List Nat → DirIdx → Op Unit DirIdx
  | [], x => pure x
  | k :: ks, x =>
    if slots k = 0 then fillExts slots ks x
    else do
      match ← attempt (mfsReadBlk (slots k)) with
      | some (.dir d) =>
        if (x.fillBlock (slots k) d).complete then fillExts slots ks (x.fillBlock (slots k) d)
        else pure (x.fillBlock (slots k) d)
      | _ => fillExts slots ks x

/-- The extension part of an index; an unreadable index block is passed over. -/
def fillFromIndex (ext : Nat) (x : DirIdx) : Op Unit DirIdx :=
  if ext = 0 then pure x
  else do
    match ← attempt (mfsReadBlk ext) with
    | some (.didx slots) => fillExts slots (List.range MFS_DIR_SLOTS) x
    | _ => pure x

def Mem.didxFind (m : Mem) (dirIno : Nat) : Option DirIdx :=
  m.cache.didx.find? fun x => x.used && x.dirIno == dirIno && x.vol == m.curVol

/-- `mfs_didx_slot`: the slot for a new index and whether another index has to go. -/
def Cache.didxSlot (h : Cache) : Nat × Bool :=
  match h.didx.findIdx? fun x => !x.used with
  | some i => (i, false)
  | none => (h.evict % MFS_DIDX_CACHE_DIRS, true)

/-- Put an index into the cache. -/
def Cache.didxPut (h : Cache) (x : DirIdx) : Cache :=
  { h with
    didx := h.didx.set h.didxSlot.1 x
    evict := if h.didxSlot.2 then (h.didxSlot.1 + 1) % MFS_DIDX_CACHE_DIRS else h.evict }

def mfsDidxBuild (dirIno : Nat) : Op Unit Unit := do
  let base ← allocatedBlock dirIno
  match ← mfsReadBlk base with
  | .dir d => do
      let vol ← getMem fun m => m.curVol
      let x ← fillFromIndex d.ext (DirIdx.fillBlock ⟨true, true, vol, dirIno, []⟩ base d)
      setCache fun h => h.didxPut x
  | _ => throw ()

inductive DidxLookup where
  | hit (loc : MfsLoc)
  | absent
  | unknown

/-- Search one index. -/
def DirIdx.lookup (x : DirIdx) (dirIno : Nat) (comp : Name) : DidxLookup :=
  match x.ents.find? fun e => e.name == comp with
  | some e => .hit ⟨dirIno, e.blk, e.idx⟩
  | none => if x.complete then .absent else .unknown

/-- Search the index of a directory, if it is there. -/
def Mem.didxLookup (m : Mem) (dirIno : Nat) (comp : Name) : Option DidxLookup :=
  (m.didxFind dirIno).map fun x => x.lookup dirIno comp

def mfsDidxLookup (dirIno : Nat) (comp : Name) : Op Unit DidxLookup := do
  match ← getMem fun m => m.didxLookup dirIno comp with
  | some found => pure found
  | none => do
      match ← attempt (mfsDidxBuild dirIno) with
      | none => pure .unknown
      | some _ => getMem fun m => (m.didxLookup dirIno comp).getD .unknown

/-! ## Looking up an entry -/

/-- Look for a name in one extension block; an unreadable block is passed over. -/
def scanExt (dirIno : Nat) (comp : Name) (blk : Nat) : Op Unit (Option MfsLoc) :=
  if blk = 0 then pure none
  else do
    match ← attempt (mfsReadBlk blk) with
    | some (.dir d) => pure ((d.scan comp).map fun i => ⟨dirIno, blk, i⟩)
    | _ => pure none

/-- The scan of the extension blocks. -/
def scanIndex (dirIno : Nat) (comp : Name) (ext : Nat) : Op Unit MfsLoc := do
  ensure (ext != 0) ()
  match ← mfsReadBlk ext with
  | .didx slots => do
      let found ← firstSome (List.range MFS_DIR_SLOTS) fun i => scanExt dirIno comp (slots i)
      ofOption found ()
  | _ => throw ()

/-- The scan of a directory without the index in memory. -/
def scanDir (dirIno : Nat) (comp : Name) : Op Unit MfsLoc := do
  let base ← allocatedBlock dirIno
  match ← mfsReadBlk base with
  | .dir d =>
    match d.scan comp with
    | some i => pure ⟨dirIno, base, i⟩
    | none => scanIndex dirIno comp d.ext
  | _ => throw ()

def mfsDirLookup (dirIno : Nat) (comp : Name) : Op Unit MfsLoc := do
  match ← mfsDidxLookup dirIno comp with
  | .hit loc => pure loc
  | .absent => throw ()
  | .unknown => scanDir dirIno comp

variable (loc : MfsLoc)

/-- `mfs_dir_load_loc`: the block that holds an entry. -/
def mfsDirLoadLoc : Op Unit DirBlock := do
  match ← mfsReadBlk loc.blk with
  | .dir d => pure d
  | _ => throw ()

/-- Read the record at a location. -/
def slotAt : Op Unit DirSlot := do
  let d ← mfsDirLoadLoc loc
  ofOption d.slots[loc.idx]? ()

/-! ## Changing a directory -/

/-- A directory block with its times renewed. -/
def DirBlock.touch (d : DirBlock) (now : Nat) : DirBlock := { d with md := d.md.touch now }

/-- Read the node block of a directory. -/
def dirNode (dirIno : Nat) : Op Unit DirBlock := do
  let base ← allocatedBlock dirIno
  match ← mfsReadBlk base with
  | .dir d => pure d
  | _ => throw ()

/-- Read an index block. -/
def indexSlots (ext : Nat) : Op Unit (Nat → Nat) := do
  match ← mfsReadBlk ext with
  | .didx slots => pure slots
  | _ => throw ()

/-- Replace the extension block at `loc` by a new version of it. -/
def storeExt (d : DirBlock) : Op Unit Unit := do
  let newBlk ← mfsCommit (.dir d)
  let a ← dirNode loc.dirIno
  let now ← mfsNow
  ensure (a.ext != 0) ()
  let slots ← indexSlots a.ext
  let i ← ofOption ((List.range MFS_DIR_SLOTS).find? fun i => slots i == loc.blk) ()
  let newIdx ← mfsCommit (.didx (Function.update slots i newBlk))
  let _ ← mfsCommitObject loc.dirIno (.dir { a.touch now with ext := newIdx })
  pure ()

def mfsDirStoreLoc (d : DirBlock) : Op Unit Unit := do
  let cur ← attempt (mfsInoBlock loc.dirIno)
  if cur = some loc.blk then do
    let now ← mfsNow
    let _ ← mfsCommitObject loc.dirIno (.dir (d.touch now))
    pure ()
  else storeExt loc d

def mfsDirDelete : Op Unit Unit := do
  let d ← mfsDirLoadLoc loc
  ensure (decide (loc.idx < d.slots.length)) ()
  mfsDirStoreLoc loc { d with slots := removeSlot d.slots loc.idx }

/-- The first extension block with room: its position in the index, its content, the record. -/
def extWithRoom (slots : Nat → Nat) (need : Nat) (i : Nat) : Op Unit (Option (Nat × DirBlock × Nat)) :=
  if slots i = 0 then pure none
  else do
    match ← attempt (mfsReadBlk (slots i)) with
    | some (.dir d) => pure ((d.slotFor need).map fun j => (i, d, j))
    | _ => pure none

/-- The index block of a directory node; a missing one is created empty. -/
def ensureIndex (ext : Nat) : Op Unit (Nat → Nat) :=
  if ext = 0 then do
    let _ ← mfsCommit (.didx fun _ => 0)
    pure fun _ => 0
  else indexSlots ext

/-- Write a new version of an extension block, of the index and of the node. -/
def commitExt (dirIno : Nat) (a : DirBlock) (slots : Nat → Nat) (i : Nat) (d : DirBlock) : Op Unit Unit := do
  let newExt ← mfsCommit (.dir d)
  let newIdx ← mfsCommit (.didx (Function.update slots i newExt))
  let _ ← mfsCommitObject dirIno (.dir { a with ext := newIdx })
  pure ()

/-- Put an entry into a new extension block.  The block is written before a place for it in
the index is looked for. -/
def addExt (dirIno : Nat) (a : DirBlock) (slots : Nat → Nat) (comp : Name) (child : Nat)
    (typ : EntType) : Op Unit Unit := do
  let j ← ofOption ((DirBlock.empty .zero).slotFor (entNeed comp.length)) ()
  let newExt ← mfsCommit (.dir ((DirBlock.empty .zero).place j comp child typ))
  let i ← ofOption ((List.range MFS_DIR_SLOTS).find? fun i => slots i == 0) ()
  let newIdx ← mfsCommit (.didx (Function.update slots i newExt))
  let _ ← mfsCommitObject dirIno (.dir { a with ext := newIdx })
  pure ()

/-- Put an entry into the extension blocks. -/
def insertExt (dirIno : Nat) (a : DirBlock) (comp : Name) (child : Nat) (typ : EntType) : Op Unit Unit := do
  let slots ← ensureIndex a.ext
  let room ← firstSome (List.range MFS_DIR_SLOTS) (extWithRoom slots (entNeed comp.length))
  match room with
  | some (i, d, j) => commitExt dirIno a slots i (d.place j comp child typ)
  | none => addExt dirIno a slots comp child typ

def mfsDirInsert (dirIno : Nat) (comp : Name) (child : Nat) (typ : EntType) : Op Unit Unit := do
  ensure (comp != [] && decide (comp.length ≤ MFS_NAME_MAX)) ()
  let d ← dirNode dirIno
  let now ← mfsNow
  match (d.touch now).slotFor (entNeed comp.length) with
  | some j => do
      let _ ← mfsCommitObject dirIno (.dir ((d.touch now).place j comp child typ))
      pure ()
  | none => insertExt dirIno (d.touch now) comp child typ

/-- Whether an extension block holds an entry; an unreadable block counts as empty. -/
def extHasEntry (blk : Nat) : Op Unit (Option Unit) :=
  if blk = 0 then pure none
  else do
    match ← attempt (mfsReadBlk blk) with
    | some (.dir d) => pure (if d.hasEntry then some () else none)
    | _ => pure none

def mfsDirIsEmpty (dirIno : Nat) : Op Unit Bool := do
  let d ← dirNode dirIno
  if d.hasEntry then pure false
  else if d.ext = 0 then pure true
  else do
    let slots ← indexSlots d.ext
    let found ← firstSome (List.range MFS_DIR_SLOTS) fun i => extHasEntry (slots i)
    pure found.isNone

end MorionOS.Mfs
