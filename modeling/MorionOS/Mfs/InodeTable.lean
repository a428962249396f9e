import MorionOS.Mfs.Bitmap

/-!
# The inode table

An index block (`MFIX`) points to table blocks (`MFIT`), and a table block holds
for each inode number the block of its object.  The index is mirrored in memory
and one table block is cached.  Changing a slot writes a new table block and a
new index block and commits the volume.
-/

namespace MorionOS.Mfs

open StateAct Layered

/-! ## Directory indexes kept in memory -/

def didxInvalidate (dirIno : Nat) (h : Cache) : Cache :=
  if dirIno = 0 then h
  else { h with
    didx := h.didx.map fun d => if d.used && d.dirIno == dirIno then { d with used := false } else d }

def didxInvalidateAll (h : Cache) : Cache :=
  { h with didx := h.didx.map fun d => { d with used := false } }

/-! ## Looking up an inode -/

def inoSlot (ino : Nat) : Nat × Nat := (ino / MFS_ITAB_SLOTS, ino % MFS_ITAB_SLOTS)

def Vol.itabTable (v : Vol) (k : Nat) : Nat := if MFS_ITAB_SLOTS ≤ k then 0 else v.itabMem k

/-- Whether an inode number can have a slot. -/
def inoValid (ino : Nat) : Bool := ino != 0 && decide (ino < MFS_INO_MAX)

/-- Read table block `t` into the table buffer.  When the block is unreadable or no table
block, the buffer has lost its content although the cache index still names the old table. -/
def loadTable (t : Nat) : Op Unit Unit := do
  match ← attempt (mfsReadBlk t) with
  | some (.itab slots) => setCache fun h => { h with itabBuf := slots }
  | _ => do
      let junk ← getEnv fun e => e.junk t
      setCache fun h => { h with itabBuf := junk }
      throw ()

/-- Make table block `t` of slot `k` the cached one. -/
def cacheTable (k t : Nat) : Op Unit Unit := do
  let cached ← getMem fun m => m.cache.itabIdx
  if cached = some k then pure ()
  else do
    loadTable t
    setCache fun h => { h with itabIdx := some k }

/-- `mfs_ino_block`: the block of an inode, `0` = not allocated. -/
def mfsInoBlock (ino : Nat) : Op Unit Nat := do
  ensure (inoValid ino) ()
  let t ← getMem fun m => m.vol.itabTable (inoSlot ino).1
  if t = 0 then pure 0
  else do
    cacheTable (inoSlot ino).1 t
    getMem fun m => m.cache.itabBuf (inoSlot ino).2

/-- `mfs_ino_block` where the caller treats "not allocated" as a failure. -/
def allocatedBlock (ino : Nat) : Op Unit Nat := do
  let b ← mfsInoBlock ino
  ensure (b != 0) ()
  pure b

def mfsItabReload : Op Unit Unit := do
  setCache didxInvalidateAll
  let itab ← getMem fun m => m.vol.itab
  ensure (itab != 0) ()
  match ← mfsReadBlk itab with
  | .itabx slots => do
      setVol fun v => { v with itabMem := slots }
      setCache fun h => { h with itabIdx := none }
  | _ => throw ()

/-! ## Changing the table -/

def mfsItabFlush : Op Unit Unit := do
  let slots ← getMem fun m => m.vol.itabTable
  let nb ← mfsCommit (.itabx slots)
  setVol fun v => { v with itab := nb }
  mfsBmpFlush

/-- Bring the table block of slot `k` into the table buffer; a table that does not exist yet
starts with zeros. -/
def prepareTable (k : Nat) : Op Unit Unit := do
  let t ← getMem fun m => m.vol.itabTable k
  let cached ← getMem fun m => m.cache.itabIdx
  if t = 0 then setCache fun h => { h with itabBuf := fun _ => 0 }
  else if cached = some k then pure ()
  else loadTable t

/-- `mfs_itab_set`: point inode `ino` to block `blk`, `0` = release it. -/
def mfsItabSet (ino blk : Nat) : Op Unit Unit := do
  ensure (inoValid ino) ()
  prepareTable (inoSlot ino).1
  setCache fun h => { h with itabBuf := Function.update h.itabBuf (inoSlot ino).2 blk }
  let slots ← getMem fun m => m.cache.itabBuf
  let nt ← mfsCommit (.itab slots)
  setCache fun h => { h with itabIdx := some (inoSlot ino).1 }
  setVol fun v => { v with itabMem := Function.update v.itabMem (inoSlot ino).1 nt }
  setCache (didxInvalidate ino)
  mfsItabFlush

/-- The inode after `ino` in the search for a free one; the root is never reused. -/
def nextIno (ino : Nat) : Nat := if MFS_INO_MAX ≤ ino + 1 then MFS_ROOT_INO + 1 else ino + 1

/-- The search of `mfs_ino_alloc_for`, with the number of inodes still to try. -/
def inoAllocFrom (blk : Nat) : Nat → Nat → Op Unit Nat
  | 0, _ => throw ()
  | n + 1, ino => do
      match ← attempt (mfsInoBlock ino) with
      | some 0 => do
          mfsItabSet ino blk
          setVol fun v => { v with inoHint := nextIno ino, inoCount := v.inoCount + 1 }
          pure ino
      | _ => inoAllocFrom blk n (nextIno ino)

def mfsInoAllocFor (blk : Nat) : Op Unit Nat := do
  let hint ← getMem fun m => m.vol.inoHint
  inoAllocFrom blk MFS_INO_MAX (max (MFS_ROOT_INO + 1) (min hint (MFS_INO_MAX - 1)))

def mfsFreeIno (ino : Nat) : Op Unit Unit := do
  ensure (decide (MFS_ROOT_INO < ino)) ()
  mfsItabSet ino 0
  setVol fun v => { v with inoCount := v.inoCount - 1 }

/-- `mfs_commit_object`: write the new version of an object and point its inode to it. -/
def mfsCommitObject (ino : Nat) (blk : Block) : Op Unit Nat := do
  let nb ← mfsCommit blk
  mfsItabSet ino nb
  pure nb

end MorionOS.Mfs
