import MorionOS.Mfs.InodeTable

/-!
# The blocks of a file

The logical blocks of a file are reached through direct slots and through one,
two or three levels of pointer blocks.  While a file is written, one pointer
block of the first level is kept in a buffer and written back when another one is
needed.
-/

namespace MorionOS.Mfs

open Function
open StateAct Layered

def U64_SIZE : Nat := 2 ^ 64
def U32_SIZE : Nat := 2 ^ 32

/-! ## Where a logical block is -/

inductive MapPlan where
  | direct (slot : Nat)
  | ind1 (slot1 : Nat)
  | ind2 (slot2 slot1 : Nat)
  | ind3 (slot3 slot2 slot1 : Nat)
deriving DecidableEq

/-- First logical block behind the direct slots, the first and the second level. -/
def DIR_END : Nat := MFS_FILE_DIRECT
def IND1_END : Nat := DIR_END + MFS_IND_CAP
def IND2_END : Nat := IND1_END + MFS_IND_CAP * MFS_IND_CAP

def mapPlan (bi : Nat) : Option MapPlan :=
  if bi < DIR_END then some (.direct bi)
  else if bi < IND1_END then some (.ind1 (bi - DIR_END))
  else if bi < IND2_END then
    some (.ind2 ((bi - IND1_END) / MFS_IND_CAP) ((bi - IND1_END) % MFS_IND_CAP))
  else
    let idx3 := bi - IND2_END
    let rest := idx3 % (MFS_IND_CAP * MFS_IND_CAP)
    if MFS_IND_CAP ≤ idx3 / (MFS_IND_CAP * MFS_IND_CAP) then none
    else some (.ind3 (idx3 / (MFS_IND_CAP * MFS_IND_CAP)) (rest / MFS_IND_CAP) (rest % MFS_IND_CAP))

/-! ## Reading pointers -/

/-- The pointers of a block of level `n`. -/
def Block.pointers (level : Nat) : Block → Option (Nat → Nat)
  | .ind slots => if level = 1 then some slots else none
  | .ind2 slots => if level = 2 then some slots else none
  | .ind3 slots => if level = 3 then some slots else none
  | _ => none

/-- Read a pointer block. -/
def readPointers (level b : Nat) : Op Unit (Nat → Nat) := do
  let blk ← mfsReadBlk b
  ofOption (blk.pointers level) ()

/-- Read a pointer block that may be missing, which stands for one with zeros only. -/
def pointersOrZero (level b : Nat) : Op Unit (Nat → Nat) :=
  if b = 0 then pure fun _ => 0 else readPointers level b

/-- Follow one pointer; `0` is a hole. -/
def follow (level b slot : Nat) : Op Unit Nat := do
  let slots ← pointersOrZero level b
  pure (slots slot)

/-- The three levels below the inode, also `mfs_ind_peek3`. -/
def peek3 (ind3 slot3 slot2 slot1 : Nat) : Op Unit Nat := do
  let l2 ← follow 3 ind3 slot3
  let l1 ← follow 2 l2 slot2
  follow 1 l1 slot1

/-- `mfs_file_map`: the block of a logical block, `0` = hole. -/
def mfsFileMap (f : FileBlock) (bi : Nat) : Op Unit Nat := do
  match ← ofOption (mapPlan bi) () with
  | .direct slot => pure (f.direct slot)
  | .ind1 slot1 => follow 1 f.ind1 slot1
  | .ind2 slot2 slot1 => do
      let l1 ← follow 2 f.ind2 slot2
      follow 1 l1 slot1
  | .ind3 slot3 slot2 slot1 => peek3 f.ind3 slot3 slot2 slot1

/-! ## Writing pointers -/

/-- `MfsIndCache` with the buffer it stands for.  `kind` 0 = nothing is held, 1 = the block
below the inode, 2 = the block in slot `slot2` of the second level. -/
structure IndCache where
  kind : Nat
  slot2 : Nat
  dirty : Bool
  buf : Nat → Nat

def MFS_IND_CACHE_EMPTY : IndCache := ⟨0, 0, false, fun _ => 0⟩

/-- A file node under change. -/
structure FileBuf where
  node : FileBlock
  cache : IndCache

variable (w : FileBuf)

/-- `mfs_ind_flush`.  After a block of the second level was written back, the buffer holds that
block while the cache still claims the first-level block. -/
def mfsIndFlush : Op Unit FileBuf :=
  if w.cache.kind = 0 ∨ w.cache.dirty = false then pure w
  else do
    let newL1 ← mfsCommit (.ind w.cache.buf)
    if w.cache.kind = 1 then
      pure ⟨{ w.node with ind1 := newL1 }, { w.cache with dirty := false }⟩
    else do
      ensure (w.node.ind2 != 0) ()
      let slots ← readPointers 2 w.node.ind2
      let newL2 ← mfsCommit (.ind2 (update slots w.cache.slot2 newL1))
      pure ⟨{ w.node with ind2 := newL2 },
        { w.cache with dirty := false, buf := update slots w.cache.slot2 newL1 }⟩

/-- The block of the second level; a missing one is created empty. -/
def ensureInd2 (node : FileBlock) : Op Unit (FileBlock × (Nat → Nat)) :=
  if node.ind2 = 0 then do
    let l2 ← mfsCommit (.ind2 fun _ => 0)
    pure ({ node with ind2 := l2 }, fun _ => 0)
  else do
    let slots ← readPointers 2 node.ind2
    pure (node, slots)

/-- Hold the first-level block below the inode. -/
def loadInd1 : Op Unit FileBuf :=
  if w.cache.kind = 1 ∧ w.cache.slot2 = 0 then pure w
  else do
    let w' ← mfsIndFlush w
    let buf ← pointersOrZero 1 w'.node.ind1
    pure ⟨w'.node, ⟨1, 0, false, buf⟩⟩

/-- Hold the first-level block in slot `slot2` of the second level. -/
def loadInd2 (slot2 : Nat) : Op Unit FileBuf :=
  if w.cache.kind = 2 ∧ w.cache.slot2 = slot2 then pure w
  else do
    let w' ← mfsIndFlush w
    let (node, slots) ← ensureInd2 w'.node
    let buf ← pointersOrZero 1 (slots slot2)
    pure ⟨node, ⟨2, slot2, false, buf⟩⟩

/-- `mfs_ind_peek`: the block of a logical block while the file is written. -/
def mfsIndPeek (bi : Nat) : Op Unit (Nat × FileBuf) := do
  match ← ofOption (mapPlan bi) () with
  | .direct slot => pure (w.node.direct slot, w)
  | .ind1 slot1 => do
      let w' ← loadInd1 w
      pure (w'.cache.buf slot1, w')
  | .ind2 slot2 slot1 => do
      let w' ← loadInd2 w slot2
      pure (w'.cache.buf slot1, w')
  | .ind3 slot3 slot2 slot1 => do
      let w' ← mfsIndFlush w
      let db ← peek3 w'.node.ind3 slot3 slot2 slot1
      pure (db, ⟨w'.node, MFS_IND_CACHE_EMPTY⟩)

/-- `mfs_ind_link3`: new versions of the three levels, bottom up. -/
def mfsIndLink3 (node : FileBlock) (slot3 slot2 slot1 db : Nat) : Op Unit FileBlock := do
  let l2 ← follow 3 node.ind3 slot3
  let l1 ← follow 2 l2 slot2
  let slots1 ← pointersOrZero 1 l1
  let newL1 ← mfsCommit (.ind (update slots1 slot1 db))
  let slots2 ← pointersOrZero 2 l2
  let newL2 ← mfsCommit (.ind2 (update slots2 slot2 newL1))
  let slots3 ← pointersOrZero 3 node.ind3
  let newL3 ← mfsCommit (.ind3 (update slots3 slot3 newL2))
  pure { node with ind3 := newL3 }

/-- Change a pointer in the buffer, which has to hold the right block. -/
def linkCached (kind slot2 slot1 db : Nat) : Op Unit FileBuf := do
  ensure (w.cache.kind == kind && w.cache.slot2 == slot2) ()
  pure ⟨w.node, { w.cache with buf := update w.cache.buf slot1 db, dirty := true }⟩

def mfsIndLink (bi db : Nat) : Op Unit FileBuf := do
  match ← ofOption (mapPlan bi) () with
  | .direct slot => pure ⟨{ w.node with direct := update w.node.direct slot db }, w.cache⟩
  | .ind1 slot1 => linkCached w 1 0 slot1 db
  | .ind2 slot2 slot1 => linkCached w 2 slot2 slot1 db
  | .ind3 slot3 slot2 slot1 => do
      let node ← mfsIndLink3 w.node slot3 slot2 slot1 db
      pure ⟨node, w.cache⟩

/-! ## Writing -/

/-- Read the node of a file. -/
def fileNode (ino : Nat) : Op Unit FileBlock := do
  let b ← allocatedBlock ino
  match ← mfsReadBlk b with
  | .file f => pure f
  | _ => throw ()

/-- The bytes of a data block, or zeros for a hole. -/
def dataBytes (db : Nat) : Op Unit (Nat → UInt8) :=
  if db = 0 then pure fun _ => 0
  else do
    match ← mfsReadBlk db with
    | .data bytes => pure bytes
    | _ => throw ()

/-- One round of `mfs_write_file`: `chunk` bytes at `boff` of logical block `bi`. -/
def writeBlock (bi boff chunk : Nat) (src : Nat → UInt8) : Op Unit FileBuf := do
  ensure (decide (bi < MFS_FILE_MAX_BLOCKS)) ()
  let (oldDb, w₁) ← mfsIndPeek w bi
  let bytes ← dataBytes oldDb
  let newDb ← mfsCommit (.data fun i => if boff ≤ i ∧ i < boff + chunk then src (i - boff) else bytes i)
  let w₂ ← mfsIndLink w₁ bi newDb
  pure { w₂ with node := { w₂.node with nblocks := max w₂.node.nblocks (bi + 1) } }

/-- The rounds of `mfs_write_file` from byte `done` on.  Every round writes at least one byte, so
`count` rounds suffice. -/
def writeLoop (offset count : Nat) (src : Nat → UInt8) : Nat → Nat → FileBuf → Op Unit FileBuf
  | 0, _, w => pure w
  | n + 1, done, w =>
    if count ≤ done then pure w
    else do
      let pos := (offset + done) % U64_SIZE
      let chunk := min (MFS_DATA_CAP - pos % MFS_DATA_CAP) (count - done)
      let w' ← writeBlock w (pos / MFS_DATA_CAP) (pos % MFS_DATA_CAP) chunk fun i => src (done + i)
      writeLoop offset count src n (done + chunk) w'

def mfsWriteFile (ino offset count : Nat) (src : Nat → UInt8) : Op Unit Nat := do
  let f ← fileNode ino
  let stop := (offset + count) % U64_SIZE
  ensure (decide (stop ≤ MFS_FILE_MAX_BLOCKS * MFS_DATA_CAP)) ()
  let w ← writeLoop offset count src count 0 ⟨f, MFS_IND_CACHE_EMPTY⟩
  let w' ← mfsIndFlush w
  let now ← mfsNow
  let _ ← mfsCommitObject ino (.file
    { w'.node with size := max f.size stop, md := w'.node.md.touch now })
  pure count

/-! ## Truncating -/

def mfsUnmapBlock (bi : Nat) : Op Unit FileBuf := do
  let (old, w') ← mfsIndPeek w bi
  if old = 0 then pure w' else mfsIndLink w' bi 0

/-- Unmap the logical blocks from `lo` to `hi`. -/
def unmapRange : List Nat → FileBuf → Op Unit FileBuf
  | [], w => pure w
  | bi :: rest, w => do
      let w' ← mfsUnmapBlock w bi
      unmapRange rest w'

/-- The logical blocks from `lo` up to, not including, `hi`. -/
def blockRange (lo hi : Nat) : List Nat := List.range' lo (hi - lo)

/-- What happens to one level of pointers between `lo` and `hi` when `keep` blocks stay: dropped
as a whole, unmapped block by block, or untouched. -/
def truncLevel (keep oldNb lo hi : Nat) (drop : FileBlock → FileBlock) (w : FileBuf) : Op Unit FileBuf :=
  if oldNb ≤ lo then pure w
  else if keep ≤ lo then pure { w with node := drop w.node }
  else unmapRange (blockRange keep (min hi oldNb)) w

/-- Zero the part of the last kept block that is cut off. -/
def truncTail (keep tail : Nat) (w : FileBuf) : Op Unit FileBuf :=
  if keep = 0 ∨ tail = 0 then pure w
  else do
    let (oldDb, w₁) ← mfsIndPeek w (keep - 1)
    if oldDb = 0 then pure w₁
    else do
      let bytes ← dataBytes oldDb
      let newDb ← mfsCommit (.data fun i => if tail ≤ i then 0 else bytes i)
      let w₂ ← mfsIndLink w₁ (keep - 1) newDb
      mfsIndFlush w₂

/-- The direct slots behind the kept blocks are cleared. -/
def FileBlock.cutDirect (f : FileBlock) (keep : Nat) : FileBlock :=
  { f with direct := fun i => if keep ≤ i ∧ i < DIR_END ∧ i < f.nblocks then 0 else f.direct i }

/-- `mfs_truncate` to a smaller size. -/
def shrinkFile (ino newSize : Nat) (f : FileBlock) : Op Unit Nat := do
  let keep := (newSize + (MFS_DATA_CAP - 1)) / MFS_DATA_CAP
  let w₁ ← truncLevel keep f.nblocks DIR_END IND1_END (fun f => { f with ind1 := 0 })
    ⟨f.cutDirect keep, MFS_IND_CACHE_EMPTY⟩
  let w₂ ← truncLevel keep f.nblocks IND1_END IND2_END (fun f => { f with ind2 := 0 }) w₁
  let w₃ ← truncLevel keep f.nblocks IND2_END f.nblocks (fun f => { f with ind3 := 0 }) w₂
  let w₄ ← mfsIndFlush w₃
  let w₅ ← truncTail keep (newSize % MFS_DATA_CAP) w₄
  let now ← mfsNow
  let _ ← mfsCommitObject ino (.file
    { w₅.node with size := newSize, nblocks := keep % U32_SIZE, md := w₅.node.md.touch now })
  pure 1

def mfsTruncate (ino newSize : Nat) : Op Unit Nat := do
  let f ← fileNode ino
  if newSize = f.size then pure 1
  else if f.size < newSize then do
    let now ← mfsNow
    let _ ← mfsCommitObject ino (.file { f with size := newSize, md := f.md.touch now })
    pure 1
  else shrinkFile ino newSize f

end MorionOS.Mfs
