import MorionOS.Mfs.Collect

/-!
# Loading and formatting a volume

`mfsLoadState` adopts the superblock copy of the highest generation and takes the
bitmap from a copy whose header and checksums fit; when neither fits, the bitmap
is rebuilt by a garbage collection.  `mfsFormat` writes an empty file system.
-/

namespace MorionOS.Mfs

open StateAct Layered

/-! ## The bitmap windows -/

/-- Map `n` more pages of a window. -/
def growWin (f : Windows → Windows) : Nat → Op Unit Unit
  | 0 => pure ()
  | n + 1 => do
      sysAllocPage
      setWin f
      growWin f n

def mfsWinEnsure (pages : Nat) : Op Unit Unit := do
  let w ← getMem fun m => m.win
  growWin (fun w => { w with bmpPages := w.bmpPages + 1 }) (pages - w.bmpPages)
  growWin (fun w => { w with markPages := w.markPages + 1 }) (pages - w.markPages)
  growWin (fun w => { w with seenPages := w.seenPages + 1 }) (pages - w.seenPages)

/-! ## Loading -/

variable (v : Vol)

/-- Put the bits of bitmap block `k` into the window. -/
def Vol.setChunk (k : Nat) (bits : Nat → Bool) : Vol :=
  { v with bmp := fun b => if b / MFS_BMP_BLOCK_SPAN = k then bits (b % MFS_BMP_BLOCK_SPAN) else v.bmp b }

/-- Read one bitmap block and compare its checksum. -/
def loadChunk (start : Nat) (crc : Nat → UInt32) (k : Nat) : Op Unit Unit := do
  match ← mfsReadBlk (start + k) with
  | .bitmap bits => do
      setVol fun v => v.setChunk k bits
      ensure (bitmapCrc bits == crc k) ()
      setVol fun v => { v with crc := Function.update v.crc k (bitmapCrc bits) }
  | _ => throw ()

def mfsLoadBitmapCopy (copy : Nat) : Op Unit Unit := do
  let v ← getMem fun m => m.vol
  match ← mfsReadBlk (2 + copy) with
  | .bmpHeader h => do
      ensure (h.gen == v.gen && h.total == v.total && h.dataBlocks == v.bmpDataBlocks) ()
      each (List.range v.bmpDataBlocks) (loadChunk (4 + copy * v.bmpDataBlocks) h.crc)
  | _ => throw ()

/-- Every block counts as used. -/
def Vol.allUsed : Vol :=
  { v with
    bmp := fun b => decide (b < v.bmpDataBlocks * MFS_BMP_BLOCK_SPAN) || v.bmp b
    freeBlocks := 0 }

/-- `mfs_rebuild_bitmap`: everything counts as used until the collection says otherwise. -/
def mfsRebuildBitmap : Op Unit Unit := do
  setVol Vol.allUsed
  let _ ← mfsGc
  pure ()

/-- What the copies tried so far have brought. -/
structure Choice where
  found : Bool
  bestGen : Nat
  bitmapOk : Bool

/-- Whether a copy of generation `gen` is passed over. -/
def Choice.skips (ch : Choice) (gen : Nat) : Bool :=
  ch.found && (decide (gen < ch.bestGen) || (gen == ch.bestGen && ch.bitmapOk))

/-- Whether a superblock describes a volume that fits into `sectors` (`0` = unknown). -/
def Super.fits (sb : Super) (sectors : Nat) : Bool :=
  sb.total != 0 && sb.itab != 0 && decide (sb.total ≤ MFS_MAX_BLOCKS) &&
    (sectors == 0 || decide (sb.total * MFS_SECTORS_PER_BLOCK ≤ sectors))

/-- The state that a superblock describes. -/
def Vol.adopt (sb : Super) : Vol :=
  { v with
    total := sb.total
    bmpDataBlocks := bbFor sb.total
    allocNext := sb.allocHint
    gen := sb.gen
    snapCount := min sb.snapCount MFS_MAX_SNAP
    itab := sb.itab
    inoCount := sb.inoCount
    inoHint := max sb.inoHint (MFS_ROOT_INO + 1)
    primarySerial := sb.primary }

/-- Require that a block is an inode table index. -/
def checkIndex (itab : Nat) : Op Unit Unit := do
  match ← mfsReadBlk itab with
  | .itabx _ => pure ()
  | _ => throw ()

/-- Adopt the state of superblock `sb` from copy `copy`. -/
def adoptSuper (copy : Nat) (ch : Choice) (sb : Super) : Op Unit Choice := do
  ensure (sb.version == MFS_VERSION && !ch.skips sb.gen) ()
  let sectors ← getMem fun m => m.curSectors
  ensure (sb.fits sectors) ()
  checkIndex sb.itab
  setVol fun v => v.adopt sb
  setCache fun h => { h with itabIdx := none }
  mfsWinEnsure (bbFor sb.total)
  mfsItabReload
  setVol fun v => { v with snaps := fun i => if i < v.snapCount then sb.snaps i else v.snaps i }
  let loaded ← attempt (mfsLoadBitmapCopy copy)
  pure ⟨true, sb.gen, loaded.isSome⟩

/-- One round of the search for a superblock; a copy that cannot be used is passed over. -/
def tryCopy (copy : Nat) (ch : Choice) : Op Unit Choice := do
  let adopted ← attempt do
    match ← mfsReadBlk copy with
    | .super sb => adoptSuper copy ch sb
    | _ => throw ()
  pure (adopted.getD ch)

/-- Mark all blocks of a list as used. -/
def Vol.bmpSetAll (bs : List Nat) : Vol := bs.foldl Vol.bmpSet v

def mfsMarkItabMeta (itab : Nat) : Op Unit Unit :=
  if itab = 0 then pure ()
  else do
    setVol fun v => v.bmpSet itab
    match ← attempt (mfsReadBlk itab) with
    | some (.itabx slots) =>
      setVol fun v => v.bmpSetAll (((List.range MFS_ITAB_SLOTS).map slots).filter (· != 0))
    | _ => pure ()

/-- Take the free count from the loaded bitmap and keep the metadata allocated. -/
def protectMeta : Op Unit Unit := do
  setVol Vol.bmpRecount
  setVol fun v => v.bmpSetAll (List.range v.dataStart)
  let v ← getMem fun m => m.vol
  each v.roots mfsMarkItabMeta

def mfsLoadState : Op Unit Unit := do
  mfsCommitFlush
  let first ← tryCopy 0 ⟨false, 0, false⟩
  let ch ← tryCopy 1 first
  ensure ch.found ()
  if ch.bitmapOk then protectMeta else mfsRebuildBitmap

/-! ## Formatting -/

def formatTotalBlocks (sectors : Nat) : Nat :=
  if sectors = 0 then MFS_DEFAULT_TOTAL_BLOCKS
  else max MFS_MIN_TOTAL_BLOCKS (min (sectors / MFS_SECTORS_PER_BLOCK) MFS_MAX_BLOCKS)

/-- The size of the volume to be formatted. -/
def Vol.resize (total : Nat) : Vol := { v with total := total, bmpDataBlocks := bbFor total }

/-- An empty volume: no block is used, every bitmap block has to be written. -/
def Vol.blank : Vol :=
  { v with
    allocNext := v.dataStart
    gen := 0
    snapCount := 0
    inoCount := 0
    inoHint := MFS_ROOT_INO + 1
    itab := 0
    bmp := fun b => decide (v.bmpDataBlocks * MFS_BMP_BLOCK_SPAN ≤ b) && v.bmp b
    freeBlocks := v.total
    dirty := fun k => decide (k < v.bmpDataBlocks) || v.dirty k
    itabMem := fun _ => 0 }

def mfsFormat : Op Unit Unit := do
  setCache didxInvalidateAll
  let sectors ← getMem fun m => m.curSectors
  setVol fun v => v.resize (formatTotalBlocks sectors)
  mfsWinEnsure (bbFor (formatTotalBlocks sectors))
  setVol Vol.blank
  setCache fun h => { h with itabIdx := none }
  setVol fun v => v.bmpSetAll (List.range v.dataStart)
  let now ← mfsNow
  let root ← mfsCommit (.dir (.empty
    (initMeta MFS_FTYPE_DIR 0 ⟨MFS_UID_ROOT, MFS_GID_ROOT⟩ MFS_MODE_DIR now)))
  mfsItabFlush
  mfsItabSet MFS_ROOT_INO root
  setVol fun v => { v with inoCount := 1, inoHint := MFS_ROOT_INO + 1 }
  mfsBmpFlush

end MorionOS.Mfs
