import MorionOS.Mfs.Device

/-!
# The free-block bitmap and the commit of a volume

Blocks are taken from the bitmap and written once (`mfsCommit`).  A commit point
is `mfsBmpFlush`: it writes, for each of the two copies, the changed bitmap
blocks, the bitmap header and the superblock.
-/

namespace MorionOS.Mfs

open StateAct Layered Function

/-! ## Bits -/

variable (v : Vol)

def Vol.bmpGet (b : Nat) : Bool := decide (b < v.total) && v.bmp b

/-- Mark the bitmap block that covers `b` as changed. -/
def Vol.bmpTouch (b : Nat) : Vol :=
  if b / MFS_BMP_BLOCK_SPAN < MFS_MAX_BMP_DATA_BLOCKS then
    { v with dirty := update v.dirty (b / MFS_BMP_BLOCK_SPAN) true }
  else v

def Vol.bmpSet (b : Nat) : Vol :=
  if v.total ≤ b then v
  else if v.bmp b then v
  else ({ v with bmp := update v.bmp b true, freeBlocks := v.freeBlocks - 1 } : Vol).bmpTouch b

def Vol.bmpClear (b : Nat) : Vol :=
  if v.total ≤ b then v
  else if v.bmp b then
    ({ v with bmp := update v.bmp b false, freeBlocks := v.freeBlocks + 1 } : Vol).bmpTouch b
  else v

theorem Vol.bmpTouch_eq (b : Nat) : ∃ dirty, v.bmpTouch b = { v with dirty := dirty } := by
  rw [Vol.bmpTouch]
  split
  · exact ⟨_, rfl⟩
  · exact ⟨v.dirty, rfl⟩

/-- Besides the bit, setting it changes the free count and the list of changed blocks only. -/
theorem Vol.bmpSet_eq (b : Nat) : ∃ free dirty, v.bmpSet b =
    { v with
      bmp := if b < v.total then update v.bmp b true else v.bmp
      freeBlocks := free
      dirty := dirty } := by
  by_cases inside : b < v.total
  · by_cases set : v.bmp b = true
    · have same : update v.bmp b true = v.bmp := update_eq_self_iff.mpr set.symm
      exact ⟨v.freeBlocks, v.dirty, by simp [Vol.bmpSet, set, same]⟩
    · obtain ⟨dirty, eq⟩ := Vol.bmpTouch_eq
        { v with bmp := update v.bmp b true, freeBlocks := v.freeBlocks - 1 } b
      exact ⟨v.freeBlocks - 1, dirty, by simp [Vol.bmpSet, inside, set, eq]⟩
  · exact ⟨v.freeBlocks, v.dirty, by simp [Vol.bmpSet, inside]⟩

theorem Vol.bmpClear_eq (b : Nat) : ∃ free dirty, v.bmpClear b =
    { v with
      bmp := if b < v.total then update v.bmp b false else v.bmp
      freeBlocks := free
      dirty := dirty } := by
  by_cases inside : b < v.total
  · by_cases set : v.bmp b = true
    · obtain ⟨dirty, eq⟩ := Vol.bmpTouch_eq
        { v with bmp := update v.bmp b false, freeBlocks := v.freeBlocks + 1 } b
      exact ⟨v.freeBlocks + 1, dirty, by simp [Vol.bmpClear, inside, set, eq]⟩
    · have same : update v.bmp b false = v.bmp := update_eq_self_iff.mpr (by simpa using set)
      exact ⟨v.freeBlocks, v.dirty, by simp [Vol.bmpClear, set, same]⟩
  · exact ⟨v.freeBlocks, v.dirty, by simp [Vol.bmpClear, inside]⟩

def Vol.bmpRecount : Vol :=
  { v with freeBlocks := v.total - (List.range v.total).countP v.bmpGet }

/-- `mfs_bb_for`: bitmap blocks of a volume of `total` blocks. -/
def bbFor (total : Nat) : Nat := (total + (MFS_BMP_BLOCK_SPAN - 1)) / MFS_BMP_BLOCK_SPAN

/-- `mfs_data_start`: superblocks, bitmap headers and both bitmap copies come first. -/
def Vol.dataStart : Nat := 4 + 2 * bbFor v.total

/-! ## Allocation -/

/-- The first clear bit among the `n` bits from `b` on. -/
def scanFree (used : Nat → Bool) : Nat → Nat → Option Nat
  | 0, _ => none
  | n + 1, b => if used b then scanFree used n (b + 1) else some b

/-- Where the search for a free block starts. -/
def Vol.allocHint : Nat := max v.dataStart (min v.allocNext v.total)

/-- The block that `mfs_alloc_block` chooses: from the hint to the end, then from the start
of the data area to the hint. -/
def Vol.findFree : Option Nat :=
  if v.total ≤ v.dataStart then none
  else (scanFree v.bmpGet (v.total - v.allocHint) v.allocHint).or
    (scanFree v.bmpGet (v.allocHint - v.dataStart) v.dataStart)

def Vol.bmpTake (b : Nat) : Vol := { v.bmpSet b with allocNext := b + 1 }

def mfsAllocBlock : Op Unit Nat := do
  let found ← getMem fun m => m.vol.findFree
  let b ← ofOption found ()
  setVol fun v => v.bmpTake b
  pure b

/-- `mfs_commit`: write a new block. -/
def mfsCommit (blk : Block) : Op Unit Nat := do
  let b ← mfsAllocBlock
  mfsWriteBlk b blk
  pure b

/-! ## Commit points -/

def Vol.buildSuper : Super where
  version := MFS_VERSION
  total := v.total
  inoCount := v.inoCount
  allocHint := v.allocNext
  snapCount := v.snapCount
  gen := v.gen
  itab := v.itab
  inoHint := v.inoHint
  snaps := fun i => if i < v.snapCount then v.snaps i else .empty
  primary := v.primarySerial

def Vol.buildBmpHeader : BmpHeader where
  gen := v.gen
  total := v.total
  dataBlocks := v.bmpDataBlocks
  crc := fun i => if i < v.bmpDataBlocks then v.crc i else 0

/-- The bits that bitmap block `k` covers. -/
def Vol.bmpChunk (k : Nat) : Nat → Bool := fun i => v.bmp (k * MFS_BMP_BLOCK_SPAN + i)

/-- The generation and the checksums of the next commit. -/
def Vol.nextGen : Vol :=
  { v with
    gen := v.gen + 1
    crc := fun k => if k < v.bmpDataBlocks then bitmapCrc (v.bmpChunk k) else v.crc k }

/-- The writes of one copy: changed bitmap blocks, bitmap header, superblock. -/
def writeCopy (copy : Nat) : Op Unit Unit := do
  each (List.range v.bmpDataBlocks) fun k =>
    if v.dirty k then mfsWriteBlk (4 + copy * v.bmpDataBlocks + k) (.bitmap (v.bmpChunk k)) else pure ()
  mfsWriteBlk (2 + copy) (.bmpHeader v.buildBmpHeader)
  mfsWriteBlk copy (.super v.buildSuper)

def mfsBmpFlush : Op Unit Unit := do
  setVol Vol.nextGen
  let v ← getMem fun m => m.vol
  each (List.range MFS_SB_COPIES) (writeCopy v)
  mfsCommitFlush
  setVol fun v => { v with dirty := fun _ => false }

end MorionOS.Mfs
