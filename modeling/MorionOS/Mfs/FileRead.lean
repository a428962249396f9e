import MorionOS.Mfs.FileMap

/-!
# Reading a file

Data blocks are read in windows of up to sixteen logical blocks with one batch
transfer, past the write window, so the program works on the concrete state.
-/

namespace MorionOS.Mfs

open StateAct

/-- Read blocks one by one until a read fails. -/
def rawReads : List Nat → Act Fs Unit (List Block)
  | [] => pure []
  | b :: bs => fun s =>
    Act.after (blockReadDev s.mem.curVol b s) fun blk s' =>
      Act.after (rawReads bs s') fun blks s'' => (.ok (blk :: blks), s'')

/-- One batch read, repeated block by block when it fails. -/
def batchRead (bs : List Nat) : Act Fs Unit (List Block) := fun s =>
  if bs = [] then (.ok [], s)
  else if s.env.batchOk s.tick then
    (.ok (bs.map (s.disk s.mem.curVol)), { s with tick := s.tick + 1 })
  else rawReads bs { s with tick := s.tick + 1 }

/-- The blocks of the logical blocks of a window; behind the last one there are holes. -/
def mapWindow (f : FileBlock) : List Nat → Act Fs Unit (List Nat)
  | [] => pure []
  | bi :: rest => do
      let db ← if bi < f.nblocks then (mfsFileMap f bi).run else pure 0
      let dbs ← mapWindow f rest
      pure (db :: dbs)

/-- Put the blocks that were read back to the places of the mapped logical blocks. -/
def spreadBlocks : List Nat → List Block → List (Option Block)
  | [], _ => []
  | 0 :: dbs, blks => none :: spreadBlocks dbs blks
  | _ :: dbs, blk :: blks => some blk :: spreadBlocks dbs blks
  | _ :: dbs, [] => none :: spreadBlocks dbs []

/-- `len` bytes from offset `off` of a logical block; holes read as zeros. -/
def blockBytes (off len : Nat) : Option Block → Option (List UInt8)
  | none => some (List.replicate len 0)
  | some (.data bytes) => some ((List.range len).map fun i => bytes (off + i))
  | some _ => none

/-- The bytes of a window of logical blocks, `left` of them, the first from `off` on. -/
def windowBytes : List (Option Block) → Nat → Nat → Option (List UInt8)
  | [], _, _ => some []
  | blk :: rest, off, left => do
      let here ← blockBytes off (min (MFS_DATA_CAP - off) left) blk
      let more ← windowBytes rest 0 (left - here.length)
      pure (here ++ more)

/-- One window of `mfs_read_file`: up to `left` bytes from position `pos` on. -/
def readWindow (f : FileBlock) (pos left : Nat) : Act Fs Unit (List UInt8) := do
  let off := pos % MFS_DATA_CAP
  let blocks := min ((left + off + (MFS_DATA_CAP - 1)) / MFS_DATA_CAP) MFS_WB_PAGES
  let dbs ← mapWindow f (List.range' (pos / MFS_DATA_CAP) blocks)
  let blks ← batchRead (dbs.filter (· ≠ 0))
  match windowBytes (spreadBlocks dbs blks) off left with
  | some bytes => pure bytes
  | none => Act.throw ()

/-- The windows of `mfs_read_file`.  Every window brings at least one byte, so `left` windows
suffice. -/
def readLoop (f : FileBlock) : Nat → Nat → Nat → Act Fs Unit (List UInt8)
  | 0, _, _ => pure []
  | n + 1, pos, left =>
    if left = 0 then pure []
    else do
      let here ← readWindow f pos left
      let more ← readLoop f n ((pos + here.length) % U64_SIZE) (left - here.length)
      pure (here ++ more)

/-- The number of bytes that `mfs_read_file` brings; sums are those of 64-bit words. -/
def readLength (offset count size : Nat) : Nat :=
  (min ((offset + count) % U64_SIZE) size + U64_SIZE - offset) % U64_SIZE % U32_SIZE

/-- `mfs_read_file`; the reply is the number of bytes. -/
def mfsReadFile (ino offset count : Nat) : Act Fs Unit (List UInt8) := do
  let f ← (fileNode ino).run
  if f.size ≤ offset then pure []
  else
    readLoop f (readLength offset count f.size) offset (readLength offset count f.size)

end MorionOS.Mfs
