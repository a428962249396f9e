import MorionOS.Mfs.Layout
import MorionOS.Lib.Layered
import MorionOS.Lib.Writes

/-!
# The state of the file system service

`Mem` holds the statics of `mfs_srv.rs`, grouped by what they belong to.  `Fs`
adds the device: the blocks of every volume, the write window `wb` and a count
of the transfers so far.  Whatever is not decided by the service itself comes
from `Env`: which transfers fail, what the clock shows, whether a page can be
had, which volumes exist.

The programs of the service are `Op`s.  Their concrete meaning works on `Fs`,
with the write window and with failing transfers.  Their ideal meaning works on
`Core`, where a block simply has a content; it applies while no transfer fails
(`Fs.IoOk`).  `issued` and `batches` are ghost fields: the writes in the order in
which they were issued and the batches that were handed to the block service.
-/

namespace MorionOS.Mfs

open StateAct

/-! ## What surrounds the service -/

/-- The kinds of volume that the service distinguishes. -/
inductive VolKind where
  | unknown
  | mfs
  /-- A volume with another file system. -/
  | foreign
deriving DecidableEq

structure VolumeDesc where
  id : Nat
  sectors : Nat
  kind : VolKind
deriving DecidableEq

/-- The decisions taken outside the service. -/
structure Env where
  /-- Whether the `n`-th transfer succeeds if it is a block read. -/
  readOk : Nat → Bool
  /-- Whether the `n`-th transfer succeeds if it is a single block write. -/
  writeOk : Nat → Bool
  /-- Whether the `n`-th transfer succeeds if it is a batch. -/
  batchOk : Nat → Bool
  /-- Whether entry `i` of a batch write that fails as the `n`-th transfer is carried out all the same:
  one failing command of `nvme_batch_rw` stops no other. -/
  batchLands : Nat → Nat → Bool
  /-- Whether the `n`-th page allocation succeeds. -/
  pageOk : Nat → Bool
  /-- The `n`-th value of `mfs_now`. -/
  clock : Nat → Nat
  /-- The words that a failed read of block `b` leaves in the buffer. -/
  junk : Nat → Nat → Nat
  /-- The volume table of the block service. -/
  volumes : List VolumeDesc

/-! ## The statics of the service -/

/-- `MfsLoc`: a directory entry, by the index of its record in its block. -/
structure MfsLoc where
  dirIno : Nat
  blk : Nat
  idx : Nat
deriving DecidableEq

def MFS_LOC_EMPTY : MfsLoc := ⟨0, 0, 0⟩

/-- The state of the mounted volume. -/
structure Vol where
  total : Nat
  bmpDataBlocks : Nat
  bmp : Nat → Bool
  dirty : Nat → Bool
  crc : Nat → UInt32
  freeBlocks : Nat
  allocNext : Nat
  gen : Nat
  snapCount : Nat
  snaps : Nat → MfsSnap
  itab : Nat
  itabMem : Nat → Nat
  inoCount : Nat
  inoHint : Nat
  primarySerial : Nat

/-- One entry of a cached directory index. -/
structure DirIdxEnt where
  blk : Nat
  idx : Nat
  name : Name
deriving DecidableEq

/-- `DirIdxMeta` together with its arena. -/
structure DirIdx where
  used : Bool
  complete : Bool
  vol : Nat
  dirIno : Nat
  ents : List DirIdxEnt
deriving DecidableEq

def DIRIDX_EMPTY : DirIdx := ⟨false, false, 0, 0, []⟩

/-- The inode table block and the directory indexes that are kept in memory. -/
structure Cache where
  itabIdx : Option Nat
  itabBuf : Nat → Nat
  didx : List DirIdx
  evict : Nat

/-- The working sets of garbage collection and fsck. -/
structure Gc where
  mark : Nat → Bool
  seen : Nat → Bool
  fsck : Nat → Bool
  /-- The traversal stack with its top first. -/
  stack : List Nat

/-- The pages of the bitmap windows that are mapped so far. -/
structure Windows where
  bmpPages : Nat
  markPages : Nat
  seenPages : Nat
  fsckMapped : Nat

/-- The variables of the service. -/
structure Mem where
  vol : Vol
  cache : Cache
  gc : Gc
  win : Windows
  leaf : MfsLoc
  curVol : Nat
  curSectors : Nat
  clockCalls : Nat
  pageCalls : Nat

/-! ## The device -/

/-- A write of a whole block. -/
abbrev BlockWrite := Nat × Block

/-- The service with its devices; `issued` and `batches` record what was written. -/
structure Fs where
  env : Env
  /-- Number of transfers so far. -/
  tick : Nat
  disk : Nat → Nat → Block
  /-- The staged writes, oldest first. -/
  wb : List BlockWrite
  issued : List BlockWrite
  batches : List (List BlockWrite)
  mem : Mem

/-- The state as it appears while every transfer succeeds. -/
structure Core where
  env : Env
  store : Nat → Block
  issued : List BlockWrite
  mem : Mem

/-- A block of the current volume has the content of the last write to it, staged or not. -/
def Fs.core (s : Fs) : Core :=
  ⟨s.env, applyWrites (s.disk s.mem.curVol) s.wb, s.issued, s.mem⟩

/-- No transfer fails.  Batches may, since they are repeated block by block. -/
def Fs.IoOk (s : Fs) : Prop := (∀ n, s.env.readOk n = true) ∧ ∀ n, s.env.writeOk n = true

/-- Programs of the service. -/
abbrev Op (ε α : Type) := Layered Fs.core Fs.IoOk ε α

/-! ## Memory -/

/-- Read the statics. -/
def getMem {ε α : Type} (f : Mem → α) : Op ε α :=
  ⟨fun s => (.ok (f s.mem), s), fun c => (.ok (f c.mem), c), fun _ ok => ⟨rfl, ok⟩⟩

/-- Read the surroundings. -/
def getEnv {ε α : Type} (f : Env → α) : Op ε α :=
  ⟨fun s => (.ok (f s.env), s), fun c => (.ok (f c.env), c), fun _ ok => ⟨rfl, ok⟩⟩

def Mem.setVol (f : Vol → Vol) (m : Mem) : Mem := { m with vol := f m.vol }
def Mem.setCache (f : Cache → Cache) (m : Mem) : Mem := { m with cache := f m.cache }
def Mem.setGc (f : Gc → Gc) (m : Mem) : Mem := { m with gc := f m.gc }

/-- Change the state of the mounted volume. -/
def setVol {ε : Type} (f : Vol → Vol) : Op ε Unit :=
  ⟨fun s => (.ok (), { s with mem := s.mem.setVol f }),
   fun c => (.ok (), { c with mem := c.mem.setVol f }), fun _ ok => ⟨rfl, ok⟩⟩

/-- Change the caches. -/
def setCache {ε : Type} (f : Cache → Cache) : Op ε Unit :=
  ⟨fun s => (.ok (), { s with mem := s.mem.setCache f }),
   fun c => (.ok (), { c with mem := c.mem.setCache f }), fun _ ok => ⟨rfl, ok⟩⟩

/-- Change the working sets of garbage collection. -/
def setGc {ε : Type} (f : Gc → Gc) : Op ε Unit :=
  ⟨fun s => (.ok (), { s with mem := s.mem.setGc f }),
   fun c => (.ok (), { c with mem := c.mem.setGc f }), fun _ ok => ⟨rfl, ok⟩⟩

/-- Record the position of the entry that the last path resolution found. -/
def setLeaf {ε : Type} (loc : MfsLoc) : Op ε Unit :=
  ⟨fun s => (.ok (), { s with mem := { s.mem with leaf := loc } }),
   fun c => (.ok (), { c with mem := { c.mem with leaf := loc } }), fun _ ok => ⟨rfl, ok⟩⟩

def mfsNow {ε : Type} : Op ε Nat :=
  ⟨fun s => (.ok (s.env.clock s.mem.clockCalls),
      { s with mem := { s.mem with clockCalls := s.mem.clockCalls + 1 } }),
   fun c => (.ok (c.env.clock c.mem.clockCalls),
      { c with mem := { c.mem with clockCalls := c.mem.clockCalls + 1 } }),
   fun _ ok => ⟨rfl, ok⟩⟩

/-- `sys_alloc_page` and, where the page is shared, `sys_share_page`. -/
def sysAllocPage : Op Unit Unit where
  run s := (if s.env.pageOk s.mem.pageCalls then .ok () else .error (),
    { s with mem := { s.mem with pageCalls := s.mem.pageCalls + 1 } })
  ideal c := (if c.env.pageOk c.mem.pageCalls then .ok () else .error (),
    { c with mem := { c.mem with pageCalls := c.mem.pageCalls + 1 } })
  agree _ ok := ⟨rfl, ok⟩

/-- Change the counts of mapped pages. -/
def setWin {ε : Type} (f : Windows → Windows) : Op ε Unit :=
  ⟨fun s => (.ok (), { s with mem := { s.mem with win := f s.mem.win } }),
   fun c => (.ok (), { c with mem := { c.mem with win := f c.mem.win } }), fun _ ok => ⟨rfl, ok⟩⟩

end MorionOS.Mfs
