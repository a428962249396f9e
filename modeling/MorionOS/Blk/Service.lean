import Mathlib.Tactic
import MorionOS.Lib.Dialogue

/-!
# The block service

The request handlers of `block_srv.rs`: what `nvme_main` and `ide_block_main` do with
a read, a write or a batch.  A handler is a program that talks to the disks, so the
commands it sends and what it makes of the answers are in the program, and what a disk
or a queue does with a command is left to the environment that runs it.

The contents of a sector are an arbitrary type `σ`.  The memory of the caller is given
with the request: which physical page stands behind an address (`sys_virt_to_phys`)
and what the 512 bytes at an address hold.  It stays as it is while the request is
served: a client's buffers do not alias the pages of the service, and the descriptors of
a batch are read once.  64-bit sums wrap as they do in the release build; counters and
the printed evidence lines are left out.

Names are those of the source, in camel case.
-/

namespace MorionOS.Blk

def IO_QUEUES : Nat := 2
def NVME_SECTOR_SIZE : Nat := 512
def NVME_PAGE_SIZE : Nat := 4096
def NVME_MAX_SECTORS : Nat := 256
def PRP_LIST_VADDR : Nat := 0x0000008000161000
def BLOCK_BATCH_MAX : Nat := 16
def BACKEND_MAX_SECTORS : Nat := 8
def BLK_CACHE_VADDR : Nat := 0x0000008000300000
def BLK_CACHE_LINES : Nat := 240
def BLK_CACHE_SECTORS_PER_LINE : Nat := 8
def BLK_CACHE_LINE_BYTES : Nat := 4096
def BLK_CACHE_PREFETCH_LINES : Nat := 2

/-- `BACKEND_NVME`, `BACKEND_AHCI`, `BACKEND_IDE`, `BACKEND_USB`. -/
inductive Backend where
  | nvme
  | ahci
  | ide
  | usb
deriving DecidableEq

/-- `Volume`; the kind is only printed and listed. -/
structure Volume where
  nsid : Nat
  startLba : Nat
  /-- The size; 0 when it is not known. -/
  sectors : Nat
  backend : Backend
deriving DecidableEq

structure BatchEnt where
  lba : Nat
  sectors : Nat
  buf : Nat
deriving DecidableEq

def saturatingAdd (a b : Nat) : Nat := min (a + b) (2 ^ 32 - 1)

section

variable {σ : Type}

/-- What the service finds behind the addresses of a request. -/
structure Memory (σ : Type) where
  /-- `sys_virt_to_phys`; 0 when nothing is mapped. -/
  phys : Nat → Nat
  /-- The 512 bytes at an address. -/
  sector : Nat → σ

variable (mem : Memory σ)

/-- The sectors of a buffer, one after the other. -/
def Memory.buffer (buf : Nat) (i : Nat) : σ :=
  mem.sector (buf + i * NVME_SECTOR_SIZE)

/-- `Sqe`: a read or write command of an NVMe queue.  `cdw11` is always 0. -/
structure Sqe where
  write : Bool
  cid : Nat
  nsid : Nat
  prp1 : Nat
  prp2 : Nat
  cdw10 : Nat
  cdw12 : Nat
deriving DecidableEq

/-- What the service asks of a disk.  The data of a write goes with the command. -/
inductive Query (σ : Type) where
  /-- `submit_wait` of one command on an I/O queue. -/
  | nvme (queue : Nat) (sqe : Sqe) (data : Nat → σ)
  /-- Commands put into queue 0 one after the other; `whole` when the batch got to the
  doorbell, otherwise the handler left after these commands. -/
  | batch (sqes : List (Sqe × (Nat → σ))) (whole : Bool)
  /-- A request forwarded to the AHCI or the USB driver. -/
  | driver (backend : Backend) (write : Bool) (lba count : Nat) (data : Nat → σ)
  /-- `read_sectors` or `write_sectors` on the IDE ports. -/
  | ide (write : Bool) (lba count : Nat) (data : Nat → σ)

/-- Whether the command succeeded, and which sectors reached the buffer of a read. -/
structure Answer (σ : Type) where
  ok : Bool
  got : Nat → Option σ

/-- The answer of a call that returned before any command was sent. -/
def Answer.refused : Answer σ := ⟨false, fun _ => none⟩

abbrev Program (σ α : Type) : Type := Dialogue (Query σ) (Answer σ) α

/-! ## NVMe commands -/

/-- The second PRP of a transfer of this many pages; `none` when a page of the buffer
is not mapped or not aligned. -/
def prp2 (buf paddr pages : Nat) : Option Nat :=
  if pages ≤ 1 then
    some 0
  else if paddr % NVME_PAGE_SIZE ≠ 0 then
    none
  else if pages = 2 then
    let p := mem.phys (buf + NVME_PAGE_SIZE)
    if p = 0 then none else some p
  else
    let lp := mem.phys PRP_LIST_VADDR
    if lp = 0 then
      none
    else if (List.range (pages - 1)).all fun i =>
        let p := mem.phys (buf + (i + 1) * NVME_PAGE_SIZE)
        p != 0 && p % NVME_PAGE_SIZE == 0 then
      some lp
    else
      none

/-- `nvme_rw_sectors` on the queue that `io_select_queue` picked. -/
def nvmeRwSectors (queue : Nat) (write : Bool) (nsid lba count buf : Nat) :
    Program σ (Answer σ) :=
  if count = 0 ∨ NVME_MAX_SECTORS < count then
    pure .refused
  else
    let pages := (count * NVME_SECTOR_SIZE + (NVME_PAGE_SIZE - 1)) / NVME_PAGE_SIZE
    let paddr := mem.phys buf
    if paddr = 0 then
      pure .refused
    else
      match prp2 mem buf paddr pages with
      | none => pure .refused
      | some second =>
        .query (.nvme queue
          { write, cid := 5, nsid, prp1 := paddr, prp2 := second, cdw10 := lba,
            cdw12 := count - 1 } (mem.buffer buf))

/-- The checks `nvme_batch_rw` makes on one descriptor. -/
def BatchEnt.accepted (ent : BatchEnt) : Bool :=
  ent.sectors != 0 && decide (ent.sectors ≤ BLK_CACHE_SECTORS_PER_LINE) && ent.buf != 0 &&
    mem.phys ent.buf != 0 && mem.phys ent.buf % NVME_PAGE_SIZE == 0

/-- The command of the `i`-th descriptor. -/
def BatchEnt.sqe (vol : Volume) (write : Bool) (i : Nat) (ent : BatchEnt) : Sqe :=
  { write, cid := i, nsid := vol.nsid, prp1 := mem.phys ent.buf, prp2 := 0,
    cdw10 := saturatingAdd vol.startLba (ent.lba % 2 ^ 32), cdw12 := ent.sectors - 1 }

/-- `nvme_batch_rw`: descriptors become commands up to the first one that is not
accepted, at which the function returns. -/
def nvmeBatchRw (vol : Volume) (write : Bool) (ents : List BatchEnt) :
    Program σ (Answer σ) :=
  let placed := ents.takeWhile (·.accepted mem)
  let whole := placed.length == ents.length
  do
    let answer ← .query (.batch
      (placed.mapIdx fun i ent => (ent.sqe mem vol write i, mem.buffer ent.buf)) whole)
    pure (if whole then answer else .refused)

/-! ## The read cache -/

structure CacheTag where
  valid : Bool
  vol : Nat
  page : Nat
  sectors : Nat
deriving DecidableEq

/-- The cache: tags, the data pages, and where the last read ended. -/
structure Cache (σ : Type) where
  on : Bool
  tags : Nat → CacheTag
  lines : Nat → Nat → σ
  seqVol : Option Nat
  seqNext : Nat

def blkCacheSlot (volId page : Nat) : Nat :=
  ((volId * 0x9E3779B1 % 2 ^ 64) ^^^ page) % BLK_CACHE_LINES

/-- A line of the cache holds this page of this volume. -/
def CacheTag.hit (tag : CacheTag) (volId page : Nat) : Bool :=
  tag.valid && tag.vol == volId && tag.page == page

def blkCacheLinePtr (slot : Nat) : Nat := BLK_CACHE_VADDR + slot * BLK_CACHE_LINE_BYTES

variable (cache : Cache σ)

/-- One turn of the loop of `blk_cache_invalidate`. -/
def Cache.drop (volId page : Nat) : Cache σ :=
  let slot := blkCacheSlot volId page
  if (cache.tags slot).hit volId page then
    { cache with tags := Function.update cache.tags slot { cache.tags slot with valid := false } }
  else
    cache

def blkCacheInvalidate (volId lba count : Nat) : Cache σ :=
  if count = 0 then
    cache
  else
    let first := lba / BLK_CACHE_SECTORS_PER_LINE
    let last := (lba + count - 1) % 2 ^ 64 / BLK_CACHE_SECTORS_PER_LINE
    (List.range' first (last + 1 - first)).foldl (fun cache page => cache.drop volId page) cache

/-- `blk_cache_fill`: the line's page is the buffer of the command, so whatever arrives
is in the line, also when the command fails; the tag is set on success only. -/
def blkCacheFill (queue volId : Nat) (vol : Volume) (page : Nat)
    (cache : Cache σ) : Program σ (Bool × Cache σ) :=
  let firstSector := page * BLK_CACHE_SECTORS_PER_LINE
  if vol.sectors = 0 ∨ vol.sectors ≤ firstSector then
    pure (false, cache)
  else
    let n := min (vol.sectors - firstSector) BLK_CACHE_SECTORS_PER_LINE
    let slot := blkCacheSlot volId page
    let lba := (vol.startLba + firstSector) % 2 ^ 32
    do
      let answer ← nvmeRwSectors mem queue false vol.nsid lba n (blkCacheLinePtr slot)
      let line := fun i => (answer.got i).getD (cache.lines slot i)
      let cache := { cache with lines := Function.update cache.lines slot line }
      if answer.ok then
        pure (true, { cache with
          tags := Function.update cache.tags slot
            { valid := true, vol := volId, page := page, sectors := n } })
      else
        pure (false, cache)

def blkCacheProbe (volId page : Nat) : Option Nat :=
  let tag := cache.tags (blkCacheSlot volId page)
  if tag.hit volId page then some tag.sectors else none

/-- The line with this page, filled if it is not there: its number of sectors. -/
def cacheLine (queue volId : Nat) (vol : Volume) (page : Nat)
    (cache : Cache σ) : Program σ (Option Nat × Cache σ) :=
  match blkCacheProbe cache volId page with
  | some sectors => pure (some sectors, cache)
  | none => do
      let filled ← blkCacheFill mem queue volId vol page cache
      pure (if filled.1 then
          some (filled.2.tags (blkCacheSlot volId page)).sectors
        else
          none, filled.2)

/-- The copying loop of `blk_cache_read`: `copied` is what stands in the caller's buffer.
Each turn copies at least one sector, so `left` turns are enough. -/
def cacheCopy (mem : Memory σ) (queue volId : Nat) (vol : Volume) :
    Nat → Nat → Nat → List σ → Cache σ → Program σ (Option (List σ) × Cache σ)
  | 0, _, _, copied, cache => pure (some copied, cache)
  | turns + 1, cur, left, copied, cache =>
    if left = 0 then
      pure (some copied, cache)
    else
      let page := cur / BLK_CACHE_SECTORS_PER_LINE
      let off := cur % BLK_CACHE_SECTORS_PER_LINE
      do
        let line ← cacheLine mem queue volId vol page cache
        match line.1 with
        | none => pure (none, line.2)
        | some sectors =>
          if sectors ≤ off then
            pure (none, line.2)
          else
            let take := min (sectors - off) left
            let slot := blkCacheSlot volId page
            cacheCopy mem queue volId vol turns ((cur + take) % 2 ^ 64) (left - take)
              (copied ++ (List.range take).map fun i => line.2.lines slot (off + i)) line.2

/-- The read-ahead of `blk_cache_read`. -/
def cachePrefetch (mem : Memory σ) (queue volId : Nat) (vol : Volume) :
    List Nat → Cache σ → Program σ (Cache σ)
  | [], cache => pure cache
  | page :: pages, cache =>
    match blkCacheProbe cache volId page with
    | some _ => cachePrefetch mem queue volId vol pages cache
    | none => do
        let filled ← blkCacheFill mem queue volId vol page cache
        cachePrefetch mem queue volId vol pages filled.2

/-- `blk_cache_read`: what it copied, or `none` when it failed. -/
def blkCacheRead (queue volId : Nat) (vol : Volume) (lba count : Nat)
    (cache : Cache σ) : Program σ (Option (List σ) × Cache σ) := do
  let sequential := decide (cache.seqVol = some volId ∧ lba = cache.seqNext)
  let copied ← cacheCopy mem queue volId vol count lba count [] cache
  match copied.1 with
  | none => pure copied
  | some sectors =>
    let lastPage := (lba + count - 1) % 2 ^ 64 / BLK_CACHE_SECTORS_PER_LINE
    let ahead := if sequential ∧ vol.sectors ≠ 0 then BLK_CACHE_PREFETCH_LINES else 0
    let cache ← cachePrefetch mem queue volId vol
      ((List.range ahead).map fun k => lastPage + (k + 1)) copied.2
    pure (some sectors,
      { cache with seqVol := some volId, seqNext := (lba + count) % 2 ^ 64 })

/-! ## Requests -/

/-- A read, a write or a batch, as decoded from a `BlockReq`. -/
inductive Request where
  | rw (dev : Nat) (isRead : Bool) (lba count buf : Nat)
  | batch (dev : Nat) (isRead : Bool) (k : Nat) (desc : Nat → BatchEnt)

/-- The tables of the service. -/
structure Service (σ : Type) where
  volumes : List Volume
  cache : Cache σ
  /-- The queue that `io_select_queue` picks next. -/
  rr : Nat

/-- The reply, and what the service itself copied into the caller's buffer. -/
structure Reply (σ : Type) where
  code : Nat
  copied : List σ

/-- `sys_reply(if ok { 1 } else { 0 })`. -/
def Reply.status (ok : Bool) : Reply σ := ⟨if ok then 1 else 0, []⟩

/-- `backend_rw`: one message to the driver for every eight sectors. -/
def backendRw (mem : Memory σ) (backend : Backend) (write : Bool) (lba count buf : Nat) :
    Nat → Nat → Program σ Bool
  | 0, _ => pure true
  | turns + 1, done =>
    if count ≤ done then
      pure true
    else do
      let chunk := min (count - done) BACKEND_MAX_SECTORS
      let answer ← .query (.driver backend write ((lba + done) % 2 ^ 64) chunk
        (mem.buffer (buf + done * NVME_SECTOR_SIZE)))
      if answer.ok then
        backendRw mem backend write lba count buf turns (done + chunk)
      else
        pure false

/-- `ahci_rw` and `xhci_rw`. -/
def driverRw (vol : Volume) (isRead : Bool) (lba count buf : Nat) :
    Program σ Bool :=
  if count = 0 then
    pure false
  else
    backendRw mem vol.backend (!isRead) ((vol.startLba + lba) % 2 ^ 64) count buf count 0

/-- `io_select_queue`: the queue to use and the one after it. -/
def ioSelectQueue (rr : Nat) : Nat × Nat := (rr, (rr + 1) % IO_QUEUES)

/-- The loop over the segments of a direct transfer, each on the next queue. -/
def segments (mem : Memory σ) (vol : Volume) (write : Bool) (baseLba total buf : Nat) :
    Nat → Nat → Nat → Program σ (Bool × Nat)
  | 0, _, rr => pure (true, rr)
  | turns + 1, done, rr =>
    if total ≤ done then
      pure (true, rr)
    else do
      let chunk := min (total - done) NVME_MAX_SECTORS
      let segBuf := (buf + done * NVME_SECTOR_SIZE) % 2 ^ 64
      let (queue, rr) := ioSelectQueue rr
      let answer ← nvmeRwSectors mem queue write vol.nsid
        (saturatingAdd baseLba (done % 2 ^ 32)) chunk segBuf
      if answer.ok then
        segments mem vol write baseLba total buf turns (done + chunk) rr
      else
        pure (false, rr)

/-- The read and write branch of `nvme_main` for a volume on NVMe. -/
def nvmeRw (service : Service σ) (dev : Nat) (vol : Volume) (isRead : Bool)
    (lba count buf : Nat) : Program σ (Reply σ × Service σ) :=
  if count = 0 then
    pure (.status false, service)
  else if isRead ∧ service.cache.on ∧ vol.sectors ≠ 0 ∧ count ≤ BLK_CACHE_SECTORS_PER_LINE then do
    let (queue, rr) := ioSelectQueue service.rr
    let done ← blkCacheRead mem queue dev vol lba count service.cache
    pure (match done.1 with
      | some copied => ⟨1, copied⟩
      | none => .status false, { service with cache := done.2, rr })
  else do
    let baseLba := saturatingAdd vol.startLba (lba % 2 ^ 32)
    let done ← segments mem vol (!isRead) baseLba count buf count 0 service.rr
    let cache := if !isRead ∧ done.1 then
        blkCacheInvalidate service.cache dev lba count
      else
        service.cache
    pure (.status done.1, { service with cache, rr := done.2 })

/-- The batch branch of `nvme_main`. -/
def nvmeBatch (service : Service σ) (dev : Nat) (vol : Volume) (isRead : Bool)
    (k : Nat) (desc : Nat → BatchEnt) : Program σ (Reply σ × Service σ) :=
  if vol.backend ≠ .nvme then
    pure (.status false, service)
  else if k = 0 ∨ BLOCK_BATCH_MAX < k then
    pure (.status false, service)
  else do
    let ents := (List.range k).map desc
    let answer ← nvmeBatchRw mem vol (!isRead) ents
    let cache := if !isRead ∧ answer.ok then
        ents.foldl (fun cache ent => blkCacheInvalidate cache dev ent.lba ent.sectors) service.cache
      else
        service.cache
    pure (.status answer.ok, { service with cache })

/-- One turn of the loop of `nvme_main`. -/
def serveNvme (service : Service σ) :
    Request → Program σ (Reply σ × Service σ)
  | .rw dev isRead lba count buf =>
    match service.volumes[dev]? with
    | none => pure (.status false, service)
    | some vol =>
      if vol.backend = .ahci ∨ vol.backend = .usb then do
        let ok ← driverRw mem vol isRead lba count buf
        pure (.status ok, service)
      else
        nvmeRw mem service dev vol isRead lba count buf
  | .batch dev isRead k desc =>
    match service.volumes[dev]? with
    | none => pure (.status false, service)
    | some vol => nvmeBatch mem service dev vol isRead k desc

/-- `read_sectors` and `write_sectors`: the counts they take, and one ATA command. -/
def ideRw (write : Bool) (lba count buf : Nat) : Program σ (Answer σ) :=
  if count = 0 ∨ 256 < count then
    pure .refused
  else
    .query (.ide write lba count (mem.buffer buf))

/-- One turn of the loop of `ide_block_main`. -/
def serveIde (service : Service σ) :
    Request → Program σ (Reply σ × Service σ)
  | .rw dev isRead lba count buf =>
    match service.volumes[dev]? with
    | none => pure (.status false, service)
    | some vol =>
      if vol.backend = .ahci ∨ vol.backend = .usb then do
        let ok ← driverRw mem vol isRead lba count buf
        pure (.status ok, service)
      else do
        let base := (vol.startLba + lba) % 2 ^ 64
        let answer ← ideRw mem (!isRead) (base % 2 ^ 32) (count % 2 ^ 16) buf
        pure (.status answer.ok, service)
  | .batch _ _ _ _ => pure (.status false, service)

end

end MorionOS.Blk
