import MorionOS.Blk.Service
import MorionOS.Mfs.Layout

/-!
# Partition tables and the volume table

How `block_srv.rs` finds its volumes and changes the partition table of a disk.  The
volume table is rebuilt from the disks after each change: every namespace is scanned in
order, and the volumes that a driver attached are put back from their copies.

A sector is an array of bytes, and the scratch page is the array that a read filled.
Probing a volume for its file system only sets the kind and is left out.
-/

namespace MorionOS.Blk

open List

def VOL_MAX : Nat := 16
def ATTACH_MAX : Nat := 4
def VOL_SCRATCH_VADDR : Nat := 0x0000008000160000
def PART_GPT_ENTRY_SIZE : Nat := 128
def PART_GPT_ENTRY_COUNT : Nat := 128
def PART_GPT_ENTRIES_SECTORS : Nat := PART_GPT_ENTRY_COUNT * PART_GPT_ENTRY_SIZE / 512
def PART_GPT_RESERVED : Nat := 1 + 1 + PART_GPT_ENTRIES_SECTORS
def PART_GPT_ENTRIES_LBA : Nat := 2
def PART_ALIGN_SECTORS : Nat := 2048
def PART_CHUNK_SECTORS : Nat := 8
def PART_ENTRIES_PER_CHUNK : Nat := PART_CHUNK_SECTORS * 512 / PART_GPT_ENTRY_SIZE
def PART_MBR_TYPE_LINUX : UInt8 := 0x83
def PART_MBR_TYPE_PROTECTIVE : UInt8 := 0xEE

def PART_GPT_TYPE_LINUX : List UInt8 :=
  [0xAF, 0x3D, 0xC6, 0x0F, 0x83, 0x84, 0x72, 0x47, 0x8E, 0x79, 0x3D, 0x69, 0xD8, 0x47, 0x7D, 0xE4]

/-! ## Bytes -/

abbrev Bytes : Type := Nat → UInt8

/-- The number that `len` bytes hold, the lowest byte first. -/
def readLe (bytes : Bytes) (off : Nat) : Nat → Nat
  | 0 => 0
  | len + 1 => (bytes off).toNat + 256 * readLe bytes (off + 1) len

def readU32 (bytes : Bytes) (off : Nat) : Nat := readLe bytes off 4

def readU64 (bytes : Bytes) (off : Nat) : Nat := readLe bytes off 8

def writeLe (len : Nat) (bytes : Bytes) (off value : Nat) : Bytes := fun i =>
  if off ≤ i ∧ i < off + len then UInt8.ofNat (value / 256 ^ (i - off)) else bytes i

def writeU32 : Bytes → Nat → Nat → Bytes := writeLe 4

def writeU64 : Bytes → Nat → Nat → Bytes := writeLe 8

/-- `write_bytes(bytes + off, 0, len)`. -/
def clearBytes (bytes : Bytes) (off len : Nat) : Bytes := fun i =>
  if off ≤ i ∧ i < off + len then 0 else bytes i

def putBytes (bytes : Bytes) (off : Nat) (values : List UInt8) : Bytes := fun i =>
  if off ≤ i then (values[i - off]?).getD (bytes i) else bytes i

/-- The first `len` bytes. -/
def takeBytes (bytes : Bytes) (len : Nat) : List UInt8 := (range len).map bytes

/-! ## Commands on the scratch page -/

/-- `NvmeIo`: the queue of the request; the mapping is that of the service itself. -/
structure NvmeIo where
  phys : Nat → Nat
  queue : Nat

variable (io : NvmeIo)

/-- `NvmeIo::rw` with the scratch page as the buffer. -/
def NvmeIo.rw (write : Bool) (nsid lba count : Nat) (scratch : Bytes) :
    Program Bytes (Answer Bytes) :=
  nvmeRwSectors ⟨io.phys, fun address i => scratch (address - VOL_SCRATCH_VADDR + i)⟩ io.queue
    write nsid (lba % 2 ^ 32) count VOL_SCRATCH_VADDR

/-- `NvmeIo::read`: the scratch page after a read that succeeded. -/
def NvmeIo.read (nsid lba count : Nat) : Program Bytes (Option Bytes) := do
  let answer ← io.rw false nsid lba count fun _ => 0
  pure (if answer.ok then
      some fun i => ((answer.got (i / NVME_SECTOR_SIZE)).getD fun _ => 0) (i % NVME_SECTOR_SIZE)
    else none)

/-- `NvmeIo::write` of the scratch page. -/
def NvmeIo.write (nsid lba count : Nat) (scratch : Bytes) : Program Bytes Bool := do
  let answer ← io.rw true nsid lba count scratch
  pure answer.ok

/-! ## The volume table -/

/-- `VOLUMES` up to `VOL_COUNT`, and the copies of the attached volumes. -/
structure VolTable where
  volumes : List Volume
  /-- `ATTACH_VOLS` up to `ATTACH_VOL_COUNT`. -/
  attached : List Volume
  bounded : volumes.length ≤ VOL_MAX
  backed : attached.length ≤ ATTACH_MAX
  foreign : ∀ vol ∈ attached, vol.backend ≠ .nvme

/-- The table with one more volume, if there is room for it. -/
def pushed (volumes : List Volume) (vol : Volume) : List Volume :=
  if VOL_MAX ≤ volumes.length then volumes else volumes ++ [vol]

theorem length_pushed {volumes : List Volume} (bounded : volumes.length ≤ VOL_MAX) (vol : Volume) :
    (pushed volumes vol).length ≤ VOL_MAX := by
  unfold pushed
  split
  · exact bounded
  · rw [length_append, length_singleton]
    omega

/-- The table after pushes: what fits of everything. -/
theorem foldl_pushed {volumes : List Volume} (bounded : volumes.length ≤ VOL_MAX)
    (more : List Volume) : more.foldl pushed volumes = (volumes ++ more).take VOL_MAX := by
  induction more generalizing volumes with
  | nil => rw [foldl_nil, append_nil, take_of_length_le bounded]
  | cons vol more ih =>
    rw [foldl_cons, ih (length_pushed bounded vol)]
    unfold pushed
    split
    next full => rw [take_append_of_le_length full, take_append_of_le_length full]
    · rw [append_assoc, singleton_append]

variable (table : VolTable)

def volPush (vol : Volume) : VolTable where
  volumes := pushed table.volumes vol
  attached :=
    if VOL_MAX ≤ table.volumes.length ∨ vol.backend = .nvme ∨ ATTACH_MAX ≤ table.attached.length then
      table.attached
    else
      table.attached ++ [vol]
  bounded := length_pushed table.bounded vol
  backed := by
    split
    · exact table.backed
    · rw [length_append, length_singleton]
      omega
  foreign := by
    split
    · exact table.foreign
    next kept =>
      refine forall_mem_append.mpr ⟨table.foreign, forall_mem_singleton.mpr ?_⟩
      exact fun same => kept (.inr (.inl same))

def volReset : VolTable :=
  { table with volumes := [], bounded := Nat.zero_le _ }

def volAttachedReattach : VolTable :=
  { table with
    volumes := table.attached.foldl pushed table.volumes
    bounded := by
      rw [foldl_pushed table.bounded, length_take]
      exact Nat.min_le_left _ _ }

def volIdOf (nsid startLba : Nat) : Option Nat :=
  table.volumes.findIdx? fun vol => vol.nsid == nsid && vol.startLba == startLba

/-! ## Scanning the disks -/

/-- `NVME_NSIDS` with `NVME_NS_SECTORS`. -/
abbrev Namespaces : Type := List (Nat × Nat)

/-- `nvme_ns_sectors_of`; 0 when the namespace is not there. -/
def nvmeNsSectorsOf (namespaces : Namespaces) (nsid : Nat) : Nat :=
  ((namespaces.find? fun entry => entry.1 == nsid).map Prod.snd).getD 0

/-- A primary entry of the MBR. -/
structure MbrEntry where
  bootflag : UInt8
  ptype : UInt8
  start : Nat
  count : Nat

def mbrEntry (sector : Bytes) (i : Nat) : MbrEntry where
  bootflag := sector (446 + i * 16)
  ptype := sector (446 + i * 16 + 4)
  start := readU32 sector (446 + i * 16 + 8)
  count := readU32 sector (446 + i * 16 + 12)

/-- The entry takes a slot. -/
def MbrEntry.taken (entry : MbrEntry) : Bool := entry.ptype != 0 && entry.count != 0

/-- The entry is that of a partition. -/
def MbrEntry.legal (entry : MbrEntry) : Bool :=
  entry.taken && (entry.bootflag == 0x00 || entry.bootflag == 0x80) && entry.start != 0

def bootSig (sector : Bytes) : Bool := sector 510 == 0x55 && sector 511 == 0xAA

/-- The first entry is the placeholder of a GPT. -/
def protectiveMbr (sector : Bytes) : Bool :=
  bootSig sector && (mbrEntry sector 0).ptype == PART_MBR_TYPE_PROTECTIVE

def gptEntryUsed (bytes : Bytes) (off : Nat) : Bool :=
  (range 16).any fun i => bytes (off + i) != 0

/-- The volume of a GPT entry. -/
def gptVolume (nsid : Nat) (sector : Bytes) (off : Nat) : Option Volume :=
  let first := readU64 sector (off + 0x20)
  let last := readU64 sector (off + 0x28)
  if gptEntryUsed sector off ∧ first ≤ last ∧ first ≤ 2 ^ 32 - 1 then
    some ⟨nsid, first, min ((last - first + 1) % 2 ^ 64) (2 ^ 32 - 1), .nvme⟩
  else
    none

/-- The loop of `vol_scan_gpt` over the entries that are left, from `idx` on: the volumes
in the order in which they are pushed. -/
def scanGptEntries (io : NvmeIo) (nsid entryLba esize : Nat) : Nat → Nat → Program Bytes (List Volume)
  | 0, _ => pure []
  | left + 1, idx =>
    let sec := entryLba + idx * esize / 512
    let within := idx * esize % 512
    -- an entry that crosses a sector is skipped
    if 2 ^ 32 - 1 < sec ∨ 512 < within + esize then
      scanGptEntries io nsid entryLba esize left (idx + 1)
    else do
      match ← io.read nsid sec 1 with
      | none => pure []
      | some sector => do
          let rest ← scanGptEntries io nsid entryLba esize left (idx + 1)
          pure ((gptVolume nsid sector within).toList ++ rest)

def volScanGpt (nsid : Nat) : Program Bytes (List Volume) := do
  match ← io.read nsid 1 1 with
  | none => pure []
  | some header =>
    let entryLba := readU64 header 0x48
    let num := readU32 header 0x50
    let esize := readU32 header 0x54
    -- "EFI PART"
    if takeBytes header 8 ≠ [0x45, 0x46, 0x49, 0x20, 0x50, 0x41, 0x52, 0x54] ∨
        esize < 128 ∨ num = 0 ∨ 128 < num ∨ 2 ^ 32 - 1 < entryLba then
      pure []
    else
      scanGptEntries io nsid entryLba esize num 0

/-- The volumes of a disk with an MBR, or the whole disk. -/
def mbrVolumes (namespaces : Namespaces) (nsid : Nat) (sector : Bytes) : List Volume :=
  let parts := (range 4).filterMap fun i =>
    let entry := mbrEntry sector i
    if bootSig sector && entry.legal then
      some (⟨nsid, entry.start, entry.count, .nvme⟩ : Volume)
    else
      none
  if parts.isEmpty then [⟨nsid, 0, nvmeNsSectorsOf namespaces nsid, .nvme⟩] else parts

/-- `vol_scan_namespace`: the volumes in the order in which they are pushed. -/
def volScanNamespace (namespaces : Namespaces) (nsid : Nat) :
    Program Bytes (List Volume) := do
  match ← io.read nsid 0 1 with
  | none => pure []
  | some sector =>
    if protectiveMbr sector then
      volScanGpt io nsid
    else
      pure (mbrVolumes namespaces nsid sector)

def scanNamespaces (io : NvmeIo) (namespaces : Namespaces) :
    List Nat → Program Bytes (List Volume)
  | [] => pure []
  | nsid :: rest => do
      let found ← volScanNamespace io namespaces nsid
      let more ← scanNamespaces io namespaces rest
      pure (found ++ more)

def partReloadVolumes (namespaces : Namespaces) (table : VolTable) :
    Program Bytes VolTable := do
  let found ← scanNamespaces io namespaces (namespaces.map Prod.fst)
  pure (volAttachedReattach (found.foldl volPush (volReset table)))

/-! ## GPT -/

inductive PartStyle where
  | none
  | mbr
  | gpt
deriving DecidableEq

def partProbeStyle (nsid : Nat) : Program Bytes PartStyle := do
  match ← io.read nsid 0 1 with
  | none => pure .none
  | some sector =>
    pure (if protectiveMbr sector then
        .gpt
      else if bootSig sector && (range 4).any fun i => (mbrEntry sector i).legal then
        .mbr
      else
        .none)

def alignUp (v align : Nat) : Nat := if align = 0 then v else (v + align - 1) / align * align % 2 ^ 64

def partMix (x : UInt64) : UInt64 :=
  let x := x + 0x9E3779B97F4A7C15
  let x := (x ^^^ (x >>> 30)) * 0xBF58476D1CE4E5B9
  let x := (x ^^^ (x >>> 27)) * 0x94D049BB133111EB
  x ^^^ (x >>> 31)

def partGuid (seed role : Nat) : List UInt8 :=
  let a := partMix (UInt64.ofNat seed ^^^ UInt64.ofNat role * 0x9E3779B97F4A7C15)
  let b := partMix (a ^^^ 0xA5A5A5A5A5A5A5A5)
  let out := writeU64 (writeU64 (fun _ => 0) 0 a.toNat) 8 b.toNat
  takeBytes (if a = 0 ∧ b = 0 then writeU32 out 0 0x4D4F5249 else out) 16

structure GptScan where
  used : Nat
  firstFree : Nat
  maxEnd : Nat
  targetUsed : Bool

/-- One entry of the scan; `lo` is the number of the first entry of the chunk. -/
def GptScan.entry (chunk : Bytes) (lo target : Nat) (scan : GptScan) (k : Nat) : GptScan :=
  let off := k * PART_GPT_ENTRY_SIZE
  if gptEntryUsed chunk off then
    { scan with
      used := scan.used + 1
      maxEnd := max scan.maxEnd ((readU64 chunk (off + 0x28) + 1) % 2 ^ 64)
      targetUsed := scan.targetUsed || lo + k == target }
  else if scan.firstFree = PART_GPT_ENTRY_COUNT then
    { scan with firstFree := lo + k }
  else
    scan

def scanChunks (io : NvmeIo) (nsid target : Nat) :
    Nat → Nat → GptScan → Program Bytes (Option GptScan)
  | 0, _, scan => pure (some scan)
  | left + 1, c, scan => do
      match ← io.read nsid (PART_GPT_ENTRIES_LBA + c * PART_CHUNK_SECTORS) PART_CHUNK_SECTORS with
      | none => pure none
      | some chunk =>
        scanChunks io nsid target left (c + 1)
          ((range PART_ENTRIES_PER_CHUNK).foldl
            (GptScan.entry chunk (c * PART_ENTRIES_PER_CHUNK) target) scan)

/-- The number of chunks of the entries. -/
def gptChunks : Nat := (PART_GPT_ENTRY_COUNT + PART_ENTRIES_PER_CHUNK - 1) / PART_ENTRIES_PER_CHUNK

def partScanGpt (nsid firstUsable target : Nat) : Program Bytes (Option GptScan) :=
  scanChunks io nsid target gptChunks 0 ⟨0, PART_GPT_ENTRY_COUNT, firstUsable, false⟩

structure GptPatch where
  index : Nat
  clear : Bool
  firstLba : Nat
  lastLba : Nat
  typeGuid : List UInt8
  uniqGuid : List UInt8

/-- The patch on the chunk whose first entry is number `lo`. -/
def GptPatch.apply (patch : GptPatch) (lo : Nat) (chunk : Bytes) : Bytes :=
  if lo ≤ patch.index ∧ patch.index < lo + PART_ENTRIES_PER_CHUNK then
    let e := (patch.index - lo) * PART_GPT_ENTRY_SIZE
    let chunk := clearBytes chunk e PART_GPT_ENTRY_SIZE
    if patch.clear then
      chunk
    else
      let chunk := putBytes (putBytes chunk e patch.typeGuid) (e + 0x10) patch.uniqGuid
      let chunk := writeU64 (writeU64 chunk (e + 0x20) patch.firstLba) (e + 0x28) patch.lastLba
      -- "MorionFS" in UTF-16LE
      putBytes chunk (e + 0x38)
        [0x4D, 0, 0x6F, 0, 0x72, 0, 0x69, 0, 0x6F, 0, 0x6E, 0, 0x46, 0, 0x53, 0]
  else
    chunk

def gptBuildHeader (currentLba backupLba firstUsable lastUsable : Nat) (diskGuid : List UInt8)
    (entriesLba : Nat) (entryCrc : UInt32) : Bytes :=
  let sector := putBytes (fun _ => 0) 0 [0x45, 0x46, 0x49, 0x20, 0x50, 0x41, 0x52, 0x54]
  let sector := writeU32 (writeU32 sector 0x08 0x00010000) 0x0C 92
  let sector := writeU64 (writeU64 sector 0x18 currentLba) 0x20 backupLba
  let sector := writeU64 (writeU64 sector 0x28 firstUsable) 0x30 lastUsable
  let sector := writeU64 (putBytes sector 0x38 diskGuid) 0x48 entriesLba
  let sector := writeU32 (writeU32 sector 0x50 PART_GPT_ENTRY_COUNT) 0x54 PART_GPT_ENTRY_SIZE
  let sector := writeU32 sector 0x58 entryCrc.toNat
  writeU32 sector 0x10 (Mfs.mfsCrc32 (takeBytes sector 92)).toNat

/-- The loop of `gpt_flush`: both copies of the entries; the register of the checksum. -/
def flushChunks (io : NvmeIo) (nsid backupEntriesLba : Nat) (patch : GptPatch) :
    Nat → Nat → UInt32 → Program Bytes (Option UInt32)
  | 0, _, reg => pure (some reg)
  | left + 1, c, reg => do
      match ← io.read nsid (PART_GPT_ENTRIES_LBA + c * PART_CHUNK_SECTORS) PART_CHUNK_SECTORS with
      | none => pure none
      | some chunk =>
        let chunk := patch.apply (c * PART_ENTRIES_PER_CHUNK) chunk
        let reg := (takeBytes chunk 4096).foldl Mfs.crc32Byte reg
        let first ← io.write nsid (PART_GPT_ENTRIES_LBA + c * PART_CHUNK_SECTORS)
          PART_CHUNK_SECTORS chunk
        if first then do
          let second ← io.write nsid (backupEntriesLba + c * PART_CHUNK_SECTORS)
            PART_CHUNK_SECTORS chunk
          if second then
            flushChunks io nsid backupEntriesLba patch left (c + 1) reg
          else
            pure none
        else
          pure none

def gptFlush (nsid cap : Nat) (patch : GptPatch) : Program Bytes (Option UInt32) := do
  let backupEntriesLba := cap - PART_GPT_ENTRIES_SECTORS - 1
  match ← flushChunks io nsid backupEntriesLba patch gptChunks 0 0xFFFFFFFF with
  | none => pure none
  | some reg =>
    let entryCrc := ~~~reg
    let diskGuid := partGuid nsid 0
    let first ← io.write nsid 1 1 (gptBuildHeader 1 (cap - 1) PART_GPT_RESERVED
      (cap - PART_GPT_RESERVED) diskGuid PART_GPT_ENTRIES_LBA entryCrc)
    if first then do
      let second ← io.write nsid (cap - 1) 1 (gptBuildHeader (cap - 1) 1 PART_GPT_RESERVED
        (cap - PART_GPT_RESERVED) diskGuid backupEntriesLba entryCrc)
      pure (if second then some entryCrc else none)
    else
      pure none

def partWriteProtectiveMbr (nsid cap : Nat) : Program Bytes Bool :=
  let sector := writeU32 (fun _ => 0) 440 (0x4D4F0000 ||| nsid)
  let sector := putBytes sector (446 + 4) [PART_MBR_TYPE_PROTECTIVE]
  let sector := writeU32 (writeU32 sector (446 + 8) 1) (446 + 12) (min (cap - 1) 0xFFFFFFFF)
  io.write nsid 0 1 (putBytes sector 510 [0x55, 0xAA])

/-- `part_create_gpt`: the start and the size of the new partition. -/
def partCreateGpt (nsid cap sizeSectors : Nat) :
    Program Bytes (Option (Nat × Nat)) := do
  let lastUsable := cap - PART_GPT_RESERVED
  match ← partScanGpt io nsid PART_GPT_RESERVED (2 ^ 64 - 1) with
  | none => pure none
  | some scan =>
    let start := max (alignUp scan.maxEnd PART_ALIGN_SECTORS) PART_GPT_RESERVED
    let room := lastUsable - start + 1
    let size := if sizeSectors = 0 then room else sizeSectors
    if PART_GPT_ENTRY_COUNT ≤ scan.firstFree ∨ lastUsable < start ∨ room < size then
      pure none
    else do
      let flushed ← gptFlush io nsid cap
        { index := scan.firstFree, clear := false, firstLba := start, lastLba := start + size - 1,
          typeGuid := PART_GPT_TYPE_LINUX, uniqGuid := partGuid nsid (scan.firstFree + 1) }
      pure (flushed.map fun _ => (start, size))

/-! ## MBR -/

/-- The first slot that is not taken. -/
def mbrSlot (sector : Bytes) : Option Nat :=
  (range 4).find? fun i => !(mbrEntry sector i).taken

/-- The end of the last partition; a partition does not start at sector 0. -/
def mbrFloor (sector : Bytes) : Nat :=
  (range 4).foldl (fun floor i =>
    let entry := mbrEntry sector i
    if entry.taken then max floor (entry.start + entry.count) else floor) 1

/-- Sector 0 with a new partition in this slot. -/
def mbrWithEntry (sector : Bytes) (nsid slot start size : Nat) : Bytes :=
  let e := 446 + slot * 16
  let sector := clearBytes (writeU32 sector 440 (0x4D4F0000 ||| nsid)) e 16
  let sector := putBytes sector (e + 4) [PART_MBR_TYPE_LINUX]
  putBytes (writeU32 (writeU32 sector (e + 8) start) (e + 12) size) 510 [0x55, 0xAA]

def partCreateMbr (nsid cap sizeSectors : Nat) :
    Program Bytes (Option (Nat × Nat)) := do
  let cap32 := min cap 0xFFFFFFFF
  match ← io.read nsid 0 1 with
  | none => pure none
  | some sector =>
    match mbrSlot sector with
    | none => pure none
    | some slot =>
      let start := max (alignUp (mbrFloor sector) PART_ALIGN_SECTORS) PART_ALIGN_SECTORS
      let room := cap32 - start
      let size := if sizeSectors = 0 then room else sizeSectors
      if cap32 ≤ start ∨ room < size then
        pure none
      else do
        let written ← io.write nsid 0 1 (mbrWithEntry sector nsid slot start size)
        pure (if written then some (start, size) else none)

def mbrClearTable (nsid : Nat) : Program Bytes Bool := do
  match ← io.read nsid 0 1 with
  | none => pure false
  | some sector => io.write nsid 0 1 (clearBytes sector 440 72)

/-! ## Requests -/

/-- The loops of `nvme_part_wipe`: zeros from `lba` up to `stop`, a chunk at a time. -/
def clearSectors (io : NvmeIo) (nsid stop : Nat) : Nat → Nat → Program Bytes Bool
  | 0, _ => pure true
  | turns + 1, lba =>
    if lba < stop then do
      let n := min PART_CHUNK_SECTORS (stop - lba)
      let written ← io.write nsid lba n fun _ => 0
      if written then clearSectors io nsid stop turns (lba + n) else pure false
    else
      pure true

def nvmePartWipe (namespaces : Namespaces) (nsid : Nat) (table : VolTable) :
    Program Bytes (Nat × VolTable) := do
  let cap := nvmeNsSectorsOf namespaces nsid
  let style ← partProbeStyle io nsid
  let cleared ← mbrClearTable io nsid
  if cleared then do
    let gpt := style = .gpt ∧ 2 * PART_GPT_RESERVED < cap
    let head ← clearSectors io nsid (if gpt then PART_GPT_RESERVED else 0) PART_GPT_RESERVED 1
    if head then do
      let tail ← clearSectors io nsid (if gpt then cap else 0) PART_GPT_RESERVED
        (cap - PART_GPT_ENTRIES_SECTORS - 1)
      if tail then do
        let table ← partReloadVolumes io namespaces table
        pure (1, table)
      else
        pure (0, table)
    else
      pure (0, table)
  else
    pure (0, table)

/-- `nvme_part_delete` on a disk with a GPT. -/
def partDeleteGpt (namespaces : Namespaces) (nsid index : Nat) (table : VolTable) :
    Program Bytes (Nat × VolTable) := do
  let cap := nvmeNsSectorsOf namespaces nsid
  if cap < 2 * PART_GPT_RESERVED ∨ PART_GPT_ENTRY_COUNT ≤ index then
    pure (0, table)
  else do
    match ← partScanGpt io nsid PART_GPT_RESERVED index with
    | none => pure (0, table)
    | some scan =>
      if !scan.targetUsed then
        pure (0, table)
      else if scan.used = 1 then
        nvmePartWipe io namespaces nsid table
      else do
        match ← gptFlush io nsid cap ⟨index, true, 0, 0, [], []⟩ with
        | none => pure (0, table)
        | some _ => do
            let table ← partReloadVolumes io namespaces table
            pure (1, table)

/-- Sector 0 without the partition in this slot; no table at all when it was the last. -/
def mbrWithoutEntry (sector : Bytes) (index : Nat) : Bytes :=
  let sector := clearBytes sector (446 + index * 16) 16
  if (range 4).any fun i => (mbrEntry sector i).taken then sector else clearBytes sector 440 72

/-- `nvme_part_delete` on a disk with an MBR. -/
def partDeleteMbr (namespaces : Namespaces) (nsid index : Nat) (table : VolTable) :
    Program Bytes (Nat × VolTable) := do
  if 4 ≤ index then
    pure (0, table)
  else do
    match ← io.read nsid 0 1 with
    | none => pure (0, table)
    | some sector =>
      if !(mbrEntry sector index).taken then
        pure (0, table)
      else do
        let written ← io.write nsid 0 1 (mbrWithoutEntry sector index)
        if written then do
          let table ← partReloadVolumes io namespaces table
          pure (1, table)
        else
          pure (0, table)

def nvmePartDelete (namespaces : Namespaces) (nsid index : Nat) (table : VolTable) :
    Program Bytes (Nat × VolTable) := do
  match ← partProbeStyle io nsid with
  | .gpt => partDeleteGpt io namespaces nsid index table
  | .mbr => partDeleteMbr io namespaces nsid index table
  | .none => pure (0, table)

/-- The partition that `nvme_part_create` makes on a disk with this style of table. -/
def partCreate (nsid cap sizeSectors : Nat) (useGpt : Bool) (style : PartStyle) :
    Program Bytes (Option (Nat × Nat)) :=
  if useGpt then do
    match ← partCreateGpt io nsid cap sizeSectors with
    | none => pure none
    | some made =>
      if style = .gpt then
        pure (some made)
      else do
        -- the placeholder comes last, so a failure before it leaves no table
        let written ← partWriteProtectiveMbr io nsid cap
        pure (if written then some made else none)
  else
    partCreateMbr io nsid cap sizeSectors

def nvmePartCreate (namespaces : Namespaces) (nsid sizeSectors : Nat)
    (forceMbr : Bool) (table : VolTable) : Program Bytes (Nat × VolTable) := do
  let cap := nvmeNsSectorsOf namespaces nsid
  if cap < 2 * PART_GPT_RESERVED then
    pure (2 ^ 64 - 1, table)
  else do
    let style ← partProbeStyle io nsid
    if style = .gpt ∧ forceMbr then
      pure (2 ^ 64 - 1, table)
    else do
      let useGpt := match style with
        | .gpt => true
        | .mbr => false
        | .none => !forceMbr
      match ← partCreate io nsid cap sizeSectors useGpt style with
      | none => pure (2 ^ 64 - 1, table)
      | some made => do
          let table ← partReloadVolumes io namespaces table
          pure ((volIdOf table nsid (made.1 % 2 ^ 32)).getD (2 ^ 64 - 1), table)

/-- `BLOCK_OP_PART_CREATE`, `BLOCK_OP_PART_DELETE`, `BLOCK_OP_PART_WIPE` and
`BLOCK_OP_PART_RELOAD`. -/
inductive PartRequest where
  | create (sizeSectors : Nat) (forceMbr : Bool)
  | delete (index : Nat)
  | wipe
  | reload
deriving DecidableEq

/-- The branch of `nvme_main` for a partition request to the disk `nsid`: the reply and the
volume table. -/
def servePart (namespaces : Namespaces) (nsid : Nat) (table : VolTable) :
    PartRequest → Program Bytes (Nat × VolTable)
  | .create sizeSectors forceMbr => nvmePartCreate io namespaces nsid sizeSectors forceMbr table
  | .delete index => nvmePartDelete io namespaces nsid index table
  | .wipe => nvmePartWipe io namespaces nsid table
  | .reload => do
      let table ← partReloadVolumes io namespaces table
      pure (table.volumes.length, table)

end MorionOS.Blk
