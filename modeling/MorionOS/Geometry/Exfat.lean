import MorionOS.Geometry.Volumes

/-!
# The volume that the exFAT service works on

`exfat_mount` of `exfat_srv.rs` with everything it reads, the windows on the allocation
bitmap and the up-case table, and the part of `run` that switches the volume.  The handler of
a request is any sequence of the functions through which it reaches the disk.
-/

namespace MorionOS.Geometry.Exfat

open Blk (Bytes readLe readU32 readU64)
open StateAct Act Exfat

def SECTOR_SIZE : Nat := 512
def DIR_ENTRY : Nat := 32
def PAGE_SIZE : Nat := 4096
def MAX_SPC_SHIFT : Nat := 9
def MAX_CLUSTER_PAGES : Nat := 64
def TYPE_UNUSED : Nat := 0x00
def TYPE_BITMAP : Nat := 0x81
def TYPE_UPCASE : Nat := 0x82
def FAT_FREE : Nat := 0
def FAT_EOC_MIN : Nat := 0xFFFFFFF8

/-- The parameters that `exfat_mount` takes from the boot sector. -/
structure Layout where
  sectorsPerCluster : Nat
  clusterBytes : Nat
  fatOffset : Nat
  fatLength : Nat
  heapOffset : Nat
  clusterCount : Nat
  rootCluster : Nat
  numFats : Nat
deriving DecidableEq

/-- Where a system table starts and how long it is. -/
structure SystemTable where
  cluster : Nat
  bytes : Nat

/-- A window on a system table: one of its sectors. -/
structure Window where
  /-- `usize::MAX` is `none` -/
  sec : Option Nat
  lba : Nat
  data : Bytes

/-- The global variables. -/
structure Globals where
  vol : Nat
  curVol : Nat
  /-- `u64::MAX` is `none` -/
  geoVol : Option Nat
  layout : Sourced Layout
  allocHint : Nat
  bitmap : Sourced SystemTable
  upcase : Sourced SystemTable
  bmpWin : Sourced Window
  bmpDirty : Bool
  upcWin : Sourced Window
  bufsPages : Nat
  fds : FdTable
  uses : List Use

/-- Programs of the service. -/
abbrev Prog (ε α : Type) : Type := Act Globals ε α

/-! ## Reading the global variables -/

/-- Read a global variable that was filled from a disk. -/
def use {ε α : Type} (field : Globals → Sourced α) : Prog ε α := fun g =>
  (.ok (field g).value, { g with uses := g.uses ++ [⟨g.curVol, (field g).source⟩] })

def readSectors (env : Env) (lba count : Nat) : Prog Unit Bytes := do
  let vol ← reads Globals.curVol
  ofOption (env.readSectors vol lba count) ()

/-- In `u32`, also where the FAT names a cluster below 2. -/
def clusterLba (layout : Layout) (cl : Nat) : Nat :=
  (layout.heapOffset + (cl + 2 ^ 32 - 2) * layout.sectorsPerCluster) % 2 ^ 32

def readCluster (env : Env) (cl : Nat) : Prog Unit Bytes := do
  ensure (2 ≤ cl) ()
  let layout ← use Globals.layout
  ensure (layout.sectorsPerCluster ≠ 0 ∧ layout.sectorsPerCluster ≤ 0xFFFF) ()
  readSectors env (clusterLba layout cl) layout.sectorsPerCluster

def fatGet (env : Env) (cl : Nat) : Prog Unit Nat := do
  let layout ← use Globals.layout
  let byte := layout.fatOffset * SECTOR_SIZE + cl * 4
  let buf ← readSectors env (byte / SECTOR_SIZE % 2 ^ 32) 1
  pure (readU32 buf (byte % SECTOR_SIZE))

def isEoc (v : Nat) : Bool := FAT_EOC_MIN ≤ v

/-- The loop of `exfat_chain_nth`: `left` links to follow, after `i`. -/
def chainWalk (env : Env) : (left i cl : Nat) → Prog Unit Nat
  | 0, _, cl => pure cl
  | left + 1, i, cl => do
      let next ← fatGet env cl
      ensure (next ≠ FAT_FREE ∧ ¬ isEoc next) ()
      let layout ← use Globals.layout
      ensure (i + 1 ≤ layout.clusterCount + 1) ()
      chainWalk env left (i + 1) next

def chainNth (env : Env) (first idx : Nat) : Prog Unit Nat := do
  ensure (2 ≤ first) ()
  chainWalk env idx 0 first

def chainSecLba (env : Env) (first sec : Nat) : Prog Unit Nat := do
  let layout ← use Globals.layout
  ensure (layout.sectorsPerCluster ≠ 0) ()
  let cl ← chainNth env first (sec / layout.sectorsPerCluster)
  pure ((clusterLba layout cl + sec % layout.sectorsPerCluster) % 2 ^ 32)

/-! ## The windows -/

def bitmapFlush (env : Env) : Prog Unit Unit := do
  let dirty ← reads Globals.bmpDirty
  if dirty then do
    let win ← use Globals.bmpWin
    let vol ← reads Globals.curVol
    ensure (env.write vol win.lba) ()
    modify fun g => { g with bmpDirty := false }
  else pure ()

/-- The window takes another sector of the volume that is worked on. -/
def setBmpWin (sec lba : Nat) (data : Bytes) (g : Globals) : Globals :=
  { g with bmpWin := ⟨⟨some sec, lba, data⟩, some g.curVol⟩ }

/-- `exfat_bitmap_byte`: the offset of the byte in the window. -/
def bitmapByte (env : Env) (cl : Nat) : Prog Unit Nat := do
  ensure (2 ≤ cl) ()
  let table ← use Globals.bitmap
  let byte := (cl - 2) / 8
  ensure (byte < table.bytes) ()
  let loaded ← reads fun g => g.bmpWin.value.sec
  if loaded ≠ some (byte / SECTOR_SIZE) then do
    bitmapFlush env
    let lba ← chainSecLba env table.cluster (byte / SECTOR_SIZE)
    let data ← readSectors env lba 1
    modify (setBmpWin (byte / SECTOR_SIZE) lba data)
    pure (byte % SECTOR_SIZE)
  else pure (byte % SECTOR_SIZE)

def bitmapGet (env : Env) (cl : Nat) : Prog Unit Bool := do
  match ← attempt (bitmapByte env cl) with
  | none => pure false
  | some off => do
      let win ← use Globals.bmpWin
      pure ((win.data off).toNat.testBit ((cl - 2) % 8))

/-- Set or clear a bit of the window. -/
def putBit (off bit : Nat) (used : Bool) (g : Globals) : Globals :=
  let mask := UInt8.ofNat (2 ^ bit)
  let data : Bytes := fun i =>
    if i = off then if used then g.bmpWin.value.data i ||| mask else g.bmpWin.value.data i &&& ~~~mask
    else g.bmpWin.value.data i
  { g with bmpWin := ⟨{ g.bmpWin.value with data := data }, g.bmpWin.source⟩, bmpDirty := true }

def bitmapPut (env : Env) (cl : Nat) (used : Bool) : Prog Unit Unit := do
  let off ← bitmapByte env cl
  let _ ← use Globals.bmpWin
  modify (putBit off ((cl - 2) % 8) used)

def setUpcWin (sec lba : Nat) (data : Bytes) (g : Globals) : Globals :=
  { g with upcWin := ⟨⟨some sec, lba, data⟩, some g.curVol⟩ }

/-- The part of `exfat_upcase_unit` after the length check: the entry of the table. -/
def upcaseEntry (env : Env) (table : SystemTable) (off : Nat) : Prog Unit Nat := do
  let loaded ← reads fun g => g.upcWin.value.sec
  if loaded ≠ some (off / SECTOR_SIZE) then do
    let lba ← chainSecLba env table.cluster (off / SECTOR_SIZE)
    let data ← readSectors env lba 1
    modify (setUpcWin (off / SECTOR_SIZE) lba data)
  else pure ()
  let win ← use Globals.upcWin
  pure (readLe win.data (off % SECTOR_SIZE) 2)

def upcaseUnit (env : Env) (u : Nat) : Prog Unit Nat := do
  let table ← use Globals.upcase
  if u * 2 + 2 > table.bytes then pure u
  else do
    match ← attempt (upcaseEntry env table (u * 2)) with
    | some v => pure v
    | none => pure u

/-! ## Mounting -/

/-- One sector of the rolling checksum of the boot region. -/
def checksumSector (sec : Nat) (buf : Bytes) (sum : UInt32) : UInt32 :=
  (List.range SECTOR_SIZE).foldl (fun sum i =>
    let off := sec * SECTOR_SIZE + i
    if off = 106 ∨ off = 107 ∨ off = 112 then sum
    else
      let rot : UInt32 := if sum &&& 1 ≠ 0 then 0x80000000 else 0
      rot + (sum >>> 1) + (buf i).toUInt32) sum

/-- The sectors of the boot region from `sec` on, up to sector 11. -/
def checksumFrom (env : Env) : (left sec : Nat) → UInt32 → Prog Unit UInt32
  | 0, _, sum => pure sum
  | left + 1, sec, sum => do
      let buf ← readSectors env sec 1
      checksumFrom env left (sec + 1) (checksumSector sec buf sum)

def verifyBootChecksum (env : Env) : Prog Unit Unit := do
  let sum ← checksumFrom env 11 0 0
  let buf ← readSectors env 11 1
  ensure (readU32 buf 0 = sum.toNat) ()

/-- The system entries that were found. -/
structure Found where
  bitmap : Bool
  upcase : Bool

def setBitmap (table : SystemTable) (g : Globals) : Globals :=
  { g with bitmap := ⟨table, some g.curVol⟩ }

def setUpcase (table : SystemTable) (g : Globals) : Globals :=
  { g with upcase := ⟨table, some g.curVol⟩ }

/-- The entries of a cluster of the root directory, and whether the directory ended there. -/
def scanEntries (clusterCount : Nat) (buf : Bytes) : List Nat → Found → Prog Unit (Found × Bool)
  | [], found => pure (found, false)
  | i :: rest, found => do
      let t := (buf (i * DIR_ENTRY)).toNat
      let first := readU32 buf (i * DIR_ENTRY + 20)
      let len := readU64 buf (i * DIR_ENTRY + 24)
      if t = TYPE_UNUSED then pure (found, true)
      else if t = TYPE_BITMAP then do
        ensure (2 ≤ first ∧ len ≠ 0 ∧ clusterCount ≤ len * 8 % 2 ^ 64) ()
        modify (setBitmap ⟨first, len % 2 ^ 32⟩)
        scanEntries clusterCount buf rest { found with bitmap := true }
      else if t = TYPE_UPCASE then do
        ensure (2 ≤ first ∧ len ≠ 0) ()
        modify (setUpcase ⟨first, len % 2 ^ 32⟩)
        scanEntries clusterCount buf rest { found with upcase := true }
      else scanEntries clusterCount buf rest found

/-- The loop of `exfat_scan_system_entries` over the clusters of the root directory. -/
def scanClusters (env : Env) (per clusterCount : Nat) : (left cl : Nat) → Found → Prog Unit Found
  | 0, _, found => pure found
  | left + 1, cl, found =>
    if cl < 2 then pure found
    else do
      let buf ← readCluster env cl
      let (found, ended) ← scanEntries clusterCount buf (List.range per) found
      if ended then pure found
      else do
        let next ← fatGet env cl
        if next = FAT_FREE ∨ isEoc next then pure found
        else scanClusters env per clusterCount left next found

def scanSystemEntries (env : Env) : Prog Unit Unit := do
  let layout ← use Globals.layout
  ensure (DIR_ENTRY ≤ layout.clusterBytes) ()
  let found ← scanClusters env (layout.clusterBytes / DIR_ENTRY) layout.clusterCount
    (layout.clusterCount + 2) layout.rootCluster ⟨false, false⟩
  ensure (found.bitmap && found.upcase) ()

/-- The loop of `exfat_bufs_init`. -/
def allocPages (env : Env) : List Nat → Prog Unit Unit
  | [] => pure ()
  | i :: rest => do
      ensure (env.page i) ()
      allocPages env rest

def bufsInit (env : Env) (pages : Nat) : Prog Unit Unit := do
  ensure (pages ≠ 0 ∧ pages ≤ MAX_CLUSTER_PAGES) ()
  let done ← reads Globals.bufsPages
  allocPages env (List.range' done (pages - done))
  modify fun g => { g with bufsPages := max pages g.bufsPages }

/-- The bytes of "EXFAT   ". -/
def SIGNATURE : List Nat := [0x45, 0x58, 0x46, 0x41, 0x54, 0x20, 0x20, 0x20]

/-- The checks of `exfat_mount` on the boot sector, with the number of the stage that
fails. -/
def parseBoot (a : Bytes) : Except Nat Layout :=
  let spcShift := (a 109).toNat
  let numFats := (a 110).toNat
  let fatLength := readU32 a 84
  let clusterCount := readU32 a 92
  let root := readU32 a 96
  if (List.range 8).map (fun i => (a (3 + i)).toNat) ≠ SIGNATURE then .error 2
  else if readLe a 510 2 ≠ 0xAA55 then .error 3
  else if (a 108).toNat ≠ 9 then .error 4
  else if spcShift = 0 ∨ spcShift > MAX_SPC_SHIFT then .error 5
  else if numFats = 0 ∨ numFats > 2 then .error 6
  else if fatLength = 0 ∨ clusterCount = 0 ∨ root < 2 ∨ root ≥ (clusterCount + 2) % 2 ^ 32 then .error 7
  else .ok
    { sectorsPerCluster := 2 ^ spcShift
      clusterBytes := 2 ^ spcShift * SECTOR_SIZE
      fatOffset := readU32 a 80
      fatLength := fatLength
      heapOffset := readU32 a 88
      clusterCount := clusterCount
      rootCluster := root
      numFats := numFats }

/-- The boot sector of a volume, as far as the checks on it go. -/
def bootSector (env : Env) (vol : Nat) : Except Nat Layout :=
  match env.readSectors vol 0 1 with
  | none => .error 1
  | some a => parseBoot a

def setLayout (layout : Layout) (g : Globals) : Globals :=
  { g with layout := ⟨layout, some g.curVol⟩, allocHint := 2 }

/-- `exfat_mount` from the assignment of the parameters on. -/
def install (env : Env) (layout : Layout) : Prog Nat Unit := do
  modify (setLayout layout)
  (bufsInit env (max 1 ((layout.clusterBytes + PAGE_SIZE - 1) / PAGE_SIZE))).orErr 13
  (verifyBootChecksum env).orErr 8
  (scanSystemEntries env).orErr 9
  let rootUsed ← (bitmapGet env layout.rootCluster).orErr 12
  ensure rootUsed 12
  modify fun g => { g with geoVol := some g.curVol }

def mount (env : Env) : Prog Nat Unit := do
  let vol ← reads Globals.curVol
  match bootSector env vol with
  | .error stage => throw stage
  | .ok layout => install env layout

/-! ## Requests -/

/-- The functions through which the handlers reach the disk. -/
inductive Access where
  /-- `exfat_read_cluster`, `exfat_write_cluster` -/
  | cluster (cl : Nat)
  /-- `exfat_fat_get`, `exfat_fat_set` -/
  | fat (cl : Nat)
  | bitmapGet (cl : Nat)
  | bitmapPut (cl : Nat) (used : Bool)
  | bitmapFlush
  | upcase (u : Nat)

def Access.run (env : Env) : Access → Globals → Globals
  | .cluster cl, g => (readCluster env cl g).2
  | .fat cl, g => (fatGet env cl g).2
  | .bitmapGet cl, g => (Exfat.bitmapGet env cl g).2
  | .bitmapPut cl used, g => (Exfat.bitmapPut env cl used g).2
  | .bitmapFlush, g => (Exfat.bitmapFlush env g).2
  | .upcase u, g => (upcaseUnit env u g).2

/-- The volume that a request is for. -/
def requestVol (g : Globals) (r : Request Access) : Nat :=
  match r.kind with
  | .descriptor fd => (fdGet g.fds fd).getD (volFromEnc r.enc g.vol)
  | _ => volFromEnc r.enc g.vol

/-- The handler, and the descriptors after it. -/
def handle (r : Request Access) (vol : Nat) (g : Globals) : Globals :=
  let g := r.body.foldl (fun g step => step.2.run step.1 g) g
  { g with fds := fdAfter g.fds vol r.kind }

/-- One round of the loop of `run`: the volume is switched when the layout is not its own,
and the request fails when that fails. -/
def serve (g : Globals) (r : Request Access) : Globals :=
  let vol := requestVol g r
  let g := { g with curVol := vol }
  if g.geoVol ≠ some vol then
    match mount r.env g with
    | (.error _, g) => g
    | (.ok _, g) => handle r vol g
  else handle r vol g

/-- The globals when the program starts, with the volume that it claims. -/
def fresh (vol : Nat) : Globals :=
  let nothing : Window := ⟨none, 0, fun _ => 0⟩
  { vol := vol, curVol := vol, geoVol := none
    layout := ⟨⟨0, 0, 0, 0, 0, 0, 0, 1⟩, none⟩, allocHint := 2
    bitmap := ⟨⟨0, 0⟩, none⟩, upcase := ⟨⟨0, 0⟩, none⟩
    bmpWin := ⟨nothing, none⟩, bmpDirty := false, upcWin := ⟨nothing, none⟩
    bufsPages := 0, fds := List.replicate 16 none, uses := [] }

/-! ## What belongs to the volume -/

/-- Everything that is in use was read from the volume `v`; the system tables as far as
they were found. -/
structure Own (v : Nat) (found : Found) (geo : Option Nat) (g : Globals) : Prop where
  here : g.curVol = v
  geo : g.geoVol = geo
  layout : g.layout.source = some v
  bitmap : found.bitmap = true → g.bitmap.source = some v
  upcase : found.upcase = true → g.upcase.source = some v
  bmpWin : g.bmpWin.value.sec.isSome → g.bmpWin.source = some v
  dirty : g.bmpDirty = true → g.bmpWin.source = some v
  upcWin : g.upcWin.value.sec.isSome → g.upcWin.source = some v
  uses : ∀ u ∈ g.uses, u.Own

variable {v : Nat} {found : Found} {geo : Option Nat} {ε α : Type} {g : Globals} {P : Globals → Prop}

theorem Own.use (own : Own v found geo g) {field : Globals → Sourced α}
    (belongs : (field g).source = some v) : Own v found geo (use field g : Except ε α × Globals).2 :=
  { own with uses := uses_append own.uses (own.here.symm ▸ belongs) }

theorem keeps_useLayout : Act.Preserves (Own v found geo) (use Globals.layout : Prog ε Layout) :=
  fun _ own => own.use own.layout

section

variable (env : Env)
include env

theorem keeps_readSectors (lba count : Nat) : Act.Preserves P (readSectors env lba count) :=
  .bind (.reads _) fun _ => .ofOption _ _

theorem keeps_readCluster (cl : Nat) : Act.Preserves (Own v found geo) (readCluster env cl) :=
  .bind (.ensure _ _) fun _ => .bind keeps_useLayout fun _ => .bind (.ensure _ _) fun _ =>
    keeps_readSectors _ _ _

theorem keeps_fatGet (cl : Nat) : Act.Preserves (Own v found geo) (fatGet env cl) :=
  .bind keeps_useLayout fun _ => .bind (keeps_readSectors _ _ _) fun _ => .pure _

theorem keeps_chainWalk (left i cl : Nat) :
    Act.Preserves (Own v found geo) (chainWalk env left i cl) := by
  induction left generalizing i cl with
  | zero => exact .pure _
  | succ left ih =>
    refine .bind (keeps_fatGet env cl) fun next => .bind (.ensure _ _) fun _ => ?_
    exact .bind keeps_useLayout fun _ => .bind (.ensure _ _) fun _ => ih (i + 1) next

theorem keeps_chainSecLba (first sec : Nat) :
    Act.Preserves (Own v found geo) (chainSecLba env first sec) :=
  .bind keeps_useLayout fun _ => .bind (.ensure _ _) fun _ =>
    .bind (.bind (.ensure _ _) fun _ => keeps_chainWalk _ _ _ _) fun _ => .pure _

theorem keeps_bitmapFlush : Act.Preserves (Own v found geo) (bitmapFlush env) := by
  refine preserves_of_ends fun g own => ?_
  change Ends ((if g.bmpDirty then _ else _ : Prog Unit Unit) g) _ _
  split
  next dirty =>
    refine ends_bind (Q := fun _ => Own v found geo) (own.use (ε := Unit) (own.dirty dirty))
      fun win g own => ?_
    exact ends_ensure (fun _ => own) fun _ => { own with dirty := nofun }
  · exact own

end

/-- The window that a byte of the bitmap is looked up in belongs to the volume afterwards. -/
theorem Own.bitmapByte (own : Own v found geo g) (has : found.bitmap = true) (env : Env) (cl : Nat) :
    Ends (bitmapByte env cl g) (fun _ g' => Own v found geo g' ∧ g'.bmpWin.source = some v)
      (Own v found geo) := by
  refine ends_ensure (fun _ => own) fun _ => ?_
  refine ends_bind (Q := fun _ g => Own v found geo g) (own.use (ε := Unit) (own.bitmap has))
    fun table g own => ?_
  refine ends_ensure (fun _ => own) fun _ => ?_
  change Ends ((if g.bmpWin.value.sec ≠ some ((cl - 2) / 8 / SECTOR_SIZE) then _ else _ :
    Prog Unit Nat) g) _ _
  split
  · refine ends_bind ((keeps_bitmapFlush env).ends own) fun _ g own => ?_
    refine ends_bind ((keeps_chainSecLba env _ _).ends own) fun lba g own => ?_
    refine ends_bind ((keeps_readSectors env _ _).ends own) fun data g own => ?_
    have here : some g.curVol = some v := congrArg some own.here
    exact ⟨{ own with bmpWin := fun _ => here, dirty := fun _ => here }, here⟩
  next loaded => exact ⟨own, own.bmpWin (by rw [not_not.mp loaded]; rfl)⟩

theorem keeps_bitmapGet (has : found.bitmap = true) (env : Env) (cl : Nat) :
    Act.Preserves (Own v found geo) (bitmapGet env cl) := by
  refine preserves_of_ends fun g own => ?_
  rw [bitmapGet, bind_apply, attempt]
  have byte := own.bitmapByte has env cl
  generalize bitmapByte env cl g = r at byte
  obtain ⟨e | off, g'⟩ := r
  · exact byte
  · exact byte.1.use (ε := Unit) byte.2

theorem keeps_bitmapPut (has : found.bitmap = true) (env : Env) (cl : Nat) (used : Bool) :
    Act.Preserves (Own v found geo) (bitmapPut env cl used) := by
  refine preserves_of_ends fun g own => ?_
  refine ends_bind (own.bitmapByte has env cl) fun off g' after => ?_
  have own := after.1.use (ε := Unit) after.2
  exact { own with bmpWin := fun _ => after.2, dirty := fun _ => after.2 }

theorem keeps_upcaseEntry (env : Env) (table : SystemTable) (off : Nat) :
    Act.Preserves (Own v found geo) (upcaseEntry env table off) := by
  refine preserves_of_ends fun g own => ?_
  change Ends ((if g.upcWin.value.sec ≠ some (off / SECTOR_SIZE) then _ else _ : Prog Unit Nat) g) _ _
  split
  · refine ends_bind ((keeps_chainSecLba env _ _).ends own) fun lba g own => ?_
    refine ends_bind ((keeps_readSectors env _ _).ends own) fun data g own => ?_
    have here : some g.curVol = some v := congrArg some own.here
    have loaded : Own v found geo (setUpcWin (off / SECTOR_SIZE) lba data g) :=
      { own with upcWin := fun _ => here }
    exact loaded.use (ε := Unit) here
  next loaded => exact own.use (ε := Unit) (own.upcWin (by rw [not_not.mp loaded]; rfl))

theorem keeps_upcaseUnit (has : found.upcase = true) (env : Env) (u : Nat) :
    Act.Preserves (Own v found geo) (upcaseUnit env u) :=
  .bind (fun _ own => own.use (own.upcase has)) fun _ =>
    .ite (.pure _) (.bind (.attempt (keeps_upcaseEntry env _ _)) fun r => by
      cases r with
      | none => exact .pure _
      | some v => exact .pure _)

/-! ## A mount that succeeds -/

theorem Own.nothing (own : Own v found geo g) : Own v ⟨false, false⟩ geo g :=
  { own with bitmap := nofun, upcase := nofun }

/-- A table counts as found only when it was taken from this volume. -/
theorem Own.scanEntries (own : Own v found geo g) (clusterCount : Nat) (buf : Bytes) (entries : List Nat) :
    Ends (scanEntries clusterCount buf entries found g) (fun r g' => Own v r.1 geo g')
      (Own v ⟨false, false⟩ geo) := by
  induction entries generalizing found g with
  | nil => exact own
  | cons i rest ih =>
    rw [scanEntries]
    have here : some g.curVol = some v := congrArg some own.here
    split
    · exact own
    · split
      · refine ends_ensure (fun _ => own.nothing) fun _ => ?_
        have set (table : SystemTable) : Own v { found with bitmap := true } geo (setBitmap table g) :=
          { own with bitmap := fun _ => here }
        exact ih (set _)
      · split
        · refine ends_ensure (fun _ => own.nothing) fun _ => ?_
          have set (table : SystemTable) : Own v { found with upcase := true } geo (setUpcase table g) :=
            { own with upcase := fun _ => here }
          exact ih (set _)
        · exact ih own

theorem Own.scanClusters (own : Own v found geo g) (env : Env) (per clusterCount left cl : Nat) :
    Ends (scanClusters env per clusterCount left cl found g) (fun r g' => Own v r geo g')
      (Own v ⟨false, false⟩ geo) := by
  induction left generalizing found g cl with
  | zero => exact own
  | succ left ih =>
    rw [scanClusters]
    split
    · exact own
    · refine ends_bind (((keeps_readCluster env cl).ends own).mono (fun _ _ own => own)
        fun _ own => own.nothing) fun buf g own => ?_
      refine ends_bind (own.scanEntries clusterCount buf _) fun r g own => ?_
      obtain ⟨found, ended⟩ := r
      cases ended with
      | true => exact own
      | false =>
        refine ends_bind (((keeps_fatGet env cl).ends own).mono (fun _ _ own => own)
          fun _ own => own.nothing) fun next g own => ?_
        split
        · exact own
        · exact ih own next

theorem Own.scanSystemEntries (own : Own v ⟨false, false⟩ geo g) (env : Env) :
    Ends (scanSystemEntries env g) (fun _ g' => Own v ⟨true, true⟩ geo g')
      (Own v ⟨false, false⟩ geo) := by
  refine ends_bind (keeps_useLayout.ends own) fun layout g own => ?_
  refine ends_ensure (fun _ => own) fun _ => ?_
  refine ends_bind (own.scanClusters env _ _ _ _) fun found g own => ?_
  obtain ⟨_ | _, _ | _⟩ := found
  · exact own.nothing
  · exact own.nothing
  · exact own.nothing
  · exact own

theorem keeps_checksumFrom (env : Env) (left sec : Nat) (sum : UInt32) :
    Act.Preserves P (checksumFrom env left sec sum) := by
  induction left generalizing sec sum with
  | zero => exact .pure _
  | succ left ih => exact .bind (keeps_readSectors env sec 1) fun _ => ih (sec + 1) _

theorem keeps_verifyBootChecksum (env : Env) : Act.Preserves P (verifyBootChecksum env) :=
  .bind (keeps_checksumFrom env _ _ _) fun _ => .bind (keeps_readSectors env _ _) fun _ => .ensure _ _

theorem keeps_allocPages (env : Env) (pages : List Nat) : Act.Preserves P (allocPages env pages) := by
  induction pages with
  | nil => exact .pure _
  | cons i rest ih => exact .bind (.ensure _ _) fun _ => ih

theorem keeps_bufsInit (env : Env) (pages : Nat) : Act.Preserves (Own v found geo) (bufsInit env pages) :=
  .bind (.ensure _ _) fun _ => .bind (.reads _) fun _ => .bind (keeps_allocPages env _) fun _ =>
    .modify fun _ own => { own with }

/-- When the parameters are already those of the volume, the rest of a mount reads what is the
volume's own. -/
theorem Own.install {layout : Layout} (own : Own v ⟨false, false⟩ geo (setLayout layout g)) (env : Env) :
    Ends (install env layout g) (fun _ g' => Own v ⟨true, true⟩ (some v) g')
      (Own v ⟨false, false⟩ geo) := by
  refine ends_bind (Q := fun _ => Own v ⟨false, false⟩ geo) own fun _ g own => ?_
  refine ends_bind (ends_orErr ((keeps_bufsInit env _).ends own)) fun _ g own => ?_
  refine ends_bind (ends_orErr ((keeps_verifyBootChecksum env).ends own)) fun _ g own => ?_
  refine ends_bind (ends_orErr (own.scanSystemEntries env)) fun _ g own => ?_
  refine ends_bind (ends_orErr (((keeps_bitmapGet rfl env _).ends own).mono
    (fun _ _ own => own) fun _ own => own.nothing)) fun used g own => ?_
  refine ends_ensure (fun _ => own.nothing) fun _ => ?_
  exact { own with geo := congrArg some own.here }

/-! ## Runs -/

/-- The service has the layout and the tables of the volume that `geoVol` names. -/
def Settled (g : Globals) : Prop :=
  ∃ v, Own v ⟨true, true⟩ (some v) { g with curVol := v }

/-- The program reached its loop: the first mount succeeded. -/
def Booted (g : Globals) : Prop :=
  ∃ env vol, (mount env (fresh vol)).1 = .ok () ∧ g = (mount env (fresh vol)).2

theorem Settled.uses (settled : Settled g) : ∀ u ∈ g.uses, u.Own :=
  let ⟨_, own⟩ := settled
  own.uses

theorem own_fresh (vol : Nat) (layout : Layout) :
    Own vol ⟨false, false⟩ none (setLayout layout (fresh vol)) :=
  ⟨rfl, rfl, rfl, nofun, nofun, nofun, nofun, nofun, nofun⟩

theorem mount_refused {env : Env} {stage : Nat}
    (refused : bootSector env g.curVol = .error stage) : mount env g = (.error stage, g) := by
  change (match bootSector env g.curVol with
    | .error stage => throw stage
    | .ok layout => install env layout : Prog Nat Unit) g = _
  rw [refused]
  rfl

theorem mount_accepted {env : Env} {layout : Layout}
    (accepted : bootSector env g.curVol = .ok layout) : mount env g = install env layout g := by
  change (match bootSector env g.curVol with
    | .error stage => throw stage
    | .ok layout => install env layout : Prog Nat Unit) g = _
  rw [accepted]

theorem Booted.settled (booted : Booted g) : Settled g := by
  obtain ⟨env, vol, ok, rfl⟩ := booted
  cases boot : bootSector env vol with
  | error stage =>
    rw [mount_refused boot] at ok
    cases ok
  | ok layout =>
    rw [mount_accepted boot] at ok ⊢
    have own := ((own_fresh vol layout).install env).of_ok (eq_of_fst ok)
    exact ⟨vol, { own with here := rfl }⟩

/-- A request for the volume that is mounted, or for one that is refused before anything is
overwritten. -/
def Careful (g : Globals) (r : Request Access) : Prop :=
  g.geoVol = some (requestVol g r) ∨ (bootSector r.env (requestVol g r)).isOk = false

instance (g : Globals) (r : Request Access) : Decidable (Careful g r) :=
  inferInstanceAs (Decidable (_ ∨ _))

theorem Own.access (own : Own v ⟨true, true⟩ geo g) (env : Env) (a : Access) :
    Own v ⟨true, true⟩ geo (a.run env g) := by
  cases a with
  | cluster cl => exact keeps_readCluster env cl g own
  | fat cl => exact keeps_fatGet env cl g own
  | bitmapGet cl => exact keeps_bitmapGet rfl env cl g own
  | bitmapPut cl used => exact keeps_bitmapPut rfl env cl used g own
  | bitmapFlush => exact keeps_bitmapFlush env g own
  | upcase u => exact keeps_upcaseUnit rfl env u g own

theorem Settled.serve (settled : Settled g) {r : Request Access} (careful : Careful g r) :
    Settled (serve g r) := by
  obtain ⟨v, own⟩ := settled
  rw [Exfat.serve]
  split
  next other =>
    -- another volume: only a refused one is careful, and it changes nothing but `curVol`
    cases boot : bootSector r.env (requestVol g r) with
    | ok layout =>
      rw [Careful, boot] at careful
      rcases careful with same | refused
      · exact absurd same other
      · cases refused
    | error stage =>
      rw [mount_refused boot]
      exact ⟨v, { own with }⟩
  next same =>
    have asked : requestVol g r = v := Option.some.inj ((not_not.mp same).symm.trans own.geo)
    rw [asked]
    have after : Own v ⟨true, true⟩ (some v)
        (r.body.foldl (fun g step => step.2.run step.1 g) { g with curVol := v }) :=
      List.foldlRecOn r.body _ own fun _ own step _ => own.access step.1 step.2
    exact ⟨v, { after with here := rfl }⟩

theorem serve_switched {g' : Globals} {r : Request Access} (other : g.geoVol ≠ some (requestVol g r))
    (mounted : mount r.env { g with curVol := requestVol g r } = (.ok (), g')) :
    serve g r = handle r (requestVol g r) g' := by
  rw [serve, if_pos other, mounted]

/-- A step of the service on a careful request. -/
def Step (g g' : Globals) : Prop := ∃ r, Careful g r ∧ serve g r = g'

end MorionOS.Geometry.Exfat
