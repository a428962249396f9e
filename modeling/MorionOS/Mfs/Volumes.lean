import MorionOS.Mfs.Load

/-!
# Choosing, mounting and switching volumes

These programs read superblocks of volumes other than the current one or change
the current volume, so they work on the concrete state only.
-/

namespace MorionOS.Mfs

open StateAct

/-! ## Mounting -/

/-- The outcome of `mfs_sb_magic_state`. -/
inductive MagicState where
  | none
  | matching
  | familyMismatch
deriving DecidableEq

/-- The probe of the superblock copies; unreadable copies are passed over. -/
def sbMagicScan (vol : Nat) : List Nat → Bool → Act Fs Unit MagicState
  | [], mismatch => pure (if mismatch then .familyMismatch else .none)
  | copy :: rest, mismatch => do
      match ← Act.attempt (blockReadDev vol copy) with
      | Option.none => sbMagicScan vol rest mismatch
      | some blk =>
        if blk.magic = MFS_MAGIC_SUPER then pure .matching
        else sbMagicScan vol rest (mismatch || isFamilyMagic blk.magic)

def mfsSbMagicState (vol : Nat) : Act Fs Unit MagicState := do
  match ← Act.attempt flushRun with
  | Option.none => pure .familyMismatch
  | some _ => sbMagicScan vol (List.range MFS_SB_COPIES) false

/-- Drop the primary mark of whatever volume was loaded before. -/
def Fs.clearPrimary (s : Fs) : Fs :=
  { s with mem := s.mem.setVol fun v => { v with primarySerial := 0 } }

/-- `mfs_mount_or_format`, where `vol` is `MFS_VOL`. -/
def mfsMountOrFormat (vol : Nat) : Act Fs Unit Unit := do
  match ← Act.attempt mfsLoadState.run with
  | some _ => pure ()
  | Option.none => do
      match ← mfsSbMagicState vol with
      | .familyMismatch | .matching => Act.throw ()
      | .none => do
          Act.modify Fs.clearPrimary
          mfsFormat.run

/-! ## The primary mark -/

/-- The best primary mark among the readable superblock copies of a volume. -/
def sbProbeScan (vol : Nat) : List Nat → Option Nat → Act Fs Unit (Option Nat)
  | [], best => pure best
  | copy :: rest, best => do
      match ← Act.attempt (blockReadDev vol copy) with
      | some (.super sb) =>
        if sb.version = MFS_VERSION then
          sbProbeScan vol rest (some (best.elim sb.primary (max sb.primary)))
        else sbProbeScan vol rest best
      | _ => sbProbeScan vol rest best

def mfsSbProbe (vol : Nat) : Act Fs Unit (Option Nat) := do
  match ← Act.attempt flushRun with
  | none => pure none
  | some _ => sbProbeScan vol (List.range MFS_SB_COPIES) none

def mfsPrimaryOfVol (vol : Nat) : Act Fs Unit Nat := do
  let serial ← mfsSbProbe vol
  pure (serial.getD 0)

/-- The highest primary mark of the other MorionFS volumes. -/
def maxPrimary (target : Nat) : List VolumeDesc → Nat → Act Fs Unit Nat
  | [], best => pure best
  | d :: rest, best =>
    if d.kind = .mfs ∧ d.id ≠ target then do
      let serial ← mfsPrimaryOfVol d.id
      maxPrimary target rest (max best serial)
    else maxPrimary target rest best

def mfsNextPrimarySerial (target : Nat) : Act Fs Unit Nat := fun s =>
  Act.after (mfsPrimaryOfVol target s) fun own s' =>
    Act.after (maxPrimary target s'.env.volumes own s') fun best s'' => (.ok (best + 1), s'')

/-! ## Switching -/

/-- `vol_find_desc`. -/
def Env.findVolume (e : Env) (vol : Nat) : Option VolumeDesc := e.volumes.find? fun d => d.id == vol

/-- Make `vol` the current volume. -/
def Fs.setCurVol (vol sectors : Nat) (s : Fs) : Fs :=
  { s with mem := { s.mem with curVol := vol, curSectors := sectors } }

/-- Forget the entry that the last path resolution found. -/
def Fs.clearLeaf (s : Fs) : Fs := { s with mem := { s.mem with leaf := MFS_LOC_EMPTY } }

def mfsSwitchVol (vol : Nat) : Act Fs Unit Unit := do
  flushRun
  Act.modify fun s => (s.setCurVol vol ((s.env.findVolume vol).elim 0 (·.sectors))).clearLeaf
  mfsLoadState.run

/-- `INSTALL_MODE` of the everyday image. -/
def INSTALL_MODE : Bool := false

/-- Report the primary mark as it can be read back. -/
def landedSerial (vol : Nat) : Act Fs Unit Nat := do
  let landed ← mfsPrimaryOfVol vol
  if landed = 0 then Act.throw () else pure landed

/-- `mfs_mkfs_volume` on a volume that may be overwritten. -/
def mkfsOn (desc : VolumeDesc) : Act Fs Unit Nat := fun s =>
  Act.after (mfsNextPrimarySerial desc.id s) fun serial s₁ =>
    let target := (s₁.setCurVol desc.id desc.sectors).clearLeaf
    let formatted := mfsFormat.run
      { target with mem := target.mem.setVol fun v => { v with primarySerial := serial } }
    let back := formatted.2.setCurVol s.mem.curVol s.mem.curSectors
    Act.after (mfsLoadState.run back) fun _ s₂ =>
      match formatted.1 with
      | .error _ => (.error (), s₂)
      | .ok _ => landedSerial desc.id s₂

def mfsMkfsVolume (vol : Nat) (force : Bool) : Act Fs Unit Nat := fun s =>
  match s.env.findVolume vol with
  | none => (.error (), s)
  | some desc =>
    if desc.kind = .foreign ∧ ¬ (force || INSTALL_MODE) then (.error (), s) else mkfsOn desc s

/-- `mfs_set_primary_volume` on a MorionFS volume. -/
def setPrimaryOn (desc : VolumeDesc) : Act Fs Unit Nat := fun s =>
  Act.after (mfsNextPrimarySerial desc.id s) fun serial s₁ =>
    let loaded := mfsLoadState.run (s₁.setCurVol desc.id desc.sectors).clearLeaf
    match loaded.1 with
    | .error _ => (.error (), (mfsLoadState.run (loaded.2.setCurVol s.mem.curVol s.mem.curSectors)).2)
    | .ok _ =>
      let flushed := mfsBmpFlush.run
        { loaded.2 with mem := loaded.2.mem.setVol fun v => { v with primarySerial := serial } }
      let back := flushed.2.setCurVol s.mem.curVol s.mem.curSectors
      Act.after (mfsLoadState.run back) fun _ s₂ =>
        match flushed.1 with
        | .error _ => (.error (), s₂)
        | .ok _ => landedSerial desc.id s₂

def mfsSetPrimaryVolume (vol : Nat) : Act Fs Unit Nat := fun s =>
  match s.env.findVolume vol with
  | none => (.error (), s)
  | some desc =>
    Act.after (mfsSbProbe vol s) fun probed s₁ =>
      match probed with
      | none => (.error (), s₁)
      | some _ => setPrimaryOn desc s₁

end MorionOS.Mfs
