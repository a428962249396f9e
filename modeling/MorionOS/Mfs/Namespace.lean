import MorionOS.Mfs.Path
import MorionOS.Mfs.FileMap
import MorionOS.Mfs.Load

/-!
# Requests that change the name space or a node

Each request normalises its paths, resolves what they name, checks access and
then changes directories and inodes one commit after the other.  A request that
fails replies with an error code; what it has committed until then stays.
-/

namespace MorionOS.Mfs

open StateAct Layered

/-! ## Replies -/

def U64_MAX : Nat := 2 ^ 64 - 1
def MFS_ERR_BASE : Nat := 0xFFFFFFFFFFFF0000

def mfsErr (code : Nat) : Nat := MFS_ERR_BASE ||| (code &&& 0xFFFF)

def mfsIsErr (v : Nat) : Bool := v >>> 48 == 0xFFFF

@[simp] theorem mfsIsErr_mfsErr (code : Nat) : mfsIsErr (mfsErr code) = true := by
  have small : (code &&& 0xFFFF) >>> 48 = 0 := by
    rw [Nat.shiftRight_eq_div_pow]
    exact Nat.div_eq_of_lt (lt_of_le_of_lt Nat.and_le_right (by norm_num))
  rw [mfsIsErr, mfsErr, Nat.shiftRight_or_distrib, small]
  rfl

def MFS_EPERM : Nat := 1
def MFS_EACCES : Nat := 2
def MFS_ENOENT : Nat := 3
def MFS_EEXIST : Nat := 4
def MFS_ENOTDIR : Nat := 5
def MFS_EISDIR : Nat := 6
def MFS_EINVAL : Nat := 8
def MFS_EIO : Nat := 11

/-- Write and search permission. -/
def MFS_ACC_WX : Nat := MFS_ACC_W ||| MFS_ACC_X

/-- The last component of a path. -/
def leafName (canon : Canon) : Name := canon.getLast?.getD []

/-! ## Sticky directories -/

/-- The owner of a node for the sticky rule; an unreadable node counts as the system's. -/
def ownerOf (blk : Nat) (isDir : Bool) : Op Nat Nat := do
  match ← attempt (mfsReadBlk blk) with
  | some b => pure (b.mdAs isDir).uid
  | none => pure MFS_UID_ROOT

/-- In a sticky directory only the owner of the node, the owner of the directory and the system
may remove an entry. -/
def checkSticky (dirMd : Meta) (cred : Cred) (owner : Op Nat Nat) : Op Nat Unit :=
  if dirMd.sticky && cred.uid != MFS_UID_ROOT then do
    let uid ← owner
    ensure (cred.uid == dirMd.uid || cred.uid == uid) (mfsErr MFS_EACCES)
  else pure ()

/-! ## Renaming -/

/-- The type of the node in a block, from its magic. -/
def mfsNodeType (blk : Nat) : Op Unit EntType := do
  let b ← mfsReadBlk blk
  ofOption b.nodeType ()

/-- A directory that is to be replaced has to be empty. -/
def ensureEmpty (ino : Nat) (typ : EntType) : Op Nat Unit :=
  if typ = .dir then do
    let empty ← orErr (mfsDirIsEmpty ino) U64_MAX
    ensure empty U64_MAX
  else pure ()

/-- The entry that a rename replaces: it is deleted and its inode released. -/
def replaceEntry (dIno : Nat) (sTyp : EntType) : Op Nat Unit := do
  let dBlk ← orErr (allocatedBlock dIno) U64_MAX
  let dTyp ← orErr (mfsNodeType dBlk) U64_MAX
  ensure (dTyp == sTyp) U64_MAX
  ensureEmpty dIno dTyp
  let dLoc ← getMem fun m => m.leaf
  orErr (mfsDirDelete dLoc) U64_MAX
  orErr (mfsFreeIno dIno) U64_MAX

/-- The destination may exist already. -/
def replaceTarget (dc : Canon) (sTyp : EntType) : Op Nat Unit := do
  match ← attempt (mfsResolveNoFollow dc) with
  | none => pure ()
  | some dIno => replaceEntry dIno sTyp

/-- The second half of a rename: the new entry and then the removal of the old one. -/
def moveEntry (sc dc : Canon) (sIno : Nat) (sTyp : EntType) (cred : Cred) : Op Nat Nat := do
  let dParent ← orErr (mfsResolve dc.dropLast) (mfsErr MFS_ENOENT)
  let _ ← orErr (mfsCheckDirIno dParent cred MFS_ACC_WX) (mfsErr MFS_EACCES)
  orErr (mfsDirInsert dParent (leafName dc) sIno sTyp) U64_MAX
  let _ ← orErr (mfsResolveNoFollow sc) U64_MAX
  let sLoc ← getMem fun m => m.leaf
  orErr (mfsDirDelete sLoc) U64_MAX
  pure 1

/-- `mfs_rename` of two different paths, neither of which is the root. -/
def renameCanon (sc dc : Canon) (cred : Cred) : Op Nat Nat := do
  let sIno ← orErr (mfsResolveNoFollow sc) U64_MAX
  let sBlk ← orErr (allocatedBlock sIno) U64_MAX
  let sTyp ← orErr (mfsNodeType sBlk) U64_MAX
  ensure (!(sTyp == .dir && sc.isPrefixOf dc)) U64_MAX
  let sParent ← orErr (mfsResolve sc.dropLast) (mfsErr MFS_ENOENT)
  let pd ← orErr (mfsCheckDirIno sParent cred MFS_ACC_WX) (mfsErr MFS_EACCES)
  checkSticky pd.md cred (ownerOf sBlk (sTyp == .dir))
  replaceTarget dc sTyp
  moveEntry sc dc sIno sTyp cred

def mfsRename (src dst : List UInt8) (cred : Cred) : Op Nat Nat := do
  let sc ← ofOption (mfsNormalize src) U64_MAX
  let dc ← ofOption (mfsNormalize dst) U64_MAX
  ensure (sc != [] && dc != []) U64_MAX
  if sc = dc then pure 1 else renameCanon sc dc cred

/-! ## Changing metadata -/

/-- Change the metadata of a node. -/
def Block.mapMd (f : Meta → Meta) : Block → Option Block
  | .dir d => some (.dir { d with md := f d.md })
  | .file b => some (.file { b with md := f b.md })
  | .link l => some (.link { l with md := f l.md })
  | _ => none

/-- The metadata of a node, whatever its layout. -/
def Block.md : Block → Meta
  | .dir d => d.md
  | .file f => f.md
  | .link l => l.md
  | _ => .zero

/-- What `mfs_chmod` and `mfs_chown` share: `allowed` decides on the metadata of the node. -/
def changeMeta (path : List UInt8) (allowed : Meta → Bool) (f : Meta → Meta) : Op Nat Nat := do
  let canon ← ofOption (mfsNormalize path) U64_MAX
  let ino ← orErr (mfsResolve canon) (mfsErr MFS_ENOENT)
  let blk ← orErr (allocatedBlock ino) U64_MAX
  let b ← orErr (mfsReadBlk blk) (mfsErr MFS_EIO)
  ensure b.nodeType.isSome (mfsErr MFS_EIO)
  ensure (allowed b.md) (mfsErr MFS_EPERM)
  let now ← mfsNow
  let b' ← ofOption (b.mapMd fun md => (f md).touchCtime now) (mfsErr MFS_EIO)
  let _ ← orErr (mfsCommitObject ino b') U64_MAX
  pure 1

/-- `mfs_chmod`: for the owner and the system. -/
def mfsChmod (path : List UInt8) (mode : Nat) (cred : Cred) : Op Nat Nat :=
  changeMeta path (fun md => cred.uid == MFS_UID_ROOT || cred.uid == md.uid) fun md => md.setMode mode

/-- `mfs_chown`: for the system only. -/
def mfsChown (path : List UInt8) (uid gid : Nat) (cred : Cred) : Op Nat Nat :=
  changeMeta path (fun _ => cred.uid == MFS_UID_ROOT) fun md => { md with uid := uid, gid := gid }

/-! ## Creating -/

/-- The parent directory for a new entry, with the access checks. -/
def newEntryParent (canon : Canon) (cred : Cred) : Op Nat Nat := do
  let parent ← orErr (mfsResolve canon.dropLast) (mfsErr MFS_ENOENT)
  let _ ← orErr (mfsCheckDirIno parent cred MFS_ACC_WX) (mfsErr MFS_EACCES)
  pure parent

/-- Refuse a name that the directory has already. -/
def refuseExisting (parent : Nat) (comp : Name) : Op Nat Unit := do
  match ← attempt (mfsDirLookup parent comp) with
  | some _ => throw (mfsErr MFS_EEXIST)
  | none => pure ()

/-- Write a new object, give it an inode and enter it into a directory. -/
def addNode (parent : Nat) (comp : Name) (blk : Block) (typ : EntType) : Op Nat Unit := do
  let obj ← orErr (mfsCommit blk) U64_MAX
  let ino ← orErr (mfsInoAllocFor obj) U64_MAX
  orErr (mfsDirInsert parent comp ino typ) U64_MAX

/-- An empty file. -/
def FileBlock.empty (md : Meta) : FileBlock := ⟨0, 0, fun _ => 0, 0, 0, 0, md⟩

/-- A new file or directory node. -/
def newNode (isDir : Bool) (owner : Nat) (cred : Cred) (now : Nat) : Block :=
  if isDir then .dir (.empty (initMeta MFS_FTYPE_DIR owner cred MFS_MODE_DIR now))
  else .file (.empty (initMeta MFS_FTYPE_FILE owner cred MFS_MODE_FILE now))

/-- The permissions of the descriptor for a new file. -/
def creatorPerm (cred : Cred) : Nat :=
  if cred.uid = MFS_UID_ROOT then 7 else (MFS_MODE_FILE >>> 6) &&& 7

/-- `mfs_create` where the path names something already. -/
def openExisting (ino : Nat) (isDir : Bool) (cred : Cred) : Op Nat Nat := do
  ensure (!isDir) (mfsErr MFS_EEXIST)
  let blk ← orErr (allocatedBlock ino) U64_MAX
  let dir ← orErr (mfsIsDir blk) U64_MAX
  ensure (!dir) (mfsErr MFS_EISDIR)
  let b ← orErr (mfsReadBlk blk) (mfsErr MFS_EACCES)
  ensure ((b.mdAs false).checkAccess cred MFS_ACC_W) (mfsErr MFS_EACCES)
  pure ((b.mdAs false).effectivePerm cred)

/-- `mfs_create` of something new. -/
def createNew (canon : Canon) (isDir : Bool) (owner : Nat) (cred : Cred) : Op Nat Unit := do
  ensure (canon != []) U64_MAX
  let parent ← newEntryParent canon cred
  refuseExisting parent (leafName canon)
  let now ← mfsNow
  addNode parent (leafName canon) (newNode isDir owner cred now) (if isDir then .dir else .file)

/-- `mfs_create` up to the descriptor.  For a file the result is what the descriptor records, its
path and its permissions. -/
def mfsCreate (path : List UInt8) (isDir : Bool) (owner : Nat) (cred : Cred) :
    Op Nat (Option (Canon × Nat)) := do
  let canon ← ofOption (mfsNormalize path) U64_MAX
  match ← attempt (mfsResolve canon) with
  | some ino => do
      let perm ← openExisting ino isDir cred
      pure (some (canon, perm))
  | none => do
      createNew canon isDir owner cred
      pure (if isDir then none else some (canon, creatorPerm cred))

def mfsSymlink (target linkpath : List UInt8) (owner : Nat) (cred : Cred) : Op Nat Nat := do
  ensure (target != [] && decide (target.length ≤ MFS_LINK_MAX)) U64_MAX
  let canon ← ofOption (mfsNormalize linkpath) U64_MAX
  ensure (canon != []) U64_MAX
  let existing ← attempt (mfsResolveNoFollow canon)
  ensure existing.isNone U64_MAX
  let parent ← newEntryParent canon cred
  refuseExisting parent (leafName canon)
  let now ← mfsNow
  addNode parent (leafName canon)
    (.link ⟨target.length, target, initMeta MFS_FTYPE_LINK owner cred MFS_MODE_LINK now⟩) .link
  pure 1

/-! ## Linking -/

/-- Without write access only the owner and the system may link to a file. -/
def checkLinkSource (blk : Nat) (cred : Cred) : Op Nat Unit :=
  if cred.uid = MFS_UID_ROOT then pure ()
  else do
    match ← attempt (mfsReadBlk blk) with
    | some b =>
      ensure (cred.uid == (b.mdAs false).uid || (b.mdAs false).checkAccess cred MFS_ACC_W)
        (mfsErr MFS_EPERM)
    | none => pure ()

/-- Write a file node with another link count. -/
def setNlink (ino : Nat) (f : FileBlock) (nlink : Nat) : Op Unit Unit := do
  let now ← mfsNow
  let _ ← mfsCommitObject ino (.file { f with md := { f.md with nlink := nlink }.touchCtime now })
  pure ()

/-- `mfs_link` of two paths, neither of which is the root. -/
def linkCanon (sc dc : Canon) (cred : Cred) : Op Nat Nat := do
  let sIno ← orErr (mfsResolve sc) U64_MAX
  let sBlk ← orErr (allocatedBlock sIno) U64_MAX
  let dir ← orErr (mfsIsDir sBlk) U64_MAX
  ensure (!dir) U64_MAX
  checkLinkSource sBlk cred
  let existing ← attempt (mfsResolve dc)
  ensure existing.isNone (mfsErr MFS_EEXIST)
  let parent ← newEntryParent dc cred
  orErr (mfsDirInsert parent (leafName dc) sIno .file) U64_MAX
  let f ← orErr (fileNode sIno) U64_MAX
  orErr (setNlink sIno f (max f.md.nlink 1 + 1)) U64_MAX
  pure 1

def mfsLink (src dst : List UInt8) (cred : Cred) : Op Nat Nat := do
  let sc ← ofOption (mfsNormalize src) U64_MAX
  let dc ← ofOption (mfsNormalize dst) U64_MAX
  ensure (sc != [] && dc != []) U64_MAX
  linkCanon sc dc cred

/-! ## Removing -/

/-- `mfs_remove` of a directory entry that names a directory. -/
def removeDir (ino : Nat) (loc : MfsLoc) : Op Nat Unit := do
  let empty ← orErr (mfsDirIsEmpty ino) U64_MAX
  ensure empty U64_MAX
  orErr (mfsDirDelete loc) U64_MAX
  orErr (mfsFreeIno ino) U64_MAX

/-- One name less for a file; the last name takes the inode with it. -/
def dropName (ino : Nat) : Op Unit Unit := do
  let f ← fileNode ino
  if 1 < f.md.nlink then setNlink ino f (f.md.nlink - 1) else mfsFreeIno ino

/-- `mfs_remove` of a directory entry that names no directory. -/
def removeLeaf (ino : Nat) (loc : MfsLoc) (typ : EntType) : Op Nat Unit := do
  orErr (mfsDirDelete loc) U64_MAX
  if typ = .link then orErr (mfsFreeIno ino) U64_MAX else orErr (dropName ino) U64_MAX

/-- The owner of the node that an entry names, read with the layout the entry claims. -/
def entryOwner (ino : Nat) (isDir : Bool) : Op Nat Nat := do
  match ← attempt (mfsInoBlock ino) with
  | some (n + 1) => ownerOf (n + 1) isDir
  | _ => pure MFS_UID_ROOT

/-- `mfs_remove` once the entry is known to be of the kind asked for. -/
def removeEntry (ino : Nat) (loc : MfsLoc) (typ : EntType) : Op Nat Unit :=
  if typ = .dir then removeDir ino loc else removeLeaf ino loc typ

/-- `mfs_remove` of a path that is not the root. -/
def removeCanon (canon : Canon) (wantDir : Bool) (cred : Cred) : Op Nat Nat := do
  let parent ← orErr (mfsResolve canon.dropLast) (mfsErr MFS_ENOENT)
  let pd ← orErr (mfsCheckDirIno parent cred MFS_ACC_WX) (mfsErr MFS_EACCES)
  let ino ← orErr (mfsResolveNoFollow canon) (mfsErr MFS_ENOENT)
  let loc ← getMem fun m => m.leaf
  ensure (loc.dirIno != 0) (mfsErr MFS_ENOENT)
  let e ← orErr (slotAt loc) (mfsErr MFS_EIO)
  checkSticky pd.md cred (entryOwner ino (e.typ == .dir))
  ensure (wantDir == (e.typ == .dir)) (mfsErr (if e.typ = .dir then MFS_EISDIR else MFS_ENOTDIR))
  removeEntry ino loc e.typ
  pure 1

def mfsRemove (path : List UInt8) (wantDir : Bool) (cred : Cred) : Op Nat Nat := do
  let canon ← ofOption (mfsNormalize path) U64_MAX
  ensure (canon != []) U64_MAX
  removeCanon canon wantDir cred

/-! ## Snapshots -/

/-- Make room in the ring of snapshots: the oldest one goes when it is full. -/
def Vol.evictSnap (v : Vol) : Vol :=
  if MFS_MAX_SNAP ≤ v.snapCount then
    { v with
      snaps := fun i => if i + 1 < MFS_MAX_SNAP then v.snaps (i + 1) else v.snaps i
      snapCount := MFS_MAX_SNAP - 1 }
  else v

/-- Record the current state as the newest snapshot. -/
def Vol.pushSnap (v : Vol) : Vol :=
  { v with
    snaps := Function.update v.snaps v.snapCount ⟨v.gen, v.itab, v.inoHint, v.allocNext⟩
    snapCount := v.snapCount + 1 }

/-- `MFS_SNAP_TAG`: the reply is the index of the snapshot. -/
def mfsSnapshot : Op Nat Nat := do
  setVol Vol.evictSnap
  let idx ← getMem fun m => m.vol.snapCount
  setVol Vol.pushSnap
  orErr mfsBmpFlush U64_MAX
  pure idx

/-- The state of the volume that a snapshot describes. -/
def Vol.restore (v : Vol) (s : MfsSnap) : Vol :=
  { v with itab := s.itab, inoHint := s.inoHint, allocNext := s.allocNext, gen := s.gen }

/-- `MFS_SNAPRESTORE_TAG`. -/
def mfsSnapRestore (idx : Nat) : Op Nat Nat := do
  let v ← getMem fun m => m.vol
  ensure (decide (idx < v.snapCount)) U64_MAX
  setVol fun v => v.restore (v.snaps idx)
  orErr mfsItabReload U64_MAX
  orErr mfsBmpFlush U64_MAX
  pure 1

/-- `MFS_SYNC_TAG`. -/
def mfsSync : Op Nat Nat := do
  orErr mfsBmpFlush U64_MAX
  getMem fun m => m.vol.gen

end MorionOS.Mfs
