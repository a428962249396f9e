import MorionOS.Mfs.FileRead
import MorionOS.Mfs.Fsck
import MorionOS.Mfs.Namespace
import MorionOS.Mfs.Volumes

/-!
# The request loop

Requests come from client domains.  The service derives the identity of the
requester from the domain, collects garbage when space is low, switches to the
volume of the request and dispatches.  Descriptors live in one table that all
clients share; a descriptor records a volume, a path and the permissions that
were computed when it was handed out.
-/

namespace MorionOS.Mfs

open StateAct Layered

/-! ## Descriptors -/

structure MfsFd where
  used : Bool
  isDir : Bool
  vol : Nat
  cred : Cred
  perm : Nat
  path : Canon
deriving DecidableEq

def MFS_FD_EMPTY : MfsFd := ⟨false, false, 0, ⟨MFS_UID_ROOT, MFS_GID_ROOT⟩, 0, []⟩

/-- The state of the service. -/
structure Srv where
  fs : Fs
  fds : List MfsFd
  /-- `MFS_VOL`, the volume for requests that name none. -/
  vol : Nat

/-- `mfs_fd_alloc`: the first unused slot. -/
def fdAlloc (fds : List MfsFd) (fd : MfsFd) : Nat × List MfsFd :=
  match fds.findIdx? fun s => !s.used with
  | some i => (i, fds.set i fd)
  | none => (U64_MAX, fds)

def fdGet (fds : List MfsFd) (fd : Nat) : Option MfsFd := fds[fd]?.filter fun s => s.used

def fdFree (fds : List MfsFd) (fd : Nat) : Nat × List MfsFd :=
  match fdGet fds fd with
  | some s => (1, fds.set fd { s with used := false })
  | none => (0, fds)

/-! ## Identities -/

def MFS_BOOT_DOMAINS : Nat := 26
def MFS_UID_USER : Nat := 1000
def MFS_GID_USER : Nat := 1000

def credOf (domain : Nat) : Cred :=
  if domain < MFS_BOOT_DOMAINS then ⟨MFS_UID_ROOT, MFS_GID_ROOT⟩ else ⟨MFS_UID_USER, MFS_GID_USER⟩

/-! ## Requests -/

/-- The requests, with their payloads decoded. -/
inductive Request where
  | openPath (path : List UInt8)
  | read (fd offset count : Nat)
  | write (fd offset count : Nat) (src : Nat → UInt8)
  | readdir (fd : Nat)
  | close (fd : Nat)
  | creat (path : List UInt8)
  | mkdir (path : List UInt8)
  | unlink (path : List UInt8)
  | rmdir (path : List UInt8)
  | truncate (fd size : Nat)
  | rename (src dst : List UInt8)
  | link (src dst : List UInt8)
  | symlink (target linkpath : List UInt8)
  | chmod (path : List UInt8) (mode : Nat)
  | chown (path : List UInt8) (uid gid : Nat)
  | stat (path : List UInt8)
  | lstat (path : List UInt8)
  | readlink (path : List UInt8)
  | snap
  | snapList
  | snapRestore (idx : Nat)
  | gc
  | volStat
  | fsck (repair : Bool)
  | sync
  | mkfs (vol : Nat) (force : Bool)
  | setPrimary (vol : Nat)
  | other

/-- A message: the sending domain and the volume code of the tag, `0` = default. -/
structure Message where
  sender : Nat
  volEnc : Nat
  req : Request

def volFromEnc (enc defaultVol : Nat) : Nat := if enc = 0 then defaultVol else enc - 1

/-- `vfs::DirEntry` without the short name that is derived from the long one. -/
structure DirEntry where
  name : Name
  size : Nat
  isDir : Bool
  md : Meta

structure Stat where
  size : Nat
  isDir : Bool
  md : Meta

/-- What a request leaves in the page of the client. -/
inductive Result where
  | none
  | bytes (bs : List UInt8)
  | entries (es : List DirEntry)
  | stat (st : Stat)
  | snaps (ss : List MfsSnap)

/-- The reply value and the result page. -/
structure Reply where
  code : Nat
  result : Result

def PAYLOAD_LEN : Nat := 96
def DIR_ENTRY_LEN : Nat := 176
def RESULT_MAX_ENTRIES : Nat := 4096 / DIR_ENTRY_LEN
def DIR_LONG_MAX : Nat := 128
def STAT_LEN : Nat := 48
def SNAP_REC_LEN : Nat := 24

/-! ## Requests that only read -/

def mfsStatInto (blk : Nat) : Op Nat Stat := do
  match ← orErr (mfsReadBlk blk) U64_MAX with
  | .file f => pure ⟨f.size, false, f.md⟩
  | .dir d => pure ⟨0, true, d.md⟩
  | .link l => pure ⟨l.size, false, l.md⟩
  | _ => throw U64_MAX

/-- `VFS_STAT` and `VFS_LSTAT`. -/
def statPath (path : List UInt8) (follow : Bool) (cred : Cred) : Op Nat Stat := do
  let canon ← ofOption (mfsNormalize path) (mfsErr MFS_EINVAL)
  let ino ← orErr (mfsResolveEx canon follow) (mfsErr MFS_ENOENT)
  orErr (mfsCheckTraverse canon cred) (mfsErr MFS_EACCES)
  let blk ← attempt (mfsInoBlock ino)
  mfsStatInto (blk.getD 0)

def mfsReadlink (canon : Canon) : Op Unit (List UInt8) := do
  let ino ← mfsResolveNoFollow canon
  let loc ← getMem fun m => m.leaf
  ensure (loc.dirIno != 0) ()
  let e ← slotAt loc
  ensure (e.typ == .link) ()
  let target ← mfsLinkTarget ino
  pure (target.take (PAYLOAD_LEN - 1))

/-- `VFS_READLINK`. -/
def readlinkPath (path : List UInt8) (cred : Cred) : Op Nat (List UInt8) := do
  let canon ← ofOption (mfsNormalize path) (mfsErr MFS_EINVAL)
  orErr (mfsCheckTraverse canon cred) (mfsErr MFS_EACCES)
  orErr (mfsReadlink canon) U64_MAX

/-- The listing of one record. -/
def emitEntry (e : DirSlot) : Op Unit DirEntry := do
  let isDir := e.typ == .dir
  let name := e.name.take DIR_LONG_MAX
  let fallback : DirEntry := ⟨name, 0, isDir, { Meta.zero with
    mode := if isDir then MFS_MODE_DIR else MFS_MODE_FILE
    nlink := 1 }⟩
  match ← attempt (allocatedBlock e.ino) with
  | none => pure fallback
  | some blk => do
      match ← attempt (mfsReadBlk blk) with
      | none => pure fallback
      | some (.file f) => pure ⟨name, if isDir then 0 else f.size, isDir, (Block.file f).mdAs isDir⟩
      | some (.link l) => pure ⟨name, if isDir then 0 else l.size, isDir, (Block.link l).mdAs isDir⟩
      | some b => pure ⟨name, 0, isDir, b.mdAs isDir⟩

/-- `mfs_dir_emit`: the records of one block until the page is full. -/
def dirEmit : List DirSlot → List DirEntry → Op Unit (List DirEntry)
  | [], out => pure out
  | e :: rest, out =>
    if RESULT_MAX_ENTRIES ≤ out.length then pure out
    else if e.name = [] then dirEmit rest out
    else do
      let entry ← emitEntry e
      dirEmit rest (out ++ [entry])

/-- The records of the extension blocks. -/
def emitExts (slots : Nat → Nat) : List Nat → List DirEntry → Op Unit (List DirEntry)
  | [], out => pure out
  | k :: ks, out =>
    if RESULT_MAX_ENTRIES ≤ out.length then pure out
    else if slots k = 0 then emitExts slots ks out
    else do
      match ← attempt (mfsReadBlk (slots k)) with
      | some (.dir d) => do
          let out' ← dirEmit d.slots out
          emitExts slots ks out'
      | _ => emitExts slots ks out

def mfsReaddir (ino : Nat) : Op Unit (List DirEntry) := do
  let d ← dirNode ino
  let out ← dirEmit d.slots []
  if d.ext = 0 ∨ RESULT_MAX_ENTRIES ≤ out.length then pure out
  else do
    match ← attempt (mfsReadBlk d.ext) with
    | some (.didx slots) => emitExts slots (List.range MFS_DIR_SLOTS) out
    | _ => pure out

/-! ## Opening -/

/-- `VFS_OPEN` up to the descriptor: what the descriptor records. -/
def openNode (path : List UInt8) (cred : Cred) : Op Nat (Canon × Bool × Nat) := do
  let canon ← ofOption (mfsNormalize path) (mfsErr MFS_EINVAL)
  let ino ← orErr (mfsResolve canon) (mfsErr MFS_ENOENT)
  let blk ← orErr (allocatedBlock ino) (mfsErr MFS_ENOENT)
  let b ← orErr (mfsReadBlk blk) (mfsErr MFS_EIO)
  let isDir := b.nodeType == some .dir
  let want := if isDir then MFS_ACC_R ||| MFS_ACC_X else MFS_ACC_R
  ensure ((b.mdAs isDir).checkAccess cred want) (mfsErr MFS_EACCES)
  pure (canon, isDir, (b.mdAs isDir).effectivePerm cred)

/-! ## Dispatch -/

/-- Run a program on the file system part of the state; `page` is what it leaves for the client. -/
def Srv.run {α : Type} (s : Srv) (m : Fs → Except Nat α × Fs) (code : α → Nat) (page : α → Result) :
    Reply × Srv :=
  match m s.fs with
  | (.ok a, fs) => (⟨code a, page a⟩, { s with fs := fs })
  | (.error e, fs) => (⟨e, .none⟩, { s with fs := fs })

variable (s : Srv)

/-- A request whose reply is a number. -/
def Srv.runCode (m : Op Nat Nat) : Reply × Srv := s.run m.run id fun _ => .none

/-- Hand out a descriptor for the current volume. -/
def Srv.openFd (path : Canon) (isDir : Bool) (cred : Cred) (perm : Nat) : Reply × Srv :=
  let r := fdAlloc s.fds ⟨true, isDir, s.fs.mem.curVol, cred, perm, path⟩
  (⟨r.1, .none⟩, { s with fds := r.2 })

/-- `VFS_OPEN`. -/
def Srv.openPath (path : List UInt8) (cred : Cred) : Reply × Srv :=
  match (openNode path cred).run s.fs with
  | (.error e, fs) => (⟨e, .none⟩, { s with fs := fs })
  | (.ok (canon, isDir, perm), fs) => ({ s with fs := fs } : Srv).openFd canon isDir cred perm

/-- `VFS_CREAT` and `VFS_MKDIR`. -/
def Srv.create (path : List UInt8) (isDir : Bool) (owner : Nat) (cred : Cred) : Reply × Srv :=
  match (mfsCreate path isDir owner cred).run s.fs with
  | (.error e, fs) => (⟨e, .none⟩, { s with fs := fs })
  | (.ok none, fs) => (⟨1, .none⟩, { s with fs := fs })
  | (.ok (some (canon, perm)), fs) => ({ s with fs := fs } : Srv).openFd canon false cred perm

/-- Requests through a descriptor: its kind and its permissions are checked, its path is resolved
anew and `act` works on the inode found. -/
def Srv.viaFd {α : Type} (s : Srv) (fd : Nat) (isDir : Bool) (want : Nat)
    (act : Nat → Fs → Except Nat α × Fs) (code : α → Nat) (page : α → Result) : Reply × Srv :=
  match fdGet s.fds fd with
  | none => (⟨mfsErr MFS_EINVAL, .none⟩, s)
  | some f =>
    if f.isDir ≠ isDir then (⟨mfsErr (if isDir then MFS_ENOTDIR else MFS_EISDIR), .none⟩, s)
    else if f.perm &&& want ≠ want then (⟨mfsErr MFS_EACCES, .none⟩, s)
    else
      s.run (fun fs => Act.after (((mfsResolve f.path).orErr (mfsErr MFS_ENOENT)).run fs) act) code page

/-- Turn a failure without a code into `u64::MAX`. -/
def withMax {α : Type} (m : Fs → Except Unit α × Fs) (fs : Fs) : Except Nat α × Fs :=
  Act.relabelled U64_MAX (m fs)

/-- Requests that carry two paths in one page. -/
def Srv.twoPaths (a b : List UInt8) (m : Op Nat Nat) : Reply × Srv :=
  if PAYLOAD_LEN < a.length + 1 + b.length then (⟨U64_MAX, .none⟩, s) else s.runCode m

/-- The snapshots that are listed. -/
def Vol.snapList (v : Vol) : List MfsSnap := (List.range v.snapCount).map v.snaps

/-- The body of the request loop once the right volume is loaded. -/
def Srv.dispatch (sender : Nat) (cred : Cred) : Request → Reply × Srv
  | .openPath path => s.openPath path cred
  | .read fd offset count =>
    s.viaFd fd false MFS_ACC_R (fun ino => withMax (mfsReadFile ino offset count)) List.length .bytes
  | .write fd offset count src =>
    s.viaFd fd false MFS_ACC_W (fun ino => withMax (mfsWriteFile ino offset count src).run) id
      fun _ => .none
  | .readdir fd =>
    s.viaFd fd true (MFS_ACC_R ||| MFS_ACC_X) (fun ino => withMax (mfsReaddir ino).run)
      (fun es => es.length * DIR_ENTRY_LEN) .entries
  | .close fd => (⟨(fdFree s.fds fd).1, .none⟩, { s with fds := (fdFree s.fds fd).2 })
  | .creat path => s.create path false (sender % 65536) cred
  | .mkdir path => s.create path true (sender % 65536) cred
  | .unlink path => s.runCode (mfsRemove path false cred)
  | .rmdir path => s.runCode (mfsRemove path true cred)
  | .truncate fd size =>
    s.viaFd fd false MFS_ACC_W (fun ino => withMax (mfsTruncate ino size).run) id fun _ => .none
  | .rename src dst => s.twoPaths src dst (mfsRename src dst cred)
  | .link src dst => s.twoPaths src dst (mfsLink src dst cred)
  | .symlink target linkpath => s.twoPaths target linkpath (mfsSymlink target linkpath (sender % 65536) cred)
  | .chmod path mode => s.runCode (mfsChmod path mode cred)
  | .chown path uid gid => s.runCode (mfsChown path uid gid cred)
  | .stat path => s.run (statPath path true cred).run (fun _ => STAT_LEN) .stat
  | .lstat path => s.run (statPath path false cred).run (fun _ => STAT_LEN) .stat
  | .readlink path => s.run (readlinkPath path cred).run List.length .bytes
  | .snap => s.runCode mfsSnapshot
  | .snapList =>
    (⟨s.fs.mem.vol.snapCount * SNAP_REC_LEN, .snaps s.fs.mem.vol.snapList⟩, s)
  | .snapRestore idx => s.runCode (mfsSnapRestore idx)
  | .gc => s.run (withMax mfsGc.run) id fun _ => .none
  | .volStat => (⟨(s.fs.mem.vol.total <<< 32) ||| s.fs.mem.vol.freeBlocks, .none⟩, s)
  | .fsck repair => s.run (withMax (mfsFsck repair).run) id fun _ => .none
  | .sync => s.runCode mfsSync
  | .mkfs vol force => s.run (withMax (mfsMkfsVolume vol force)) id fun _ => .none
  | .setPrimary vol => s.run (withMax (mfsSetPrimaryVolume vol)) id fun _ => .none
  | .other => (⟨U64_MAX, .none⟩, s)

/-- The descriptor that decides the volume of a request. -/
def Request.fd : Request → Option Nat
  | .read fd _ _ | .write fd _ _ _ | .readdir fd | .truncate fd _ => some fd
  | _ => none

/-- The volume of a request. -/
def Srv.volumeOf (msg : Message) : Nat :=
  match msg.req.fd.bind (fdGet s.fds) with
  | some f => f.vol
  | none => volFromEnc msg.volEnc s.vol

/-- Low space is dealt with before anything else. -/
def Srv.collected : Srv := { s with fs := (mfsMaybeGc.run s.fs).2 }

/-- Make `vol` the current volume if it is not. -/
def Srv.onVolume (vol : Nat) : Except Unit Unit × Srv :=
  if vol = s.fs.mem.curVol then (.ok (), s)
  else ((mfsSwitchVol vol s.fs).1, { s with fs := (mfsSwitchVol vol s.fs).2 })

/-- The state in which a request is dispatched, unless its volume cannot be loaded. -/
def Srv.prepared (msg : Message) : Except Unit Unit × Srv :=
  s.collected.onVolume (s.collected.volumeOf msg)

/-- One round of the request loop. -/
def Srv.handle (msg : Message) : Reply × Srv :=
  match s.prepared msg with
  | (.error _, s') => (⟨U64_MAX, .none⟩, s')
  | (.ok _, s') => s'.dispatch msg.sender (credOf msg.sender) msg.req

/-- The state after a sequence of requests. -/
def Srv.handleAll (s : Srv) : List Message → Srv
  | [] => s
  | msg :: rest => (s.handle msg).2.handleAll rest

end MorionOS.Mfs
