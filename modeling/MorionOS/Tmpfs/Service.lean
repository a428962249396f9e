import MorionOS.Vfs.Paths
import Mathlib.Data.List.FinRange
import Mathlib.Logic.Function.Basic

/-!
# The memory file system

`tmpfs_srv` keeps everything in three tables: nodes with their normalised paths, the
bytes of all files in one area that is only ever extended, and open descriptors that
hold the number of a node.  Which node is in which directory is read off the paths.
`handle` is one round of the loop of `run`.

A request carries what the service takes out of the message, and a reply what it
answers together with what it writes into the page of the client.

Names are those of the source, in camel case and without `tmp_`.
-/

namespace MorionOS.Tmpfs

open Function
open Vfs (Path SLASH PAYLOAD_LEN)
open Kernel (U64_MAX)

/-! ## Paths -/

def DOT : UInt8 := 0x2E

def TMP_PATH_MAX : Nat := PAYLOAD_LEN

def tmpNormComponent (seg : Path) : Option Path :=
  let base := seg.takeWhile (· != DOT)
  let ext := (seg.dropWhile (· != DOT)).drop 1
  if 1 < seg.count DOT then none
  else if base = [] ∨ 8 < base.length ∨ 3 < ext.length then none
  else some (if ext = [] then base else base ++ DOT :: ext)

/-- `while n > least && p(path[n - 1]) { n -= 1 }`. -/
def backWhile (least : Nat) (p : UInt8 → Bool) (path : Path) : Nat → Nat
  | 0 => 0
  | n + 1 => if least < n + 1 ∧ p (path.getD n 0) then backWhile least p path n else n + 1

/-- What `..` does to the path so far. -/
def dropComponent (out : Path) : Path :=
  if 1 < out.length then
    let k := backWhile 0 (· != SLASH) out (out.length - 1)
    out.take (if 1 < k then k - 1 else 1)
  else out

/-- One segment of `tmp_normalize`; `out` is what has been written. -/
def normalizeStep (out seg : Path) : Option Path :=
  if seg = [DOT] then some out
  else if seg = [DOT, DOT] then some (dropComponent out)
  else do
    let comp ← tmpNormComponent seg
    let out ←
      if 1 < out.length then if TMP_PATH_MAX < out.length + 1 then none else some (out ++ [SLASH])
      else some out
    if TMP_PATH_MAX < out.length + comp.length then none else some (out ++ comp)

/-- The segments that the loop of `tmp_normalize` cuts a text into. -/
def segments (bytes : Path) : List Path := (bytes.splitOnP (· == SLASH)).filter (· ≠ [])

def tmpNormalize (path : Path) : Option Path :=
  if path.head? ≠ some SLASH then none else (segments path.tail).foldlM normalizeStep [SLASH]

def tmpParent (path : Path) : Path :=
  let n := backWhile 1 (· != SLASH) path path.length
  let m := backWhile 1 (· == SLASH) path n
  path.take (if m = 0 then 1 else m)

/-- A name in the eleven bytes of a directory entry, padded with blanks. -/
def shortName (seg : Path) : List UInt8 :=
  let base := seg.takeWhile (· != DOT)
  let ext := (seg.dropWhile (· != DOT)).drop 1
  base.take 8 ++ List.replicate (8 - base.length) 0x20 ++ (ext.take 3 ++ List.replicate (3 - ext.length) 0x20)

def tmpName83 (path : Path) : List UInt8 :=
  shortName (path.drop (backWhile 1 (· != SLASH) path path.length))

/-! ## The statics -/

def TMP_MAX_NODES : Nat := 32
def TMP_DATA_CAP : Nat := 32 * 1024
def TMP_MAX_FD : Nat := 16
def U32_MAX : Nat := 2 ^ 32 - 1

/-- `size_of::<DirEntry>()`. -/
def DIR_ENTRY_SIZE : Nat := 176
def RESULT_MAX_ENTRIES : Nat := 4096 / DIR_ENTRY_SIZE

/-- `size_of::<Stat>()`. -/
def STAT_SIZE : Nat := 48

abbrev Slot := Fin TMP_MAX_NODES
abbrev Fd := Fin TMP_MAX_FD

structure TmpNode where
  used : Bool
  isDir : Bool
  size : Nat
  cap : Nat
  dataOff : Nat
  /-- the first `path_len` bytes of the path -/
  path : Path

def TMP_NODE_EMPTY : TmpNode := ⟨false, false, 0, 0, 0, []⟩

/-- The statics of the service. -/
structure Srv where
  nodes : Slot → TmpNode
  data : Nat → UInt8
  dataUsed : Nat
  /-- the node of a descriptor in use -/
  fds : Fd → Option Slot

variable (s : Srv)

def Srv.setNode (i : Slot) (nd : TmpNode) : Srv := { s with nodes := update s.nodes i nd }

/-! ## The tables -/

def Srv.find (s : Srv) (path : Path) : Option Slot :=
  (List.finRange TMP_MAX_NODES).find? fun i => (s.nodes i).used && (s.nodes i).path == path

/-- The node that `tmp_alloc_node` takes. -/
def Srv.unusedNode : Option Slot := (List.finRange TMP_MAX_NODES).find? fun i => !(s.nodes i).used

def Srv.allocNode (path : Path) (isDir : Bool) : Option (Slot × Srv) :=
  if path = [] ∨ TMP_PATH_MAX < path.length then none
  else s.unusedNode.map fun i => (i, s.setNode i ⟨true, isDir, 0, 0, 0, path⟩)

/-- The nodes in use, in the order of the table. -/
def Srv.usedNodes : List Slot := (List.finRange TMP_MAX_NODES).filter fun i => (s.nodes i).used

/-- The test that `tmp_dir_empty` and readdir make of a node. -/
def TmpNode.childOf (nd : TmpNode) (dir : Path) : Bool := nd.path != dir && tmpParent nd.path == dir

def Srv.dirEmpty (dir : Path) : Bool := s.usedNodes.all fun i => !(s.nodes i).childOf dir

def Srv.dataAlloc (need : Nat) : Option (Nat × Srv) :=
  if TMP_DATA_CAP < s.dataUsed + need then none
  else some (s.dataUsed, { s with dataUsed := s.dataUsed + need })

/-- `tmp_fd_alloc`: the first free descriptor, or `u64::MAX`. -/
def Srv.fdAlloc (node : Slot) : Nat × Srv :=
  match (List.finRange TMP_MAX_FD).find? fun fd => (s.fds fd).isNone with
  | some fd => (fd, { s with fds := update s.fds fd (some node) })
  | none => (U64_MAX, s)

def Srv.fdNode (fd : Nat) : Option Slot :=
  if inside : fd < TMP_MAX_FD then s.fds ⟨fd, inside⟩ else none

def Srv.fdFree (fd : Nat) : Nat × Srv :=
  if inside : fd < TMP_MAX_FD then
    if (s.fds ⟨fd, inside⟩).isSome then (1, { s with fds := update s.fds ⟨fd, inside⟩ none })
    else (0, s)
  else (0, s)

/-! ## Requests -/

inductive Request where
  | openPath (path : Path)
  | read (fd offset count : Nat)
  /-- `bytes` are the `count` bytes of the buffer -/
  | write (fd offset : Nat) (bytes : List UInt8)
  | readdir (fd : Nat)
  | close (fd : Nat)
  | creat (path : Path)
  | mkdir (path : Path)
  | unlink (path : Path)
  | rmdir (path : Path)
  | stat (path : Path)
  | other

/-- `DirEntry::short`. -/
structure DirEntry where
  name : List UInt8
  size : Nat
  isDir : Bool
deriving DecidableEq

/-- What a request leaves in the page of the client. -/
inductive Page where
  | untouched
  | bytes (content : List UInt8)
  | entries (content : List DirEntry)
  | stat (size : Nat) (isDir : Bool)
deriving DecidableEq

structure Reply where
  value : Nat
  page : Page
deriving DecidableEq

def Reply.fail : Reply := ⟨U64_MAX, .untouched⟩
def Reply.of (value : Nat) : Reply := ⟨value, .untouched⟩

/-! ## The loop -/

def Srv.openPath (path : Path) : Reply × Srv :=
  match (tmpNormalize path).bind s.find with
  | some i => let (fd, s) := s.fdAlloc i; (.of fd, s)
  | none => (.fail, s)

/-- `count` bytes of the data area. -/
def Srv.bytesAt (off count : Nat) : List UInt8 := (List.range count).map fun j => s.data (off + j)

def Srv.read (fd offset count : Nat) : Reply :=
  if U32_MAX < offset then .fail
  else
    match s.fdNode fd with
    | none => .fail
    | some i =>
      let nd := s.nodes i
      if nd.isDir then .fail
      else if nd.size ≤ offset then ⟨0, .bytes []⟩
      else
        let cnt := min count (nd.size - offset)
        ⟨cnt, .bytes (s.bytesAt (nd.dataOff + offset) cnt)⟩

/-- `copy_nonoverlapping` into the data area. -/
def copyTo (data : Nat → UInt8) (dst : Nat) (src : Nat → UInt8) (count : Nat) : Nat → UInt8 :=
  fun j => if dst ≤ j ∧ j < dst + count then src (j - dst) else data j

/-- The place for the data of a node that is to hold `last` bytes: a new one when the old one is too
small and a new one can be had. -/
def Srv.place (nd : TmpNode) (last : Nat) : Srv × Nat × Nat :=
  if nd.cap < last then
    match s.dataAlloc last with
    | some (o, s) => ({ s with data := copyTo s.data o (fun j => s.data (nd.dataOff + j)) nd.cap }, o, last)
    | none => (s, nd.dataOff, nd.cap)
  else (s, nd.dataOff, nd.cap)

def Srv.write (fd offset : Nat) (bytes : List UInt8) : Reply × Srv :=
  if U32_MAX < offset then (.fail, s)
  else
    match s.fdNode fd with
    | none => (.fail, s)
    | some i =>
      let nd := s.nodes i
      if nd.isDir then (.fail, s)
      else
        let last := offset + bytes.length
        let (s, off, cap) := s.place nd last
        if cap < last then (.fail, s)
        else
          let s := { s with data := copyTo s.data (off + offset) (bytes.getD · 0) bytes.length }
          (.of bytes.length, s.setNode i { nd with dataOff := off, cap := cap, size := max nd.size last })

def Srv.dirEntry (i : Slot) : DirEntry :=
  let nd := s.nodes i
  ⟨tmpName83 nd.path, if nd.isDir then 0 else nd.size, nd.isDir⟩

def Srv.readdir (fd : Nat) : Reply :=
  match s.fdNode fd with
  | none => .fail
  | some i =>
    if (s.nodes i).isDir then
      let children := s.usedNodes.filter fun j => (s.nodes j).childOf (s.nodes i).path
      let entries := (children.take RESULT_MAX_ENTRIES).map s.dirEntry
      ⟨entries.length * DIR_ENTRY_SIZE, .entries entries⟩
    else .fail

/-- The directory that a new path goes into is there. -/
def Srv.parentIsDir (path : Path) : Bool :=
  (s.find (tmpParent path)).any fun i => (s.nodes i).isDir

def Srv.creat (path : Path) : Reply × Srv :=
  match tmpNormalize path with
  | none => (.fail, s)
  | some canon =>
    match s.find canon with
    | some i =>
      if (s.nodes i).isDir then (.fail, s)
      else let (fd, s) := s.fdAlloc i; (.of fd, s)
    | none =>
      if s.parentIsDir canon then
        match s.allocNode canon false with
        | some (i, s) => let (fd, s) := s.fdAlloc i; (.of fd, s)
        | none => (.fail, s)
      else (.fail, s)

def Srv.mkdir (path : Path) : Reply × Srv :=
  match tmpNormalize path with
  | none => (.fail, s)
  | some canon =>
    if 1 < canon.length ∧ s.find canon = none ∧ s.parentIsDir canon then
      match s.allocNode canon true with
      | some (_, s) => (.of 1, s)
      | none => (.fail, s)
    else (.fail, s)

def Srv.release (i : Slot) : Srv := s.setNode i { s.nodes i with used := false }

def Srv.unlink (path : Path) : Reply × Srv :=
  match (tmpNormalize path).bind s.find with
  | some i => if (s.nodes i).isDir then (.fail, s) else (.of 1, s.release i)
  | none => (.fail, s)

def Srv.rmdir (path : Path) : Reply × Srv :=
  match tmpNormalize path with
  | none => (.fail, s)
  | some canon =>
    if 1 < canon.length then
      match s.find canon with
      | some i => if (s.nodes i).isDir && s.dirEmpty canon then (.of 1, s.release i) else (.fail, s)
      | none => (.fail, s)
    else (.fail, s)

def Srv.stat (s : Srv) (path : Path) : Reply :=
  match (tmpNormalize path).bind s.find with
  | some i => ⟨STAT_SIZE, .stat (s.nodes i).size (s.nodes i).isDir⟩
  | none => .fail

/-- One request. -/
def Srv.handle : Request → Reply × Srv
  | .openPath path => s.openPath path
  | .read fd offset count => (s.read fd offset count, s)
  | .write fd offset bytes => s.write fd offset bytes
  | .readdir fd => (s.readdir fd, s)
  | .close fd => let (r, s) := s.fdFree fd; (.of r, s)
  | .creat path => s.creat path
  | .mkdir path => s.mkdir path
  | .unlink path => s.unlink path
  | .rmdir path => s.rmdir path
  | .stat path => (s.stat path, s)
  | .other => (.fail, s)

def rootSlot : Slot := ⟨0, by decide⟩

/-- The statics at power on, with the root directory in the first node. -/
def boot : Srv where
  nodes := update (fun _ => TMP_NODE_EMPTY) rootSlot ⟨true, true, 0, 0, 0, [SLASH]⟩
  data _ := 0
  dataUsed := 0
  fds _ := none

end MorionOS.Tmpfs
