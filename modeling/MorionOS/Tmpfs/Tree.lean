import MorionOS.Tmpfs.Service

/-!
# A tree of byte arrays

What the memory file system is for.  An object is a directory or an array of bytes
with zeros where nothing was written.  Objects are numbered in the order in which
they are made and a number is never used again, so that `named` and `opened` say which
object a path names and which object a descriptor was opened on.

`Allows` says which replies to a request the tree permits, and `after` what becomes of
the tree.  Left open are which free descriptor an opened file gets, what the listing
of a directory says, whether there is room for a file to grow, and, with `room`,
whether there is room for another path.
-/

namespace MorionOS.Tmpfs

open Function
open Vfs (Path)

structure Object where
  isDir : Bool
  size : Nat
  byte : Nat → UInt8

/-- A new object. -/
def Object.empty (isDir : Bool) : Object := ⟨isDir, 0, fun _ => 0⟩

/-- The array with `bytes` from `offset` on. -/
def Object.write (o : Object) (offset : Nat) (bytes : List UInt8) : Object :=
  { o with
    size := max o.size (offset + bytes.length)
    byte := fun j => if offset ≤ j ∧ j < offset + bytes.length then bytes.getD (j - offset) 0 else o.byte j }

structure Tree where
  /-- how many objects have been made -/
  next : Nat
  object : Nat → Object
  /-- the object that a normalised path names -/
  named : Path → Option Nat
  /-- the object that a descriptor was opened on -/
  opened : Fd → Option Nat

namespace Tree

/-! ## What the tree holds -/

variable (t : Tree)

/-- The object that a path leads to. -/
def resolve (path : Path) : Option Nat := (tmpNormalize path).bind t.named

/-- The object behind the descriptor of a request. -/
def behind (fd : Nat) : Option Nat :=
  if inside : fd < TMP_MAX_FD then t.opened ⟨fd, inside⟩ else none

def parentIsDir (canon : Path) : Bool :=
  (t.named (tmpParent canon)).any fun id => (t.object id).isDir

/-- A new object can get this path. -/
def mayCreate (room : Bool) (canon : Path) : Bool :=
  (t.named canon).isNone && t.parentIsDir canon && room

/-- No other path has this one as its parent. -/
def Bare (canon : Path) : Prop := ∀ p, t.named p ≠ none → p ≠ canon → tmpParent p ≠ canon

/-- What `rmdir` may remove. -/
def MayRemove (canon : Path) (id : Nat) : Prop :=
  1 < canon.length ∧ (t.object id).isDir = true ∧ t.Bare canon

/-! ## Changes -/

/-- Make a new object with this path. -/
def create (canon : Path) (isDir : Bool) : Tree :=
  { t with
    next := t.next + 1
    object := update t.object t.next (.empty isDir)
    named := update t.named canon (some t.next) }

def remove (canon : Path) : Tree := { t with named := update t.named canon none }

def write (t : Tree) (id offset : Nat) (bytes : List UInt8) : Tree :=
  { t with object := update t.object id ((t.object id).write offset bytes) }

/-- The descriptor of the reply is open on `id`. -/
def opens (id : Nat) (r : Reply) : Tree :=
  { t with opened := fun fd => if r = .of fd then some id else t.opened fd }

def close (fd : Nat) : Tree :=
  { t with opened := fun x => if x.val = fd then none else t.opened x }

/-! ## Requests -/

/-- A free descriptor, or none because all are in use. -/
def GivesFd (r : Reply) : Prop :=
  (r = .fail ∧ ∀ fd, t.opened fd ≠ none) ∨ ∃ fd : Fd, t.opened fd = none ∧ r = .of fd

def readReply (fd offset count : Nat) : Reply :=
  if U32_MAX < offset then .fail
  else
    match t.behind fd with
    | none => .fail
    | some id =>
      let o := t.object id
      if o.isDir then .fail
      else
        let n := min count (o.size - offset)
        ⟨n, .bytes ((List.range n).map fun j => o.byte (offset + j))⟩

/-- The replies to a request that the tree permits. -/
def Allows (room : Bool) : Request → Reply → Prop
  | .openPath path, r =>
    match t.resolve path with
    | none => r = .fail
    | some _ => t.GivesFd r
  | .read fd offset count, r => r = t.readReply fd offset count
  | .write fd offset bytes, r =>
    match t.behind fd with
    | none => r = .fail
    | some id =>
      if U32_MAX < offset ∨ (t.object id).isDir then r = .fail
      else r = .of bytes.length ∨ r = .fail ∧ (t.object id).size < offset + bytes.length
  | .readdir fd, r => r ≠ .fail → ∃ id, t.behind fd = some id ∧ (t.object id).isDir = true
  | .close fd, r => r = .of (if (t.behind fd).isSome then 1 else 0)
  | .creat path, r =>
    match tmpNormalize path with
    | none => r = .fail
    | some canon =>
      match t.named canon with
      | some id => if (t.object id).isDir then r = .fail else t.GivesFd r
      | none => if t.mayCreate room canon then t.GivesFd r else r = .fail
  | .mkdir path, r =>
    r = if (tmpNormalize path).any fun canon => 1 < canon.length && t.mayCreate room canon then .of 1 else .fail
  | .unlink path, r =>
    match t.resolve path with
    | none => r = .fail
    | some id => r = if (t.object id).isDir then .fail else .of 1
  | .rmdir path, r =>
    (r = .of 1 ∧ ∃ canon id, tmpNormalize path = some canon ∧ t.named canon = some id ∧ t.MayRemove canon id) ∨
      (r = .fail ∧ ∀ canon id, tmpNormalize path = some canon → t.named canon = some id → ¬t.MayRemove canon id)
  | .stat path, r =>
    match t.resolve path with
    | none => r = .fail
    | some id => r = ⟨STAT_SIZE, .stat (t.object id).size (t.object id).isDir⟩
  | .other, r => r = .fail

/-- The tree after a request that was answered with `r`. -/
def after (room : Bool) : Request → Reply → Tree
  | .openPath path, r =>
    match t.resolve path with
    | none => t
    | some id => t.opens id r
  | .write fd offset bytes, r =>
    match t.behind fd with
    | none => t
    | some id => if r = .fail then t else t.write id offset bytes
  | .close fd, _ => t.close fd
  | .creat path, r =>
    match tmpNormalize path with
    | none => t
    | some canon =>
      match t.named canon with
      | some id => if (t.object id).isDir then t else t.opens id r
      | none => if t.mayCreate room canon then (t.create canon false).opens t.next r else t
  | .mkdir path, r =>
    match tmpNormalize path with
    | none => t
    | some canon => if r = .fail then t else t.create canon true
  | .unlink path, r | .rmdir path, r =>
    match tmpNormalize path with
    | none => t
    | some canon => if r = .fail then t else t.remove canon
  | .read _ _ _, _ | .readdir _, _ | .stat _, _ | .other, _ => t

end Tree

/-- The tree that a new service stands for. -/
def bootTree : Tree where
  next := 1
  object _ := .empty true
  named path := if path = [Vfs.SLASH] then some 0 else none
  opened _ := none

end MorionOS.Tmpfs
