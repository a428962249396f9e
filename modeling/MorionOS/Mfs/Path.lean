import MorionOS.Mfs.Directory

/-!
# Paths and their resolution

A canonical path is kept as the list of its components; its length in bytes,
which the service checks against its buffers, is `canonLen`.  A path is resolved
component by component from the root.  When a symbolic link has to be followed,
the component is replaced by the target and the whole path is walked again.
-/

namespace MorionOS.Mfs

open StateAct Layered

/-! ## Canonical paths -/

/-- The components of a canonical path, root first. -/
abbrev Canon := List Name

/-- Bytes of the components with a slash before each. -/
def bytesLen (cs : List Name) : Nat := (cs.map fun c => 1 + c.length).sum

/-- Length of a canonical path in bytes; the root is a single slash. -/
def canonLen (cs : Canon) : Nat := if cs = [] then 1 else bytesLen cs

def SLASH : UInt8 := 0x2F
def DOT : UInt8 := 0x2E

/-- The parts of a path between slashes. -/
def segments (path : List UInt8) : List Name := (path.splitOn SLASH).filter (· ≠ [])

/-- One step of `mfs_normalize`: `.` is dropped, `..` goes back, a name has to fit. -/
def pushSeg (acc : Canon) (seg : Name) : Option Canon :=
  if seg = [DOT] then some acc
  else if seg = [DOT, DOT] then some acc.dropLast
  else if MFS_NAME_MAX < seg.length then none
  else if MFS_PATH_MAX < canonLen acc + (if acc = [] then 0 else 1) + seg.length then none
  else some (acc ++ [seg])

/-- The rounds of `mfs_normalize`. -/
def pushSegs (acc : Canon) (segs : List Name) : Option Canon := segs.foldlM pushSeg acc

def mfsNormalize (path : List UInt8) : Option Canon :=
  if path.head? = some SLASH then pushSegs [] (segments path) else none

/-! ## Resolution -/

def mfsLinkTarget (ino : Nat) : Op Unit (List UInt8) := do
  let blk ← allocatedBlock ino
  match ← mfsReadBlk blk with
  | .link l => do
      ensure (l.size != 0 && decide (l.size ≤ MFS_LINK_MAX)) ()
      pure (l.target.take l.size)
  | _ => throw ()

/-- How far one walk along the path came. -/
inductive Walk where
  /-- The last component was reached. -/
  | found (ino : Nat)
  /-- A link has to be replaced: the components before it, its inode, those after it. -/
  | expand (pre : Canon) (link : Nat) (rest : Canon)

/-- One walk along a path.  `pre` are the components behind, `cur` the directory reached. -/
def walk (follow : Bool) : Canon → Canon → Nat → Op Unit Walk
  | [], _, _ => throw ()
  | comp :: rest, pre, cur => do
      ensure (comp != [] && decide (comp.length ≤ MFS_NAME_MAX)) ()
      let loc ← mfsDirLookup cur comp
      let e ← slotAt loc
      ensure (e.ino != 0) ()
      if e.typ = .link ∧ (rest ≠ [] ∨ follow = true) then pure (.expand pre e.ino rest)
      else do
        setLeaf loc
        if rest = [] then pure (.found e.ino) else walk follow rest (pre ++ [comp]) e.ino

/-- The path after a link was replaced by its target.  A relative target starts from the
directory of the link.  Paths that become too long are refused, not cut. -/
def expandPath (pre : Canon) (target : List UInt8) (rest : Canon) : Option Canon :=
  if target.head? = some SLASH then
    if MFS_PATH_MAX < target.length + bytesLen rest then none
    else pushSegs [] (segments target ++ rest)
  else if MFS_PATH_MAX < bytesLen pre + 1 + target.length + bytesLen rest then none
  else pushSegs pre (segments target ++ rest)

/-- The walks of `mfs_resolve_ex`, with the number of links that may still be replaced. -/
def resolveWalks (follow : Bool) : Nat → Canon → Op Unit Nat
  | links, canon =>
    if canon = [] then pure MFS_ROOT_INO
    else do
      match ← walk follow canon [] MFS_ROOT_INO with
      | .found ino => pure ino
      | .expand pre link rest =>
        match links with
        | 0 => throw ()
        | links + 1 => do
            let target ← mfsLinkTarget link
            let canon' ← ofOption (expandPath pre target rest) ()
            resolveWalks follow links canon'

def mfsResolveEx (canon : Canon) (follow : Bool) : Op Unit Nat := do
  setLeaf MFS_LOC_EMPTY
  ensure (decide (canonLen canon ≤ MFS_PATH_MAX)) ()
  resolveWalks follow MFS_SYMLINK_MAX_DEPTH canon

def mfsResolve (canon : Canon) : Op Unit Nat := mfsResolveEx canon true

def mfsResolveNoFollow (canon : Canon) : Op Unit Nat := mfsResolveEx canon false

/-! ## Access rights -/

def MFS_ACC_R : Nat := 4
def MFS_ACC_W : Nat := 2
def MFS_ACC_X : Nat := 1

/-- The metadata of a node read with the layout of a directory or of a file.  Of a block of
another layout nothing is known. -/
def Block.mdAs (isDir : Bool) : Block → Meta
  | .dir d => if isDir then d.md else .zero
  | .file f => if isDir then .zero else f.md
  | .link l => if isDir then .zero else l.md
  | _ => .zero

def Meta.effectivePerm (m : Meta) (cred : Cred) : Nat :=
  if cred.uid = MFS_UID_ROOT then 7
  else
    let shift := if cred.uid = m.uid then 6 else if cred.gid = m.gid then 3 else 0
    ((m.mode &&& 0o777) >>> shift) &&& 7

def Meta.checkAccess (m : Meta) (cred : Cred) (want : Nat) : Bool :=
  m.effectivePerm cred &&& want == want

/-- `mfs_check_dir_ino`, with the node that it leaves in the buffer. -/
def mfsCheckDirIno (dirIno : Nat) (cred : Cred) (want : Nat) : Op Unit DirBlock := do
  let d ← dirNode dirIno
  ensure (d.md.checkAccess cred want) ()
  pure d

def mfsCheckTraverse (canon : Canon) (cred : Cred) : Op Unit Unit :=
  if cred.uid = MFS_UID_ROOT then pure ()
  else do
    let p ← mfsResolve canon.dropLast
    let _ ← mfsCheckDirIno p cred MFS_ACC_X
    pure ()

/-- The sticky bit. -/
def Meta.sticky (m : Meta) : Bool := m.mode &&& 0o1000 != 0

def Block.nodeType : Block → Option EntType
  | .dir _ => some .dir
  | .file _ => some .file
  | .link _ => some .link
  | _ => none

/-- `mfs_is_dir`, an unreadable block counts as no directory. -/
def mfsIsDir (blk : Nat) : Op Unit Bool := do
  match ← attempt (mfsReadBlk blk) with
  | some (.dir _) => pure true
  | _ => pure false

end MorionOS.Mfs
