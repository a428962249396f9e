import MorionOS.Mfs.Path
import MorionOS.Mfs.Load

/-!
# The consistency check

`mfsFsck` looks for inodes that are allocated but not reachable from the root
directory, counts the blocks that only they keep, and on request releases them and
runs a garbage collection.
-/

namespace MorionOS.Mfs

open StateAct Layered

def Gc.fsckSet (g : Gc) (ino : Nat) : Gc :=
  if ino < MFS_INO_MAX then { g with fsck := Function.update g.fsck ino true } else g

def Gc.fsckGet (g : Gc) (ino : Nat) : Bool := decide (ino < MFS_INO_MAX) && g.fsck ino

def mfsFsckWinEnsure : Op Unit Unit := do
  let mapped ← getMem fun m => m.win.fsckMapped
  growWin (fun w => { w with fsckMapped := w.fsckMapped + 1 }) (MFS_FSCK_PAGES - mapped)

/-! ## Reachable inodes -/

/-- Push a child that is a directory. -/
def pushIfDir (blk total : Nat) : Op Unit Unit :=
  if blk = 0 then pure ()
  else do
    match ← attempt (mfsReadBlk blk) with
    | some (.dir _) => mfsGcPush blk total
    | _ => pure ()

/-- Note the inode that a record names and push it if it is a directory. -/
def walkEntry (total : Nat) (e : DirSlot) : Op Unit Unit :=
  if e.name = [] ∨ inoValid e.ino = false then pure ()
  else do
    setGc fun g => g.fsckSet e.ino
    let blk ← mfsInoBlock e.ino
    pushIfDir blk total

/-- One round of `mfs_fsck_walk_inos`. -/
def walkExpand (total : Nat) : Block → Op Unit Unit
  | .dir d => do
      each d.slots (walkEntry total)
      ensure (!d.broken) ()
      mfsGcPush d.ext total
  | .didx slots => each (List.range MFS_DIR_SLOTS) fun i => mfsGcPush (slots i) total
  | _ => throw ()

def mfsFsckWalkInos : Op Unit Unit := do
  let total ← getMem fun m => m.vol.total
  setGc fun g => { (Gc.fsckSet { g with fsck := fun _ => false } MFS_ROOT_INO) with
    stack := []
    seen := fun _ => false }
  let root ← allocatedBlock MFS_ROOT_INO
  mfsGcPush root total
  drain (walkExpand total) (drainRounds total)

/-! ## Blocks of a leaked inode -/

/-- The blocks that a block refers to, without the children of a directory. -/
def Block.owned : Block → List Nat
  | .dir d => [d.ext]
  | .didx slots => (List.range MFS_DIR_SLOTS).map slots
  | .file f => (List.range MFS_FILE_DIRECT).map f.direct ++ [f.ind1, f.ind2, f.ind3]
  | .ind slots | .ind2 slots | .ind3 slots => (List.range MFS_IND_CAP).map slots
  | _ => []

/-- Push the blocks that a block refers to; the answer is whether the stack sufficed. -/
def pushOwned (total b : Nat) : Op Unit Bool := do
  match ← attempt (mfsReadBlk b) with
  | none => pure true
  | some blk => do
      let pushed ← attempt (each blk.owned fun c => mfsGcPushSeen c total)
      pure pushed.isSome

/-- The rounds of `mfs_fsck_owned_blocks`, with the count so far. -/
def countOwned (total : Nat) : Nat → Nat → Op Unit Nat
  | 0, n => pure n
  | rounds + 1, n => do
      match ← getMem fun m => m.gc.pop with
      | none => pure n
      | some (b, g) => do
          setGc fun _ => g
          let m ← getMem id
          let n' := if m.vol.bmpGet b && !m.markGet b then n + 1 else n
          let room ← pushOwned total b
          if room then countOwned total rounds n' else pure n'

def mfsFsckOwnedBlocks (blk total : Nat) : Op Unit Nat := do
  setGc fun g => { g with seen := fun _ => false, stack := [] }
  match ← attempt (mfsGcPushSeen blk total) with
  | none => pure 0
  | some _ => countOwned total (drainRounds total) 0

/-! ## The check -/

def Vol.fsckScanBound (v : Vol) : Nat :=
  max (MFS_ROOT_INO + 1) (min (max v.inoHint v.inoCount + 1) MFS_INO_MAX)

/-- The inodes that are looked at. -/
def Vol.fsckInos (v : Vol) : List Nat :=
  (List.range v.fsckScanBound).filter fun ino => ino != 0 && ino != MFS_ROOT_INO

/-- Whether an inode is allocated without being reachable: then its block. -/
def leakedBlock (ino : Nat) : Op Unit (Option Nat) := do
  let blk ← mfsInoBlock ino
  let reached ← getMem fun m => m.gc.fsckGet ino
  pure (if blk = 0 ∨ reached = true then none else some blk)

/-- Count the leaked inodes and their blocks. -/
def countLeaks (total : Nat) : List Nat → Nat → Nat → Op Unit (Nat × Nat)
  | [], inos, blocks => pure (inos, blocks)
  | ino :: rest, inos, blocks => do
      match ← leakedBlock ino with
      | none => countLeaks total rest inos blocks
      | some blk => do
          let n ← mfsFsckOwnedBlocks blk total
          countLeaks total rest (inos + 1) (blocks + n)

/-- Release an inode if it is leaked. -/
def releaseLeaked (ino : Nat) : Op Unit Unit := do
  match ← leakedBlock ino with
  | none => pure ()
  | some _ => mfsFreeIno ino

/-- The reply of `mfs_fsck`. -/
def fsckReply (inos blocks : Nat) : Nat := (inos <<< 32) ||| blocks

def mfsFsck (repair : Bool) : Op Unit Nat := do
  mfsCommitFlush
  let v ← getMem fun m => m.vol
  ensure v.sized ()
  mfsFsckWinEnsure
  mfsFsckWalkInos
  mfsGcMark
  let (inos, blocks) ← countLeaks v.total v.fsckInos 0 0
  if repair = false ∨ inos = 0 then pure (fsckReply inos blocks)
  else do
    each v.fsckInos releaseLeaked
    let freed ← mfsGc
    pure (fsckReply inos freed)

end MorionOS.Mfs
