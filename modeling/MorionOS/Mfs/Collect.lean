import MorionOS.Mfs.InodeTable

/-!
# Garbage collection

Blocks are reclaimed by mark and sweep.  The roots are the current inode table
and the table of every snapshot.  From each root the blocks are visited depth
first with an explicit stack; the inode numbers in directories are translated
with the table of the root at hand, so each root has its own set of seen blocks
while all roots share the marks.
-/

namespace MorionOS.Mfs

open StateAct Layered

/-! ## Marks and the traversal stack -/

def Gc.markSet (g : Gc) (b total : Nat) : Gc :=
  if total ≤ b then g else { g with mark := Function.update g.mark b true }

def Mem.markGet (m : Mem) (b : Nat) : Bool := decide (b < m.vol.total) && m.gc.mark b

/-- `mfs_gc_push`, with `marks` = whether the block is also marked (it is not in
`mfs_gc_push_seen`); nothing when the stack is full. -/
def Gc.push (marks : Bool) (g : Gc) (b total : Nat) : Option Gc :=
  if b = 0 ∨ total ≤ b ∨ g.seen b = true then some g
  else if MFS_GC_STACK_MAX ≤ g.stack.length then none
  else
    some
      { g with
        stack := b :: g.stack
        seen := Function.update g.seen b true
        mark := if marks then Function.update g.mark b true else g.mark }

/-- `mfs_gc_push` and `mfs_gc_push_seen`. -/
def pushWith (marks : Bool) (b total : Nat) : Op Unit Unit := do
  let pushed ← getMem fun m => m.gc.push marks b total
  let g ← ofOption pushed ()
  setGc fun _ => g

def mfsGcPush (b total : Nat) : Op Unit Unit := pushWith true b total

def mfsGcPushSeen (b total : Nat) : Op Unit Unit := pushWith false b total

/-- `mfs_mark_set` as a program. -/
def mfsMarkSet (b total : Nat) : Op Unit Unit := setGc fun g => g.markSet b total

/-- The top of the stack is taken off. -/
def Gc.pop (g : Gc) : Option (Nat × Gc) :=
  match g.stack with
  | [] => none
  | b :: rest => some (b, { g with stack := rest })

/-! ## Marking -/

/-- Mark a table block of the root's index. -/
def markTable (total t : Nat) : Op Unit Unit :=
  if t = 0 then pure ()
  else do
    ensure (decide (t < total)) ()
    mfsMarkSet t total

/-- `mfs_gc_load_itab`: the index of a root, marked together with its table blocks. -/
def mfsGcLoadItab (itab total : Nat) : Op Unit (Nat → Nat) := do
  ensure (itab != 0 && decide (itab < total)) ()
  mfsMarkSet itab total
  match ← mfsReadBlk itab with
  | .itabx slots => do
      each (List.range MFS_ITAB_SLOTS) fun k => markTable total (slots k)
      pure slots
  | _ => throw ()

/-- `mfs_gc_ino_block`: translate an inode number with the index of the root at hand. -/
def mfsGcInoBlock (index : Nat → Nat) (ino : Nat) : Op Unit Nat := do
  ensure (inoValid ino) ()
  if index (inoSlot ino).1 = 0 then pure 0
  else do
    match ← mfsReadBlk (index (inoSlot ino).1) with
    | .itab slots => pure (slots (inoSlot ino).2)
    | _ => throw ()

/-- Push the object that a directory record names. -/
def pushEntry (index : Nat → Nat) (total : Nat) (e : DirSlot) : Op Unit Unit :=
  if e.name = [] then pure ()
  else do
    let child ← mfsGcInoBlock index e.ino
    mfsGcPush child total

/-- Mark a block that has no successors. -/
def markLeaf (total b : Nat) : Op Unit Unit := if b = 0 then pure () else mfsMarkSet b total

/-- One round of `mfs_gc_drain`: push or mark what a block refers to. -/
def gcExpand (index : Nat → Nat) (total : Nat) : Block → Op Unit Unit
  | .dir d => do
      each d.slots (pushEntry index total)
      ensure (!d.broken) ()
      mfsGcPush d.ext total
  | .didx slots => each (List.range MFS_DIR_SLOTS) fun i => mfsGcPush (slots i) total
  | .file f => do
      each (List.range MFS_FILE_DIRECT) fun i => markLeaf total (f.direct i)
      mfsGcPush f.ind1 total
      mfsGcPush f.ind2 total
      mfsGcPush f.ind3 total
  | .ind slots => each (List.range MFS_IND_CAP) fun i => markLeaf total (slots i)
  | .ind2 slots | .ind3 slots => each (List.range MFS_IND_CAP) fun i => mfsGcPush (slots i) total
  | .link _ => pure ()
  | _ => throw ()

/-- Take blocks off the stack and expand them until it is empty, at most `n` of them. -/
def drain (expand : Block → Op Unit Unit) : Nat → Op Unit Unit
  | 0 => do
      let popped ← getMem fun m => m.gc.pop
      ensure popped.isNone ()
  | n + 1 => do
      match ← getMem fun m => m.gc.pop with
      | none => pure ()
      | some (b, g) => do
          setGc fun _ => g
          let blk ← mfsReadBlk b
          expand blk
          drain expand n

/-- Rounds that always suffice: what is on the stack and every block once, since a block is
pushed at most once. -/
def drainRounds (total : Nat) : Nat := MFS_GC_STACK_MAX + total

def mfsGcDrain (index : Nat → Nat) (total : Nat) : Op Unit Unit :=
  drain (gcExpand index total) (drainRounds total)

/-- Mark everything below one root. -/
def gcRoot (total itab : Nat) : Op Unit Unit := do
  let index ← mfsGcLoadItab itab total
  setGc fun g => { g with seen := fun _ => false }
  let rblk ← mfsGcInoBlock index MFS_ROOT_INO
  ensure (rblk != 0) ()
  mfsGcPush rblk total
  mfsGcDrain index total

/-- The tables from which blocks are reachable. -/
def Vol.roots (v : Vol) : List Nat := v.itab :: (List.range v.snapCount).map fun i => (v.snaps i).itab

/-- Whether the volume is mounted with a size that the bitmap can describe. -/
def Vol.sized (v : Vol) : Bool := v.total != 0 && decide (v.total ≤ MFS_MAX_BLOCKS)

/-- Mark the metadata and what the roots lead to. -/
def mfsGcMark : Op Unit Unit := do
  let v ← getMem fun m => m.vol
  ensure v.sized ()
  setGc fun g => { g with mark := fun b => decide (b < v.dataStart) && decide (b < v.total) }
  each v.roots (gcRoot v.total)

/-! ## Sweeping -/

/-- Set or clear one bit as the mark says. -/
def Vol.sweepBit (mark : Nat → Bool) (v : Vol) (b : Nat) : Vol :=
  if mark b then v.bmpSet b else v.bmpClear b

/-- The volume after its bitmap was rebuilt from the marks. -/
def Vol.swept (v : Vol) (mark : Nat → Bool) : Vol :=
  { (List.range v.total).foldl (Vol.sweepBit mark) v with
    freeBlocks := v.total - (List.range v.total).countP mark
    allocNext := v.dataStart }

def mfsGcSweep : Op Unit Nat := do
  let m ← getMem id
  setVol fun v => v.swept m.markGet
  mfsBmpFlush
  pure ((m.vol.total - (List.range m.vol.total).countP m.markGet) - m.vol.freeBlocks)

/-- `mfs_gc`.  Failure is `u64::MAX`; a staged window that cannot be written is reported
as "nothing reclaimed". -/
def mfsGc : Op Unit Nat := do
  match ← attempt mfsCommitFlush with
  | none => pure 0
  | some _ => do
      setCache didxInvalidateAll
      mfsGcMark
      mfsGcSweep

def mfsMaybeGc : Op Unit Unit := do
  let v ← getMem fun m => m.vol
  if v.total = 0 ∨ v.total / MFS_GC_LOW_WATER_DIV < v.freeBlocks then pure ()
  else do
    let _ ← attempt mfsGc
    pure ()

/-! ## A rule for traversals -/

/-- A property of programs that holds of the steps of a traversal and of their sequences. -/
structure TraversalRule (P : (α : Type) → Op Unit α → Prop) : Prop where
  pure : ∀ {α : Type} (a : α), P α (pure a)
  throw : ∀ {α : Type}, P α (throw ())
  bind : ∀ {α β : Type} {m : Op Unit α} {f : α → Op Unit β}, P α m → (∀ a, P β (f a)) → P β (m >>= f)
  getMem : ∀ {α : Type} (f : Mem → α), P α (getMem f)
  setGc : ∀ f : Gc → Gc, P Unit (setGc f)
  read : ∀ b, P Block (mfsReadBlk b)

namespace TraversalRule

variable {P : (α : Type) → Op Unit α → Prop} (rule : TraversalRule P)
include rule

theorem ensure (c : Bool) : P Unit (Layered.ensure c ()) := by
  cases c
  · exact rule.throw
  · exact rule.pure ()

theorem ofOption {α : Type} (o : Option α) : P α (Layered.ofOption o ()) := by
  cases o
  · exact rule.throw
  · exact rule.pure _

theorem each {α : Type} (xs : List α) {body : α → Op Unit Unit} (h : ∀ x, P Unit (body x)) :
    P Unit (Layered.each xs body) := by
  induction xs with
  | nil => exact rule.pure ()
  | cons x xs ih => exact rule.bind (h x) fun _ => ih

theorem pushWith (marks : Bool) (b total : Nat) : P Unit (pushWith marks b total) :=
  rule.bind (rule.getMem _) fun _ => rule.bind (rule.ofOption _) fun _ => rule.setGc _

theorem drain {expand : Block → Op Unit Unit} (h : ∀ blk, P Unit (expand blk)) (n : Nat) :
    P Unit (drain expand n) := by
  induction n with
  | zero => exact rule.bind (rule.getMem _) fun _ => rule.ensure _
  | succ n ih =>
    refine rule.bind (rule.getMem _) fun popped => ?_
    rcases popped with _ | ⟨b, g⟩
    · exact rule.pure ()
    · exact rule.bind (rule.setGc _) fun _ => rule.bind (rule.read b) fun blk =>
        rule.bind (h blk) fun _ => ih

theorem mfsGcInoBlock (index : Nat → Nat) (ino : Nat) : P Nat (mfsGcInoBlock index ino) := by
  refine rule.bind (rule.ensure _) fun _ => ?_
  split
  · exact rule.pure _
  · refine rule.bind (rule.read _) fun blk => ?_
    cases blk <;> first | exact rule.pure _ | exact rule.throw

theorem pushEntry (index : Nat → Nat) (total : Nat) (e : DirSlot) : P Unit (pushEntry index total e) := by
  rw [Mfs.pushEntry]
  split
  · exact rule.pure ()
  · exact rule.bind (rule.mfsGcInoBlock index e.ino) fun _ => rule.pushWith _ _ _

theorem markLeaf (total b : Nat) : P Unit (markLeaf total b) := by
  rw [Mfs.markLeaf]
  split
  · exact rule.pure ()
  · exact rule.setGc _

theorem gcExpand (index : Nat → Nat) (total : Nat) (blk : Block) : P Unit (gcExpand index total blk) := by
  cases blk with
  | dir d =>
    exact rule.bind (rule.each _ (rule.pushEntry index total)) fun _ =>
      rule.bind (rule.ensure _) fun _ => rule.pushWith _ _ _
  | didx slots | ind2 slots | ind3 slots => exact rule.each _ fun _ => rule.pushWith _ _ _
  | ind slots => exact rule.each _ fun _ => rule.markLeaf _ _
  | file f =>
    exact rule.bind (rule.each _ fun _ => rule.markLeaf _ _) fun _ =>
      rule.bind (rule.pushWith _ _ _) fun _ => rule.bind (rule.pushWith _ _ _) fun _ =>
        rule.pushWith _ _ _
  | link l => exact rule.pure ()
  | super | bmpHeader | bitmap | data | itab | itabx | raw => exact rule.throw

theorem mfsGcLoadItab (itab total : Nat) : P (Nat → Nat) (mfsGcLoadItab itab total) := by
  refine rule.bind (rule.ensure _) fun _ => rule.bind (rule.setGc _) fun _ =>
    rule.bind (rule.read _) fun blk => ?_
  cases blk with
  | itabx slots =>
    refine rule.bind (rule.each _ fun k => ?_) fun _ => rule.pure _
    rw [markTable]
    split
    · exact rule.pure ()
    · exact rule.bind (rule.ensure _) fun _ => rule.setGc _
  | super | bmpHeader | bitmap | dir | didx | file | link | data | ind | ind2 | ind3 | itab | raw =>
    exact rule.throw

theorem gcRoot (total itab : Nat) : P Unit (gcRoot total itab) :=
  rule.bind (rule.mfsGcLoadItab itab total) fun index => rule.bind (rule.setGc _) fun _ =>
    rule.bind (rule.mfsGcInoBlock index _) fun _ => rule.bind (rule.ensure _) fun _ =>
      rule.bind (rule.pushWith _ _ _) fun _ => rule.drain (rule.gcExpand index total) _

theorem mfsGcMark : P Unit mfsGcMark :=
  rule.bind (rule.getMem _) fun _ => rule.bind (rule.ensure _) fun _ =>
    rule.bind (rule.setGc _) fun _ => rule.each _ (rule.gcRoot _)

end TraversalRule

end MorionOS.Mfs
