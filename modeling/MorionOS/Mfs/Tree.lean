import MorionOS.Mfs.Records
import MorionOS.Mfs.FileMap

/-!
# The tree that the blocks of a volume encode

`nodeAt` decodes the object of an inode from the blocks and one inode table:
metadata and entries of a directory, wherever they are stored, a file node, or a
link.  The predicates say when the blocks of an object are in order and in use,
from the pointer blocks of a file up to a whole tree (`TreeOk`).

All of this depends on the content of blocks and on the bitmap only.  Blocks in
use are never written again (`Grows`), so whatever is decoded from them stays.
-/

namespace MorionOS.Mfs

open StateAct Layered

/-! ## Decoding -/

/-- What an inode stands for. -/
inductive Node where
  | dir (md : Meta) (entries : List Entry)
  | file (f : FileBlock)
  | link (l : LinkBlock)

def Block.asDir : Block → Option DirBlock
  | .dir d => some d
  | _ => none

def Block.didxSlots : Block → Option (Nat → Nat)
  | .didx slots => some slots
  | _ => none

/-- The extension blocks that an index lists, with their numbers. -/
def extsOf (store : Nat → Block) (slots : Nat → Nat) (ks : List Nat) : List (Nat × DirBlock) :=
  ks.filterMap fun k => if slots k = 0 then none else (store (slots k)).asDir.map (slots k, ·)

/-- The blocks of the directory with node `d` at block `b`, in the order of a scan. -/
def dirBlocks (store : Nat → Block) (b : Nat) (d : DirBlock) : List (Nat × DirBlock) :=
  (b, d) :: if d.ext = 0 then []
    else (store d.ext).didxSlots.elim [] fun slots => extsOf store slots (List.range MFS_DIR_SLOTS)

/-- The entries of a directory in the order of a scan. -/
def dirEntries (store : Nat → Block) (b : Nat) (d : DirBlock) : List Entry :=
  (dirBlocks store b d).flatMap fun x => x.2.entries

/-- The object in block `b`. -/
def objectAt (store : Nat → Block) (b : Nat) : Option Node :=
  match store b with
  | .dir d => some (.dir d.md (dirEntries store b d))
  | .file f => some (.file f)
  | .link l => some (.link l)
  | _ => none

/-- The object of an inode in the table with index `index`. -/
def nodeAt (store : Nat → Block) (index : Nat → Nat) (ino : Nat) : Option Node :=
  (inoBlockIn store index ino).bind fun b => if b = 0 then none else objectAt store b

/-! ## Blocks in order -/

/-- A data block that is allocated. -/
def Vol.InUse (v : Vol) (b : Nat) : Prop := v.dataStart ≤ b ∧ b < v.total ∧ v.bmp b = true

variable (store : Nat → Block) (v : Vol)

/-- An extension block of a directory. -/
def ExtOk (b : Nat) : Prop := v.InUse b ∧ ∃ d, store b = .dir d ∧ d.Ok

/-- The index of the extension blocks of a directory whose node is block `b`. -/
structure ExtIndexOk (b : Nat) (slots : Nat → Nat) : Prop where
  ext : ∀ k < MFS_DIR_SLOTS, slots k ≠ 0 → ExtOk store v (slots k) ∧ slots k ≠ b
  once : ∀ k < MFS_DIR_SLOTS, ∀ k' < MFS_DIR_SLOTS, slots k ≠ 0 → slots k = slots k' → k = k'

/-- The node of a directory at block `b` with its extension blocks. -/
structure DirOk (b : Nat) (d : DirBlock) : Prop where
  block : d.Ok
  index : d.ext = 0 ∨ (v.InUse d.ext ∧ ∃ slots, store d.ext = .didx slots ∧ ExtIndexOk store v b slots)

/-- A pointer of a file: missing, or to a block in use; if that is a block of level `level`, its
pointers are in order, too. -/
def PtrOk : Nat → Nat → Prop
  | 0, p => p = 0 ∨ v.InUse p
  | level + 1, p => p = 0 ∨ (v.InUse p ∧ ∀ slots, (store p).pointers (level + 1) = some slots →
      ∀ i < MFS_IND_CAP, PtrOk level (slots i))

structure FileOk (f : FileBlock) : Prop where
  direct : ∀ i < MFS_FILE_DIRECT, PtrOk store v 0 (f.direct i)
  ind1 : PtrOk store v 1 f.ind1
  ind2 : PtrOk store v 2 f.ind2
  ind3 : PtrOk store v 3 f.ind3

/-- Block `b` holds an object and the blocks of the object are in order. -/
def ObjectOk (b : Nat) : Prop :=
  v.InUse b ∧
    ((∃ d, store b = .dir d ∧ DirOk store v b d) ∨ (∃ f, store b = .file f ∧ FileOk store v f) ∨
      ∃ l, store b = .link l)

/-- The table blocks of an index are in order. -/
def IndexOk (index : Nat → Nat) : Prop :=
  ∀ k < MFS_ITAB_SLOTS, index k ≠ 0 → v.InUse (index k) ∧ ∃ slots, store (index k) = .itab slots

/-- The tree with inode table `index` is in order as far as the inodes in `L` are concerned, and
`L` has the root and all inodes that directories in it name. -/
structure TreeOk (index : Nat → Nat) (L : Set Nat) : Prop where
  tables : IndexOk store v index
  root : MFS_ROOT_INO ∈ L
  object : ∀ i ∈ L, ∀ b, inoBlockIn store index i = some b → b ≠ 0 → ObjectOk store v b
  closed : ∀ i ∈ L, ∀ md es, nodeAt store index i = some (.dir md es) →
    ∀ e ∈ es, inoValid e.ino = true ∧ e.ino ∈ L

/-! ## Growing -/

variable {store v}

/-- From one state to the next no block in use was released or written. -/
structure Grows (store : Nat → Block) (v : Vol) (store' : Nat → Block) (v' : Vol) : Prop where
  size : v'.total = v.total
  keeps : ∀ b, v.InUse b → v'.InUse b ∧ store' b = store b

theorem Grows.refl (store : Nat → Block) (v : Vol) : Grows store v store v := ⟨rfl, fun _ h => ⟨h, rfl⟩⟩

theorem Grows.trans {st₁ st₂ st₃ : Nat → Block} {v₁ v₂ v₃ : Vol} (h : Grows st₁ v₁ st₂ v₂)
    (h' : Grows st₂ v₂ st₃ v₃) : Grows st₁ v₁ st₃ v₃ := by
  refine ⟨h'.size.trans h.size, fun b used => ?_⟩
  obtain ⟨used₂, same₂⟩ := h.keeps b used
  obtain ⟨used₃, same₃⟩ := h'.keeps b used₂
  exact ⟨used₃, same₃.trans same₂⟩

section Growing

variable {store' : Nat → Block} {v' : Vol} (g : Grows store v store' v')
include g

variable {b : Nat}

theorem ExtOk.grows (h : ExtOk store v b) : ExtOk store' v' b := by
  obtain ⟨used, d, content, ok⟩ := h
  obtain ⟨used', same⟩ := g.keeps b used
  exact ⟨used', d, by rw [same, content], ok⟩

theorem DirOk.grows {d : DirBlock} (h : DirOk store v b d) : DirOk store' v' b d := by
  refine ⟨h.block, h.index.imp_right ?_⟩
  rintro ⟨used, slots, content, ok⟩
  obtain ⟨used', same⟩ := g.keeps _ used
  exact ⟨used', slots, by rw [same, content],
    fun k small nonzero => ⟨(ok.ext k small nonzero).1.grows g, (ok.ext k small nonzero).2⟩, ok.once⟩

theorem PtrOk.grows {level p : Nat} (h : PtrOk store v level p) : PtrOk store' v' level p := by
  induction level generalizing p with
  | zero => exact h.imp_right fun used => (g.keeps p used).1
  | succ level ih =>
    rcases h with zero | ⟨used, below⟩
    · exact .inl zero
    · obtain ⟨used', same⟩ := g.keeps p used
      refine .inr ⟨used', fun slots content i small => ?_⟩
      rw [same] at content
      exact ih (below slots content i small)

theorem FileOk.grows {f : FileBlock} (h : FileOk store v f) : FileOk store' v' f :=
  ⟨fun i small => (h.direct i small).grows g, h.ind1.grows g, h.ind2.grows g, h.ind3.grows g⟩

theorem ObjectOk.grows (h : ObjectOk store v b) : ObjectOk store' v' b := by
  obtain ⟨used, kind⟩ := h
  obtain ⟨used', same⟩ := g.keeps b used
  refine ⟨used', ?_⟩
  rw [same]
  rcases kind with ⟨d, content, ok⟩ | ⟨f, content, ok⟩ | link
  · exact .inl ⟨d, content, ok.grows g⟩
  · exact .inr (.inl ⟨f, content, ok.grows g⟩)
  · exact .inr (.inr link)

theorem extsOf_grows {slots : Nat → Nat} (ok : ExtIndexOk store v b slots) {ks : List Nat}
    (small : ∀ k ∈ ks, k < MFS_DIR_SLOTS) : extsOf store' slots ks = extsOf store slots ks := by
  apply List.filterMap_congr
  intro k mem
  split
  · rfl
  next nonzero => rw [(g.keeps _ (ok.ext k (small k mem) nonzero).1.1).2]

theorem dirBlocks_grows {d : DirBlock} (ok : DirOk store v b d) :
    dirBlocks store' b d = dirBlocks store b d := by
  rw [dirBlocks, dirBlocks]
  rcases ok.index with zero | ⟨used, slots, content, exts⟩
  · simp [zero]
  · rw [(g.keeps _ used).2, content]
    simp only [Block.didxSlots, Option.elim_some]
    rw [extsOf_grows g exts fun k mem => List.mem_range.mp mem]

theorem objectAt_grows (ok : ObjectOk store v b) : objectAt store' b = objectAt store b := by
  obtain ⟨used, kind⟩ := ok
  rw [objectAt, objectAt, (g.keeps b used).2]
  rcases kind with ⟨d, content, ok⟩ | ⟨f, content, -⟩ | ⟨l, content⟩
  · simp [content, dirEntries, dirBlocks_grows g ok]
  · simp [content]
  · simp [content]

theorem IndexOk.grows {index : Nat → Nat} (h : IndexOk store v index) : IndexOk store' v' index := by
  intro k small nonzero
  obtain ⟨used, slots, content⟩ := h k small nonzero
  obtain ⟨used', same⟩ := g.keeps _ used
  exact ⟨used', slots, by rw [same, content]⟩

end Growing

theorem inoSlot_lt {ino : Nat} (valid : inoValid ino = true) :
    (inoSlot ino).1 < MFS_ITAB_SLOTS ∧ (inoSlot ino).2 < MFS_ITAB_SLOTS := by
  rw [inoValid, Bool.and_eq_true, decide_eq_true_eq] at valid
  have bound := valid.2
  have pos : 0 < MFS_ITAB_SLOTS := by decide
  exact ⟨Nat.div_lt_of_lt_mul bound, Nat.mod_lt _ pos⟩

variable {store' : Nat → Block} {index : Nat → Nat}

theorem inoBlockIn_grows {v' : Vol} (g : Grows store v store' v') (ok : IndexOk store v index) (ino : Nat) :
    inoBlockIn store' index ino = inoBlockIn store index ino := by
  rw [inoBlockIn, inoBlockIn]
  rcases valid : inoValid ino with _ | _
  · rfl
  · simp only [if_true]
    split
    · rfl
    next nonzero => rw [(g.keeps _ (ok _ (inoSlot_lt valid).1 nonzero).1).2]

/-- In a growing volume a tree stays the same and in order. -/
theorem TreeOk.nodeAt_grows {v' : Vol} (g : Grows store v store' v')
    {L : Set Nat} (ok : TreeOk store v index L) {i : Nat} (known : i ∈ L) :
    nodeAt store' index i = nodeAt store index i := by
  rw [nodeAt, nodeAt, inoBlockIn_grows g ok.tables]
  apply Option.bind_congr
  intro b found
  by_cases zero : b = 0
  · rw [if_pos zero, if_pos zero]
  · rw [if_neg zero, if_neg zero]
    exact objectAt_grows g (ok.object i known b found zero)

theorem TreeOk.grows {v' : Vol} (g : Grows store v store' v')
    {L : Set Nat} (ok : TreeOk store v index L) : TreeOk store' v' index L where
  tables := ok.tables.grows g
  root := ok.root
  object i known b found nonzero := by
    rw [inoBlockIn_grows g ok.tables] at found
    exact (ok.object i known b found nonzero).grows g
  closed i known md es node := by
    rw [ok.nodeAt_grows g known] at node
    exact ok.closed i known md es node

end MorionOS.Mfs
