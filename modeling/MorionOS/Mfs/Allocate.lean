import MorionOS.Mfs.Tree
import MorionOS.Mfs.Collection

/-!
# Allocating and writing blocks

`mfsCommit` writes a block that was free, and a commit point writes into the
metadata area only.  So both extend the volume: blocks in use keep their place
and their content (`Extends`).  `Vol.room` counts the blocks that can still be
allocated.
-/

namespace MorionOS.Mfs

open StateAct Layered Function List Vol

/-! ## Free blocks -/

/-- The number of free blocks in the data area. -/
def Vol.room (v : Vol) : Nat :=
  (List.range v.total).countP fun b => decide (v.dataStart ≤ b) && !v.bmp b

/-- A block of the data area that is not allocated. -/
structure Vol.Free (v : Vol) (b : Nat) : Prop where
  start : v.dataStart ≤ b
  inside : b < v.total
  unused : v.bmp b = false

variable {v : Vol} {b n : Nat}

theorem Vol.Free.ne_zero (free : v.Free b) : b ≠ 0 := by
  have := free.start
  rw [dataStart] at this
  omega

variable {used : Nat → Bool} {m x : Nat}

theorem scanFree_some (h : scanFree used n b = some x) :
    b ≤ x ∧ x < b + n ∧ used x = false := by
  induction n generalizing b with
  | zero => cases h
  | succ n ih =>
    rw [scanFree] at h
    split at h
    · obtain ⟨low, high, unused⟩ := ih h
      exact ⟨by omega, by omega, unused⟩
    next unused =>
      obtain rfl := Option.some.inj h
      exact ⟨by omega, by omega, by simpa using unused⟩

theorem scanFree_none (h : scanFree used n b = none)
    (low : b ≤ x) (high : x < b + n) : used x = true := by
  induction n generalizing b with
  | zero => omega
  | succ n ih =>
    rw [scanFree] at h
    split at h
    next here =>
      rcases Nat.eq_or_lt_of_le low with rfl | low
      · exact here
      · exact ih h low (by omega)
    · cases h

theorem Vol.findFree_some (h : v.findFree = some b) : v.Free b := by
  rw [findFree] at h
  split at h
  · cases h
  next size =>
    have hint : v.dataStart ≤ v.allocHint ∧ v.allocHint ≤ v.total := by
      rw [allocHint]
      omega
    have found : ∃ n start, scanFree v.bmpGet n start = some b ∧ v.dataStart ≤ start ∧ start + n ≤ v.total := by
      rcases Option.or_eq_some_iff.mp h with found | ⟨-, found⟩
      · exact ⟨_, _, found, hint.1, by omega⟩
      · exact ⟨_, _, found, le_rfl, by omega⟩
    obtain ⟨n, start, found, low, high⟩ := found
    obtain ⟨low', high', unused⟩ := scanFree_some found
    have inside : b < v.total := by omega
    exact ⟨by omega, inside, by simpa [bmpGet, inside] using unused⟩

theorem Vol.findFree_none (h : v.findFree = none) : ¬ v.Free b := by
  rintro ⟨start, inside, unused⟩
  rw [findFree, if_neg (by omega), Option.or_eq_none_iff] at h
  have unused : v.bmpGet b = false := by simp [bmpGet, unused]
  by_cases side : v.allocHint ≤ b
  · rw [scanFree_none h.1 side (by omega)] at unused
    cases unused
  · rw [scanFree_none h.2 start (by omega)] at unused
    cases unused

theorem Vol.room_eq_zero (h : v.findFree = none) : v.room = 0 := by
  rw [room, countP_eq_zero]
  intro b mem free
  simp only [Bool.and_eq_true, decide_eq_true_eq, Bool.not_eq_true'] at free
  exact findFree_none h ⟨free.1, mem_range.mp mem, free.2⟩

/-- Besides the bit, taking a block changes counters only. -/
theorem Vol.bmpTake_eq (inside : b < v.total) : ∃ free dirty, v.bmpTake b = { v with
      bmp := update v.bmp b true
      freeBlocks := free
      dirty := dirty
      allocNext := b + 1 } := by
  obtain ⟨free, dirty, eq⟩ := v.bmpSet_eq b
  rw [if_pos inside] at eq
  exact ⟨free, dirty, by rw [bmpTake, eq]⟩

theorem countP_range_flip {p q : Nat → Bool} (inside : b < n) (yes : p b = true)
    (no : q b = false) (others : ∀ x, x ≠ b → p x = q x) :
    (List.range n).countP p = (List.range n).countP q + 1 := by
  have split : ∀ m, (List.range m).countP p = (List.range m).countP q + if b < m then 1 else 0 := by
    intro m
    induction m with
    | zero => rfl
    | succ m ih =>
      rw [range_succ, countP_append, countP_append, ih]
      rcases Nat.lt_trichotomy m b with lt | rfl | gt
      · simp [others m (by omega), show ¬ b < m by omega, show ¬ b < m + 1 by omega]
      · simp [yes, no]
      · simp [others m (by omega), show b < m by omega, show b < m + 1 by omega]
        omega
  rw [split n, if_pos inside]

theorem Vol.room_bmpTake (h : v.Free b) : v.room = (v.bmpTake b).room + 1 := by
  obtain ⟨free, dirty, eq⟩ := bmpTake_eq h.inside
  rw [eq]
  apply countP_range_flip h.inside
  · simp [h.start, h.unused]
  · simp
  · intro x other
    dsimp only
    rw [update_of_ne other]
    rfl

/-! ## Extending a volume -/

/-- From `c` to `c'` at most `n` blocks were allocated and no block in use was released or
written. -/
structure Extends (n : Nat) (c c' : Core) : Prop where
  grows : Grows c.store c.mem.vol c'.store c'.mem.vol
  env : c'.env = c.env
  curVol : c'.mem.curVol = c.mem.curVol
  bitmaps : c'.mem.vol.bmpDataBlocks = c.mem.vol.bmpDataBlocks
  snapCount : c'.mem.vol.snapCount = c.mem.vol.snapCount
  snaps : c'.mem.vol.snaps = c.mem.vol.snaps
  room : c.mem.vol.room ≤ c'.mem.vol.room + n

theorem Extends.trans {c₁ c₂ c₃ : Core} (h : Extends n c₁ c₂) (h' : Extends m c₂ c₃) :
    Extends (n + m) c₁ c₃ where
  grows := h.grows.trans h'.grows
  env := h'.env.trans h.env
  curVol := h'.curVol.trans h.curVol
  bitmaps := h'.bitmaps.trans h.bitmaps
  snapCount := h'.snapCount.trans h.snapCount
  snaps := h'.snaps.trans h.snaps
  room := by
    have first := h.room
    have second := h'.room
    omega

variable {c : Core}

theorem Extends.mono {c' : Core} (h : Extends n c c') (le : n ≤ m) : Extends m c c' :=
  { h with room := h.room.trans (by omega) }

/-- The state after block `blk` was written to the free block `b`. -/
def Core.withBlock (c : Core) (b : Nat) (blk : Block) : Core :=
  { c with
    store := update c.store b blk
    issued := c.issued ++ [(b, blk)]
    mem := c.mem.setVol fun v => v.bmpTake b }

theorem Vol.InUse.ne_free {a : Nat} (used : v.InUse a) (free : v.Free b) : a ≠ b := by
  rintro rfl
  have unused := free.unused
  rw [used.2.2] at unused
  cases unused

theorem extends_withBlock (free : c.mem.vol.Free b) (blk : Block) :
    Extends 1 c (c.withBlock b blk) ∧ (c.withBlock b blk).mem.vol.InUse b := by
  obtain ⟨count, dirty, eq⟩ := bmpTake_eq free.inside
  have vol : (c.withBlock b blk).mem.vol = c.mem.vol.bmpTake b := rfl
  refine ⟨⟨⟨?_, ?_⟩, rfl, rfl, ?_, ?_, ?_, ?_⟩, ?_⟩
  · rw [vol, eq]
  · intro a used
    have other := used.ne_free free
    refine ⟨?_, update_of_ne other _ _⟩
    rw [vol, eq]
    exact ⟨used.1, used.2.1, (update_of_ne other _ _).trans used.2.2⟩
  · rw [vol, eq]
  · rw [vol, eq]
  · rw [vol, eq]
  · exact (room_bmpTake free).le
  · rw [vol, eq]
    exact ⟨free.start, free.inside, update_self _ _ _⟩

/-- A block is written to a free place, unless there is none. -/
theorem ends_mfsCommit (blk : Block) (c : Core) :
    Ends ((mfsCommit blk).ideal c) (fun b c' => c.mem.vol.Free b ∧ c' = c.withBlock b blk)
      fun c' => c' = c ∧ c.mem.vol.room = 0 := by
  simp only [mfsCommit, mfsAllocBlock, ideal_bind, ideal_getMem]
  rcases found : c.mem.vol.findFree with _ | b
  · exact ⟨rfl, room_eq_zero found⟩
  · exact ⟨findFree_some found, rfl⟩

theorem ends_mfsCommit_bind {blk : Block} {α : Type} {f : Nat → Op Unit α}
    {Q : α → Core → Prop} {F : Core → Prop} (full : c.mem.vol.room = 0 → F c)
    (next : ∀ b, c.mem.vol.Free b → Ends ((f b).ideal (c.withBlock b blk)) Q F) :
    Ends ((mfsCommit blk >>= f).ideal c) Q F := by
  refine (ends_mfsCommit blk c).bind (fun c' h => ?_) fun b c₁ h => ?_
  · obtain ⟨rfl, noRoom⟩ := h
    exact full noRoom
  · obtain ⟨free, rfl⟩ := h
    exact next b free

/-! ## Commit points -/

/-- The writes of one copy of the metadata. -/
def Vol.copyWrites (v : Vol) (copy : Nat) : List BlockWrite :=
  (((List.range v.bmpDataBlocks).filter v.dirty).map fun k =>
      (4 + copy * v.bmpDataBlocks + k, Block.bitmap (v.bmpChunk k))) ++
    [(2 + copy, .bmpHeader v.buildBmpHeader), (copy, .super v.buildSuper)]

/-- The writes of a commit of `v`, in order. -/
def Vol.flushWrites (v : Vol) : List BlockWrite := v.nextGen.copyWrites 0 ++ v.nextGen.copyWrites 1

/-- The state after a sequence of writes. -/
def Core.writes (c : Core) (ws : List BlockWrite) : Core :=
  { c with store := applyWrites c.store ws, issued := c.issued ++ ws }

@[simp] theorem Core.writes_nil (c : Core) : c.writes [] = c := by simp [Core.writes]

@[simp] theorem Core.writes_writes (c : Core) (ws ws' : List BlockWrite) :
    (c.writes ws).writes ws' = c.writes (ws ++ ws') := by
  simp [Core.writes, applyWrites_append]

theorem ideal_writeChunks (v : Vol) (place : Nat → Nat) (ks : List Nat) (c : Core) :
    (each ks fun k => if v.dirty k then mfsWriteBlk (place k) (.bitmap (v.bmpChunk k)) else pure ()).ideal c =
      (.ok (), c.writes ((ks.filter v.dirty).map fun k => (place k, Block.bitmap (v.bmpChunk k)))) := by
  induction ks generalizing c with
  | nil => simp [each]
  | cons k ks ih =>
    rw [each, ideal_bind]
    rcases dirty : v.dirty k with _ | _
    · simp only [Bool.false_eq_true, if_false, ideal_pure, Act.after_ok]
      rw [ih, filter_cons_of_neg (by simp [dirty])]
    · rw [filter_cons_of_pos dirty]
      exact (ih (c.writes [(place k, .bitmap (v.bmpChunk k))])).trans (by simp)

theorem ideal_writeCopy (v : Vol) (copy : Nat) (c : Core) :
    (writeCopy v copy).ideal c = (.ok (), c.writes (v.copyWrites copy)) := by
  rw [writeCopy, ideal_bind, ideal_writeChunks v fun k => 4 + copy * v.bmpDataBlocks + k, Act.after_ok,
    ideal_bind, ideal_mfsWriteBlk, Act.after_ok, ideal_mfsWriteBlk, copyWrites, ← Core.writes_writes]
  simp [Core.writes]

theorem ideal_mfsBmpFlush (c : Core) :
    mfsBmpFlush.ideal c = (.ok (),
      { c.writes c.mem.vol.flushWrites with mem := c.mem.setVol Vol.committed }) := by
  rw [mfsBmpFlush, ideal_setVol_bind, ideal_getMem_bind, ideal_bind]
  have copies : List.range MFS_SB_COPIES = [0, 1] := rfl
  rw [copies, each, ideal_bind, ideal_writeCopy, Act.after_ok, each, ideal_bind, ideal_writeCopy,
    Act.after_ok, each, ideal_pure, Act.after_ok, Core.writes_writes]
  rfl

variable {w : BlockWrite}

theorem Vol.mem_copyWrites (geometry : v.bmpDataBlocks = bbFor v.total) {copy : Nat}
    (small : copy < 2) (mem : w ∈ v.copyWrites copy) : w.1 < v.dataStart := by
  rw [dataStart, ← geometry]
  simp only [copyWrites, mem_append, mem_map, mem_filter, mem_range,
    mem_cons, not_mem_nil, or_false] at mem
  rcases mem with ⟨k, ⟨bound, -⟩, rfl⟩ | rfl | rfl
  · have : copy * v.bmpDataBlocks ≤ 1 * v.bmpDataBlocks := Nat.mul_le_mul_right _ (by omega)
    omega
  · omega
  · omega

/-- A commit writes to the metadata area only. -/
theorem flushWrites_below (geometry : v.bmpDataBlocks = bbFor v.total)
    (mem : w ∈ v.flushWrites) : w.1 < v.dataStart := by
  rcases mem_append.mp mem with mem | mem <;>
    exact mem_copyWrites (v := v.nextGen) geometry (by omega) mem

theorem store_afterFlush (geometry : c.mem.vol.bmpDataBlocks = bbFor c.mem.vol.total)
    (data : c.mem.vol.dataStart ≤ b) : (c.writes c.mem.vol.flushWrites).store b = c.store b := by
  apply applyWrites_untouched
  intro w mem same
  have := flushWrites_below geometry mem
  omega

theorem extends_flush (geometry : c.mem.vol.bmpDataBlocks = bbFor c.mem.vol.total) :
    Extends 0 c { c.writes c.mem.vol.flushWrites with mem := c.mem.setVol Vol.committed } :=
  ⟨⟨rfl, fun _ used => ⟨used, store_afterFlush geometry used.1⟩⟩, rfl, rfl, rfl, rfl, rfl, le_rfl⟩

end MorionOS.Mfs
