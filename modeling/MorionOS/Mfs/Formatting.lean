import MorionOS.Mfs.Loading
import MorionOS.Mfs.InodeChange

/-!
# Formatting

A volume of the least size has room for the four blocks that `mfsFormat` writes
behind the metadata, so formatting succeeds on every volume when no transfer and no
page allocation fails.
-/

namespace MorionOS.Mfs

open StateAct Layered List

/-! ## Room on an empty volume -/

variable {v : Vol} {n : Nat} {c : Core}

theorem Vol.room_of_clear (clear : ∀ b, v.dataStart ≤ b → b < v.total → v.bmp b = false) :
    v.total - v.dataStart ≤ v.room := by
  rcases Nat.le_total v.total v.dataStart with small | large
  · omega
  · have data : (range' v.dataStart (v.total - v.dataStart)).countP
        (fun b => decide (v.dataStart ≤ b) && !v.bmp b) = v.total - v.dataStart := by
      rw [countP_eq_length.mpr, length_range']
      intro b mem
      obtain ⟨low, high⟩ := mem_range'_1.mp mem
      simp [low, clear b low (by omega)]
    have parts : range v.total = range v.dataStart ++ range' v.dataStart (v.total - v.dataStart) := by
      have whole := @range'_append_1 0 v.dataStart (v.total - v.dataStart)
      rw [Nat.zero_add, Nat.add_sub_cancel' large] at whole
      rw [range_eq_range', range_eq_range', whole]
    rw [Vol.room, parts, countP_append, data]
    exact Nat.le_add_left _ _

theorem Vol.bmpSetAll_other {bs : List Nat} {b : Nat} (other : b ∉ bs) :
    (v.bmpSetAll bs).bmp b = v.bmp b := by
  induction bs generalizing v with
  | nil => rfl
  | cons b' bs ih =>
    rw [mem_cons, not_or] at other
    rw [Vol.bmpSetAll_cons, ih other.2]
    obtain ⟨free, dirty, eq⟩ := v.bmpSet_eq b'
    rw [eq]
    split
    · exact Function.update_of_ne other.1 _ _
    · rfl

/-- The volume that `mfs_format` starts to fill. -/
def Vol.formatted (v : Vol) (total : Nat) : Vol :=
  let w := (v.resize total).blank
  w.bmpSetAll (List.range w.dataStart)

theorem Vol.formatted_eq (v : Vol) (total : Nat) : ∃ bmp free dirty, v.formatted total =
    { (v.resize total).blank with bmp := bmp, freeBlocks := free, dirty := dirty } :=
  Vol.bmpSetAll_eq _ _

theorem Vol.formatted_room (v : Vol) {total : Nat} (size : MFS_MIN_TOTAL_BLOCKS ≤ total) :
    4 ≤ (v.formatted total).room := by
  obtain ⟨bmp, free, dirty, eq⟩ := v.formatted_eq total
  have geometry : (v.formatted total).total = total ∧ (v.formatted total).dataStart = 4 + 2 * bbFor total := by
    rw [eq]
    exact ⟨rfl, rfl⟩
  have clear : ∀ b, (v.formatted total).dataStart ≤ b → b < (v.formatted total).total →
      (v.formatted total).bmp b = false := by
    intro b low high
    rw [geometry.2] at low
    have outside : b ∉ range (v.resize total).blank.dataStart := by
      rw [mem_range]
      exact Nat.not_lt.mpr low
    rw [Vol.formatted, Vol.bmpSetAll_other outside]
    have covered : ¬ bbFor total * MFS_BMP_BLOCK_SPAN ≤ b := by
      simp only [bbFor, MFS_BMP_BLOCK_SPAN, MFS_BLOCK]
      omega
    simp [Vol.blank, Vol.resize, covered]
  have room := Vol.room_of_clear clear
  rw [geometry.1, geometry.2] at room
  have left : 4 ≤ total - (4 + 2 * bbFor total) := by
    simp only [MFS_MIN_TOTAL_BLOCKS, bbFor, MFS_BMP_BLOCK_SPAN, MFS_BLOCK] at size ⊢
    omega
  exact left.trans room

theorem minTotal_le_formatTotalBlocks (sectors : Nat) : MFS_MIN_TOTAL_BLOCKS ≤ formatTotalBlocks sectors := by
  rw [formatTotalBlocks]
  split
  · decide
  · exact Nat.le_max_left _ _

/-! ## Formatting succeeds -/

/-- A volume without inodes and with room for `n` blocks. -/
structure Blank (n : Nat) (c : Core) : Prop where
  geometry : c.mem.vol.bmpDataBlocks = bbFor c.mem.vol.total
  table : c.mem.vol.itabMem = fun _ => 0
  room : n ≤ c.mem.vol.room

theorem Blank.of_vol {c' : Core} (blank : Blank n c) (vol : c'.mem.vol = c.mem.vol) : Blank n c' := by
  constructor <;> rw [vol]
  · exact blank.geometry
  · exact blank.table
  · exact blank.room

theorem Vol.itabMem_bmpTake {b : Nat} (free : v.Free b) : (v.bmpTake b).itabMem = v.itabMem := by
  obtain ⟨count, dirty, eq⟩ := Vol.bmpTake_eq free.inside
  rw [eq]

theorem Blank.mfsCommit (blank : Blank (n + 1) c) (blk : Block) :
    Ends ((mfsCommit blk).ideal c) (fun _ c' => Blank n c') fun _ => False := by
  have room := blank.room
  refine (ends_mfsCommit blk c).mono (fun b c' h => ?_) fun _ full => by omega
  obtain ⟨free, rfl⟩ := h
  obtain ⟨grown, -⟩ := extends_withBlock free blk
  refine ⟨?_, (Vol.itabMem_bmpTake free).trans blank.table, by have := grown.room; omega⟩
  rw [grown.bitmaps, grown.grows.1]
  exact blank.geometry

theorem Blank.mfsItabFlush (blank : Blank (n + 1) c) :
    Ends (mfsItabFlush.ideal c) (fun _ c' => Blank n c') fun _ => False := by
  have room := blank.room
  refine (ends_mfsItabFlush c).mono (fun _ c' h => ?_) fun _ full => by omega
  obtain ⟨nb, free, rfl⟩ := h
  obtain ⟨grown, -⟩ := extends_withIndex blank.geometry free
  refine ⟨?_, (Vol.itabMem_bmpTake free).trans blank.table, by have := grown.room; omega⟩
  rw [grown.bitmaps, grown.grows.1]
  exact blank.geometry

theorem Blank.mfsItabSet (blank : Blank 2 c) (ino blk : Nat) (valid : inoValid ino = true) :
    Ends ((mfsItabSet ino blk).ideal c) (fun _ _ => True) fun _ => False := by
  have missing : c.mem.vol.itabTable (inoSlot ino).1 = 0 := by
    rw [Vol.itabTable, blank.table]
    split <;> rfl
  rw [Mfs.mfsItabSet, valid, ensure_true, ideal_bind, ideal_pure, Act.after_ok, ideal_bind, prepareTable,
    ideal_getMem_bind, ideal_getMem_bind, if_pos missing,
    ideal_setCache, Act.after_ok, ideal_setCache_bind, ideal_getMem_bind]
  refine Ends.bind (Blank.mfsCommit (n := 1) ?_ _) (fun _ => id) fun nt c₁ blank₁ => ?_
  · exact blank.of_vol rfl
  refine (ends_mfsItabFlush _).mono (fun _ _ _ => trivial) fun _ full => ?_
  have room : 1 ≤ c₁.mem.vol.room := blank₁.room
  exact absurd full.2 (Nat.pos_iff_ne_zero.mp room)

theorem ends_mfsWinEnsure (n : Nat) (pages : ∀ i, c.env.pageOk i = true) :
    Ends ((mfsWinEnsure n).ideal c) (fun _ c' => SameButWindows c c') fun _ => False := by
  obtain ⟨c', ran, same⟩ := ideal_mfsWinEnsure n pages
  rw [ran]
  exact same

/-- **Formatting succeeds** while pages can be had. -/
theorem ends_mfsFormat (pages : ∀ i, c.env.pageOk i = true) :
    Ends (mfsFormat.ideal c) (fun _ _ => True) fun _ => False := by
  rw [mfsFormat, ideal_setCache_bind, ideal_getMem_bind, ideal_setVol_bind]
  refine Ends.bind (ends_mfsWinEnsure _ ?_) (fun _ => id) fun _ c₁ same => ?_
  · exact pages
  obtain ⟨win, calls, rfl⟩ := same
  rw [ideal_setVol_bind, ideal_setCache_bind, ideal_setVol_bind]
  have blank : Blank 4 { c with mem := c.mem.setVol fun v => v.formatted (formatTotalBlocks c.mem.curSectors) } := by
    obtain ⟨bmp, free, dirty, eq⟩ := c.mem.vol.formatted_eq (formatTotalBlocks c.mem.curSectors)
    refine ⟨?_, ?_, c.mem.vol.formatted_room (minTotal_le_formatTotalBlocks _)⟩ <;> rw [Mem.setVol, eq] <;> rfl
  refine Ends.bind (m := mfsNow) (R := fun _ c' => Blank 4 c') (F := fun _ => False) (blank.of_vol rfl)
    (fun _ => id) fun now c₂ blank₂ => ?_
  refine (blank₂.mfsCommit _).bind (fun _ => id) fun root c₃ blank₃ => ?_
  refine blank₃.mfsItabFlush.bind (fun _ => id) fun _ c₄ blank₄ => ?_
  refine (blank₄.mfsItabSet MFS_ROOT_INO root (by decide)).bind (fun _ => id) fun _ c₅ _ => ?_
  rw [ideal_setVol_bind, ideal_mfsBmpFlush]
  trivial

end MorionOS.Mfs
