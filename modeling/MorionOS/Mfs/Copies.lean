import MorionOS.Mfs.Allocate
import MorionOS.Mfs.Loading

/-!
# The two copies of the bitmap

A commit rewrites a bitmap block of both copies when it is marked as changed since
the last commit, and always writes both headers, with the checksums of the bitmap
in memory.  So a copy is usable afterwards if its unmarked blocks already held what
the memory holds.  Loading takes the bitmap from one copy and marks nothing, hence
the other copy may be left with a header that does not fit its blocks, as in
`commit_after_crash_leaves_stale_copy`; `commit_leaves_usable_copies_iff` says when both are usable.
-/

namespace MorionOS.Mfs

open StateAct Layered List Vol

/-! ## Commits that succeed -/

theorem succeedsAs_setVol {ε : Type} (f : Vol → Vol) :
    SucceedsAs (fun _ => True) (setVol f : Op ε Unit) := by
  rintro s a s' - ran
  obtain rfl : { s with mem := s.mem.setVol f } = s' := by simpa using ran
  exact ⟨rfl, trivial⟩

theorem succeedsAs_mfsCommitFlush : SucceedsAs (fun _ => True) mfsCommitFlush := by
  rintro s a s' - ran
  cases flushes : s.canFlush with
  | true =>
    obtain ⟨s₁, flushed, core, -, -⟩ := flushRun_of_canFlush flushes
    obtain rfl : s₁ = s' := congrArg Prod.snd (flushed.symm.trans ran)
    exact ⟨by rw [core]; rfl, trivial⟩
  | false =>
    have failed := (flushRun_of_not_canFlush flushes).symm.trans ran
    cases congrArg Prod.fst failed

theorem succeedsAs_mfsWriteBlk (b : Nat) (blk : Block) :
    SucceedsAs (fun _ => True) (mfsWriteBlk b blk) := by
  rintro s a s' - ran
  change stageRun b blk s = (.ok a, s') at ran
  rw [stageRun] at ran
  split at ran
  · obtain ⟨u, s₁, flushed, staged⟩ := Act.after_eq_ok ran
    obtain ⟨same, -⟩ := succeedsAs_mfsCommitFlush s u s₁ trivial flushed
    obtain rfl : s₁.stage b blk = s' := congrArg Prod.snd staged
    have core : s₁.core = s.core := (congrArg Prod.snd same).symm
    exact ⟨by rw [Fs.core_stage, core]; rfl, trivial⟩
  · obtain rfl : s.stage b blk = s' := congrArg Prod.snd ran
    exact ⟨by rw [Fs.core_stage]; rfl, trivial⟩

theorem succeedsAs_writeCopy (v : Vol) (copy : Nat) :
    SucceedsAs (fun _ => True) (writeCopy v copy) := by
  refine .bind (succeedsAs_each fun k _ => ?_) fun _ =>
    .bind (succeedsAs_mfsWriteBlk _ _) fun _ => succeedsAs_mfsWriteBlk _ _
  split
  · exact succeedsAs_mfsWriteBlk _ _
  · exact succeedsAs_pure ()

/-- A commit that succeeds has done what `ideal_mfsBmpFlush` says, although transfers
may have failed and been repeated. -/
theorem core_of_mfsBmpFlush {s s' : Fs} (ran : mfsBmpFlush.run s = (.ok (), s')) :
    s'.core = { s.core.writes s.mem.vol.flushWrites with mem := s.mem.setVol Vol.committed } := by
  have succeeds : SucceedsAs (fun _ => True) mfsBmpFlush :=
    .bind (succeedsAs_setVol _) fun _ => .bind (succeedsAs_getMem _) fun v =>
      .bind (succeedsAs_each fun copy _ => succeedsAs_writeCopy v copy) fun _ =>
        .bind succeedsAs_mfsCommitFlush fun _ => succeedsAs_setVol _
  have ideal := (succeeds s () s' trivial ran).1
  rw [ideal_mfsBmpFlush] at ideal
  exact (congrArg Prod.snd ideal).symm

/-! ## Usable copies -/

/-- The copy alone, whatever the window holds, passes the checks of
`mfsLoadBitmapCopy` and decodes to the bitmap in memory. -/
def Core.CopyUsable (c : Core) (copy : Nat) : Prop :=
  ∀ window : Nat → Bool, ∃ c',
    (mfsLoadBitmapCopy copy).ideal
        { c with mem := c.mem.setVol fun v => { v with bmp := window } } = (.ok (), c') ∧
      ∀ b < c.mem.vol.bmpDataBlocks * MFS_BMP_BLOCK_SPAN, c'.mem.vol.bmp b = c.mem.vol.bmp b

/-- Bitmap block `k` of the copy holds what the memory holds. -/
def Core.HoldsChunk (c : Core) (copy k : Nat) : Prop :=
  ∃ bits, c.store (c.mem.vol.copyStart copy + k) = .bitmap bits ∧
    ∀ i < MFS_BMP_BLOCK_SPAN, bits i = c.mem.vol.bmpChunk k i

/-- Checksums are about the bits of one block. -/
theorem bitmapCrc_congr {bits bits' : Nat → Bool} (same : ∀ i < MFS_BMP_BLOCK_SPAN, bits i = bits' i) :
    bitmapCrc bits = bitmapCrc bits' := by
  have bytes : bitmapBytes bits = bitmapBytes bits' := by
    refine map_congr_left ?_
    intro i member
    have inside := mem_range.mp member
    have value : ∀ n ≤ 8, bitsValue (fun j => bits (8 * i + j)) n =
        bitsValue (fun j => bits' (8 * i + j)) n := by
      intro n bound
      induction n with
      | zero => rfl
      | succ n ih =>
        have here := same (8 * i + n) (by rw [MFS_BMP_BLOCK_SPAN]; omega)
        rw [bitsValue, bitsValue, ih (by omega), here]
    exact congrArg UInt8.ofNat (value 8 le_rfl)
  rw [bitmapCrc, bitmapCrc, bytes]

variable {k copy : Nat} {c : Core}

theorem storedBit_chunk {store : Nat → Block} {start i : Nat} {bits : Nat → Bool}
    (content : store (start + k) = .bitmap bits) (inside : i < MFS_BMP_BLOCK_SPAN) :
    storedBit store start (k * MFS_BMP_BLOCK_SPAN + i) = bits i := by
  have positive : 0 < MFS_BMP_BLOCK_SPAN := by decide
  have chunk : (k * MFS_BMP_BLOCK_SPAN + i) / MFS_BMP_BLOCK_SPAN = k := by
    rw [Nat.mul_comm, Nat.mul_add_div positive, Nat.div_eq_of_lt inside, Nat.add_zero]
  have offset : (k * MFS_BMP_BLOCK_SPAN + i) % MFS_BMP_BLOCK_SPAN = i := by
    rw [Nat.mul_comm, Nat.mul_add_mod, Nat.mod_eq_of_lt inside]
  rw [storedBit, chunk, content]
  exact congrArg bits offset

theorem chunk_lt {i n : Nat} (chunk : k < n) (inside : i < MFS_BMP_BLOCK_SPAN) :
    k * MFS_BMP_BLOCK_SPAN + i < n * MFS_BMP_BLOCK_SPAN := by
  calc k * MFS_BMP_BLOCK_SPAN + i < k * MFS_BMP_BLOCK_SPAN + MFS_BMP_BLOCK_SPAN := by omega
    _ = (k + 1) * MFS_BMP_BLOCK_SPAN := by ring
    _ ≤ n * MFS_BMP_BLOCK_SPAN := Nat.mul_le_mul_right _ chunk

/-- A copy whose header was written for the bitmap in memory is usable exactly when
its blocks hold that bitmap. -/
theorem copyUsable_iff {h : BmpHeader} (header : c.store (2 + copy) = .bmpHeader h) (fits : h.Fits c.mem.vol)
    (crc : ∀ k < c.mem.vol.bmpDataBlocks, h.crc k = bitmapCrc (c.mem.vol.bmpChunk k)) :
    c.CopyUsable copy ↔ ∀ k < c.mem.vol.bmpDataBlocks, c.HoldsChunk copy k := by
  constructor
  · intro usable k inside
    obtain ⟨c', ran, decoded⟩ := usable c.mem.vol.bmp
    obtain ⟨h', header', fits', chunks⟩ := header_of_mfsLoadBitmapCopy ran
    obtain ⟨c'', ran', -, loaded⟩ := ideal_mfsLoadBitmapCopy header' fits' chunks
    obtain rfl : c' = c'' := congrArg Prod.snd (ran.symm.trans ran')
    obtain ⟨bits, content, -⟩ := chunks k inside
    refine ⟨bits, content, fun i bound => ?_⟩
    have here := chunk_lt inside bound
    calc bits i = storedBit c.store (c.mem.vol.copyStart copy) (k * MFS_BMP_BLOCK_SPAN + i) :=
          (storedBit_chunk content bound).symm
      _ = c'.mem.vol.bmp (k * MFS_BMP_BLOCK_SPAN + i) := (loaded _ here).symm
      _ = c.mem.vol.bmpChunk k i := decoded _ here
  · intro holds window
    have chunks : ∀ k < c.mem.vol.bmpDataBlocks,
        (c.store (c.mem.vol.copyStart copy + k)).Checked (h.crc k) := by
      intro k inside
      obtain ⟨bits, content, same⟩ := holds k inside
      exact ⟨bits, content, by rw [crc k inside, bitmapCrc_congr same]⟩
    obtain ⟨c', ran, -, loaded⟩ := ideal_mfsLoadBitmapCopy
      (c := { c with mem := c.mem.setVol fun v => { v with bmp := window } }) header fits chunks
    refine ⟨c', ran, fun b inside => ?_⟩
    have chunk : b / MFS_BMP_BLOCK_SPAN < c.mem.vol.bmpDataBlocks :=
      Nat.div_lt_of_lt_mul (Nat.mul_comm _ _ ▸ inside)
    have bound : b % MFS_BMP_BLOCK_SPAN < MFS_BMP_BLOCK_SPAN := Nat.mod_lt _ (by decide)
    obtain ⟨bits, content, same⟩ := holds _ chunk
    have split : b / MFS_BMP_BLOCK_SPAN * MFS_BMP_BLOCK_SPAN + b % MFS_BMP_BLOCK_SPAN = b :=
      Nat.div_add_mod' b MFS_BMP_BLOCK_SPAN
    calc c'.mem.vol.bmp b = storedBit c.store (c.mem.vol.copyStart copy) b := loaded b inside
      _ = bits (b % MFS_BMP_BLOCK_SPAN) := by
          conv_lhs => rw [← split]
          exact storedBit_chunk content bound
      _ = c.mem.vol.bmp b := by
          rw [same _ bound, bmpChunk, split]

/-! ## Commits -/

/-- The writes of a commit: for each copy the changed bitmap blocks, the header and
the superblock. -/
theorem Vol.mem_flushWrites {v : Vol} {w : BlockWrite} :
    w ∈ v.flushWrites ↔ ∃ copy < MFS_SB_COPIES,
      (∃ k < v.bmpDataBlocks, v.dirty k = true ∧ w = (v.copyStart copy + k, .bitmap (v.bmpChunk k))) ∨
        w = (2 + copy, .bmpHeader v.nextGen.buildBmpHeader) ∨ w = (copy, .super v.nextGen.buildSuper) := by
  have one : ∀ copy, w ∈ v.nextGen.copyWrites copy ↔
      (∃ k < v.bmpDataBlocks, v.dirty k = true ∧ w = (v.copyStart copy + k, .bitmap (v.bmpChunk k))) ∨
        w = (2 + copy, .bmpHeader v.nextGen.buildBmpHeader) ∨
        w = (copy, .super v.nextGen.buildSuper) := by
    intro copy
    simp only [copyWrites, mem_append, mem_map, mem_filter, mem_range,
      mem_cons, not_mem_nil, or_false]
    constructor
    · rintro (⟨k, ⟨inside, dirty⟩, rfl⟩ | fixed)
      · exact .inl ⟨k, inside, dirty, rfl⟩
      · exact .inr fixed
    · rintro (⟨k, inside, dirty, rfl⟩ | fixed)
      · exact .inl ⟨k, ⟨inside, dirty⟩, rfl⟩
      · exact .inr fixed
  rw [flushWrites, mem_append, one 0, one 1]
  constructor
  · rintro (first | second)
    · exact ⟨0, by decide, first⟩
    · exact ⟨1, by decide, second⟩
  · rintro ⟨copy, small, mem⟩
    obtain rfl | rfl := copy_cases small
    · exact .inl mem
    · exact .inr mem

/-- The bitmap blocks of the two copies do not overlap. -/
theorem Vol.copyStart_injective {v : Vol} {copy' k' : Nat} (small : copy < MFS_SB_COPIES)
    (small' : copy' < MFS_SB_COPIES) (inside : k < v.bmpDataBlocks) (inside' : k' < v.bmpDataBlocks)
    (same : v.copyStart copy + k = v.copyStart copy' + k') : copy = copy' ∧ k = k' := by
  obtain rfl | rfl := copy_cases small
  · obtain rfl | rfl := copy_cases small'
    · exact ⟨rfl, by omega⟩
    · simp only [copyStart] at same
      omega
  · obtain rfl | rfl := copy_cases small'
    · simp only [copyStart] at same
      omega
    · exact ⟨rfl, by omega⟩

theorem nextGen_crc {v : Vol} (inside : k < v.bmpDataBlocks) :
    v.nextGen.buildBmpHeader.crc k = bitmapCrc (v.bmpChunk k) := by
  have bound : k < v.nextGen.bmpDataBlocks := inside
  simp only [buildBmpHeader, if_pos bound]
  exact if_pos inside

theorem flushed_header (v : Vol) (store : Nat → Block) (small : copy < MFS_SB_COPIES) :
    applyWrites store v.flushWrites (2 + copy) = .bmpHeader v.nextGen.buildBmpHeader := by
  apply applyWrites_eq_of_mem
  · exact mem_flushWrites.mpr ⟨copy, small, .inr (.inl rfl)⟩
  · intro w mem here
    rw [MFS_SB_COPIES] at small
    obtain ⟨copy', small', ⟨k, -, -, rfl⟩ | rfl | rfl⟩ := mem_flushWrites.mp mem
    · simp only [copyStart] at here
      omega
    · rfl
    · rw [MFS_SB_COPIES] at small'
      omega

/-- After a commit a bitmap block is the new one if it was marked, else what it was. -/
theorem flushed_chunk (v : Vol) (store : Nat → Block) (small : copy < MFS_SB_COPIES)
    (inside : k < v.bmpDataBlocks) :
    applyWrites store v.flushWrites (v.copyStart copy + k) =
      if v.dirty k then .bitmap (v.bmpChunk k) else store (v.copyStart copy + k) := by
  have only : ∀ w ∈ v.flushWrites, w.1 = v.copyStart copy + k →
      v.dirty k = true ∧ w.2 = .bitmap (v.bmpChunk k) := by
    intro w mem here
    obtain ⟨copy', small', ⟨k', inside', dirty, rfl⟩ | rfl | rfl⟩ := mem_flushWrites.mp mem
    · obtain ⟨-, rfl⟩ := copyStart_injective small' small inside' inside here
      exact ⟨dirty, rfl⟩
    · rw [MFS_SB_COPIES] at small'
      simp only [copyStart] at here
      omega
    · rw [MFS_SB_COPIES] at small'
      simp only [copyStart] at here
      omega
  split
  next dirty =>
    apply applyWrites_eq_of_mem
    · exact mem_flushWrites.mpr ⟨copy, small, .inl ⟨k, inside, dirty, rfl⟩⟩
    · exact fun w mem here => (only w mem here).2
  next clean =>
    apply applyWrites_untouched
    exact fun w mem here => clean (only w mem here).1

/-- After a commit a copy is usable exactly when its unmarked blocks were current. -/
theorem copyUsable_committed_iff (small : copy < MFS_SB_COPIES) :
    Core.CopyUsable { c.writes c.mem.vol.flushWrites with mem := c.mem.setVol Vol.committed } copy ↔
      ∀ k < c.mem.vol.bmpDataBlocks, c.mem.vol.dirty k = false → c.HoldsChunk copy k := by
  have header := flushed_header c.mem.vol c.store small
  have fits : c.mem.vol.nextGen.buildBmpHeader.Fits c.mem.vol.committed := ⟨rfl, rfl, rfl⟩
  refine (copyUsable_iff (c := { c.writes c.mem.vol.flushWrites with mem := c.mem.setVol committed })
    header fits fun k inside => nextGen_crc inside).trans (forall₂_congr fun k inside => ?_)
  have content := flushed_chunk c.mem.vol c.store small inside
  constructor
  · rintro ⟨bits, new, same⟩ clean
    rw [clean] at content
    exact ⟨bits, content.symm.trans new, same⟩
  · intro holds
    cases marked : c.mem.vol.dirty k with
    | true =>
      rw [marked] at content
      exact ⟨_, content, fun _ _ => rfl⟩
    | false =>
      rw [marked] at content
      obtain ⟨bits, old, same⟩ := holds marked
      exact ⟨bits, content.trans old, same⟩

/-- **Both copies are usable after a commit** exactly when every bitmap block that
was not marked as changed already held, in both copies, what the memory holds. -/
theorem commit_leaves_usable_copies_iff {s s' : Fs} (flushed : mfsBmpFlush.run s = (.ok (), s')) :
    (∀ copy < MFS_SB_COPIES, s'.core.CopyUsable copy) ↔
      ∀ copy < MFS_SB_COPIES, ∀ k < s.mem.vol.bmpDataBlocks, s.mem.vol.dirty k = false →
        s.core.HoldsChunk copy k := by
  rw [core_of_mfsBmpFlush flushed]
  exact forall₂_congr fun copy small => copyUsable_committed_iff small

/-- A load followed by a commit, both without failing transfers. -/
theorem load_then_commit {s : Fs} (ok : s.IoOk) (pages : ∀ i, s.env.pageOk i = true)
    (can : s.core.Recoverable) :
    ∃ copy < MFS_SB_COPIES, ∃ sb c s₁ s₂, s.core.Finds copy sb c ∧ mfsLoadState.run s = (.ok (), s₁) ∧
      s₁.core = { c with mem := c.mem.setVol fun v => v.bmpRecount.bmpSetAll c.metaBlocks } ∧
      mfsBmpFlush.run s₁ = (.ok (), s₂) := by
  obtain ⟨copy, small, sb, c, finds, load⟩ := load_of_recoverable pages can
  obtain ⟨loaded, core, ok₁⟩ := mfsLoadState.run_eq ok load
  obtain ⟨committed, -, -⟩ := mfsBmpFlush.run_eq ok₁ (ideal_mfsBmpFlush _)
  exact ⟨copy, small, sb, c, _, _, finds, Act.eq_of_fst loaded, core, Act.eq_of_fst committed⟩

/-! ## The small volume after a crash -/

/-- The small volume, its bitmap being up to date in both copies. -/
def demoCurrent : Fs :=
  { demoFs true [] [] with
    disk := fun _ => applyWrites demoStore
      [(4, .bitmap (demoVol.bmpChunk 0)), (5, .bitmap (demoVol.bmpChunk 0))] }

theorem demoCurrent_commits : (mfsBmpFlush.run demoCurrent).1 = .ok () := by decide +kernel

/-- A commit that writes no bitmap block keeps both copies usable if they were current. -/
theorem demoCurrent_commit_usable :
    (mfsBmpFlush.run demoCurrent).1 = .ok () ∧
      ∀ copy < MFS_SB_COPIES, (mfsBmpFlush.run demoCurrent).2.core.CopyUsable copy := by
  refine ⟨demoCurrent_commits, (commit_leaves_usable_copies_iff (Act.eq_of_fst demoCurrent_commits)).mpr ?_⟩
  intro copy small k inside _
  obtain rfl : k = 0 := Nat.lt_one_iff.mp inside
  obtain rfl | rfl := copy_cases small
  · exact ⟨_, rfl, fun _ _ => rfl⟩
  · exact ⟨_, rfl, fun _ _ => rfl⟩

/-- The small volume before block 9 was taken, committed with both copies. -/
def demoBefore : Nat → Block :=
  applyWrites demoStore
    ({ demoVol with gen := 0, bmp := fun b => decide (b < 9), dirty := fun _ => true } : Vol).flushWrites

/-- The volume whose next commit is cut off. -/
def demoTaken : Vol := { demoVol with dirty := fun _ => true }

/-- The machine stops when the first copy of the next commit is written. -/
def demoCrashed : Fs :=
  { demoFs true [] [] with disk := fun _ => applyWrites demoBefore (demoTaken.flushWrites.take 3) }

theorem demoCrashed_offers : demoCrashed.core.offered 0 = some demoTaken.nextGen.buildSuper ∧
    ∃ sb, demoCrashed.core.offered 1 = some sb ∧ sb.gen = 1 := ⟨rfl, _, rfl, rfl⟩

theorem demoCrashed_chunk : demoCrashed.core.store 4 = .bitmap (demoTaken.bmpChunk 0) := rfl

theorem demoCrashed_canLoad : demoCrashed.core.CanLoad 0 demoTaken.nextGen.buildSuper := by
  obtain ⟨first, sb₁, second, gen⟩ := demoCrashed_offers
  refine ⟨first, ⟨demoTaken.nextGen.buildBmpHeader, rfl, ⟨rfl, rfl, rfl⟩, fun k inside => ?_⟩, ?_⟩
  · obtain rfl : k = 0 := Nat.lt_one_iff.mp inside
    have place : 4 + 0 * bbFor demoTaken.nextGen.buildSuper.total + 0 = 4 := rfl
    rw [place, demoCrashed_chunk]
    exact ⟨_, rfl, (nextGen_crc Nat.one_pos).symm⟩
  · intro other small sb offer
    obtain rfl | rfl := copy_cases small
    · obtain rfl := Option.some.inj (first.symm.trans offer)
      exact le_rfl
    · obtain rfl := Option.some.inj (second.symm.trans offer)
      rw [gen]
      decide

/-- The second copy is older than the first one. -/
theorem demoCrashed_canLoad_only {sb : Super} (can : demoCrashed.core.CanLoad copy sb)
    (small : copy < MFS_SB_COPIES) : copy = 0 ∧ sb = demoTaken.nextGen.buildSuper := by
  obtain ⟨first, sb₁, second, gen⟩ := demoCrashed_offers
  obtain rfl | rfl := copy_cases small
  · exact ⟨rfl, Option.some.inj (can.1.symm.trans first)⟩
  · obtain rfl := Option.some.inj (can.1.symm.trans second)
    have newest := can.2.2 0 (by decide) _ first
    rw [gen] at newest
    cases Nat.not_succ_le_self 1 newest

theorem demo_metaBlocks (total : c.mem.vol.total = 64) (itab : c.mem.vol.itab = 8)
    (snaps : c.mem.vol.snapCount = 0)
    (index : c.store 8 = .itabx fun k => if k = 0 then 7 else 0) : ∀ b ∈ c.metaBlocks, b < 10 := by
  have start : c.mem.vol.dataStart = 6 := by
    rw [dataStart, total]
    rfl
  have table : tableBlocks c.store 8 =
      8 :: ((List.range MFS_ITAB_SLOTS).map fun k => if k = 0 then 7 else 0).filter (· != 0) := by
    rw [tableBlocks, index]
    rfl
  intro b member
  simp only [Core.metaBlocks, roots, itab, snaps, range_zero, map_nil,
    flatMap_cons, flatMap_nil, append_nil, table, mem_append, mem_cons,
    mem_filter, mem_map, mem_range] at member
  rcases member with below | rfl | ⟨⟨k, -, rfl⟩, -⟩
  · omega
  · decide
  · split <;> decide

/-- What the load finds: a bitmap in which all metadata is marked. -/
theorem demoCrashed_finds {sb : Super} (small : copy < MFS_SB_COPIES)
    (finds : demoCrashed.core.Finds copy sb c) :
    c.mem.vol.bmpRecount.bmpSetAll c.metaBlocks = c.mem.vol.bmpRecount ∧
      c.mem.vol.dirty 0 = false ∧ c.mem.vol.bmpDataBlocks = 1 ∧ c.mem.vol.bmp 9 = true ∧
      ∃ bits, c.store 5 = .bitmap bits ∧ bits 9 = false := by
  obtain ⟨can, ⟨c₀, same, adopted⟩, bits⟩ := finds
  obtain ⟨rfl, rfl⟩ := demoCrashed_canLoad_only can small
  obtain ⟨slots, bmp, crc, index, vol⟩ := adopted.vol
  have store : c.store = demoCrashed.core.store := adopted.store.trans same.store
  have size : c.mem.vol.bmpDataBlocks = 1 := by
    rw [vol]
    rfl
  have used : ∀ b < 10, c.mem.vol.bmp b = true := by
    intro b below
    have inside : b < MFS_BMP_BLOCK_SPAN := lt_trans below (by decide)
    have chunk := storedBit_chunk (k := 0) (i := b) demoCrashed_chunk inside
    rw [Nat.zero_mul, Nat.zero_add] at chunk
    have start : c.mem.vol.copyStart 0 = 4 := by rw [copyStart, Nat.zero_mul]
    rw [bits b (by rw [size, Nat.one_mul]; exact inside), start, store, chunk]
    simpa [bmpChunk, demoTaken, demoVol] using below
  refine ⟨bmpSetAll_of_set fun b member => ?_, ?_, size, used 9 (by decide), ?_⟩
  · refine used b (demo_metaBlocks ?_ ?_ ?_ ?_ b member)
    · rw [vol]
      rfl
    · rw [vol]
      rfl
    · rw [vol]
      rfl
    · rw [store]
      rfl
  · rw [adopted.dirty, same.dirty]
    rfl
  · rw [store]
    exact ⟨_, rfl, rfl⟩

/-- **A commit that leaves one copy unusable.**  After a crash between the copies the
volume is loaded from the first one.  The next commit finds no changed bitmap block,
so it writes a header with checksums that the blocks of the second copy do not have. -/
theorem commit_after_crash_leaves_stale_copy :
    ∃ s₁ s₂, mfsLoadState.run demoCrashed = (.ok (), s₁) ∧ mfsBmpFlush.run s₁ = (.ok (), s₂) ∧
      ¬ s₂.core.CopyUsable 1 := by
  have ok : demoCrashed.IoOk := ⟨fun _ => rfl, fun _ => rfl⟩
  have can : demoCrashed.core.Recoverable := ⟨0, by decide, _, demoCrashed_canLoad⟩
  obtain ⟨copy, small, sb, c, s₁, s₂, finds, load, core, commit⟩ := load_then_commit ok (fun _ => rfl) can
  obtain ⟨marked, clean, size, used, bits, stale, unset⟩ := demoCrashed_finds small finds
  have vol : s₁.core.mem.vol = c.mem.vol.bmpRecount := (congrArg (fun c => c.mem.vol) core).trans marked
  refine ⟨s₁, s₂, load, commit, fun usable => ?_⟩
  rw [core_of_mfsBmpFlush commit] at usable
  -- the unmarked block of the second copy lacks the bit of block 9
  obtain ⟨bits', content, same⟩ := (copyUsable_committed_iff (c := s₁.core) (by decide)).mp usable 0
    (by rw [vol]; exact size ▸ Nat.one_pos) (by rw [vol]; exact clean)
  have place : s₁.core.mem.vol.copyStart 1 + 0 = 5 := by
    rw [vol, copyStart]
    change 4 + 1 * c.mem.vol.bmpDataBlocks + 0 = 5
    rw [size]
  rw [place, congrArg Core.store core, stale] at content
  obtain rfl := Block.bitmap.inj content
  have bit := same 9 (by decide)
  rw [vol, unset] at bit
  have used' : c.mem.vol.bmpRecount.bmpChunk 0 9 = true := used
  rw [used'] at bit
  cases bit

end MorionOS.Mfs
