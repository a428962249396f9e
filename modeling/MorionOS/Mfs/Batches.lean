import MorionOS.Mfs.Generations

/-!
# What a batch contains

All writes go through one window, and a batch is the content of the window: blocks
of files and directories, bitmap blocks, headers and both superblocks.  The writes of
a commit fill the window where the last operation left it, so where a superblock
stands in its batch is a matter of counting: `commitBatches_apart_iff`.  Over whole
runs superblocks are kept apart from what they refer to just when every commit starts
with such a window (`batches_apart_iff_aligned`), which an ordinary commit does not
(`batch_mixes_superblocks`).
-/

namespace MorionOS.Mfs

open StateAct Layered Labelled List

/-! ## Superblocks at the edge of a batch -/

/-- A superblock is the first write of the batch, if there is one.  What is staged before it since the last
commit is referenced through it only: new nodes and data, the bitmap blocks and the header of its copy; for
the second superblock also the first one.  What is staged behind it belongs to the other copy. -/
def Apart (batch : List BlockWrite) : Prop := ∀ w ∈ batch.tail, MFS_SB_COPIES ≤ w.1

instance (batch : List BlockWrite) : Decidable (Apart batch) := inferInstanceAs (Decidable (∀ w ∈ _, _))

/-- When `n` writes precede, every superblock of `ws` opens a batch. -/
def OnEdge : Nat → List BlockWrite → Prop
  | _, [] => True
  | n, w :: ws => (w.1 < MFS_SB_COPIES → n % MFS_WB_PAGES = 0) ∧ OnEdge (n + 1) ws

variable {wb ws ws' : List BlockWrite} {n : Nat}

theorem onEdge_append : OnEdge n (ws ++ ws') ↔ OnEdge n ws ∧ OnEdge (n + ws.length) ws' := by
  induction ws generalizing n with
  | nil => simp [OnEdge]
  | cons w ws ih => rw [cons_append, OnEdge, OnEdge, ih, and_assoc, length_cons, Nat.add_right_comm, Nat.add_assoc]

theorem onEdge_of_high (high : ∀ w ∈ ws, MFS_SB_COPIES ≤ w.1) : OnEdge n ws := by
  induction ws generalizing n with
  | nil => trivial
  | cons w ws ih =>
    rw [forall_mem_cons] at high
    exact ⟨fun small => absurd high.1 (Nat.not_le.mpr small), ih high.2⟩

theorem onEdge_add_pages : OnEdge (MFS_WB_PAGES + n) ws ↔ OnEdge n ws := by
  induction ws generalizing n with
  | nil => rfl
  | cons w ws ih => rw [OnEdge, OnEdge, Nat.add_mod_left, Nat.add_assoc, ih]

theorem apart_concat {w : BlockWrite} (room : wb.length < MFS_WB_PAGES) :
    Apart (wb ++ [w]) ↔ Apart wb ∧ (w.1 < MFS_SB_COPIES → wb.length % MFS_WB_PAGES = 0) := by
  rw [Nat.mod_eq_of_lt room]
  cases wb with
  | nil => simp [Apart]
  | cons v wb =>
    simp only [Apart, cons_append, tail_cons, forall_mem_append, forall_mem_singleton, length_cons]
    refine and_congr_right fun _ => ⟨fun high small => ?_, fun edge => ?_⟩ <;> omega

/-- All batches are proper just when the window is and the superblocks come at its edges. -/
theorem fill_apart_iff (short : wb.length ≤ MFS_WB_PAGES) :
    ((∀ b ∈ (fill wb ws).1, Apart b) ∧ Apart (fill wb ws).2) ↔ Apart wb ∧ OnEdge wb.length ws := by
  induction ws generalizing wb with
  | nil => simp [fill, OnEdge]
  | cons w ws ih =>
    rw [fill, OnEdge]
    split
    next full =>
      obtain full := le_antisymm short full
      have single : Apart [w] := forall_mem_nil _
      rw [forall_mem_cons, and_assoc, @ih [w] (Nat.le_add_left 1 15), full, onEdge_add_pages]
      simp [single]
    next room =>
      rw [ih (by rw [length_append, length_singleton]; omega), apart_concat (by omega), length_append,
        length_singleton, and_assoc]

/-! ## Batches of a commit -/

/-- The number of bitmap blocks that a commit writes to each copy. -/
def Vol.dirtyCount (v : Vol) : Nat := ((List.range v.bmpDataBlocks).filter v.dirty).length

/-- A commit from here puts both superblocks at the start of a batch: the second one comes `dirtyCount + 2`
writes after the first one. -/
def Fs.Aligned (s : Fs) : Prop :=
  s.wb.length % MFS_WB_PAGES = 1 ∧ (s.mem.vol.dirtyCount + 2) % MFS_WB_PAGES = 0

instance (s : Fs) : Decidable s.Aligned := inferInstanceAs (Decidable (_ ∧ _))

theorem onEdge_copyWrites {v : Vol} {copy : Nat} (small : copy < MFS_SB_COPIES) :
    OnEdge n (v.copyWrites copy) ↔ (n + v.dirtyCount + 1) % MFS_WB_PAGES = 0 := by
  have chunks : OnEdge n (((List.range v.bmpDataBlocks).filter v.dirty).map fun k =>
      (4 + copy * v.bmpDataBlocks + k, Block.bitmap (v.bmpChunk k))) := by
    refine onEdge_of_high fun w mem => ?_
    obtain ⟨k, -, rfl⟩ := mem_map.mp mem
    rw [MFS_SB_COPIES]
    omega
  have header : ¬ 2 + copy < MFS_SB_COPIES := Nat.not_lt.mpr (Nat.le_add_right 2 copy)
  rw [Vol.copyWrites, onEdge_append, length_map]
  simp only [chunks, OnEdge, header, small, Vol.dirtyCount, true_and, false_implies, forall_const, and_true]

variable {s s' : Fs}

/-- **When a commit keeps its superblocks apart.** -/
theorem commitBatches_apart_iff (clean : s.NoSuperStaged) (short : s.wb.length ≤ MFS_WB_PAGES) :
    (∀ b ∈ s.commitBatches, Apart b) ↔ s.Aligned := by
  have window : Apart s.wb := fun w mem => clean w (mem_of_mem_tail mem)
  have count : s.mem.vol.nextGen.dirtyCount = s.mem.vol.dirtyCount := rfl
  have length : (s.mem.vol.nextGen.copyWrites 0).length = s.mem.vol.dirtyCount + 2 := by
    rw [Vol.copyWrites, length_append, length_map]
    rfl
  rw [Fs.commitBatches, forall_mem_append, forall_mem_singleton, fill_apart_iff short, Vol.flushWrites,
    onEdge_append, onEdge_copyWrites (by decide), onEdge_copyWrites (by decide), length, count, Fs.Aligned,
    MFS_WB_PAGES]
  simp only [window, true_and]
  omega

/-- A volume with fourteen changed bitmap blocks and one staged write. -/
example : ({ demoSrv.fs with
    wb := [(9, .raw 0)]
    mem := demoSrv.fs.mem.setVol fun v =>
      { v with bmpDataBlocks := 14, dirty := fun _ => true } } : Fs).Aligned := by decide +kernel

/-! ## Batches of a run -/

/-- Moves that do not commit hand over no superblock. -/
theorem Move.batches_high {l : Label} (move : Move s l s') (other : ∀ before, l ≠ .commit before)
    (clean : s.NoSuperStaged) (short : s.wb.length ≤ MFS_WB_PAGES) :
    s'.wb.length ≤ MFS_WB_PAGES ∧ ∃ bs, s'.batches = s.batches ++ bs ∧ ∀ b ∈ bs, Apart b := by
  cases move with
  | memory | table | volume | select => exact ⟨short, [], (append_nil _).symm, nofun⟩
  | flush =>
    rw [flushRun]
    split
    · exact ⟨short, [], (append_nil _).symm, nofun⟩
    · refine ⟨Nat.zero_le _, [s.wb], rfl, forall_mem_singleton.mpr fun w mem => clean w (mem_of_mem_tail mem)⟩
  | write blk =>
    obtain ⟨done, P, -, -, -, short', bs, batches, high⟩ := staged_mfsCommit blk s
    refine ⟨short' short, bs, batches, fun b inside w mem => ?_⟩
    rcases high w (mem_flatten.mpr ⟨b, inside, mem_of_mem_tail mem⟩) with old | new
    · exact clean w old
    · exact s.mem.vol.copies_le_dataStart.trans new
  | commit => exact absurd rfl (other s)

variable {cs : List Commit}

theorem Commits.apart (commits : Commits s cs s') (clean : s.NoSuperStaged)
    (short : s.wb.length ≤ MFS_WB_PAGES) :
    s'.wb.length ≤ MFS_WB_PAGES ∧ ∃ bs, s'.batches = s.batches ++ bs ∧
      ((∀ c ∈ cs, c.before.Aligned) → ∀ b ∈ bs, Apart b) ∧
      ((∀ b ∈ bs, Apart b) → ∀ c ∈ cs, (mfsBmpFlush.run c.before).1 = .ok () → c.before.Aligned) := by
  induction commits with
  | nil => exact ⟨short, [], (append_nil _).symm, nofun, nofun⟩
  | move before last other ih =>
    obtain ⟨short₁, bs, batches, apart, aligned⟩ := ih
    obtain ⟨short₂, bs', batches', apart'⟩ := last.batches_high other (before.clean clean) short₁
    refine ⟨short₂, bs ++ bs', by rw [batches', batches, append_assoc], fun all => ?_, fun all => ?_⟩
    · exact forall_mem_append.mpr ⟨apart all, apart'⟩
    · exact aligned (forall_mem_append.mp all).1
  | @commit s₁ _ _ before _ ih =>
    obtain ⟨short₁, bs, batches, apart, aligned⟩ := ih
    obtain ⟨_, _, -, -, -, empty, bs', part, batches', whole⟩ := staged_mfsBmpFlush s₁
    have edge := commitBatches_apart_iff (before.clean clean) short₁
    refine ⟨by rw [empty]; exact Nat.zero_le _, bs ++ bs', by rw [batches', batches, append_assoc],
      fun all => ?_, fun all => ?_⟩
    · rw [forall_mem_append, forall_mem_singleton] at all
      exact forall_mem_append.mpr ⟨apart all.1, fun b mem => edge.mpr all.2 b (part.subset mem)⟩
    · rw [forall_mem_append] at all
      refine forall_mem_append.mpr ⟨aligned all.1, forall_mem_singleton.mpr fun ok => edge.mp ?_⟩
      exact whole ok ▸ all.2

/-- **Superblocks are kept apart just by aligned commits.**  During any sequence of requests, if every commit
starts with a window that puts both superblocks at the start of a batch, no batch mixes a superblock with
what it refers to or with the other one; and if no batch does, every commit that succeeded was such. -/
theorem batches_apart_iff_aligned (s : { s : Srv // s.fs.wb = [] }) (msgs : List Message) :
    ∃ cs bs, Commits s.1.fs cs (s.1.handleAll msgs).fs ∧
      (s.1.handleAll msgs).fs.batches = s.1.fs.batches ++ bs ∧
      ((∀ c ∈ cs, c.before.Aligned) → ∀ b ∈ bs, Apart b) ∧
      ((∀ b ∈ bs, Apart b) → ∀ c ∈ cs, (mfsBmpFlush.run c.before).1 = .ok () → c.before.Aligned) := by
  obtain ⟨cs, commits, -⟩ := (Life.start s.2).handleAll msgs
  obtain ⟨-, bs, rest⟩ := commits.apart (noSuperStaged_of_empty s.2) (by rw [s.2]; exact Nat.zero_le _)
  exact ⟨cs, bs, commits, rest⟩

/-! ## A batch of the small volume -/

/-- The state in which, of a batch, only the superblocks reached the disk. -/
def Fs.tornBy (s : Fs) (batch : List BlockWrite) : Fs :=
  { s with
    wb := []
    disk := Function.update s.disk s.mem.curVol (applyWrites (s.disk s.mem.curVol)
      (batch.filter fun w => decide (w.1 < MFS_SB_COPIES))) }

/-- The first batch when a file is created on the small volume holds the node of the file, its
inode table, and both copies of the metadata.  When the device writes the superblocks first and
stops, neither of them can be loaded. -/
theorem batch_mixes_superblocks :
    ∃ batch, (demoSrv.handle ⟨1, 0, .creat demoPath⟩).2.fs.batches[demoSrv.fs.batches.length]? = some batch ∧
      batch.map Prod.fst = [10, 11, 12, 4, 2, 0, 5, 3, 1] ∧
      (mfsLoadState.run (demoSrv.fs.tornBy batch)).1 = .error () := by
  have found : ((demoSrv.handle ⟨1, 0, .creat demoPath⟩).2.fs.batches[demoSrv.fs.batches.length]?).any
      (fun batch => decide (batch.map Prod.fst = [10, 11, 12, 4, 2, 0, 5, 3, 1]) &&
        decide ((mfsLoadState.run (demoSrv.fs.tornBy batch)).1 = .error ())) = true := by decide +kernel
  obtain ⟨batch, here, good⟩ := (Option.any_eq_true _ _).mp found
  rw [Bool.and_eq_true, decide_eq_true_eq, decide_eq_true_eq] at good
  exact ⟨batch, here, good⟩

end MorionOS.Mfs
