import MorionOS.Mfs.Allocate
import MorionOS.Mfs.Moves

/-!
# Staging writes

What happens to the window, the batches and the disk while writes are staged, with
flushes that may fail in between.  A flush hands the whole window over as one batch;
of a failed flush any part has reached the disk, and the rest of the window is lost.
`fill` says which batches are handed over while a list of writes is staged.
`staged_mfsBmpFlush` says what a commit leaves behind, whatever its outcome, and
`staged_mfsCommit` the same of a new block.
-/

namespace MorionOS.Mfs

open StateAct Layered Labelled List

/-! ## Filling the window -/

/-- The batches that are handed over while `ws` is staged behind the window `wb`, and the window after it. -/
def fill : List BlockWrite → List BlockWrite → List (List BlockWrite) × List BlockWrite
  | wb, [] => ([], wb)
  | wb, w :: ws =>
    if MFS_WB_PAGES ≤ wb.length then (wb :: (fill [w] ws).1, (fill [w] ws).2) else fill (wb ++ [w]) ws

variable {P wb ws ws' : List BlockWrite} {s s' : Fs}

theorem fill_append (wb ws ws' : List BlockWrite) : fill wb (ws ++ ws') =
    ((fill wb ws).1 ++ (fill (fill wb ws).2 ws').1, (fill (fill wb ws).2 ws').2) := by
  induction ws generalizing wb with
  | nil => rfl
  | cons w ws ih =>
    rw [cons_append, fill, fill]
    split
    · rw [ih]
      rfl
    · exact ih _

/-- Nothing is lost and the order is kept. -/
theorem fill_flatten (wb ws : List BlockWrite) : (fill wb ws).1.flatten ++ (fill wb ws).2 = wb ++ ws := by
  induction ws generalizing wb with
  | nil => simp [fill]
  | cons w ws ih =>
    rw [fill]
    split
    · rw [flatten_cons, append_assoc, ih]
      rfl
    · rw [ih, append_assoc]
      rfl

theorem fill_length (ws : List BlockWrite) (short : wb.length ≤ MFS_WB_PAGES) :
    (fill wb ws).2.length ≤ MFS_WB_PAGES := by
  induction ws generalizing wb with
  | nil => exact short
  | cons w ws ih =>
    rw [fill]
    split
    · exact ih (Nat.le_add_left 1 15)
    · exact ih (by rw [length_append, length_singleton]; omega)

theorem fill_ne_nil (some : wb ++ ws ≠ []) : (fill wb ws).2 ≠ [] := by
  induction ws generalizing wb with
  | nil => simpa [fill] using some
  | cons w ws ih =>
    rw [fill]
    split <;> exact ih (by simp)

theorem mem_of_handed {bs : List (List BlockWrite)} {w : BlockWrite} (part : bs <+: (fill wb ws).1)
    (mem : w ∈ bs.flatten) : w ∈ wb ++ ws := by
  obtain ⟨rest, same⟩ := part
  rw [← fill_flatten, ← same, flatten_append]
  exact mem_append_left _ (mem_append_left _ mem)

/-! ## Programs that stage -/

/-- The writes `ws` were staged and those of `P` have reached the disk. -/
structure Staged (ws P : List BlockWrite) (s s' : Fs) : Prop where
  env : s'.env = s.env
  curVol : s'.mem.curVol = s.mem.curVol
  sectors : s'.mem.curSectors = s.mem.curSectors
  window : s'.wb ⊆ s.wb ++ ws
  landed : s'.disk = Function.update s.disk s.mem.curVol (applyWrites (s.disk s.mem.curVol) P)

/-- The writes `ws` were staged and the batches they fill have reached the disk. -/
structure Filled (ws : List BlockWrite) (s s' : Fs) : Prop extends Staged ws (fill s.wb ws).1.flatten s s' where
  batches : s'.batches = s.batches ++ (fill s.wb ws).1
  wb : s'.wb = (fill s.wb ws).2

/-- Staging the writes `ws` was given up: a part was staged, some of it has reached the disk. -/
structure GivenUp (ws : List BlockWrite) (s s' : Fs) : Prop where
  staged : ∃ done P, done <+: ws ∧ P ⊆ s.wb ++ done ∧ Staged done P s s'
  batches : ∃ bs, bs <+: (fill s.wb ws).1 ∧ s'.batches = s.batches ++ bs
  wb : s'.wb = []

/-- A program that stages the writes `ws` one after the other. -/
def Stages (ws : List BlockWrite) (m : Op Unit Unit) : Prop :=
  ∀ s, Ends (m.run s) (fun _ s' => Filled ws s s') (fun s' => GivenUp ws s s')

theorem Staged.refl (s : Fs) : Staged [] [] s s where
  env := rfl
  curVol := rfl
  sectors := rfl
  window := by simp
  landed := by simp

theorem Staged.trans {P' : List BlockWrite} {s'' : Fs} (first : Staged ws P s s')
    (second : Staged ws' P' s' s'') : Staged (ws ++ ws') (P ++ P') s s'' where
  env := second.env.trans first.env
  curVol := second.curVol.trans first.curVol
  sectors := second.sectors.trans first.sectors
  window w mem := by
    rw [← append_assoc]
    rcases mem_append.mp (second.window mem) with old | new
    · exact mem_append_left _ (first.window old)
    · exact mem_append_right _ new
  landed := by
    rw [second.landed, first.landed, first.curVol, Function.update_idem, Function.update_self,
      applyWrites_append]

/-- What has reached the disk and what is left after staging is what was there. -/
theorem Filled.complete (filled : Filled ws s s') : (fill s.wb ws).1.flatten ++ s'.wb = s.wb ++ ws := by
  rw [filled.wb, fill_flatten]

theorem Filled.trans {s'' : Fs} (first : Filled ws s s') (second : Filled ws' s' s'') :
    Filled (ws ++ ws') s s'' := by
  have both := first.toStaged.trans second.toStaged
  rw [first.wb] at both
  refine ⟨?_, ?_, ?_⟩
  · rw [fill_append, flatten_append]
    exact both
  · rw [fill_append, second.batches, first.batches, first.wb, append_assoc]
  · rw [fill_append, second.wb, first.wb]

theorem Filled.then_givenUp {s'' : Fs} (first : Filled ws s s') (second : GivenUp ws' s' s'') :
    GivenUp (ws ++ ws') s s'' := by
  obtain ⟨⟨done, P, initial, part, staged⟩, ⟨bs, some, batches⟩, empty⟩ := second
  refine ⟨⟨ws ++ done, _, prefix_append_right_inj ws |>.mpr initial, ?_, first.toStaged.trans staged⟩,
    ⟨(fill s.wb ws).1 ++ bs, ?_, by rw [batches, first.batches, append_assoc]⟩, empty⟩
  · rw [← append_assoc, ← first.complete, append_assoc]
    exact append_subset_of_subset_of_subset (subset_append_left _ _)
      (Subset.trans part (subset_append_right _ _))
  · rw [fill_append, ← first.wb]
    exact prefix_append_right_inj _ |>.mpr some

theorem GivenUp.of_prefix (first : GivenUp ws s s') (ws' : List BlockWrite) : GivenUp (ws ++ ws') s s' := by
  obtain ⟨⟨done, P, initial, part, staged⟩, ⟨bs, some, batches⟩, empty⟩ := first
  refine ⟨⟨done, P, initial.trans (prefix_append _ _), part, staged⟩, ⟨bs, some.trans ?_, batches⟩, empty⟩
  rw [fill_append]
  exact prefix_append _ _

theorem stages_pure : Stages [] (pure ()) := fun s => ⟨.refl s, by simp [fill], rfl⟩

theorem Stages.bind {m m' : Op Unit Unit} (first : Stages ws m)
    (second : Stages ws' m') : Stages (ws ++ ws') (m >>= fun _ => m') := by
  intro s
  refine Ends.after (first s) (fun s' failed => failed.of_prefix ws') fun _ s₁ done => ?_
  exact (second s₁).mono (fun _ s₂ rest => done.trans rest) fun s₂ rest => done.then_givenUp rest

/-! ## Flushing -/

/-- A flush hands the window over; when it succeeds, the whole window is on the disk. -/
theorem staged_flushRun (s : Fs) : Ends (flushRun s)
    (fun _ s' => Staged [] s.wb s s' ∧ s'.wb = [])
    (fun s' => ∃ P, Staged [] P s s' ∧ P ⊆ s.wb ∧ s'.wb = []) := by
  by_cases empty : s.wb.isEmpty = true
  · have none : s.wb = [] := by simpa using empty
    rw [flushRun, if_pos empty]
    refine ⟨?_, none⟩
    rw [none]
    exact .refl s
  · rw [flushRun, if_neg empty]
    cases flushed : s.flushed.1 with
    | true =>
      refine ⟨⟨rfl, rfl, rfl, nil_subset _, ?_⟩, rfl⟩
      rw [← Fs.flushed_disk flushed]
      rfl
    | false =>
      obtain ⟨L, part, disk⟩ := s.flushed_subset
      refine ⟨L, ⟨rfl, rfl, rfl, nil_subset _, ?_⟩, part, rfl⟩
      rw [← disk]
      rfl

theorem flushRun_batches (full : s.wb ≠ []) : (flushRun s).2.batches = s.batches ++ [s.wb] := by
  rw [flushRun, if_neg (by simpa using full)]
  rfl

theorem staged_stage (s : Fs) (b : Nat) (blk : Block) : Staged [(b, blk)] [] s (s.stage b blk) where
  env := rfl
  curVol := rfl
  sectors := rfl
  window := Subset.refl _
  landed := by simp [Fs.stage]

theorem stages_mfsWriteBlk (b : Nat) (blk : Block) : Stages [(b, blk)] (mfsWriteBlk b blk) := by
  intro s
  change Ends (stageRun b blk s) _ _
  rw [stageRun]
  split
  next full =>
    have filled : fill s.wb [(b, blk)] = ([s.wb], [(b, blk)]) := by simp [fill, full]
    have handed := @flushRun_batches s (by rintro empty; simp [empty, MFS_WB_PAGES] at full)
    have flush := staged_flushRun s
    rcases ran : flushRun s with ⟨e | u, s₁⟩
    · obtain ⟨P, staged, part, empty⟩ := flush.of_error ran
      rw [ran] at handed
      exact ⟨⟨[], P, nil_prefix, by simpa using part, staged⟩, ⟨[s.wb], by rw [filled], handed⟩, empty⟩
    · obtain ⟨staged, empty⟩ := flush.of_ok ran
      rw [ran] at handed
      have both := staged.trans (staged_stage s₁ b blk)
      refine ⟨?_, ?_, ?_⟩
      · rw [filled]
        simpa using both
      · rw [filled]
        exact handed
      · rw [filled, Fs.stage, empty]
        rfl
  next room =>
    have filled : fill s.wb [(b, blk)] = ([], s.wb ++ [(b, blk)]) := by simp [fill, room]
    refine ⟨?_, ?_, ?_⟩ <;> rw [filled]
    · exact staged_stage s b blk
    · exact (append_nil _).symm
    · rfl

/-! ## Commits -/

theorem stages_chunks (v : Vol) (place : Nat → Nat) (ks : List Nat) :
    Stages ((ks.filter v.dirty).map fun k => (place k, Block.bitmap (v.bmpChunk k)))
      (each ks fun k => if v.dirty k then mfsWriteBlk (place k) (.bitmap (v.bmpChunk k)) else pure ()) := by
  induction ks with
  | nil => exact stages_pure
  | cons k ks ih =>
    cases dirty : v.dirty k with
    | true =>
      rw [filter_cons_of_pos dirty, each, if_pos dirty]
      exact (stages_mfsWriteBlk _ _).bind ih
    | false =>
      rw [filter_cons_of_neg (by simp [dirty]), each, if_neg (by simp [dirty])]
      exact stages_pure.bind ih

theorem stages_writeCopy (v : Vol) (copy : Nat) : Stages (v.copyWrites copy) (writeCopy v copy) :=
  (stages_chunks v (fun k => 4 + copy * v.bmpDataBlocks + k) _).bind
    ((stages_mfsWriteBlk _ _).bind (stages_mfsWriteBlk _ _))

theorem stages_copies (v : Vol) :
    Stages (v.copyWrites 0 ++ v.copyWrites 1) (each (List.range MFS_SB_COPIES) (writeCopy v)) := by
  have both := (stages_writeCopy v 0).bind ((stages_writeCopy v 1).bind stages_pure)
  rw [append_nil] at both
  exact both

/-- The memory before and after does not matter to the device. -/
theorem Staged.of_mem {m m' : Mem}
    (staged : Staged ws P { s with mem := m } s') (cur : m.curVol = s.mem.curVol)
    (sectors : m.curSectors = s.mem.curSectors) (cur' : m'.curVol = s'.mem.curVol)
    (sectors' : m'.curSectors = s'.mem.curSectors) : Staged ws P s { s' with mem := m' } where
  env := staged.env
  curVol := cur'.trans (staged.curVol.trans cur)
  sectors := sectors'.trans (staged.sectors.trans sectors)
  window := staged.window
  landed := cur ▸ staged.landed

/-- The batches that a commit hands over when nothing fails. -/
def Fs.commitBatches (s : Fs) : List (List BlockWrite) :=
  (fill s.wb s.mem.vol.flushWrites).1 ++ [(fill s.wb s.mem.vol.flushWrites).2]

/-- What a commit leaves behind: the window is empty, an initial part of its writes was staged,
and some of the window and of these writes has reached the disk. -/
theorem staged_mfsBmpFlush (s : Fs) : ∃ done P, done <+: s.mem.vol.flushWrites ∧ P ⊆ s.wb ++ done ∧
    Staged done P s (mfsBmpFlush.run s).2 ∧ (mfsBmpFlush.run s).2.wb = [] ∧
    ∃ bs, bs <+: s.commitBatches ∧ (mfsBmpFlush.run s).2.batches = s.batches ++ bs ∧
      ((mfsBmpFlush.run s).1 = .ok () → bs = s.commitBatches) := by
  have copies := stages_copies s.mem.vol.nextGen { s with mem := s.mem.setVol Vol.nextGen }
  rw [mfsBmpFlush, run_bind, run_setVol, Act.after_ok, run_bind, run_getMem, Act.after_ok, run_bind]
  dsimp only [Mem.setVol] at copies ⊢
  rcases ran : (each (List.range MFS_SB_COPIES) (writeCopy s.mem.vol.nextGen)).run _ with ⟨e | u, s₁⟩
  · obtain ⟨⟨done, P, initial, part, staged⟩, ⟨bs, some, batches⟩, empty⟩ := copies.of_error ran
    exact ⟨done, P, initial, part, staged.of_mem rfl rfl rfl rfl, empty, bs,
      some.trans (prefix_append _ _), batches, fun ok => by cases ok⟩
  · have filled := copies.of_ok ran
    have handed : (flushRun s₁).2.batches = s.batches ++ s.commitBatches := by
      rw [flushRun_batches, filled.batches, filled.wb, append_assoc]
      · rfl
      · rw [filled.wb]
        exact fill_ne_nil (by simp [Vol.copyWrites])
    rw [Act.after_ok, run_bind, run_mfsCommitFlush]
    have flush := staged_flushRun s₁
    rcases flushed : flushRun s₁ with ⟨e | u', s₂⟩ <;> rw [flushed] at handed
    · obtain ⟨P, staged, part, empty⟩ := flush.of_error flushed
      have both := filled.toStaged.trans staged
      rw [append_nil] at both
      refine ⟨_, _, prefix_rfl, ?_, both.of_mem rfl rfl rfl rfl, empty, _, prefix_rfl, handed, fun _ => rfl⟩
      exact filled.complete ▸ append_subset_of_subset_of_subset (subset_append_left _ _)
        (Subset.trans part (subset_append_right _ _))
    · obtain ⟨staged, empty⟩ := flush.of_ok flushed
      have both := filled.toStaged.trans staged
      rw [append_nil] at both
      exact ⟨_, _, prefix_rfl, filled.complete ▸ Subset.refl _, both.of_mem rfl rfl rfl rfl, empty, _,
        prefix_rfl, handed, fun _ => rfl⟩

/-! ## New blocks -/

theorem Vol.copies_le_dataStart (v : Vol) : MFS_SB_COPIES ≤ v.dataStart := by
  rw [MFS_SB_COPIES, Vol.dataStart]
  omega

/-- What writing a new block leaves behind: at most one write was staged, behind the metadata, and the
batches hold no other writes. -/
theorem staged_mfsCommit (blk : Block) (s : Fs) :
    ∃ done P, (∀ w ∈ done, s.mem.vol.dataStart ≤ w.1) ∧ P ⊆ s.wb ++ done ∧
      Staged done P s ((mfsCommit blk).run s).2 ∧
      (s.wb.length ≤ MFS_WB_PAGES → ((mfsCommit blk).run s).2.wb.length ≤ MFS_WB_PAGES) ∧
      ∃ bs, ((mfsCommit blk).run s).2.batches = s.batches ++ bs ∧
        ∀ w ∈ bs.flatten, w ∈ s.wb ∨ s.mem.vol.dataStart ≤ w.1 := by
  rw [mfsCommit, mfsAllocBlock, run_bind, run_bind, run_getMem, Act.after_ok]
  rcases found : s.mem.vol.findFree with _ | b
  · exact ⟨[], [], by simp, nil_subset _, .refl s, id, [], by simp⟩
  · have free := Vol.findFree_some found
    have stage := stages_mfsWriteBlk b blk { s with mem := s.mem.setVol fun v => v.bmpTake b }
    have only : ∀ w ∈ [(b, blk)], s.mem.vol.dataStart ≤ w.1 := by simpa using free.start
    have high {bs : List (List BlockWrite)} (part : bs <+: (fill s.wb [(b, blk)]).1) (w : BlockWrite)
        (mem : w ∈ bs.flatten) : w ∈ s.wb ∨ s.mem.vol.dataStart ≤ w.1 :=
      (mem_append.mp (mem_of_handed part mem)).imp_right (only w)
    rw [ofOption_some, pure_bind, run_bind, run_setVol, Act.after_ok, run_pure, Act.after_ok, run_bind]
    rcases ran : (mfsWriteBlk b blk).run { s with mem := s.mem.setVol fun v => v.bmpTake b } with ⟨e | u, s₁⟩
    · obtain ⟨⟨done, P, initial, part, staged⟩, ⟨bs, some, batches⟩, empty⟩ := stage.of_error ran
      exact ⟨done, P, fun w mem => only w (initial.subset mem), part, staged.of_mem rfl rfl rfl rfl,
        fun _ => (congrArg length empty).trans_le (Nat.zero_le _), bs, batches, high some⟩
    · have filled := stage.of_ok ran
      exact ⟨_, _, only, filled.complete ▸ subset_append_left _ _, filled.toStaged.of_mem rfl rfl rfl rfl,
        fun short => (congrArg length filled.wb).trans_le (fill_length _ short), _, filled.batches,
        high prefix_rfl⟩

/-! ## Programs that stay on the current volume -/

/-- The current volume and the content of the other volumes are as before. -/
structure Confined (s s' : Fs) : Prop where
  env : s'.env = s.env
  curVol : s'.mem.curVol = s.mem.curVol
  sectors : s'.mem.curSectors = s.mem.curSectors
  disk : ∀ vol, vol ≠ s.mem.curVol → s'.disk vol = s.disk vol

instance : IsPreorder Fs Confined where
  refl _ := ⟨rfl, rfl, rfl, fun _ _ => rfl⟩
  trans _ _ _ h h' := ⟨h'.env.trans h.env, h'.curVol.trans h.curVol, h'.sectors.trans h.sectors,
    fun vol other => (h'.disk vol (h.curVol ▸ other)).trans (h.disk vol other)⟩

theorem Staged.confined {ws P : List BlockWrite} (staged : Staged ws P s s') : Confined s s' where
  env := staged.env
  curVol := staged.curVol
  sectors := staged.sectors
  disk vol other := by rw [staged.landed, Function.update_of_ne other]

theorem confined_flushRun (s : Fs) : Confined s (flushRun s).2 := by
  have flush := staged_flushRun s
  rcases ran : flushRun s with ⟨e | u, s'⟩
  · obtain ⟨P, staged, -⟩ := flush.of_error ran
    exact staged.confined
  · exact (flush.of_ok ran).1.confined

theorem Move.confined {l : Label} (move : Move s l s') (stays : l.onVolume) : Confined s s' := by
  cases move with
  | memory tick vol cur sectors => exact ⟨rfl, cur, sectors, fun _ _ => rfl⟩
  | table | volume => exact ⟨rfl, rfl, rfl, fun _ _ => rfl⟩
  | flush => exact confined_flushRun s
  | write blk =>
    obtain ⟨done, P, -, -, staged, -⟩ := staged_mfsCommit blk s
    exact staged.confined
  | commit =>
    obtain ⟨done, P, -, -, staged, -⟩ := staged_mfsBmpFlush s
    exact staged.confined
  | select => cases stays

theorem confined_of_via (via : Via Move Label.onVolume s s') : Confined s s' :=
  via.induct fun _ _ _ stays move => move.confined stays

end MorionOS.Mfs
