import MorionOS.Mfs.State

/-!
# Block transfers and the write window

Every write is staged in a window of `MFS_WB_PAGES` blocks.  The window goes to
the disk when it is full, before a staged block is read back and at the forced
flush points.  A flush first tries one batch and, if that fails, repeats the
blocks one by one up to the first failure; either way the window is empty
afterwards, also when blocks in it were lost.
-/

namespace MorionOS.Mfs

open StateAct Function

/-! ## Flushing the window -/

/-- Write blocks one by one until a write fails. -/
def rawWrites (env : Env) : List BlockWrite → Nat → (Nat → Block) → Bool × Nat × (Nat → Block)
  | [], tick, disk => (true, tick, disk)
  | w :: ws, tick, disk =>
    if env.writeOk tick then rawWrites env ws (tick + 1) (update disk w.1 w.2)
    else (false, tick + 1, disk)

/-- The staged writes that reach the disk when the batch fails. -/
def Fs.landed (s : Fs) : List BlockWrite :=
  (s.wb.zipIdx.filter fun w => s.env.batchLands s.tick w.2).map Prod.fst

/-- The outcome of a flush: whether it succeeded, the transfers so far and the disk. -/
def Fs.flushed (s : Fs) : Bool × Nat × (Nat → Block) :=
  let disk := s.disk s.mem.curVol
  if s.env.batchOk s.tick then (true, s.tick + 1, applyWrites disk s.wb)
  else rawWrites s.env s.wb (s.tick + 1) (applyWrites disk s.landed)

/-- The state after a flush of a window that is not empty. -/
def Fs.afterFlush (s : Fs) : Fs :=
  { s with
    tick := s.flushed.2.1
    disk := update s.disk s.mem.curVol s.flushed.2.2
    wb := []
    batches := s.batches ++ [s.wb] }

/-- `mfs_commit_flush` on the concrete state. -/
def flushRun (s : Fs) : Except Unit Unit × Fs :=
  if s.wb.isEmpty then (.ok (), s)
  else (if s.flushed.1 then .ok () else .error (), s.afterFlush)

theorem rawWrites_ok {env : Env} (ok : ∀ n, env.writeOk n = true) (ws : List BlockWrite) (tick : Nat)
    (disk : Nat → Block) : (rawWrites env ws tick disk).1 = true := by
  induction ws generalizing tick disk with
  | nil => rfl
  | cons w ws ih =>
    rw [rawWrites, if_pos (ok tick)]
    exact ih _ _

theorem rawWrites_disk {env : Env} {ws : List BlockWrite} {tick : Nat} {disk : Nat → Block}
    (h : (rawWrites env ws tick disk).1 = true) :
    (rawWrites env ws tick disk).2.2 = applyWrites disk ws := by
  induction ws generalizing tick disk with
  | nil => rfl
  | cons w ws ih =>
    rw [rawWrites] at h ⊢
    split at h
    next ok => rw [if_pos ok, applyWrites_cons, ih h]
    · cases h

/-- Whatever the outcome, an initial part of the writes has reached the disk. -/
theorem rawWrites_take (env : Env) (ws : List BlockWrite) (tick : Nat) (disk : Nat → Block) :
    ∃ n, (rawWrites env ws tick disk).2.2 = applyWrites disk (ws.take n) := by
  induction ws generalizing tick disk with
  | nil => exact ⟨0, rfl⟩
  | cons w ws ih =>
    rw [rawWrites]
    split
    · obtain ⟨n, eq⟩ := ih (tick + 1) (update disk w.1 w.2)
      exact ⟨n + 1, eq⟩
    · exact ⟨0, rfl⟩

theorem Fs.landed_subset (s : Fs) : s.landed ⊆ s.wb := by
  intro w landed
  obtain ⟨⟨v, i⟩, kept, rfl⟩ := List.mem_map.mp landed
  exact List.fst_mem_of_mem_zipIdx (List.mem_of_mem_filter kept)

/-- Whatever the outcome of a flush, the disk has changed by staged writes only. -/
theorem Fs.flushed_subset (s : Fs) :
    ∃ L ⊆ s.wb, s.flushed.2.2 = applyWrites (s.disk s.mem.curVol) L := by
  unfold Fs.flushed
  split
  · exact ⟨s.wb, List.Subset.refl _, rfl⟩
  · obtain ⟨n, eq⟩ := rawWrites_take s.env s.wb (s.tick + 1)
      (applyWrites (s.disk s.mem.curVol) s.landed)
    refine ⟨s.landed ++ s.wb.take n, ?_, by rw [eq, applyWrites_append]⟩
    exact List.append_subset.mpr ⟨s.landed_subset, List.take_subset n s.wb⟩

/-- Whether the staged writes reach the disk. -/
def Fs.canFlush (s : Fs) : Bool := s.wb.isEmpty || s.flushed.1

variable {s : Fs}

theorem Fs.flushed_ok (ok : s.IoOk) : s.flushed.1 = true := by
  unfold Fs.flushed
  split
  · rfl
  · exact rawWrites_ok ok.2 _ _ _

/-- A flush that succeeds has brought the whole window to the disk. -/
theorem Fs.flushed_disk (h : s.flushed.1 = true) :
    s.flushed.2.2 = applyWrites (s.disk s.mem.curVol) s.wb := by
  unfold Fs.flushed at h ⊢
  split at h
  next whole => rw [if_pos whole]
  next failed =>
    rw [if_neg failed, rawWrites_disk h]
    exact applyWrites_then_all _ s.landed_subset

theorem Fs.core_afterFlush (h : s.flushed.1 = true) : s.afterFlush.core = s.core := by
  simp [Fs.core, Fs.afterFlush, Fs.flushed_disk h]

theorem flushRun_of_canFlush (h : s.canFlush = true) :
    ∃ s', flushRun s = (.ok (), s') ∧ s'.core = s.core ∧ s'.env = s.env ∧ s'.wb = [] := by
  unfold flushRun
  by_cases empty : s.wb.isEmpty = true
  · rw [if_pos empty]
    exact ⟨s, rfl, rfl, rfl, by simpa using empty⟩
  · have flushed : s.flushed.1 = true := by simpa [Fs.canFlush, empty] using h
    rw [if_neg empty, flushed]
    exact ⟨s.afterFlush, rfl, Fs.core_afterFlush flushed, rfl, rfl⟩

theorem flushRun_of_not_canFlush (h : s.canFlush = false) : flushRun s = (.error (), s.afterFlush) := by
  simp only [Fs.canFlush, Bool.or_eq_false_iff] at h
  simp [flushRun, h]

theorem flushRun_ok (ok : s.IoOk) :
    ∃ s', flushRun s = (.ok (), s') ∧ s'.core = s.core ∧ s'.env = s.env ∧ s'.wb = [] :=
  flushRun_of_canFlush (by rw [Fs.canFlush, Fs.flushed_ok ok, Bool.or_true])

def mfsCommitFlush : Op Unit Unit where
  run := flushRun
  ideal c := (.ok (), c)
  agree s ok := by
    obtain ⟨s', ran, core, env, -⟩ := flushRun_ok ok
    rw [ran, core]
    exact ⟨rfl, by simpa only [Fs.IoOk, env] using ok⟩

/-! ## Reading and writing blocks -/

/-- Read block `b` of volume `v` past the window (`block_read_dev`). -/
def blockReadDev (v b : Nat) (s : Fs) : Except Unit Block × Fs :=
  (if s.env.readOk s.tick then .ok (s.disk v b) else .error (), { s with tick := s.tick + 1 })

def Fs.wbHas (s : Fs) (b : Nat) : Bool := s.wb.any fun w => w.1 == b

/-- `mfs_read_blk` on the concrete state: a staged block is flushed first. -/
def readRun (b : Nat) (s : Fs) : Except Unit Block × Fs :=
  if s.wbHas b then Act.after (flushRun s) fun _ s' => blockReadDev s'.mem.curVol b s'
  else blockReadDev s.mem.curVol b s

/-- Put a block at the end of the window. -/
def Fs.stage (s : Fs) (b : Nat) (blk : Block) : Fs :=
  { s with wb := s.wb ++ [(b, blk)], issued := s.issued ++ [(b, blk)] }

/-- `mfs_wb_stage` on the concrete state: a full window is flushed first. -/
def stageRun (b : Nat) (blk : Block) (s : Fs) : Except Unit Unit × Fs :=
  if MFS_WB_PAGES ≤ s.wb.length then
    Act.after (flushRun s) fun _ s' => (.ok (), s'.stage b blk)
  else (.ok (), s.stage b blk)

theorem Fs.store_of_not_wbHas {b : Nat} (absent : s.wbHas b = false) :
    s.core.store b = s.disk s.mem.curVol b := by
  apply applyWrites_untouched
  intro w mem same
  simp only [Fs.wbHas, List.any_eq_false] at absent
  exact absent w mem (by simpa using same)

theorem Fs.core_stage (s : Fs) (b : Nat) (blk : Block) :
    (s.stage b blk).core =
      { s.core with
        store := update s.core.store b blk
        issued := s.core.issued ++ [(b, blk)] } := by
  simp [Fs.core, Fs.stage, applyWrites_append]

def mfsReadBlk (b : Nat) : Op Unit Block where
  run := readRun b
  ideal c := (.ok (c.store b), c)
  agree s ok := by
    unfold readRun
    by_cases staged : s.wbHas b = true
    · obtain ⟨s', ran, core, env, wb⟩ := flushRun_ok ok
      have content : s'.disk s'.mem.curVol b = s.core.store b := by
        rw [← core]
        simp only [Fs.core, wb, applyWrites_nil]
      have reads : s'.env.readOk s'.tick = true := by
        rw [env]
        exact ok.1 _
      rw [if_pos staged, ran, Act.after_ok, blockReadDev, if_pos reads, content, ← core]
      exact ⟨rfl, by simpa only [Fs.IoOk, env] using ok⟩
    · have content := Fs.store_of_not_wbHas (by simpa using staged)
      rw [if_neg staged, blockReadDev, if_pos (ok.1 _), ← content]
      exact ⟨rfl, ok⟩

def mfsWriteBlk (b : Nat) (blk : Block) : Op Unit Unit where
  run := stageRun b blk
  ideal c := (.ok (),
    { c with store := update c.store b blk, issued := c.issued ++ [(b, blk)] })
  agree s ok := by
    unfold stageRun
    split
    · obtain ⟨s', ran, core, env, -⟩ := flushRun_ok ok
      rw [ran, Act.after_ok]
      rw [Fs.core_stage, core]
      exact ⟨rfl, by simpa only [Fs.IoOk, Fs.stage, env] using ok⟩
    · rw [Fs.core_stage]
      exact ⟨rfl, ok⟩

/-! ## The ideal meanings of the primitives -/

section Ideal

variable {ε α : Type} (c : Core)

@[simp] theorem ideal_getMem (f : Mem → α) : (getMem f : Op ε α).ideal c = (.ok (f c.mem), c) := rfl
@[simp] theorem ideal_setVol (f : Vol → Vol) :
    (setVol f : Op ε Unit).ideal c = (.ok (), { c with mem := c.mem.setVol f }) := rfl
@[simp] theorem ideal_setCache (f : Cache → Cache) :
    (setCache f : Op ε Unit).ideal c = (.ok (), { c with mem := c.mem.setCache f }) := rfl
@[simp] theorem ideal_setGc (f : Gc → Gc) :
    (setGc f : Op ε Unit).ideal c = (.ok (), { c with mem := c.mem.setGc f }) := rfl
@[simp] theorem ideal_mfsCommitFlush : mfsCommitFlush.ideal c = (.ok (), c) := rfl
@[simp] theorem ideal_mfsReadBlk (b : Nat) : (mfsReadBlk b).ideal c = (.ok (c.store b), c) := rfl
@[simp] theorem ideal_mfsWriteBlk (b : Nat) (blk : Block) :
    (mfsWriteBlk b blk).ideal c = (.ok (),
      { c with store := update c.store b blk, issued := c.issued ++ [(b, blk)] }) := rfl
variable {β : Type}

theorem ideal_getMem_bind (f : Mem → α) (g : α → Op ε β) :
    (getMem f >>= g).ideal c = (g (f c.mem)).ideal c := rfl
theorem ideal_setVol_bind (f : Vol → Vol) (g : Unit → Op ε β) :
    (setVol f >>= g).ideal c = (g ()).ideal { c with mem := c.mem.setVol f } := rfl
theorem ideal_setCache_bind (f : Cache → Cache) (g : Unit → Op ε β) :
    (setCache f >>= g).ideal c = (g ()).ideal { c with mem := c.mem.setCache f } := rfl
theorem ideal_mfsReadBlk_bind (b : Nat) (g : Block → Op Unit β) :
    (mfsReadBlk b >>= g).ideal c = (g (c.store b)).ideal c := rfl

end Ideal

/-! ## The concrete meanings -/

section Run

variable {ε α : Type} (s : Fs)

@[simp] theorem run_getMem (f : Mem → α) : (getMem f : Op ε α).run s = (.ok (f s.mem), s) := rfl
@[simp] theorem run_setVol (f : Vol → Vol) :
    (setVol f : Op ε Unit).run s = (.ok (), { s with mem := s.mem.setVol f }) := rfl
@[simp] theorem run_setCache (f : Cache → Cache) :
    (setCache f : Op ε Unit).run s = (.ok (), { s with mem := s.mem.setCache f }) := rfl
@[simp] theorem run_mfsCommitFlush : mfsCommitFlush.run s = flushRun s := rfl

end Run

end MorionOS.Mfs
