import MorionOS.Mfs.Marking

/-!
# Exactness of garbage collection

After a collection the bitmap should hold exactly the metadata area and the
reachable blocks (`Exact`).  `mfsGc` reports success in two situations in which
this can fail: when the staged writes cannot be flushed it gives up and replies
`0`, and when an earlier traversal failed, the blocks left on the stack are
expanded along with the first root.  `mfsGc_exact_iff` says that these are the
only ones.
-/

namespace MorionOS.Mfs

open StateAct Layered List Vol

/-! ## Successful runs of programs that only read blocks -/

/-- Nothing is staged. -/
def Fs.Clean (s : Fs) : Prop := s.wb = []

theorem succeedsAs_getMem {ε α : Type} {I : Fs → Prop} (f : Mem → α) :
    SucceedsAs I (getMem f : Op ε α) := by
  rintro s a s' inv ran
  obtain ⟨rfl, rfl⟩ : f s.mem = a ∧ s = s' := by simpa using ran
  exact ⟨rfl, inv⟩

theorem succeedsAs_setGc {ε : Type} (f : Gc → Gc) : SucceedsAs Fs.Clean (setGc f : Op ε Unit) := by
  rintro s a s' clean ran
  obtain rfl : { s with mem := s.mem.setGc f } = s' := by simpa [setGc] using ran
  exact ⟨rfl, clean⟩

theorem succeedsAs_mfsReadBlk (b : Nat) : SucceedsAs Fs.Clean (mfsReadBlk b) := by
  rintro s blk s' clean ran
  have absent : s.wbHas b = false := by
    rw [Fs.wbHas, clean]
    rfl
  have direct : blockReadDev s.mem.curVol b s = (.ok blk, s') := by
    simpa [mfsReadBlk, readRun, absent] using ran
  rw [blockReadDev] at direct
  split at direct
  · obtain ⟨rfl, rfl⟩ : s.disk s.mem.curVol b = blk ∧ { s with tick := s.tick + 1 } = s' := by
      simpa using direct
    rw [← Fs.store_of_not_wbHas absent]
    exact ⟨rfl, clean⟩
  · simp at direct

theorem succeedsAs_mfsGcMark : SucceedsAs Fs.Clean mfsGcMark :=
  TraversalRule.mfsGcMark (P := fun _ m => SucceedsAs Fs.Clean m)
    ⟨succeedsAs_pure, succeedsAs_throw (), SucceedsAs.bind, succeedsAs_getMem, succeedsAs_setGc,
      succeedsAs_mfsReadBlk⟩

/-! ## The sweep -/

/-- The two states agree on everything but the device. -/
def SameMem (s s' : Fs) : Prop := s'.mem = s.mem

instance : IsPreorder Fs SameMem where
  refl _ := rfl
  trans _ _ _ h h' := h'.trans h

theorem flushRun_sameMem : Act.Keeps SameMem flushRun := by
  intro s
  rw [flushRun]
  split <;> rfl

instance mfsWriteBlk_sameMem {b : Nat} {blk : Block} : Within SameMem (mfsWriteBlk b blk) := by
  refine ⟨fun s => ?_⟩
  change SameMem s (stageRun b blk s).2
  rw [stageRun]
  split
  · have staged : ∀ u : Unit, Act.Keeps SameMem fun s' : Fs =>
        ((.ok u : Except Unit Unit), s'.stage b blk) := fun _ _ => rfl
    exact flushRun_sameMem.after staged s
  · rfl

instance writeCopy_sameMem {v : Vol} {copy : Nat} : Within SameMem (writeCopy v copy) := by
  unfold writeCopy
  infer_instance

/-- The state of the volume after a commit. -/
def Vol.committed (v : Vol) : Vol := { v.nextGen with dirty := fun _ => false }

theorem mfsBmpFlush_mem (s : Fs) : Ends (mfsBmpFlush.run s) (fun _ s' => s'.mem = s.mem.setVol committed)
    fun s' => s'.mem = s.mem.setVol nextGen := by
  have both : Act.Keeps SameMem (each (range MFS_SB_COPIES) (writeCopy (s.mem.setVol nextGen).vol)).run :=
    Within.keeps
  refine Ends.after (both.ends { s with mem := s.mem.setVol nextGen }) (fun _ same => same) fun _ s₁ same => ?_
  refine Ends.after (flushRun_sameMem.ends s₁) (fun _ same' => same'.trans same) fun _ s₂ same' => ?_
  exact congrArg (Mem.setVol fun v => { v with dirty := fun _ => false }) (same'.trans same)

/-- The bitmap as the marks say, up to block `n`. -/
theorem sweep_eq (mark : Nat → Bool) (v : Vol) {n : Nat} (inside : n ≤ v.total) :
    ∃ free dirty, (range n).foldl (sweepBit mark) v =
      { v with
        bmp := fun b => if b < n then mark b else v.bmp b
        freeBlocks := free
        dirty := dirty } := by
  induction n with
  | zero => exact ⟨v.freeBlocks, v.dirty, by simp⟩
  | succ n ih =>
    obtain ⟨free, dirty, done⟩ := ih (by omega)
    rw [range_succ, foldl_append, done, foldl_cons, foldl_nil, sweepBit]
    have bits : ∀ value, mark n = value →
        Function.update (fun b => if b < n then mark b else v.bmp b) n value =
          fun b => if b < n + 1 then mark b else v.bmp b := by
      intro value here
      funext b
      by_cases same : b = n
      · simp [same, here]
      · have : b < n ↔ b < n + 1 := by omega
        simp [same, this]
    rcases marked : mark n with _ | _
    · obtain ⟨free', dirty', eq⟩ := bmpClear_eq { v with
          bmp := fun b => if b < n then mark b else v.bmp b
          freeBlocks := free
          dirty := dirty } n
      refine ⟨free', dirty', ?_⟩
      rw [if_neg (by simp), eq, if_pos (by exact inside), bits false marked]
    · obtain ⟨free', dirty', eq⟩ := bmpSet_eq { v with
          bmp := fun b => if b < n then mark b else v.bmp b
          freeBlocks := free
          dirty := dirty } n
      refine ⟨free', dirty', ?_⟩
      rw [if_pos (by simp), eq, if_pos (by exact inside), bits true marked]

/-! ## Exactness -/

/-- The bitmap holds exactly the metadata area and the reachable blocks, and the free count is the
number of clear bits. -/
structure Exact (store : Nat → Block) (v : Vol) : Prop where
  used : ∀ b < v.total, v.bmp b = true ↔
    b < v.dataStart ∨ ∃ r ∈ v.roots, Reachable store v.total r b
  free : v.freeBlocks = (range v.total).countP fun b => !v.bmp b

/-- What the blocks left on the traversal stack lead to is in use anyway. -/
def LeftoversInUse (store : Nat → Block) (v : Vol) (stack : List Nat) : Prop :=
  ∀ b < v.total, LeftBelow store v.total v.itab stack b →
    b < v.dataStart ∨ ∃ r ∈ v.roots, Reachable store v.total r b

theorem countP_not_add {α : Type} (p : α → Bool) (xs : List α) :
    xs.countP p + (xs.countP fun x => !p x) = xs.length := by
  rw [length_eq_countP_add_countP p]
  simp

theorem Vol.swept_eq (v : Vol) (mark : Nat → Bool) : ∃ dirty, v.swept mark =
    { v with
      bmp := fun b => if b < v.total then mark b else v.bmp b
      freeBlocks := v.total - (range v.total).countP mark
      allocNext := v.dataStart
      dirty := dirty } := by
  obtain ⟨free, dirty, eq⟩ := sweep_eq mark v le_rfl
  exact ⟨dirty, by rw [swept, eq]⟩

/-- A sweep with the marks of a successful marking is exact up to what was left on the stack. -/
theorem exact_swept_iff {store : Nat → Block} {v : Vol} {stack : List Nat} {mark : Nat → Bool}
    (marked : Marked store v stack mark) :
    Exact store (v.swept fun b => decide (b < v.total) && mark b).committed ↔
      LeftoversInUse store v stack := by
  obtain ⟨dirty, eq⟩ := swept_eq v fun b => decide (b < v.total) && mark b
  rw [eq]
  constructor
  · intro exact b inside left
    refine (exact.used b inside).mp ?_
    have set : mark b = true := (marked.marks b).mpr (.inr (.inr left))
    simp [committed, nextGen, show b < v.total from inside, set]
  · intro inUse
    refine ⟨fun b inside => ?_, ?_⟩
    · have inside : b < v.total := inside
      have bit : (if b < v.total then (decide (b < v.total) && mark b) else v.bmp b) = mark b := by
        simp [inside]
      have target : mark b = true ↔ b < v.dataStart ∨ ∃ r ∈ v.roots, Reachable store v.total r b := by
        rw [marked.marks]
        constructor
        · rintro (⟨start, -⟩ | reach | left)
          · exact .inl start
          · exact .inr reach
          · exact inUse b inside left
        · rintro (start | reach)
          · exact .inl ⟨start, inside⟩
          · exact .inr (.inl reach)
      exact (Eq.congr_left bit).trans target
    · have clear : ((range v.total).countP fun b =>
            !(if b < v.total then (decide (b < v.total) && mark b) else v.bmp b)) =
          (range v.total).countP fun b => !(decide (b < v.total) && mark b) := by
        apply countP_congr
        intro b mem
        simp [mem_range.mp mem]
      have sum := countP_not_add (fun b => decide (b < v.total) && mark b) (range v.total)
      rw [length_range] at sum
      change v.total - _ = countP _ _
      exact (by omega : _ = _).trans clear.symm

/-- The marks and the bitmap after a collection whose flush succeeded. -/
theorem mfsGc_run_ok {s s₁ s' : Fs} {n : Nat} (flushed : flushRun s = (.ok (), s₁)) (clean : s₁.Clean)
    (ran : mfsGc.run s = (.ok n, s')) :
    ∃ mark, Marked s₁.core.store s₁.mem.vol s₁.mem.gc.stack mark ∧
      s'.mem.vol = (s₁.mem.vol.swept fun b => decide (b < s₁.mem.vol.total) && mark b).committed := by
  rw [mfsGc, run_bind, run_attempt, run_mfsCommitFlush, flushed, Act.caught_ok, Act.after_ok,
    run_bind, run_setCache, Act.after_ok, run_bind] at ran
  obtain ⟨_, s₂, marking, sweeping⟩ := Act.after_eq_ok ran
  obtain ⟨ideal, -⟩ := succeedsAs_mfsGcMark _ _ _ (by exact clean) marking
  obtain ⟨w, core, -, marked⟩ := mfsGcMark_ok ideal
  have mem : s₂.mem = (Core.withWork _ w).mem := congrArg Core.mem core
  obtain ⟨_, s₃, flushing, ended⟩ := Act.after_eq_ok sweeping
  obtain rfl : s₃ = s' := congrArg Prod.snd ended
  refine ⟨w.mark, marked, ?_⟩
  rw [(mfsBmpFlush_mem _).of_ok flushing]
  rw [mem]
  rfl

/-- When a collection is exact. -/
theorem mfsGc_exact_iff {s s' : Fs} {n : Nat} (ran : mfsGc.run s = (.ok n, s')) :
    Exact s.core.store s'.mem.vol ↔
      if s.canFlush then LeftoversInUse s.core.store s.mem.vol s.mem.gc.stack
      else Exact s.core.store s.mem.vol := by
  rcases flush : s.canFlush with _ | _
  · rw [mfsGc, run_bind, run_attempt, run_mfsCommitFlush, flushRun_of_not_canFlush flush] at ran
    obtain ⟨rfl, rfl⟩ : 0 = n ∧ s.afterFlush = s' := by simpa using ran
    exact Iff.rfl
  · obtain ⟨s₁, flushed, core, -, clean⟩ := flushRun_of_canFlush flush
    obtain ⟨mark, marked, vol⟩ := mfsGc_run_ok flushed clean ran
    have mem : s₁.mem = s.mem := congrArg Core.mem core
    rw [core, mem] at marked
    rw [vol, mem, exact_swept_iff marked]
    exact Iff.rfl

/-! ## A small volume -/

/-- A device on which every transfer succeeds, apart from writes if `writes` says so. -/
def demoEnv (writes : Bool) : Env where
  readOk _ := true
  writeOk _ := writes
  batchOk _ := false
  batchLands _ _ := false
  pageOk _ := true
  clock n := n
  junk _ _ := 0
  volumes := []

/-- An empty root directory at block 6 with its inode table at blocks 7 and 8.  Block 20 is a
pointer block that nothing refers to. -/
def demoStore : Nat → Block
  | 6 => .dir (.empty .zero)
  | 7 => .itab fun j => if j = MFS_ROOT_INO then 6 else 0
  | 8 => .itabx fun k => if k = 0 then 7 else 0
  | 20 => .ind fun i => if i = 0 then 21 else 0
  | _ => .raw 0

/-- The volume of 64 blocks with these blocks; block 9 is in use without being reachable. -/
def demoVol : Vol where
  total := 64
  bmpDataBlocks := 1
  bmp b := decide (b < 10)
  dirty _ := false
  crc _ := 0
  freeBlocks := 54
  allocNext := 10
  gen := 1
  snapCount := 0
  snaps _ := .empty
  itab := 8
  itabMem k := if k = 0 then 7 else 0
  inoCount := 1
  inoHint := 2
  primarySerial := 0

def demoMem (stack : List Nat) : Mem where
  vol := demoVol
  cache := ⟨none, fun _ => 0, [], 0⟩
  gc := ⟨fun _ => false, fun _ => false, fun _ => false, stack⟩
  win := ⟨1, 1, 1, 0⟩
  leaf := MFS_LOC_EMPTY
  curVol := 0
  curSectors := 512
  clockCalls := 0
  pageCalls := 0

def demoFs (writes : Bool) (wb : List BlockWrite) (stack : List Nat) : Fs where
  env := demoEnv writes
  tick := 0
  disk _ := demoStore
  wb := wb
  issued := wb
  batches := []
  mem := demoMem stack

theorem demo_gc_replies : (mfsGc.run (demoFs true [] [])).1 = .ok 1 := by decide +kernel

/-- With working writes and an empty stack the collection of the small volume is exact. -/
theorem demo_gc_exact :
    Exact (demoFs true [] []).core.store (mfsGc.run (demoFs true [] [])).2.mem.vol := by
  rw [mfsGc_exact_iff (Act.eq_of_fst demo_gc_replies), if_pos (by decide)]
  intro b _ left
  exact absurd left (not_leftBelow_nil b)

/-- The root directory is empty: nothing is below it. -/
theorem demo_expand :
    (blockGraph demoStore (fun k => if k = 0 then 7 else 0) 64).expand 6 = some ([], [0]) := rfl

theorem demo_below {b : Nat}
    (path : Relation.ReflTransGen (Worklist.Edge (blockGraph demoStore (fun k => if k = 0 then 7 else 0) 64)) 6 b) :
    b = 6 := by
  rcases Relation.ReflTransGen.cases_head path with rfl | ⟨y, ⟨valid, next, expand, mem⟩, -⟩
  · rfl
  · rw [demo_expand] at expand
    obtain rfl := Option.some.inj expand
    simp_all [blockGraph]

theorem demo_reachable {b : Nat} (h : Reachable demoStore 64 8 b) : b = 6 ∨ b = 7 ∨ b = 8 := by
  obtain ⟨index, table, h⟩ := h
  obtain rfl : (fun k => if k = 0 then 7 else 0) = index := Option.some.inj table
  rcases h with rfl | ⟨nonzero, k, -, rfl⟩ | ⟨root, entry, -, -, tree⟩
  · simp
  · by_cases first : k = 0 <;> simp_all
  · obtain rfl : 6 = root := Option.some.inj entry
    rcases tree with rfl | ⟨a, path, edge | ⟨_, next, expand, mem⟩⟩
    · simp
    · exact .inl (demo_below (path.tail edge))
    · rw [demo_below path, demo_expand] at expand
      obtain rfl := Option.some.inj expand
      simp at mem

theorem demo_not_exact {v : Vol} {b : Nat} (size : v.total = 64 ∧ v.itab = 8 ∧ v.snapCount = 0)
    (used : v.bmp b = true) (free : 8 < b ∧ b < 64) : ¬ Exact demoStore v := by
  intro exact
  obtain ⟨total, itab, count⟩ := size
  have start : v.dataStart = 6 := by
    rw [dataStart, total]
    rfl
  rcases (exact.used b (by omega)).mp used with early | ⟨r, mem, reach⟩
  · omega
  · obtain rfl : r = 8 := by simpa [roots, itab, count] using mem
    rw [total] at reach
    have := demo_reachable reach
    omega

/-- Two collections of the small volume that report success without being exact.  In the first one
the staged write cannot be flushed, in the second one block 20 is left on the stack. -/
theorem gc_reports_success_without_exact_bitmap :
    ((mfsGc.run (demoFs false [(30, .raw 0)] [])).1 = .ok 0 ∧
      ¬ Exact (demoFs false [(30, .raw 0)] []).core.store
        (mfsGc.run (demoFs false [(30, .raw 0)] [])).2.mem.vol) ∧
    ((mfsGc.run (demoFs true [] [20])).1 = .ok 0 ∧
      ¬ Exact (demoFs true [] [20]).core.store (mfsGc.run (demoFs true [] [20])).2.mem.vol) := by
  refine ⟨⟨by decide +kernel, ?_⟩, by decide +kernel, ?_⟩
  · have store : (demoFs false [(30, .raw 0)] []).core.store = demoStore :=
      Function.update_eq_self (f := demoStore) 30
    rw [store]
    exact demo_not_exact (b := 9) (by decide +kernel) (by decide +kernel) (by decide)
  · exact demo_not_exact (b := 21) (by decide +kernel) (by decide +kernel) (by decide)

end MorionOS.Mfs
