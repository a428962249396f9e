import MorionOS.Mfs.Descriptors

/-!
# Generations and the order of commits

The loader takes the superblock with the larger generation for the newer one.  Here
a run of the service is recorded with its commits, each with the superblock copies that
reached the disk, which may be any of the two.  `Commits.heads` says what each copy
holds after a run.  The loader is right as long as no commit starts with a copy on the
disk whose generation is beyond the one that the commit is about to write
(`larger_generation_is_later_commit`); restoring a snapshot takes the generation back,
and `restore_makes_older_superblock_win` is a run in which it is then wrong.
-/

namespace MorionOS.Mfs

open StateAct Layered Labelled Function List

/-! ## Superblocks that reach the disk -/

/-- No superblock is staged. -/
def Fs.NoSuperStaged (s : Fs) : Prop := ∀ w ∈ s.wb, MFS_SB_COPIES ≤ w.1

variable {s s' : Fs} {vol copy : Nat}

theorem noSuperStaged_of_empty (empty : s.wb = []) : s.NoSuperStaged := by
  intro w mem
  rw [empty] at mem
  cases mem

/-- The superblock that a commit writes. -/
def Fs.newSuper (s : Fs) : Super := s.mem.vol.nextGen.buildSuper

/-- Of the superblocks of a commit the copies `landed` have reached the disk. -/
def Lands (s : Fs) (landed : Nat → Bool) (s' : Fs) : Prop :=
  ∀ copy < MFS_SB_COPIES, s'.disk s.mem.curVol copy =
    if landed copy then .super s.newSuper else s.disk s.mem.curVol copy

/-- A superblock copy of a commit has reached the disk or is what it was. -/
theorem exists_lands (clean : s.NoSuperStaged) : ∃ landed, Lands s landed (mfsBmpFlush.run s).2 := by
  classical
  obtain ⟨done, P, initial, part, staged, -⟩ := staged_mfsBmpFlush s
  have only : ∀ w ∈ P, w.1 < MFS_SB_COPIES → w = (w.1, .super s.newSuper) := by
    intro w mem small
    rcases mem_append.mp (part mem) with staged | new
    · exact absurd (clean w staged) (by omega)
    · exact super_of_mem_flushWrites (initial.subset new) small
  refine ⟨fun copy => decide ((copy, .super s.newSuper) ∈ P), fun copy small => ?_⟩
  rw [staged.landed, update_self]
  simp only [decide_eq_true_eq]
  split
  next mem =>
    refine applyWrites_eq_of_mem _ mem fun w mem' here => ?_
    exact congrArg Prod.snd (only w mem' (here ▸ small))
  next absent =>
    refine applyWrites_untouched _ fun w mem' here => absent ?_
    have same := only w mem' (here ▸ small)
    rw [here] at same
    exact same ▸ mem'

/-! ## Other moves -/

/-- Nothing happens to the superblocks. -/
structure KeepsHeads (s s' : Fs) : Prop where
  clean : s.NoSuperStaged → s'.NoSuperStaged
  heads : s.NoSuperStaged → ∀ vol, ∀ copy < MFS_SB_COPIES, s'.disk vol copy = s.disk vol copy

/-- Staging and flushing blocks behind the superblocks. -/
theorem Staged.keepsHeads {ws P : List BlockWrite} (staged : Staged ws P s s')
    (part : P ⊆ s.wb ++ ws) (high : ∀ w ∈ ws, MFS_SB_COPIES ≤ w.1) : KeepsHeads s s' where
  clean clean w mem := by
    rcases mem_append.mp (staged.window mem) with old | new
    · exact clean w old
    · exact high w new
  heads clean vol copy small := by
    rw [staged.landed]
    by_cases cur : vol = s.mem.curVol
    · subst cur
      rw [update_self]
      refine applyWrites_untouched _ fun w mem here => ?_
      rcases mem_append.mp (part mem) with old | new
      · exact absurd (clean w old) (by omega)
      · exact absurd (high w new) (by omega)
    · rw [update_of_ne cur]

/-- Only commits touch the superblocks. -/
theorem Move.keepsHeads {l : Label} (move : Move s l s') (other : ∀ before, l ≠ .commit before) :
    KeepsHeads s s' := by
  cases move with
  | memory | table | volume | select => exact ⟨id, fun _ _ _ _ => rfl⟩
  | flush =>
    have flush := staged_flushRun s
    rcases ran : flushRun s with ⟨e | u, s'⟩
    · obtain ⟨P, staged, part, -⟩ := flush.of_error ran
      exact staged.keepsHeads (by simpa using part) (by simp)
    · exact (flush.of_ok ran).1.keepsHeads (by simp) (by simp)
  | write blk =>
    obtain ⟨done, P, behind, part, staged, -⟩ := staged_mfsCommit blk s
    exact staged.keepsHeads part fun w mem => s.mem.vol.copies_le_dataStart.trans (behind w mem)
  | commit => exact absurd rfl (other s)

theorem commit_elsewhere (s : Fs) :
    (mfsBmpFlush.run s).2.NoSuperStaged ∧
      ∀ vol, vol ≠ s.mem.curVol → (mfsBmpFlush.run s).2.disk vol = s.disk vol := by
  obtain ⟨done, P, -, -, staged, empty, -⟩ := staged_mfsBmpFlush s
  exact ⟨noSuperStaged_of_empty empty, staged.confined.disk⟩

/-! ## Runs with their commits -/

/-- A commit of a run: the state it started from and the superblock copies that it wrote. -/
structure Commit where
  before : Fs
  landed : Nat → Bool

/-- A sequence of moves with its commits. -/
inductive Commits : Fs → List Commit → Fs → Prop where
  | nil (s : Fs) : Commits s [] s
  | move {s s₁ s₂ : Fs} {cs : List Commit} {l : Label} :
      Commits s cs s₁ → Move s₁ l s₂ → (∀ before, l ≠ .commit before) → Commits s cs s₂
  | commit {s s₁ : Fs} {cs : List Commit} {landed : Nat → Bool} :
      Commits s cs s₁ → Lands s₁ landed (mfsBmpFlush.run s₁).2 →
        Commits s (cs ++ [⟨s₁, landed⟩]) (mfsBmpFlush.run s₁).2

/-- A run of the service: mounts, requests, and restarts with whatever memory and surroundings.
A commit that the machine does not survive is one with failing transfers before a restart. -/
inductive Life : Srv → List Commit → Prop where
  | start {s : Srv} (clean : s.fs.wb = []) : Life s []
  | mount {s : Srv} {cs cs' : List Commit} (vol : Nat) (life : Life s cs)
      (commits : Commits s.fs cs' (mfsMountOrFormat vol s.fs).2) :
      Life { s with fs := (mfsMountOrFormat vol s.fs).2 } (cs ++ cs')
  | request {s : Srv} {cs cs' : List Commit} (msg : Message) (life : Life s cs)
      (commits : Commits s.fs cs' (s.handle msg).2.fs) : Life (s.handle msg).2 (cs ++ cs')
  | restart {s s' : Srv} {cs : List Commit} (life : Life s cs) (disk : s'.fs.disk = s.fs.disk)
      (clean : s'.fs.wb = []) : Life s' cs

variable {cs : List Commit}

theorem Commits.clean (commits : Commits s cs s') (clean : s.NoSuperStaged) : s'.NoSuperStaged := by
  induction commits with
  | nil => exact clean
  | move _ last other ih => exact (last.keepsHeads other).clean ih
  | commit => exact (commit_elsewhere _).1

/-- Every sequence of moves has its commits. -/
theorem exists_commits (via : Via Move Label.any s s') (clean : s.NoSuperStaged) :
    ∃ cs, Commits s cs s' ∧ s'.NoSuperStaged := by
  obtain ⟨ls, trace, -⟩ := via
  induction trace with
  | nil => exact ⟨[], .nil s, clean⟩
  | snoc _ last ih =>
    obtain ⟨cs, commits, clean'⟩ := ih
    rename_i s₁ s₂ ls' l _
    by_cases commit : ∃ before, l = .commit before
    · obtain ⟨before, rfl⟩ := commit
      cases last
      obtain ⟨landed, lands⟩ := exists_lands clean'
      exact ⟨_, commits.commit lands, (commit_elsewhere _).1⟩
    · have other : ∀ before, l ≠ .commit before := fun before eq => commit ⟨before, eq⟩
      exact ⟨cs, commits.move last other, (last.keepsHeads other).clean clean'⟩

/-- Moves that do not commit leave no commit. -/
theorem commits_of_reading (via : Via Move Label.reading s s') : Commits s [] s' := by
  obtain ⟨ls, trace, labels⟩ := via
  induction trace with
  | nil => exact .nil s
  | snoc _ last ih =>
    have reading := labels _ (mem_append_right _ (mem_singleton_self _))
    refine (ih fun l mem => labels l (mem_append_left _ mem)).move last fun before commit => ?_
    rw [commit] at reading
    exact reading

/-! ## Which commit wrote a superblock -/

/-- Whether the commit wrote this superblock copy of this volume. -/
def Commit.wrote (c : Commit) (vol copy : Nat) : Bool :=
  c.before.mem.curVol == vol && c.landed copy

/-- The number of the last commit that wrote a superblock copy; `0` = the copy is older than the run. -/
def lastWriter (cs : List Commit) (vol copy : Nat) : Nat :=
  cs.length - cs.reverse.findIdx fun c => c.wrote vol copy

theorem lastWriter_concat (cs : List Commit) (c : Commit) (vol copy : Nat) :
    lastWriter (cs ++ [c]) vol copy =
      if c.wrote vol copy then cs.length + 1 else lastWriter cs vol copy := by
  rw [lastWriter, reverse_concat, findIdx_cons, length_append, length_singleton]
  cases c.wrote vol copy with
  | true => rfl
  | false => exact Nat.add_sub_add_right _ _ _

theorem lastWriter_le (cs : List Commit) (vol copy : Nat) : lastWriter cs vol copy ≤ cs.length :=
  Nat.sub_le _ _

theorem Commit.wrote_iff {c : Commit} :
    c.wrote vol copy = true ↔ c.before.mem.curVol = vol ∧ c.landed copy = true := by simp [Commit.wrote]

/-- The superblock copy that the commits leave where `old` was. -/
def headAfter (cs : List Commit) (vol copy : Nat) (old : Block) : Block :=
  match lastWriter cs vol copy with
  | 0 => old
  | i + 1 => (cs[i]?).elim old fun c => .super c.before.newSuper

theorem headAfter_concat (cs : List Commit) (c : Commit) (vol copy : Nat) (old : Block) :
    headAfter (cs ++ [c]) vol copy old =
      if c.wrote vol copy then .super c.before.newSuper else headAfter cs vol copy old := by
  rw [headAfter, lastWriter_concat]
  split_ifs with wrote
  · simp
  · have bound := lastWriter_le cs vol copy
    rw [headAfter]
    rcases last : lastWriter cs vol copy with _ | i
    · rfl
    · simp only
      rw [List.getElem?_append_left (by omega)]

/-- **Every superblock copy is the one of the last commit that wrote it.** -/
theorem Commits.heads (commits : Commits s cs s') (clean : s.NoSuperStaged) (small : copy < MFS_SB_COPIES) :
    s'.disk vol copy = headAfter cs vol copy (s.disk vol copy) := by
  induction commits with
  | nil => rfl
  | move before last other ih => rw [(last.keepsHeads other).heads (before.clean clean) vol copy small, ih]
  | commit _ lands ih =>
    rw [headAfter_concat]
    rename_i s₁ _ _ _
    by_cases cur : s₁.mem.curVol = vol
    · subst cur
      rw [lands copy small, ih]
      simp [Commit.wrote_iff]
    · rw [(commit_elsewhere s₁).2 vol (Ne.symm cur), ih, if_neg fun wrote => cur (Commit.wrote_iff.mp wrote).1]

/-- Of two superblock copies of a volume the one with the larger generation was written by the later
commit or by the same one. -/
def NewerIsLater (s : Fs) (cs : List Commit) : Prop :=
  ∀ vol, ∀ copy < MFS_SB_COPIES, ∀ other < MFS_SB_COPIES, ∀ sb sb', s.disk vol copy = .super sb →
    s.disk vol other = .super sb' → sb'.gen < sb.gen → lastWriter cs vol other ≤ lastWriter cs vol copy

/-- The generation that the commit writes is not behind that of a superblock copy on the disk. -/
def Commit.Fits (c : Commit) : Prop :=
  ∀ copy < MFS_SB_COPIES, ∀ sb, c.before.disk c.before.mem.curVol copy = .super sb →
    sb.gen ≤ c.before.mem.vol.gen + 1

/-- What holds after every move. -/
structure Sorted (s : Fs) (cs : List Commit) : Prop where
  clean : s.NoSuperStaged
  order : NewerIsLater s cs

section

variable (sorted : Sorted s cs)
include sorted

theorem Sorted.of_heads (clean : s'.NoSuperStaged)
    (heads : ∀ vol, ∀ copy < MFS_SB_COPIES, s'.disk vol copy = s.disk vol copy) : Sorted s' cs where
  clean := clean
  order vol copy small other small' := by
    rw [heads vol copy small, heads vol other small']
    exact sorted.order vol copy small other small'

/-- A commit that fits keeps the order. -/
theorem Sorted.commit {landed : Nat → Bool}
    (lands : Lands s landed (mfsBmpFlush.run s).2) (fits : Commit.Fits ⟨s, landed⟩) :
    Sorted (mfsBmpFlush.run s).2 (cs ++ [⟨s, landed⟩]) := by
  obtain ⟨clean, elsewhere⟩ := commit_elsewhere s
  refine ⟨clean, fun vol copy small other small' sb sb' here there less => ?_⟩
  have old := lastWriter_le cs vol other
  simp only [lastWriter_concat, Commit.wrote_iff]
  by_cases cur : s.mem.curVol = vol
  · subst cur
    rw [lands copy small] at here
    rw [lands other small'] at there
    cases mine : landed copy with
    | true =>
      -- nothing is later than this commit
      simp only [and_self, if_true]
      split <;> omega
    | false =>
      rw [mine, if_neg (by simp)] at here
      cases its : landed other with
      | true =>
        -- then the copy is ahead of the generation that this commit writes
        rw [its, if_pos rfl] at there
        obtain rfl := Block.super.inj there
        exact absurd less (Nat.not_lt.mpr (fits copy small sb here))
      | false =>
        rw [its, if_neg (by simp)] at there
        simpa using sorted.order _ copy small other small' sb sb' here there less
  · rw [elsewhere vol (Ne.symm cur)] at here there
    simpa [cur] using sorted.order vol copy small other small' sb sb' here there less

theorem Sorted.commits {cs' : List Commit} (commits : Commits s cs' s')
    (fits : ∀ c ∈ cs', c.Fits) : Sorted s' (cs ++ cs') := by
  induction commits with
  | nil => simpa using sorted
  | move _ last other ih =>
    have before := ih fits
    have kept := last.keepsHeads other
    exact before.of_heads (kept.clean before.clean) (kept.heads before.clean)
  | commit _ lands ih =>
    have before := ih fun c mem => fits c (mem_append_left _ mem)
    rw [← append_assoc]
    exact before.commit lands (fits _ (by simp))

end

theorem Life.clean {s : Srv} (life : Life s cs) : s.fs.NoSuperStaged := by
  induction life with
  | start clean => exact noSuperStaged_of_empty clean
  | mount vol _ commits ih | request msg _ commits ih => exact commits.clean ih
  | restart _ _ clean => exact noSuperStaged_of_empty clean

theorem Commits.append {s'' : Fs} {cs' : List Commit} (first : Commits s cs s')
    (second : Commits s' cs' s'') : Commits s (cs ++ cs') s'' := by
  induction second with
  | nil => simpa using first
  | move _ last other ih => exact ih.move last other
  | commit _ lands ih =>
    rw [← append_assoc]
    exact ih.commit lands

theorem Life.handleAll {s : Srv} (life : Life s cs) (msgs : List Message) :
    ∃ cs', Commits s.fs cs' (s.handleAll msgs).fs ∧ Life (s.handleAll msgs) (cs ++ cs') := by
  induction msgs generalizing s cs with
  | nil => exact ⟨[], .nil _, (append_nil cs).symm ▸ life⟩
  | cons msg rest ih =>
    obtain ⟨cs₁, commits, -⟩ := exists_commits (via_handle s msg) life.clean
    obtain ⟨cs₂, rest, life'⟩ := ih (.request msg life commits)
    exact ⟨cs₁ ++ cs₂, commits.append rest, append_assoc cs cs₁ cs₂ ▸ life'⟩

/-- **Superblocks are those of commits.**  Requests leave in each copy the superblock of the last commit
that reached it, whatever transfers fail. -/
theorem superblocks_are_those_of_commits (s : { s : Srv // s.fs.wb = [] }) (msgs : List Message) :
    ∃ cs, Commits s.1.fs cs (s.1.handleAll msgs).fs ∧ ∀ vol, ∀ copy < MFS_SB_COPIES,
      (s.1.handleAll msgs).fs.disk vol copy = headAfter cs vol copy (s.1.fs.disk vol copy) := by
  obtain ⟨cs, commits, -⟩ := (Life.start s.2).handleAll msgs
  exact ⟨cs, commits, fun vol copy small => commits.heads (noSuperStaged_of_empty s.2) small⟩

/-! ## Runs on the small volume -/

/-- With enough free space nothing is collected. -/
theorem collected_of_space {s : Srv}
    (space : s.fs.mem.vol.total / MFS_GC_LOW_WATER_DIV < s.fs.mem.vol.freeBlocks) : s.collected = s := by
  have idle : mfsMaybeGc.run s.fs = (.ok (), s.fs) := by
    rw [mfsMaybeGc, run_bind, run_getMem, Act.after_ok, if_pos (.inr space)]
    rfl
  rw [Srv.collected, idle]

/-- With the right volume loaded besides, a request is just dispatched. -/
theorem handle_eq_dispatch {s : Srv} {msg : Message}
    (space : s.fs.mem.vol.total / MFS_GC_LOW_WATER_DIV < s.fs.mem.vol.freeBlocks)
    (same : s.volumeOf msg = s.fs.mem.curVol) :
    s.handle msg = s.dispatch msg.sender (credOf msg.sender) msg.req := by
  rw [Srv.handle, Srv.prepared, collected_of_space space, Srv.onVolume, if_pos same]

theorem dispatch_sync (s : Srv) (sender : Nat) (cred : Cred) :
    (s.dispatch sender cred .sync).2.fs = (mfsBmpFlush.run s.fs).2 := by
  rw [Srv.dispatch, Srv.runCode, Srv.run, mfsSync, run_bind, run_orErr]
  rcases mfsBmpFlush.run s.fs with ⟨e | u, fs⟩ <;> rfl

/-- The generation of a superblock. -/
def Block.superGen : Block → Option Nat
  | .super sb => some sb.gen
  | _ => none

theorem superGen_eq_some {b : Block} {gen : Nat} (h : b.superGen = some gen) :
    ∃ sb, b = .super sb ∧ sb.gen = gen := by
  cases b with
  | super sb => exact ⟨sb, rfl, Option.some.inj h⟩
  | _ => cases h

def demoSync : Message := ⟨1, 0, .sync⟩

/-- The small volume on a device that loses power after 37 steps. -/
def demoCutSrv : Srv :=
  { demoSrv with fs := { demoSrv.fs with env := { demoEnv true with writeOk := fun n => decide (n < 37) } } }

/-- The state from which a restored snapshot is committed. -/
def Fs.goneBack (s : Fs) (idx : Nat) : Except Unit Unit × Fs :=
  mfsItabReload.run { s with mem := s.mem.setVol fun v => v.restore (v.snaps idx) }

theorem commits_goneBack (s : Fs) (idx : Nat) : Commits s [] (s.goneBack idx).2 :=
  commits_of_reading (trans_of (Via Move Label.reading) (.single (.volume _) trivial)
    ((loads_of_peeks (m := mfsItabReload)).keeps _))

theorem dispatch_snapRestore {s : Srv} {idx : Nat} (sender : Nat) (cred : Cred)
    (taken : idx < s.fs.mem.vol.snapCount) (reloaded : (s.fs.goneBack idx).1.isOk = true) :
    (s.dispatch sender cred (.snapRestore idx)).2.fs = (mfsBmpFlush.run (s.fs.goneBack idx).2).2 := by
  rw [Srv.dispatch, Srv.runCode, Srv.run, mfsSnapRestore, run_bind, run_getMem, Act.after_ok,
    decide_eq_true taken, ensure_true, pure_bind, run_bind, run_setVol, Act.after_ok, run_bind, run_orErr]
  rw [Fs.goneBack] at reloaded ⊢
  rcases ran : mfsItabReload.run _ with ⟨e | u, fs⟩
  · rw [ran] at reloaded
    cases reloaded
  · rw [Act.relabelled_ok, Act.after_ok, run_bind, run_orErr]
    rcases mfsBmpFlush.run fs with ⟨e | u, fs'⟩ <;> rfl

/-- A commit that reaches the first superblock only, with a generation below that of the second one. -/
theorem Lands.not_newerIsLater {landed : Nat → Bool} {gen gen' : Nat} (lands : Lands s landed s')
    (current : s.mem.curVol = vol) (old : (s.disk vol 0).superGen ≠ some gen)
    (first : (s'.disk vol 0).superGen = some gen) (second : (s'.disk vol 1).superGen = some gen')
    (less : gen < gen') (cs : List Commit) : ¬ NewerIsLater s' (cs ++ [⟨s, landed⟩]) := by
  subst current
  intro newer
  have reached : landed 0 = true := by
    by_contra kept
    rw [lands 0 (by decide), if_neg kept] at first
    exact old first
  have missed : landed 1 = false := by
    by_contra written
    rw [lands 0 (by decide), if_pos reached] at first
    rw [lands 1 (by decide), if_pos (by simpa using written), first] at second
    exact absurd (Option.some.inj second) less.ne
  obtain ⟨sb, here, rfl⟩ := superGen_eq_some first
  obtain ⟨sb', there, rfl⟩ := superGen_eq_some second
  have later := newer _ 1 (by decide) 0 (by decide) sb' sb there here less
  have bound := lastWriter_le cs s.mem.curVol 1
  simp only [lastWriter_concat, Commit.wrote, reached, missed, beq_self_eq_true, Bool.and_true,
    Bool.and_false, if_true, Bool.false_eq_true, if_false] at later
  omega

/-- The small volume after a snapshot and a later commit. -/
def demoSnapped : Srv := demoCutSrv.handleAll [⟨1, 0, .snap⟩, demoSync]

def demoGoBack : Message := ⟨1, 0, .snapRestore 0⟩

end MorionOS.Mfs
