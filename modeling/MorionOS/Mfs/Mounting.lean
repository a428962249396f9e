import MorionOS.Mfs.Routines
import MorionOS.Mfs.Staging
import MorionOS.Mfs.Copies

/-!
# What mounting writes to the superblocks

Loading a volume writes only when it has found a superblock of this version and
rebuilds the bitmap (`mfsLoadState_writes`).
What else mounting writes comes from formatting.  A volume is formatted when it cannot
be loaded and no superblock copy that the probe can read has a magic of the family
(`formats_iff`): a copy that cannot be read counts as blank, so a volume with a magic is
formatted when the reads of both copies fail (`mount_writes_over_magic`).
`mount_formats_blank_iff` says exactly when only blank volumes are formatted.
-/

namespace MorionOS.Mfs

open StateAct Layered Labelled Act Act.Keeps

/-! ## Programs that do not write -/

/-- Nothing was written: the disk is the same, provided that nothing was staged. -/
structure SameDevice (s s' : Fs) : Prop where
  env : s'.env = s.env
  vol : s'.mem.curVol = s.mem.curVol
  issued : s'.issued = s.issued
  clean : s.wb = [] → s'.wb = [] ∧ s'.disk = s.disk

instance : IsPreorder Fs SameDevice where
  refl _ := ⟨rfl, rfl, rfl, fun clean => ⟨clean, rfl⟩⟩
  trans _ _ _ h h' :=
    ⟨h'.env.trans h.env, h'.vol.trans h.vol, h'.issued.trans h.issued, fun clean =>
      ⟨(h'.clean (h.clean clean).1).1, (h'.clean (h.clean clean).1).2.trans (h.clean clean).2⟩⟩

variable {s s' : Fs} {copy : Nat}

theorem reads_flush : Act.Keeps SameDevice flushRun := by
  intro s
  rw [flushRun]
  split
  · exact refl_of SameDevice s
  next staged =>
    refine ⟨rfl, rfl, rfl, fun clean => ?_⟩
    simp [clean] at staged

theorem reads_blockReadDev (v b : Nat) : Act.Keeps SameDevice (blockReadDev v b) :=
  fun _ => ⟨rfl, rfl, rfl, fun clean => ⟨clean, rfl⟩⟩

theorem sameDevice_of_via (via : Via Move Label.reading s s') : SameDevice s s' := by
  refine via.induct fun s₁ l s₂ label move => ?_
  cases move with
  | memory tick vol cur sectors => exact ⟨rfl, cur, rfl, fun clean => ⟨clean, rfl⟩⟩
  | table | volume => exact ⟨rfl, rfl, rfl, fun clean => ⟨clean, rfl⟩⟩
  | flush => exact reads_flush s₁
  | write | commit | select => cases label

/-! ## Writes over the superblocks -/

/-- The only write of a commit to a superblock copy. -/
theorem super_of_mem_flushWrites {v : Vol} {w : BlockWrite} (mem : w ∈ v.flushWrites)
    (small : w.1 < MFS_SB_COPIES) : w = (w.1, .super v.nextGen.buildSuper) := by
  rw [MFS_SB_COPIES] at small
  obtain ⟨copy, -, ⟨k, -, -, rfl⟩ | rfl | rfl⟩ := Vol.mem_flushWrites.mp mem
  · simp only [Vol.copyStart] at small
    omega
  · simp only at small
    omega
  · rfl

/-! ## Loading -/

section

variable (clean : s.wb = [])
include clean

theorem flushRun_clean : flushRun s = (.ok (), s) := by
  simp [flushRun, clean]

/-- The copy that an attempt adopts is a superblock of the right version. -/
theorem tryCopy_found {ch ch' : Choice}
    (ran : (tryCopy copy ch).run s = (.ok ch', s')) (found : ch'.found = true) :
    ch.found = true ∨ ∃ sb, s.disk s.mem.curVol copy = .super sb ∧ sb.version = MFS_VERSION := by
  have absent : s.wbHas copy = false := by
    rw [Fs.wbHas, clean]
    rfl
  have direct : (mfsReadBlk copy).run s = blockReadDev s.mem.curVol copy s := by
    simp [mfsReadBlk, readRun, absent]
  rw [tryCopy, run_bind, run_attempt, run_bind, direct, blockReadDev] at ran
  by_cases readable : s.env.readOk s.tick = true
  · rw [if_pos readable, after_ok] at ran
    rcases content : s.disk s.mem.curVol copy with sb | _ | _ | _ | _ | _ | _ | _ | _ | _ | _ | _ | _ | _
    case super =>
      by_cases version : sb.version = MFS_VERSION
      · exact .inr ⟨sb, rfl, version⟩
      · left
        have refused : (sb.version == MFS_VERSION && !ch.skips sb.gen) = false := by simp [version]
        simp only [content, adoptSuper, refused, ensure_false, throw_bind, run_throw, caught_error,
          after_ok, run_pure, Option.getD_none, Prod.mk.injEq, Except.ok.injEq] at ran
        rw [ran.1]
        exact found
    all_goals
      left
      simp only [content, run_throw, caught_error, after_ok, run_pure, Option.getD_none,
        Prod.mk.injEq, Except.ok.injEq] at ran
      rw [ran.1]
      exact found
  · left
    rw [if_neg readable] at ran
    simp only [after_error, caught_error, after_ok, run_pure, Option.getD_none,
      Prod.mk.injEq, Except.ok.injEq] at ran
    rw [ran.1]
    exact found

/-- Loading writes nothing unless it has found a superblock and rebuilds the bitmap. -/
theorem mfsLoadState_writes :
    SameDevice s (mfsLoadState.run s).2 ∨
      ∃ copy < MFS_SB_COPIES, ∃ sb, s.disk s.mem.curVol copy = .super sb ∧ sb.version = MFS_VERSION := by
  rw [mfsLoadState, run_bind, run_mfsCommitFlush, flushRun_clean clean, after_ok, run_bind]
  have first := sameDevice_of_via ((@loads_tryCopy 0 ⟨false, 0, false⟩).keeps s)
  rcases ran₁ : (tryCopy 0 ⟨false, 0, false⟩).run s with ⟨e | ch₁, s₁⟩
  · rw [ran₁] at first
    exact .inl first
  · rw [ran₁] at first
    rw [after_ok, run_bind]
    have second := trans_of SameDevice first (sameDevice_of_via ((@loads_tryCopy 1 ch₁).keeps s₁))
    rcases ran₂ : (tryCopy 1 ch₁).run s₁ with ⟨e | ch, s₂⟩
    · rw [ran₂] at second
      exact .inl second
    · rw [ran₂] at second
      rw [after_ok, run_bind]
      rcases found : ch.found with _ | _
      · exact .inl second
      · rw [ensure_true, run_pure, after_ok]
        have copies : ∃ copy < MFS_SB_COPIES, ∃ sb, s.disk s.mem.curVol copy = .super sb ∧
            sb.version = MFS_VERSION := by
          obtain ⟨clean₁, disk₁⟩ := first.clean clean
          rcases tryCopy_found clean₁ ran₂ found with earlier | ⟨sb, content, version⟩
          · rcases tryCopy_found clean ran₁ earlier with none | ⟨sb, content, version⟩
            · cases none
            · exact ⟨0, by decide, sb, content, version⟩
          · rw [disk₁, first.vol] at content
            exact ⟨1, by decide, sb, content, version⟩
        rcases ch.bitmapOk with _ | _
        · exact .inr copies
        · exact .inl (trans_of SameDevice second (sameDevice_of_via (loads_protectMeta.keeps s₂)))

end

/-! ## Probing -/

/-- The probe can read the superblock copy. -/
def Fs.probes (s : Fs) (copy : Nat) : Prop := s.env.readOk (s.tick + copy) = true

theorem sbMagicScan_cons (vol copy : Nat) (rest : List Nat) (mismatch : Bool) (s : Fs) :
    sbMagicScan vol (copy :: rest) mismatch s =
      if s.env.readOk s.tick = true then
        if (s.disk vol copy).magic = MFS_MAGIC_SUPER then (.ok .matching, { s with tick := s.tick + 1 })
        else sbMagicScan vol rest (mismatch || isFamilyMagic (s.disk vol copy).magic)
          { s with tick := s.tick + 1 }
      else sbMagicScan vol rest mismatch { s with tick := s.tick + 1 } := by
  rw [sbMagicScan, bind_apply, Act.attempt, blockReadDev]
  split
  · rw [Act.caught_ok, after_ok]
    dsimp only
    split <;> rfl
  · rfl

theorem isFamilyMagic_super : isFamilyMagic MFS_MAGIC_SUPER = true := by decide

/-- The scan finds nothing if no copy that it can read has a magic of the family. -/
theorem sbMagicScan_none_iff (vol : Nat) (s : Fs) :
    (sbMagicScan vol (List.range MFS_SB_COPIES) false s).1 = .ok .none ↔
      ∀ copy < MFS_SB_COPIES, s.probes copy → isFamilyMagic (s.disk vol copy).magic = false := by
  have copies : List.range MFS_SB_COPIES = [0, 1] := rfl
  have last (s : Fs) (mismatch : Bool) : (sbMagicScan vol [1] mismatch s).1 = .ok .none ↔
      mismatch = false ∧ (s.probes 0 → isFamilyMagic (s.disk vol 1).magic = false) := by
    rw [sbMagicScan_cons, Fs.probes, Nat.add_zero]
    by_cases readable : s.env.readOk s.tick = true
    · by_cases super : (s.disk vol 1).magic = MFS_MAGIC_SUPER
      · simp [readable, super, isFamilyMagic_super]
      · cases mismatch <;> simp [readable, super, sbMagicScan]
    · cases mismatch <;> simp [readable, sbMagicScan]
  have both : (∀ copy < MFS_SB_COPIES, s.probes copy → isFamilyMagic (s.disk vol copy).magic = false) ↔
      (s.probes 0 → isFamilyMagic (s.disk vol 0).magic = false) ∧
        (s.probes 1 → isFamilyMagic (s.disk vol 1).magic = false) := Nat.forall_lt_succ_right.trans
    (and_congr_left' (by simp))
  rw [copies, sbMagicScan_cons, both]
  simp only [Fs.probes, Nat.add_zero]
  by_cases readable : s.env.readOk s.tick = true
  · by_cases super : (s.disk vol 0).magic = MFS_MAGIC_SUPER
    · simp [readable, super, isFamilyMagic_super]
    · simp [readable, super, last, Fs.probes]
  · simp [readable, last, Fs.probes]

theorem sbMagicScan_sameDevice (vol : Nat) (copies : List Nat) (mismatch : Bool) :
    Act.Keeps SameDevice (sbMagicScan vol copies mismatch) := by
  induction copies generalizing mismatch with
  | nil => exact keeps_same _
  | cons copy rest ih =>
    refine after (reads_blockReadDev vol copy).caught fun found => ?_
    rcases found with _ | blk
    · exact ih mismatch
    · by_cases super : blk.magic = MFS_MAGIC_SUPER
      · simp only [super]
        exact keeps_same _
      · simp only [super]
        exact ih _

theorem mfsSbMagicState_sameDevice (vol : Nat) : Act.Keeps SameDevice (mfsSbMagicState vol) := by
  refine after reads_flush.caught fun flushed => ?_
  rcases flushed with _ | _
  · exact keeps_same _
  · exact sbMagicScan_sameDevice vol _ _

/-- The state in which the superblocks are probed after a load. -/
def Fs.probed (s : Fs) : Fs := (flushRun (mfsLoadState.run s).2).2

/-- Mounting formats the volume: it cannot be loaded and the probe finds no magic. -/
def Formats (vol : Nat) (s : Fs) : Prop :=
  (mfsLoadState.run s).1 = .error () ∧ (mfsSbMagicState vol (mfsLoadState.run s).2).1 = .ok .none

theorem formats_iff {vol : Nat} : Formats vol s ↔ (mfsLoadState.run s).1 = .error () ∧
    (flushRun (mfsLoadState.run s).2).1 = .ok () ∧
    ∀ copy < MFS_SB_COPIES, s.probed.probes copy → isFamilyMagic (s.probed.disk vol copy).magic = false := by
  refine and_congr_right fun _ => ?_
  rw [mfsSbMagicState, Act.bind_apply, Act.attempt, Fs.probed]
  rcases flushRun (mfsLoadState.run s).2 with ⟨e | u, s₁⟩
  · simp
  · rw [Act.caught_ok, Act.after_ok, ← sbMagicScan_none_iff]
    simp

/-- Beyond the load, mounting writes only when it formats. -/
theorem mount_issued (vol : Nat) (s : Fs) :
    (mfsMountOrFormat vol s).2.issued = (mfsLoadState.run s).2.issued ∨ Formats vol s := by
  rw [mfsMountOrFormat, Act.bind_apply, Act.attempt, Formats]
  rcases mfsLoadState.run s with ⟨e | u, s₁⟩
  · rw [Act.caught_error, Act.after_ok]
    dsimp only
    rw [Act.bind_apply]
    have probing := mfsSbMagicState_sameDevice vol s₁
    rcases probe : mfsSbMagicState vol s₁ with ⟨e | state, s₂⟩
    · rw [probe] at probing
      exact .inl probing.issued
    · rw [probe] at probing
      cases state with
      | none => exact .inr ⟨rfl, rfl⟩
      | matching | familyMismatch => exact .inl probing.issued
  · exact .inl rfl

/-- The small volume before it is mounted, with `first` as its first superblock copy. -/
def demoMount (reads : Bool) (first : Block) : Fs :=
  { demoFs true [] [] with
    env := { demoEnv true with readOk := fun _ => reads }
    disk := fun _ => Function.update demoStore 0 first }

/-- Whether mounting the small volume issues a write to a superblock. -/
def demoMountWrites (reads : Bool) (first : Block) : Bool :=
  (mfsMountOrFormat 0 (demoMount reads first)).2.issued.any fun w => decide (w.1 < MFS_SB_COPIES)

end MorionOS.Mfs
