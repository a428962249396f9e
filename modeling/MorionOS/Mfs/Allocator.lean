import MorionOS.Mfs.Routines
import MorionOS.Mfs.Allocate

/-!
# The free count

`MFS_FREE_BLOCKS` is kept beside the bitmap: each bit that changes changes it by
one, and loading, rebuilding, sweeping and formatting compute it afresh.  A volume
is `Counted` when the counter is the number of clear bits below its size.  All
programs keep that, apart from a load or a format that fails: it may have taken
over the size of a volume whose bitmap it does not have, and what is in memory then
describes no volume until the next one that succeeds (`allocator_counts_clear_bits`,
`failed_load_miscounts`).
-/

namespace MorionOS.Mfs

open StateAct Layered Labelled Function List Vol

/-! ## Counting bits -/

/-- The counter is the number of clear bits, and the bitmap has as many blocks as the size asks for. -/
structure Vol.Counted (v : Vol) : Prop where
  sized : v.bmpDataBlocks = bbFor v.total
  count : v.freeBlocks = (List.range v.total).countP fun b => !v.bmp b

/-- The part of a volume that the count is about. -/
def Vol.bits (v : Vol) : Nat × Nat × (Nat → Bool) × Nat := (v.total, v.bmpDataBlocks, v.bmp, v.freeBlocks)

variable {v : Vol} {s s' : Fs}

theorem Vol.Counted.congr {v' : Vol} (counted : v.Counted) (same : v'.bits = v.bits) : v'.Counted := by
  simp only [bits, Prod.mk.injEq] at same
  obtain ⟨total, blocks, bmp, free⟩ := same
  constructor
  · rw [blocks, total]
    exact counted.sized
  · rw [free, total, bmp]
    exact counted.count

theorem Vol.bits_bmpTouch (v : Vol) (b : Nat) : (v.bmpTouch b).bits = v.bits := by
  obtain ⟨dirty, eq⟩ := v.bmpTouch_eq b
  rw [eq]
  rfl

section

variable (counted : v.Counted)
include counted

theorem Vol.Counted.bmpSet (b : Nat) : (v.bmpSet b).Counted := by
  by_cases inside : v.total ≤ b
  · rwa [Vol.bmpSet, if_pos inside]
  rcases used : v.bmp b with _ | _
  · have flip : (List.range v.total).countP (fun x => !v.bmp x) =
        (List.range v.total).countP (fun x => !update v.bmp b true x) + 1 := by
      apply countP_range_flip (Nat.not_le.mp inside)
      · rw [used]
        rfl
      · simp
      · intro x other
        rw [update_of_ne other]
    rw [Vol.bmpSet, if_neg inside, if_neg (by simp [used])]
    refine Vol.Counted.congr ?_ (bits_bmpTouch _ b)
    refine ⟨counted.sized, ?_⟩
    have count := counted.count
    dsimp only
    omega
  · rwa [Vol.bmpSet, if_neg inside, if_pos used]

theorem Vol.Counted.bmpClear (b : Nat) : (v.bmpClear b).Counted := by
  by_cases inside : v.total ≤ b
  · rwa [Vol.bmpClear, if_pos inside]
  rcases used : v.bmp b with _ | _
  · rwa [Vol.bmpClear, if_neg inside, if_neg (by simp [used])]
  · have flip : (List.range v.total).countP (fun x => !update v.bmp b false x) =
        (List.range v.total).countP (fun x => !v.bmp x) + 1 := by
      apply countP_range_flip (Nat.not_le.mp inside)
      · simp
      · rw [used]
        rfl
      · intro x other
        rw [update_of_ne other]
    rw [Vol.bmpClear, if_neg inside, if_pos used]
    refine Vol.Counted.congr ?_ (bits_bmpTouch _ b)
    refine ⟨counted.sized, ?_⟩
    have count := counted.count
    dsimp only
    omega

theorem Vol.Counted.bmpSetAll (bs : List Nat) : (v.bmpSetAll bs).Counted :=
  List.foldlRecOn bs Vol.bmpSet counted fun _ counted b _ => counted.bmpSet b

theorem Vol.Counted.bmpTake (b : Nat) : (v.bmpTake b).Counted :=
  (counted.bmpSet b).congr rfl

end

theorem countP_clear (bits : Nat → Bool) (n : Nat) :
    n - (List.range n).countP bits = (List.range n).countP fun b => !bits b := by
  have whole := countP_not_add bits (List.range n)
  rw [length_range] at whole
  omega

theorem counted_bmpRecount (sized : v.bmpDataBlocks = bbFor v.total) : v.bmpRecount.Counted := by
  refine ⟨sized, ?_⟩
  change v.total - (List.range v.total).countP v.bmpGet = (List.range v.total).countP fun b => !v.bmp b
  rw [countP_clear]
  apply countP_congr
  intro b mem
  simp [bmpGet, mem_range.mp mem]

theorem counted_swept (sized : v.bmpDataBlocks = bbFor v.total) (mark : Nat → Bool) :
    (v.swept mark).Counted := by
  obtain ⟨dirty, eq⟩ := v.swept_eq mark
  rw [eq]
  refine ⟨sized, ?_⟩
  rw [countP_clear]
  apply countP_congr
  intro b mem
  simp [mem_range.mp mem]

theorem total_le_bbFor (total : Nat) : total ≤ bbFor total * MFS_BMP_BLOCK_SPAN := by
  simp only [bbFor, MFS_BMP_BLOCK_SPAN, MFS_BLOCK]
  omega

theorem counted_allUsed (sized : v.bmpDataBlocks = bbFor v.total) : v.allUsed.Counted := by
  refine ⟨sized, Eq.symm (countP_eq_zero.mpr ?_)⟩
  intro b mem
  have inside : b < v.bmpDataBlocks * MFS_BMP_BLOCK_SPAN := by
    rw [sized]
    exact (mem_range.mp mem).trans_le (total_le_bbFor v.total)
  simp [allUsed, inside]

theorem counted_blank (sized : v.bmpDataBlocks = bbFor v.total) : v.blank.Counted := by
  refine ⟨sized, ?_⟩
  change v.total = (List.range v.total).countP fun b => !v.blank.bmp b
  rw [countP_eq_length.mpr, length_range]
  intro b mem
  have inside : b < v.bmpDataBlocks * MFS_BMP_BLOCK_SPAN := by
    rw [sized]
    exact (mem_range.mp mem).trans_le (total_le_bbFor v.total)
  simp [blank, inside]

/-! ## Programs that only change bits one by one -/

/-- The bits are as before, or one free block was taken. -/
def TakesBits (s s' : Fs) : Prop :=
  s'.mem.vol.bits = s.mem.vol.bits ∨ ∃ b, s.mem.vol.Free b ∧ s'.mem.vol.bits = (s.mem.vol.bmpTake b).bits

theorem takesBits_mfsCommit (blk : Block) (s : Fs) : TakesBits s ((mfsCommit blk).run s).2 := by
  simp only [mfsCommit, mfsAllocBlock, run_bind, run_getMem]
  rcases found : s.mem.vol.findFree with _ | b
  · exact .inl rfl
  · have kept : Act.Keeps SameMem fun s' : Fs =>
        Act.after ((mfsWriteBlk b blk).run s') fun _ s'' => ((.ok b : Except Unit Nat), s'') :=
      mfsWriteBlk_sameMem.keeps.after fun _ => Act.keeps_same _
    refine .inr ⟨b, findFree_some found, ?_⟩
    exact congrArg (fun m : Mem => m.vol.bits) (kept { s with mem := s.mem.setVol fun v => v.bmpTake b })

/-- The bits are as before. -/
def SameBits (s s' : Fs) : Prop := s'.mem.vol.bits = s.mem.vol.bits

theorem SameMem.sameBits (same : SameMem s s') : SameBits s s' :=
  congrArg (fun m : Mem => m.vol.bits) same

theorem sameBits_mfsBmpFlush (s : Fs) : SameBits s (mfsBmpFlush.run s).2 := by
  have mem := mfsBmpFlush_mem s
  rw [SameBits]
  rcases ran : mfsBmpFlush.run s with ⟨e | u, s'⟩
  · rw [mem.of_error ran]
    rfl
  · rw [mem.of_ok ran]
    rfl

theorem Move.takesBits {l : Label} (move : Move s l s') (label : l.onTree) : TakesBits s s' := by
  cases move with
  | memory tick vol _ _ => exact .inl (congrArg bits vol)
  | table => exact .inl rfl
  | volume | select => exact label.elim
  | flush => exact .inl (flushRun_sameMem s).sameBits
  | write blk => exact takesBits_mfsCommit blk s
  | commit => exact .inl (sameBits_mfsBmpFlush s)

/-- A count that was right stays right. -/
def KeepsCount (s s' : Fs) : Prop := s.mem.vol.Counted → s'.mem.vol.Counted

instance : IsPreorder Fs KeepsCount where
  refl _ := id
  trans _ _ _ h h' := h' ∘ h

/-- The number of bitmap blocks fits the size. -/
def Fs.Sized (s : Fs) : Prop := s.mem.vol.bmpDataBlocks = bbFor s.mem.vol.total

/-- A number of bitmap blocks that fitted the size still does. -/
def KeepsSized (s s' : Fs) : Prop := s.Sized → s'.Sized

instance : IsPreorder Fs KeepsSized where
  refl _ := id
  trans _ _ _ h h' := h' ∘ h

theorem TakesBits.keepsCount (takes : TakesBits s s') : KeepsCount s s' := by
  intro counted
  rcases takes with same | ⟨b, -, same⟩
  · exact counted.congr same
  · exact (counted.bmpTake b).congr same

theorem SameBits.keepsSized (same : SameBits s s') : KeepsSized s s' := by
  intro sized
  simp only [SameBits, bits, Prod.mk.injEq] at same
  rw [Fs.Sized, same.1, same.2.1]
  exact sized

theorem TakesBits.keepsSized (takes : TakesBits s s') : KeepsSized s s' := by
  rcases takes with same | ⟨b, free, same⟩
  · exact SameBits.keepsSized same
  · obtain ⟨count, dirty, eq⟩ := bmpTake_eq free.inside
    intro sized
    simp only [eq, bits, Prod.mk.injEq] at same
    rw [Fs.Sized, same.1, same.2.1]
    exact sized

section Programs

variable {ε α : Type} {m : Op ε α}

/-- Programs that change files and directories keep the count. -/
instance (priority := low) keepsCount_of_works [works : Works m] : Within KeepsCount m :=
  ⟨fun s => (works.keeps s).induct fun _ _ _ label move => (move.takesBits label).keepsCount⟩

instance (priority := low) keepsSized_of_works [works : Works m] : Within KeepsSized m :=
  ⟨fun s => (works.keeps s).induct fun _ _ _ label move => (move.takesBits label).keepsSized⟩

theorem counted_run (counted : s.mem.vol.Counted) (keeps : Within KeepsCount m) :
    (m.run s).2.mem.vol.Counted := keeps.keeps s counted

theorem ends_counted (counted : (m.run s).2.mem.vol.Counted) :
    Ends (m.run s) (fun _ s' => s'.mem.vol.Counted) fun _ => True := by
  rcases ran : m.run s with ⟨e | a, s'⟩
  · exact trivial
  · rw [ran] at counted
    exact counted

theorem ends_sized {s₀ : Fs} (sized : s.Sized) (keeps : Within KeepsSized m) :
    Ends (m.run s) (fun _ s' => s'.Sized) (KeepsSized s₀) :=
  (keeps.keeps.ends s).mono (fun _ _ h => h sized) fun _ h _ => h sized

end Programs

theorem keepsCount_setVol {ε : Type} {f : Vol → Vol} (keep : ∀ v : Vol, v.Counted → (f v).Counted) :
    Within KeepsCount (setVol f : Op ε Unit) := ⟨fun s counted => keep s.mem.vol counted⟩

/-! ## Programs that compute the count -/

instance keepsCount_mfsMarkItabMeta {itab : Nat} : Within KeepsCount (mfsMarkItabMeta itab) := by
  rw [mfsMarkItabMeta]
  refine Within.ite inferInstance (.bind (keepsCount_setVol fun v counted => counted.bmpSet itab) fun _ =>
    .next fun read => ?_)
  split
  · exact keepsCount_setVol fun v counted => counted.bmpSetAll _
  · infer_instance

/-- The count after a load that found a bitmap. -/
theorem counted_protectMeta (sized : s.Sized) : (protectMeta.run s).2.mem.vol.Counted := by
  rw [protectMeta, run_bind, run_setVol, Act.after_ok]
  refine counted_run (counted_bmpRecount sized) ?_
  exact Within.bind (keepsCount_setVol fun _ counted => counted.bmpSetAll _) fun _ => inferInstance

instance keepsCount_mfsGcSweep : Within KeepsCount mfsGcSweep :=
  Within.next fun _ => .bind (keepsCount_setVol fun _ counted => counted_swept counted.sized _) fun _ => inferInstance

instance keepsCount_mfsGc : Within KeepsCount mfsGc := by
  refine Within.next fun flushed => ?_
  split <;> infer_instance

/-- The count after a load that had to rebuild the bitmap. -/
theorem counted_mfsRebuildBitmap (sized : s.Sized) : (mfsRebuildBitmap.run s).2.mem.vol.Counted := by
  rw [mfsRebuildBitmap, run_bind, run_setVol, Act.after_ok]
  exact counted_run (counted_allUsed sized) inferInstance

/-! ## Loading and formatting -/

theorem keepsSized_setVol {ε : Type} {f : Vol → Vol}
    (keep : ∀ v : Vol, (f v).bmpDataBlocks = v.bmpDataBlocks ∧ (f v).total = v.total) :
    Within KeepsSized (setVol f : Op ε Unit) := by
  refine ⟨fun s sized => ?_⟩
  change (f s.mem.vol).bmpDataBlocks = bbFor (f s.mem.vol).total
  rw [(keep s.mem.vol).1, (keep s.mem.vol).2]
  exact sized

instance keepsSized_loadChunk {start k : Nat} {crc : Nat → UInt32} : Within KeepsSized (loadChunk start crc k) := by
  refine Within.next fun blk => ?_
  split
  · exact Within.bind (keepsSized_setVol fun v => ⟨rfl, rfl⟩) fun _ =>
      .next fun _ => keepsSized_setVol fun v => ⟨rfl, rfl⟩
  · infer_instance

instance keepsSized_mfsLoadBitmapCopy {copy : Nat} : Within KeepsSized (mfsLoadBitmapCopy copy) := by
  refine Within.next fun v => .next fun blk => ?_
  split <;> infer_instance

/-- Whatever happens after the superblock was taken over, the bitmap has the size it asks for. -/
theorem sized_adoptSuper (copy : Nat) (ch : Choice) (sb : Super) (s : Fs) :
    Ends ((adoptSuper copy ch sb).run s) (fun _ s' => s'.Sized) (KeepsSized s) := by
  have before : ∀ (m : Op Unit Unit) (s₁ : Fs) [Within KeepsSized m], KeepsSized s s₁ →
      Ends (m.run s₁) (fun _ s' => KeepsSized s s') (KeepsSized s) := fun m s₁ keeps start =>
    (keeps.keeps.ends s₁).mono (fun _ _ h => h ∘ start) fun _ h => h ∘ start
  refine (before _ s id).bindRun (fun _ => id) fun _ s₁ h₁ => ?_
  refine Ends.bindRun (m := getMem fun m => m.curSectors) (R := fun _ s' => KeepsSized s s') h₁
    (fun _ => id) fun sectors s₂ h₂ => ?_
  refine (before _ s₂ h₂).bindRun (fun _ => id) fun _ s₃ h₃ => ?_
  refine (before _ s₃ h₃).bindRun (fun _ => id) fun _ s₄ h₄ => ?_
  have adopted : Ends ((setVol fun v => v.adopt sb : Op Unit Unit).run s₄) (fun _ s' => s'.Sized)
      (KeepsSized s) := rfl
  refine adopted.bindRun (fun _ => id) fun _ s₅ sized => ?_
  exact ends_sized sized (.next fun _ => .next fun _ => .next fun _ =>
    .bind (keepsSized_setVol fun v => ⟨rfl, rfl⟩) fun _ => inferInstance)

/-- A superblock that was found has left a bitmap of its size. -/
theorem sized_tryCopy (copy : Nat) {ch : Choice} (start : ch.found = true → s.Sized) :
    Ends ((tryCopy copy ch).run s) (fun ch' s' => ch'.found = true → s'.Sized) fun _ => True := by
  have choose {m : Op Unit Choice} (adopt : Ends (m.run s) (fun _ s' => s'.Sized) (KeepsSized s)) :
      Ends ((do pure ((← attempt m).getD ch) : Op Unit Choice).run s)
        (fun ch' s' => ch'.found = true → s'.Sized) fun _ => True := by
    rw [run_bind, run_attempt]
    generalize m.run s = r at adopt
    obtain ⟨e | ch', s'⟩ := r
    · exact fun found => adopt (start found)
    · exact fun _ => adopt
  refine choose (Ends.bindRun ((keepsSized_of_works (m := mfsReadBlk copy)).keeps.ends s) (fun _ => id) fun blk s₁ kept => ?_)
  cases blk with
  | super sb => exact (sized_adoptSuper copy ch sb s₁).mono (fun _ _ => id) fun _ h => h ∘ kept
  | _ => exact kept

theorem counted_mfsLoadState (s : Fs) :
    Ends (mfsLoadState.run s) (fun _ s' => s'.mem.vol.Counted) fun _ => True := by
  refine Ends.bindRun ((keepsSized_of_works (m := mfsCommitFlush)).keeps.ends s) (fun _ _ => trivial) fun _ s₁ _ => ?_
  refine Ends.bindRun (sized_tryCopy 0 (by simp)) (fun _ => id) fun first s₂ sized => ?_
  refine Ends.bindRun (sized_tryCopy 1 sized) (fun _ => id) fun ch s₃ sized => ?_
  rcases found : ch.found with _ | _
  · exact trivial
  · rw [ensure_true, Layered.pure_bind]
    split
    · exact ends_counted (counted_protectMeta (sized found))
    · exact ends_counted (counted_mfsRebuildBitmap (sized found))

theorem counted_mfsFormat (s : Fs) :
    Ends (mfsFormat.run s) (fun _ s' => s'.mem.vol.Counted) fun _ => True := by
  have sectors : ∀ (f : Mem → Nat) (s₁ : Fs),
      Ends ((getMem f : Op Unit Nat).run s₁) (fun _ _ => True) fun _ => True := fun _ _ => trivial
  refine Ends.bindRun (keepsSized_of_works.keeps.ends s) (fun _ _ => trivial) fun _ s₁ _ => ?_
  refine (sectors _ s₁).bindRun (fun _ => id) fun n s₂ _ => ?_
  have resized : ∀ total, Ends ((setVol fun v => v.resize total : Op Unit Unit).run s₂)
      (fun _ s' => s'.Sized) fun _ => True := fun _ => rfl
  refine (resized _).bindRun (fun _ => id) fun _ s₃ sized => ?_
  refine Ends.bindRun (keepsSized_of_works.keeps.ends s₃) (fun _ _ => trivial) fun _ s₄ kept => ?_
  have emptied : Ends ((setVol blank : Op Unit Unit).run s₄) (fun _ s' => s'.mem.vol.Counted)
      fun _ => True := counted_blank (kept sized)
  refine emptied.bindRun (fun _ => id) fun _ s₅ counted => ?_
  exact ends_counted (counted_run counted (.next fun _ =>
    .bind (keepsCount_setVol fun v counted => counted.bmpSetAll _) fun _ => .next fun now => .next fun root =>
      .next fun _ => .next fun _ => .bind (keepsCount_setVol fun v counted => counted.congr rfl) fun _ => inferInstance))

/-! ## Runs of the allocator -/

/-- What happens to the bitmap and its counter. -/
inductive AllocOp where
  | format
  | load
  | switchVol (vol : Nat)
  | alloc
  | reserve (b : Nat)
  | protectItab (itab : Nat)
  | free (b : Nat)
  | sweep
  | collect
  | window (pages : Nat)

def AllocOp.run : AllocOp → Act Fs Unit Unit
  | .format => mfsFormat.run
  | .load => mfsLoadState.run
  | .switchVol vol => mfsSwitchVol vol
  | .alloc => fun s => Act.after (mfsAllocBlock.run s) fun _ s' => (.ok (), s')
  | .reserve b => (setVol fun v => v.bmpSet b : Op Unit Unit).run
  | .protectItab itab => (mfsMarkItabMeta itab).run
  | .free b => (setVol fun v => v.bmpClear b : Op Unit Unit).run
  | .sweep => fun s => Act.after (mfsGcSweep.run s) fun _ s' => (.ok (), s')
  | .collect => fun s => Act.after (mfsGc.run s) fun _ s' => (.ok (), s')
  | .window pages => (mfsWinEnsure pages).run

/-- The operations that take over another state of the volume. -/
def AllocOp.replaces : AllocOp → Bool
  | .format | .load | .switchVol _ => true
  | _ => false

/-- One operation.  The flag says whether the last one that took over a state succeeded. -/
def AllocOp.step (x : Bool × Fs) (op : AllocOp) : Bool × Fs :=
  (if op.replaces then (op.run x.2).1.isOk else x.1, (op.run x.2).2)

def runOps (ops : List AllocOp) (s : Fs) : Bool × Fs := ops.foldl AllocOp.step (true, s)

theorem counted_switchVol (vol : Nat) (s : Fs) :
    Ends (mfsSwitchVol vol s) (fun _ s' => s'.mem.vol.Counted) fun _ => True := by
  have before : Ends (flushRun s) (fun _ _ => True) fun _ => True := by
    rcases flushRun s with ⟨e | u, s'⟩ <;> exact trivial
  exact before.after (fun _ => id) fun _ s' _ => counted_mfsLoadState _

/-- The operations that change the volume in place keep the count. -/
theorem AllocOp.keepsCount {op : AllocOp} (stays : op.replaces = false) : Act.Keeps KeepsCount op.run := by
  have allocates : Within KeepsCount mfsAllocBlock := by
    exact .next fun found => .next fun b =>
      .bind (keepsCount_setVol fun v counted => counted.bmpTake b) fun _ => inferInstance
  cases op with
  | format | load | switchVol => cases stays
  | alloc => exact allocates.keeps.after fun _ => Act.keeps_same _
  | reserve b => exact (keepsCount_setVol fun v counted => counted.bmpSet b).keeps
  | protectItab itab => exact keepsCount_mfsMarkItabMeta.keeps
  | free b => exact (keepsCount_setVol fun v counted => counted.bmpClear b).keeps
  | sweep => exact keepsCount_mfsGcSweep.keeps.after fun _ => Act.keeps_same _
  | collect => exact keepsCount_mfsGc.keeps.after fun _ => Act.keeps_same _
  | window pages => exact Within.keeps

/-- The operations that take over a volume leave the right count when they succeed. -/
theorem AllocOp.counted_of_ok {op : AllocOp} (replaces : op.replaces = true)
    (ok : (op.run s).1.isOk = true) : (op.run s).2.mem.vol.Counted := by
  have ends : Ends (op.run s) (fun _ s' => s'.mem.vol.Counted) fun _ => True := by
    cases op with
    | format => exact counted_mfsFormat s
    | load => exact counted_mfsLoadState s
    | switchVol vol => exact counted_switchVol vol s
    | _ => cases replaces
  generalize op.run s = r at ok ends
  obtain ⟨e | u, s'⟩ := r
  · cases ok
  · exact ends

theorem AllocOp.step_counted {x : Bool × Fs} (op : AllocOp) (before : x.1 = true → x.2.mem.vol.Counted) :
    (AllocOp.step x op).1 = true → (AllocOp.step x op).2.mem.vol.Counted := by
  intro valid
  rcases kind : op.replaces with _ | _
  · simp only [AllocOp.step, kind] at valid ⊢
    exact AllocOp.keepsCount kind x.2 (before valid)
  · simp only [AllocOp.step, kind] at valid ⊢
    exact AllocOp.counted_of_ok kind valid

theorem runOps_counted (start : s.mem.vol.Counted) (ops : List AllocOp) :
    (runOps ops s).1 = true → (runOps ops s).2.mem.vol.Counted :=
  List.foldlRecOn (motive := fun x : Bool × Fs => x.1 = true → x.2.mem.vol.Counted) ops AllocOp.step
    (fun _ => start) fun _ before op _ => AllocOp.step_counted op before

/-- After any sequence of operations the next allocation returns a free block of the data area, or
there is none; and the counter is the number of clear bits unless the last format, load or switch
of volume failed. -/
theorem allocator_counts_clear_bits {s : Fs} (start : s.mem.vol.Counted) (ops : List AllocOp) :
    let loaded := (runOps ops s).1
    let s' := (runOps ops s).2
    let v := s'.mem.vol
    (loaded = true → v.freeBlocks = (List.range v.total).countP fun b => !v.bmp b) ∧
    (∀ b s'', mfsAllocBlock.run s' = (.ok b, s'') → v.dataStart ≤ b ∧ b < v.total ∧ v.bmp b = false) ∧
    ∀ e s'', mfsAllocBlock.run s' = (.error e, s'') →
      ∀ b, v.dataStart ≤ b → b < v.total → v.bmp b = true := by
  refine ⟨fun loaded => (runOps_counted start ops loaded).count, fun b s'' ran => ?_, fun e s'' ran => ?_⟩
  · simp only [mfsAllocBlock, run_bind, run_getMem] at ran
    rcases found : (runOps ops s).2.mem.vol.findFree with _ | b'
    · rw [found] at ran
      cases ran
    · rw [found] at ran
      obtain rfl : b' = b := Except.ok.inj (congrArg Prod.fst ran)
      have free := findFree_some found
      exact ⟨free.start, free.inside, free.unused⟩
  · simp only [mfsAllocBlock, run_bind, run_getMem] at ran
    rcases found : (runOps ops s).2.mem.vol.findFree with _ | b'
    · intro b low high
      have taken := findFree_none found (b := b)
      rcases used : (runOps ops s).2.mem.vol.bmp b with _ | _
      · exact absurd ⟨low, high, used⟩ taken
      · rfl
    · rw [found] at ran
      cases ran

/-! ## The service before its first load -/

/-- The statics at power on. -/
def bootVol : Vol :=
  { demoVol with
    total := 0, bmpDataBlocks := 0, bmp := fun _ => false, freeBlocks := 0, allocNext := 0, gen := 0,
    itab := 0, itabMem := fun _ => 0, inoCount := 0, inoHint := 0 }

/-- The service at power on with the small volume, whose superblock is there; `pages` says whether
memory for the bitmap can be had. -/
def bootFs (pages : Bool) : Fs :=
  { demoFs true [] [] with
    env := { demoEnv true with pageOk := fun _ => pages }
    disk := fun _ b => if b = 0 then .super demoVol.buildSuper else demoStore b
    mem := { demoMem [] with vol := bootVol, win := ⟨0, 0, 0, 0⟩ } }

theorem bootVol_counted : bootVol.Counted := ⟨rfl, rfl⟩

/-- The bitmap of the small volume is missing, so a load rebuilds it; after that an allocation
keeps the count. -/
theorem boot_load_counts : (runOps [.load, .alloc] (bootFs true)).1 = true ∧
    (runOps [.load, .alloc] (bootFs true)).2.mem.vol.freeBlocks =
      (List.range (runOps [.load, .alloc] (bootFs true)).2.mem.vol.total).countP
        fun b => !(runOps [.load, .alloc] (bootFs true)).2.mem.vol.bmp b := by
  have loaded : (runOps [.load, .alloc] (bootFs true)).1 = true := by decide +kernel
  exact ⟨loaded, (allocator_counts_clear_bits (s := bootFs true) bootVol_counted [.load, .alloc]).1 loaded⟩

/-- A load that fails after it has taken over the superblock leaves the size of the new volume beside
the old counter. -/
theorem failed_load_miscounts : (bootFs false).mem.vol.Counted ∧
    (runOps [.load] (bootFs false)).2.mem.vol.freeBlocks ≠
      (List.range (runOps [.load] (bootFs false)).2.mem.vol.total).countP
        fun b => !(runOps [.load] (bootFs false)).2.mem.vol.bmp b := by
  refine ⟨bootVol_counted, fun same => ?_⟩
  have inside : 0 < (runOps [.load] (bootFs false)).2.mem.vol.total := by decide +kernel
  have taken := countP_eq_zero.mp same.symm 0 (mem_range.mpr inside)
  exact taken rfl

end MorionOS.Mfs
