import MorionOS.Mfs.Load

/-!
# What loading a volume finds

A copy of the bitmap is taken over when its header belongs to the superblock and
every bitmap block has the checksum of the header.  A volume is `Recoverable` when
some copy has a usable superblock and bitmap and no other superblock is newer; then
loading succeeds, with the state of such a copy (`load_of_recoverable`).
-/

namespace MorionOS.Mfs

open StateAct Layered List Option Act

/-! ## One copy of the bitmap -/

/-- The block is a bitmap block with this checksum. -/
def Block.Checked (blk : Block) (crc : UInt32) : Prop := ∃ bits, blk = .bitmap bits ∧ bitmapCrc bits = crc

/-- The bit of block `b` in bitmap blocks that start at `start`. -/
def storedBit (store : Nat → Block) (start b : Nat) : Bool :=
  match store (start + b / MFS_BMP_BLOCK_SPAN) with
  | .bitmap bits => bits (b % MFS_BMP_BLOCK_SPAN)
  | _ => false

/-- Besides the bitmap and its checksums nothing differs. -/
def SameButBitmap (c c' : Core) : Prop :=
  ∃ bmp crc, c' = { c with mem := c.mem.setVol fun v => { v with bmp := bmp, crc := crc } }

theorem SameButBitmap.trans {c₁ c₂ c₃ : Core} (first : SameButBitmap c₁ c₂)
    (second : SameButBitmap c₂ c₃) : SameButBitmap c₁ c₃ := by
  obtain ⟨bmp, crc, rfl⟩ := first
  obtain ⟨bmp', crc', rfl⟩ := second
  exact ⟨bmp', crc', rfl⟩

variable {start copy : Nat} {crc : Nat → UInt32} {c c' : Core} {sb : Super} {ch : Choice}

/-- One bitmap block is taken over when its checksum fits. -/
theorem ideal_loadChunk {k : Nat} (fits : (c.store (start + k)).Checked (crc k)) :
    ∃ c', (loadChunk start crc k).ideal c = (.ok (), c') ∧ SameButBitmap c c' ∧
      ∀ b, c'.mem.vol.bmp b =
        if b / MFS_BMP_BLOCK_SPAN = k then storedBit c.store start b else c.mem.vol.bmp b := by
  obtain ⟨bits, content, same⟩ := fits
  have read : (mfsReadBlk (start + k)).ideal c = (.ok (.bitmap bits), c) := by
    rw [ideal_mfsReadBlk, content]
  refine ⟨{ c with mem := (c.mem.setVol fun v => v.setChunk k bits).setVol fun v =>
    { v with crc := Function.update v.crc k (bitmapCrc bits) } }, ?_, ⟨_, _, rfl⟩, ?_⟩
  · rw [loadChunk, ideal_bind, read, after_ok]
    simp [same]
  · intro b
    simp only [Mem.setVol, Vol.setChunk, storedBit]
    split
    next here => rw [here, content]
    next => rfl

/-- A bitmap block that is taken over has the right checksum. -/
theorem checked_of_loadChunk {k : Nat} (ran : (loadChunk start crc k).ideal c = (.ok (), c')) :
    (c.store (start + k)).Checked (crc k) := by
  rw [loadChunk, ideal_mfsReadBlk_bind] at ran
  cases content : c.store (start + k) with
  | bitmap bits =>
    rw [content] at ran
    rw [ideal_setVol_bind, ideal_bind] at ran
    obtain ⟨u, c₁, guard, -⟩ := after_eq_ok ran
    have same := (ensure_eq_ok guard).1
    exact ⟨bits, rfl, eq_of_beq same⟩
  | _ => simp [content] at ran

/-- The bitmap blocks of a list are taken over one after the other. -/
theorem ideal_loadChunks {ks : List Nat} (fits : ∀ k ∈ ks, (c.store (start + k)).Checked (crc k)) :
    ∃ c', (each ks (loadChunk start crc)).ideal c = (.ok (), c') ∧ SameButBitmap c c' ∧
      ∀ b, c'.mem.vol.bmp b =
        if b / MFS_BMP_BLOCK_SPAN ∈ ks then storedBit c.store start b else c.mem.vol.bmp b := by
  induction ks generalizing c with
  | nil => exact ⟨c, rfl, ⟨_, _, rfl⟩, fun b => by simp⟩
  | cons k ks ih =>
    obtain ⟨c₁, ran, same, bits⟩ := ideal_loadChunk (fits k mem_cons_self)
    have store : c₁.store = c.store := by
      obtain ⟨bmp, crc', rfl⟩ := same
      rfl
    obtain ⟨c₂, ran', same', bits'⟩ := ih (c := c₁) fun k' member => by
      rw [store]
      exact fits k' (mem_cons_of_mem _ member)
    refine ⟨c₂, ?_, same.trans same', ?_⟩
    · rw [each, ideal_bind, ran, after_ok, ran']
    · intro b
      rw [bits' b, bits b, store]
      by_cases here : b / MFS_BMP_BLOCK_SPAN = k <;> simp [here]

theorem checked_of_loadChunks {ks : List Nat} (ran : (each ks (loadChunk start crc)).ideal c = (.ok (), c')) :
    ∀ k ∈ ks, (c.store (start + k)).Checked (crc k) := by
  induction ks generalizing c with
  | nil => exact fun k member => nomatch member
  | cons k ks ih =>
    obtain ⟨u, c₁, first, rest⟩ := after_eq_ok ran
    have here := checked_of_loadChunk first
    obtain ⟨c₁', ran', ⟨bmp, crc', rfl⟩, -⟩ := ideal_loadChunk here
    obtain rfl : c₁ = _ := congrArg Prod.snd (first.symm.trans ran')
    intro k' member
    rcases mem_cons.mp member with rfl | later
    · exact here
    · exact ih rest k' later

/-- The header of a copy belongs to the volume in memory. -/
def BmpHeader.Fits (h : BmpHeader) (v : Vol) : Prop :=
  h.gen = v.gen ∧ h.total = v.total ∧ h.dataBlocks = v.bmpDataBlocks

/-- The first bitmap block of a copy. -/
def Vol.copyStart (v : Vol) (copy : Nat) : Nat := 4 + copy * v.bmpDataBlocks

/-- A copy whose header belongs to the volume and whose checksums fit is taken over. -/
theorem ideal_mfsLoadBitmapCopy {h : BmpHeader}
    (header : c.store (2 + copy) = .bmpHeader h) (fits : h.Fits c.mem.vol)
    (chunks : ∀ k < c.mem.vol.bmpDataBlocks,
      (c.store (c.mem.vol.copyStart copy + k)).Checked (h.crc k)) :
    ∃ c', (mfsLoadBitmapCopy copy).ideal c = (.ok (), c') ∧ SameButBitmap c c' ∧
      ∀ b < c.mem.vol.bmpDataBlocks * MFS_BMP_BLOCK_SPAN,
        c'.mem.vol.bmp b = storedBit c.store (c.mem.vol.copyStart copy) b := by
  have listed : ∀ k ∈ List.range c.mem.vol.bmpDataBlocks,
      (c.store (c.mem.vol.copyStart copy + k)).Checked (h.crc k) :=
    fun k member => chunks k (mem_range.mp member)
  obtain ⟨c', ran, same, bits⟩ := ideal_loadChunks listed
  refine ⟨c', ?_, same, ?_⟩
  · rw [mfsLoadBitmapCopy, ideal_getMem_bind, ideal_bind, ideal_mfsReadBlk, header, after_ok]
    simpa [fits.1, fits.2.1, fits.2.2, Vol.copyStart] using ran
  · intro b inside
    have chunk : b / MFS_BMP_BLOCK_SPAN ∈ List.range c.mem.vol.bmpDataBlocks :=
      mem_range.mpr (Nat.div_lt_of_lt_mul (Nat.mul_comm _ _ ▸ inside))
    rw [bits b, if_pos chunk]

/-- A copy that is taken over has such a header and such blocks. -/
theorem header_of_mfsLoadBitmapCopy (ran : (mfsLoadBitmapCopy copy).ideal c = (.ok (), c')) :
    ∃ h, c.store (2 + copy) = .bmpHeader h ∧ h.Fits c.mem.vol ∧
      ∀ k < c.mem.vol.bmpDataBlocks, (c.store (c.mem.vol.copyStart copy + k)).Checked (h.crc k) := by
  rw [mfsLoadBitmapCopy, ideal_getMem_bind, ideal_mfsReadBlk_bind] at ran
  cases content : c.store (2 + copy) with
  | bmpHeader h =>
    rw [content] at ran
    obtain ⟨u, c₁, guard, chunks⟩ := after_eq_ok ran
    obtain ⟨fits, rfl⟩ := ensure_eq_ok guard
    simp only [Bool.and_eq_true, beq_iff_eq] at fits
    refine ⟨h, rfl, ⟨fits.1.1, fits.1.2, fits.2⟩, fun k inside => ?_⟩
    exact checked_of_loadChunks chunks k (mem_range.mpr inside)
  | _ => simp [content] at ran

theorem sameButBitmap_loadChunk (start : Nat) (crc : Nat → UInt32) (k : Nat) (c : Core) :
    SameButBitmap c ((loadChunk start crc k).ideal c).2 := by
  rw [loadChunk, ideal_mfsReadBlk_bind]
  cases c.store (start + k) with
  | bitmap bits =>
    rw [ideal_setVol_bind, ideal_bind]
    cases bitmapCrc bits == crc k with
    | false | true => exact ⟨_, _, rfl⟩
  | _ => exact ⟨_, _, rfl⟩

/-- Also a copy that is given up halfway has changed nothing else. -/
theorem sameButBitmap_loadChunks (start : Nat) (crc : Nat → UInt32) (ks : List Nat) (c : Core) :
    SameButBitmap c ((each ks (loadChunk start crc)).ideal c).2 := by
  induction ks generalizing c with
  | nil => exact ⟨_, _, rfl⟩
  | cons k ks ih =>
    have first := sameButBitmap_loadChunk start crc k c
    rw [each, ideal_bind]
    rcases ran : (loadChunk start crc k).ideal c with ⟨e | u, c₁⟩
    · rw [ran] at first
      exact first
    · rw [ran] at first
      exact first.trans (ih c₁)

theorem sameButBitmap_mfsLoadBitmapCopy (copy : Nat) (c : Core) :
    SameButBitmap c ((mfsLoadBitmapCopy copy).ideal c).2 := by
  rw [mfsLoadBitmapCopy, ideal_getMem_bind, ideal_mfsReadBlk_bind]
  cases c.store (2 + copy) with
  | bmpHeader h =>
    rw [ideal_bind]
    cases h.gen == c.mem.vol.gen && h.total == c.mem.vol.total &&
        h.dataBlocks == c.mem.vol.bmpDataBlocks with
    | false => exact ⟨_, _, rfl⟩
    | true => exact sameButBitmap_loadChunks _ _ _ c
  | _ => exact ⟨_, _, rfl⟩

/-! ## Pages of the windows -/

/-- Besides the windows nothing differs. -/
def SameButWindows (c c' : Core) : Prop :=
  ∃ win calls, c' = { c with mem := { c.mem with win := win, pageCalls := calls } }

theorem SameButWindows.trans {c₁ c₂ c₃ : Core} (first : SameButWindows c₁ c₂)
    (second : SameButWindows c₂ c₃) : SameButWindows c₁ c₃ := by
  obtain ⟨win, calls, rfl⟩ := first
  obtain ⟨win', calls', rfl⟩ := second
  exact ⟨win', calls', rfl⟩

theorem ideal_growWin (f : Windows → Windows) (n : Nat) (pages : ∀ i, c.env.pageOk i = true) :
    ∃ c', (growWin f n).ideal c = (.ok (), c') ∧ SameButWindows c c' := by
  induction n generalizing c with
  | zero => exact ⟨c, rfl, _, _, rfl⟩
  | succ n ih =>
    obtain ⟨c', ran, same⟩ := ih (c := { c with
      mem := { c.mem with win := f c.mem.win, pageCalls := c.mem.pageCalls + 1 } }) pages
    refine ⟨c', ?_, SameButWindows.trans ⟨_, _, rfl⟩ same⟩
    have page : sysAllocPage.ideal c =
        (.ok (), { c with mem := { c.mem with pageCalls := c.mem.pageCalls + 1 } }) := by
      simp [sysAllocPage, pages]
    rw [growWin, ideal_bind, page, after_ok]
    exact ran

theorem ideal_mfsWinEnsure (n : Nat) (pages : ∀ i, c.env.pageOk i = true) :
    ∃ c', (mfsWinEnsure n).ideal c = (.ok (), c') ∧ SameButWindows c c' := by
  obtain ⟨c₁, ran₁, same₁⟩ := ideal_growWin (fun w => { w with bmpPages := w.bmpPages + 1 })
    (n - c.mem.win.bmpPages) pages
  have pages₁ : ∀ i, c₁.env.pageOk i = true := by
    obtain ⟨win, calls, rfl⟩ := same₁
    exact pages
  obtain ⟨c₂, ran₂, same₂⟩ := ideal_growWin (fun w => { w with markPages := w.markPages + 1 })
    (n - c.mem.win.markPages) pages₁
  have pages₂ : ∀ i, c₂.env.pageOk i = true := by
    obtain ⟨win, calls, rfl⟩ := same₂
    exact pages₁
  obtain ⟨c₃, ran₃, same₃⟩ := ideal_growWin (fun w => { w with seenPages := w.seenPages + 1 })
    (n - c.mem.win.seenPages) pages₂
  refine ⟨c₃, ?_, (same₁.trans same₂).trans same₃⟩
  rw [mfsWinEnsure, ideal_getMem_bind, ideal_bind, ran₁, after_ok, ideal_bind,
    ran₂, after_ok, ran₃]

/-! ## Adopting a superblock -/

theorem copy_cases (small : copy < MFS_SB_COPIES) : copy = 0 ∨ copy = 1 := by
  rw [MFS_SB_COPIES] at small
  omega

/-- The superblock that a copy offers: it has the version, fits the volume and points
to an index of the inode table. -/
def Core.offered (c : Core) (copy : Nat) : Option Super :=
  match c.store copy with
  | .super sb =>
    if sb.version == MFS_VERSION && sb.fits c.mem.curSectors then
      match c.store sb.itab with
      | .itabx _ => some sb
      | _ => none
    else none
  | _ => none

/-- The bitmap of the copy belongs to the superblock and has the right checksums. -/
def Core.BitmapFits (c : Core) (copy : Nat) (sb : Super) : Prop :=
  ∃ h, c.store (2 + copy) = .bmpHeader h ∧
    (h.gen = sb.gen ∧ h.total = sb.total ∧ h.dataBlocks = bbFor sb.total) ∧
      ∀ k < bbFor sb.total, (c.store (4 + copy * bbFor sb.total + k)).Checked (h.crc k)

/-- What the search for a superblock never changes. -/
structure SameDisk (c c' : Core) : Prop where
  env : c'.env = c.env
  store : c'.store = c.store
  curVol : c'.mem.curVol = c.mem.curVol
  curSectors : c'.mem.curSectors = c.mem.curSectors
  dirty : c'.mem.vol.dirty = c.mem.vol.dirty

/-- The state after superblock `sb` was adopted, up to the bitmap. -/
structure Adopted (sb : Super) (c c' : Core) : Prop extends SameDisk c c' where
  vol : ∃ slots bmp crc, c.store sb.itab = .itabx slots ∧ c'.mem.vol = { c.mem.vol.adopt sb with
    itabMem := slots
    snaps := fun i => if i < min sb.snapCount MFS_MAX_SNAP then sb.snaps i else c.mem.vol.snaps i
    bmp := bmp
    crc := crc }

theorem offered_eq_some (offer : c.offered copy = some sb) :
    c.store copy = .super sb ∧ sb.version = MFS_VERSION ∧ sb.fits c.mem.curSectors = true ∧
      ∃ slots, c.store sb.itab = .itabx slots := by
  rw [Core.offered] at offer
  split at offer
  next sb' content =>
    split at offer
    next good =>
      rw [Bool.and_eq_true, beq_iff_eq] at good
      split at offer
      next slots index =>
        cases offer
        exact ⟨content, good.1, good.2, slots, index⟩
      next => cases offer
    next => cases offer
  next => cases offer

theorem ideal_checkIndex {itab : Nat} {slots : Nat → Nat} (index : c.store itab = .itabx slots) :
    (checkIndex itab).ideal c = (.ok (), c) := by
  rw [checkIndex, ideal_mfsReadBlk_bind, index]
  rfl

/-- A superblock that is older than the one found, or not offered, changes nothing. -/
theorem ideal_adoptSuper_refused
    (content : c.store copy = .super sb) (refused : c.offered copy = none ∨ ch.skips sb.gen = true) :
    (adoptSuper copy ch sb).ideal c = (.error (), c) := by
  rw [adoptSuper, ideal_bind]
  cases accept : sb.version == MFS_VERSION && !ch.skips sb.gen with
  | false => rfl
  | true =>
    simp only [Bool.and_eq_true, Bool.not_eq_true'] at accept
    have offer : c.offered copy = none := refused.resolve_right (by simp [accept.2])
    rw [ensure_true, ideal_pure, after_ok, ideal_getMem_bind, ideal_bind]
    simp only [Core.offered, content, accept.1, Bool.true_and] at offer
    cases fits : sb.fits c.mem.curSectors with
    | false => rfl
    | true =>
      rw [ensure_true, ideal_pure, after_ok, ideal_bind, checkIndex, ideal_mfsReadBlk_bind]
      rw [fits, if_pos rfl] at offer
      cases index : c.store sb.itab with
      | itabx slots => simp [index] at offer
      | _ => rfl

/-- A copy without a usable superblock is passed over. -/
theorem ideal_tryCopy_refused (refused : ∀ sb, c.offered copy = some sb → ch.skips sb.gen = true) :
    (tryCopy copy ch).ideal c = (.ok ch, c) := by
  rw [tryCopy, ideal_bind, ideal_attempt, ideal_mfsReadBlk_bind]
  cases content : c.store copy with
  | super sb =>
    have refused' : c.offered copy = none ∨ ch.skips sb.gen = true := by
      cases offer : c.offered copy with
      | none => exact .inl rfl
      | some sb' =>
        obtain rfl : sb = sb' := Block.super.inj (content.symm.trans (offered_eq_some offer).1)
        exact .inr (refused sb offer)
    rw [ideal_adoptSuper_refused content refused']
    rfl
  | _ => rfl

theorem ideal_mfsItabReload {slots : Nat → Nat} (nonzero : c.mem.vol.itab ≠ 0)
    (index : c.store c.mem.vol.itab = .itabx slots) :
    mfsItabReload.ideal c = (.ok (), { c with mem :=
      ((c.mem.setCache didxInvalidateAll).setVol fun v => { v with itabMem := slots }).setCache fun h =>
        { h with itabIdx := none } }) := by
  have guard : (c.mem.vol.itab != 0) = true := by simpa using nonzero
  rw [mfsItabReload, ideal_setCache_bind, ideal_getMem_bind, ideal_bind]
  dsimp only [Mem.setCache]
  rw [guard, ensure_true, ideal_pure, after_ok, ideal_mfsReadBlk_bind]
  rw [index]
  rfl

section

variable (pages : ∀ i, c.env.pageOk i = true) (offer : c.offered copy = some sb) (newer : ch.skips sb.gen = false)
include pages offer newer

/-- Adopting a superblock sets the state up and then tries the bitmap of the copy. -/
theorem ideal_adoptSuper :
    ∃ c₁, Adopted sb c c₁ ∧ (adoptSuper copy ch sb).ideal c =
      Act.after (Act.caught ((mfsLoadBitmapCopy copy).ideal c₁)) fun loaded c' =>
        (.ok ⟨true, sb.gen, loaded.isSome⟩, c') := by
  obtain ⟨-, version, fits, slots, index⟩ := offered_eq_some offer
  have nonzero : sb.itab ≠ 0 := by
    simp only [Super.fits, Bool.and_eq_true, bne_iff_ne] at fits
    exact fits.1.1.2
  obtain ⟨c₁, windows, ⟨win, calls, rfl⟩⟩ := ideal_mfsWinEnsure (bbFor sb.total)
    (c := { c with mem := (c.mem.setVol fun v => v.adopt sb).setCache fun h => { h with itabIdx := none } })
    pages
  let m := { (c.mem.setVol fun v => v.adopt sb).setCache fun h => { h with itabIdx := none } with
    win := win
    pageCalls := calls }
  let m' := ((m.setCache didxInvalidateAll).setVol fun v => { v with itabMem := slots }).setCache fun h =>
    { h with itabIdx := none }
  refine ⟨{ c with mem := m'.setVol fun v =>
    { v with snaps := fun i => if i < v.snapCount then sb.snaps i else v.snaps i } }, ?_, ?_⟩
  · exact ⟨⟨rfl, rfl, rfl, rfl, rfl⟩, slots, _, _, index, rfl⟩
  · rw [adoptSuper, ideal_bind, version, newer, beq_self_eq_true, Bool.not_false, Bool.and_self,
      ensure_true, ideal_pure, after_ok, ideal_getMem_bind, ideal_bind, fits,
      ensure_true, ideal_pure, after_ok, ideal_bind, ideal_checkIndex index, after_ok, ideal_setVol_bind, ideal_setCache_bind, ideal_bind, windows,
      after_ok, ideal_bind, ideal_mfsItabReload nonzero index, after_ok, ideal_setVol_bind, ideal_bind, ideal_attempt]
    rfl

/-- A superblock that is offered and not older than the one found is adopted. -/
theorem ideal_tryCopy_adopts :
    ∃ c' loaded, (tryCopy copy ch).ideal c = (.ok ⟨true, sb.gen, loaded⟩, c') ∧ Adopted sb c c' ∧
      (c.BitmapFits copy sb → loaded = true ∧ ∀ b < bbFor sb.total * MFS_BMP_BLOCK_SPAN,
        c'.mem.vol.bmp b = storedBit c.store (4 + copy * bbFor sb.total) b) ∧
      (loaded = true → c.BitmapFits copy sb) := by
  obtain ⟨content, -⟩ := offered_eq_some offer
  obtain ⟨c₁, adopted, rest⟩ := ideal_adoptSuper pages offer newer
  obtain ⟨slots, bmp, crc, index, vol⟩ := adopted.vol
  have run : (tryCopy copy ch).ideal c =
      after (caught ((adoptSuper copy ch sb).ideal c)) fun adopted c' => (.ok (adopted.getD ch), c') := by
    rw [tryCopy, ideal_bind, ideal_attempt, ideal_mfsReadBlk_bind, content]
    rfl
  rw [run, rest]
  obtain ⟨bmp', crc', same⟩ := sameButBitmap_mfsLoadBitmapCopy copy c₁
  have after : Adopted sb c ((mfsLoadBitmapCopy copy).ideal c₁).2 := by
    rw [same]
    refine ⟨⟨adopted.env, adopted.store, adopted.curVol, adopted.curSectors, adopted.dirty⟩,
      slots, bmp', crc', index, ?_⟩
    simp [Mem.setVol, vol]
  have size : c₁.mem.vol.bmpDataBlocks = bbFor sb.total := by rw [vol]; rfl
  have start : c₁.mem.vol.copyStart copy = 4 + copy * bbFor sb.total := by rw [Vol.copyStart, size]
  have belongs : ∀ h : BmpHeader, h.Fits c₁.mem.vol ↔
      h.gen = sb.gen ∧ h.total = sb.total ∧ h.dataBlocks = bbFor sb.total := by
    intro h
    rw [BmpHeader.Fits, size, vol]
    rfl
  rcases ran : (mfsLoadBitmapCopy copy).ideal c₁ with ⟨e | u, c₂⟩
  · rw [ran] at after
    refine ⟨c₂, false, rfl, after, fun fits => ?_, nofun⟩
    obtain ⟨h, header, fit, chunks⟩ := fits
    obtain ⟨c', ran', -⟩ := @ideal_mfsLoadBitmapCopy copy c₁ h
      (adopted.store ▸ header) ((belongs h).mpr fit) (by rw [size, start, adopted.store]; exact chunks)
    rw [ran] at ran'
    cases congrArg Prod.fst ran'
  · rw [ran] at after
    obtain ⟨h, header, fit, chunks⟩ := header_of_mfsLoadBitmapCopy ran
    refine ⟨c₂, true, rfl, after, fun _ => ⟨rfl, ?_⟩, fun _ => ?_⟩
    · obtain ⟨c', ran', -, bits⟩ := ideal_mfsLoadBitmapCopy header fit chunks
      obtain rfl : c₂ = c' := congrArg Prod.snd (ran.symm.trans ran')
      rw [size, start, adopted.store] at bits
      exact bits
    · rw [size, start, adopted.store] at chunks
      exact ⟨h, adopted.store ▸ header, (belongs h).mp fit, chunks⟩

end

/-! ## Keeping the metadata allocated -/

/-- An index block and the table blocks it points to. -/
def tableBlocks (store : Nat → Block) (itab : Nat) : List Nat :=
  if itab = 0 then []
  else itab :: match store itab with
    | .itabx slots => ((List.range MFS_ITAB_SLOTS).map slots).filter (· != 0)
    | _ => []

/-- The blocks that `protectMeta` marks as used. -/
def Core.metaBlocks (c : Core) : List Nat :=
  List.range c.mem.vol.dataStart ++ c.mem.vol.roots.flatMap (tableBlocks c.store)

theorem Vol.bmpSetAll_cons (v : Vol) (b : Nat) (bs : List Nat) :
    v.bmpSetAll (b :: bs) = (v.bmpSet b).bmpSetAll bs := rfl

theorem Vol.bmpSetAll_append (v : Vol) (bs bs' : List Nat) :
    v.bmpSetAll (bs ++ bs') = (v.bmpSetAll bs).bmpSetAll bs' := foldl_append

theorem Vol.bmpSetAll_eq (v : Vol) (bs : List Nat) : ∃ bmp free dirty,
    v.bmpSetAll bs = { v with bmp := bmp, freeBlocks := free, dirty := dirty } := by
  induction bs generalizing v with
  | nil => exact ⟨_, _, _, rfl⟩
  | cons b bs ih =>
    obtain ⟨free, dirty, first⟩ := v.bmpSet_eq b
    obtain ⟨bmp', free', dirty', rest⟩ := ih (v.bmpSet b)
    refine ⟨bmp', free', dirty', ?_⟩
    rw [Vol.bmpSetAll_cons, rest, first]

theorem Vol.bmpSetAll_of_set {v : Vol} {bs : List Nat} (set : ∀ b ∈ bs, v.bmp b = true) :
    v.bmpSetAll bs = v := by
  induction bs with
  | nil => rfl
  | cons b bs ih =>
    have first : v.bmpSet b = v := by
      rw [Vol.bmpSet, set b mem_cons_self]
      simp
    rw [Vol.bmpSetAll_cons, first]
    exact ih fun b' member => set b' (mem_cons_of_mem _ member)

theorem ideal_mfsMarkItabMeta (itab : Nat) (c : Core) :
    (mfsMarkItabMeta itab).ideal c =
      (.ok (), { c with mem := c.mem.setVol fun v => v.bmpSetAll (tableBlocks c.store itab) }) := by
  rw [mfsMarkItabMeta, tableBlocks]
  split
  · rfl
  · rw [ideal_setVol_bind, ideal_bind, ideal_attempt, ideal_mfsReadBlk, caught_ok, after_ok]
    cases c.store itab with
    | itabx slots =>
      rw [ideal_setVol]
      simp [Mem.setVol, Vol.bmpSetAll_cons]
    | _ => rfl

theorem ideal_markRoots (itabs : List Nat) (c : Core) :
    (each itabs mfsMarkItabMeta).ideal c =
      (.ok (), { c with mem := c.mem.setVol fun v => v.bmpSetAll (itabs.flatMap (tableBlocks c.store)) }) := by
  induction itabs generalizing c with
  | nil => rfl
  | cons itab itabs ih =>
    rw [each, ideal_bind, ideal_mfsMarkItabMeta, after_ok, ih, flatMap_cons]
    simp [Mem.setVol, Vol.bmpSetAll_append]

theorem ideal_protectMeta (c : Core) :
    protectMeta.ideal c =
      (.ok (), { c with mem := c.mem.setVol fun v => v.bmpRecount.bmpSetAll c.metaBlocks }) := by
  rw [protectMeta, ideal_setVol_bind, ideal_setVol_bind, ideal_getMem_bind, ideal_markRoots]
  obtain ⟨bmp, free, dirty, eq⟩ := c.mem.vol.bmpRecount.bmpSetAll_eq (List.range c.mem.vol.dataStart)
  have roots : (c.mem.vol.bmpRecount.bmpSetAll (List.range c.mem.vol.dataStart)).roots = c.mem.vol.roots := by
    rw [eq]
    rfl
  have start : c.mem.vol.bmpRecount.dataStart = c.mem.vol.dataStart := rfl
  simp only [Mem.setVol, Core.metaBlocks, Vol.bmpSetAll_append, start, roots]

/-! ## Loading -/

/-- A copy has a usable superblock and bitmap, and no superblock on offer is newer. -/
def Core.CanLoad (c : Core) (copy : Nat) (sb : Super) : Prop :=
  c.offered copy = some sb ∧ c.BitmapFits copy sb ∧
    ∀ other < MFS_SB_COPIES, ∀ sb', c.offered other = some sb' → sb'.gen ≤ sb.gen

/-- The volume can be loaded from one of the copies. -/
def Core.Recoverable (c : Core) : Prop := ∃ copy < MFS_SB_COPIES, ∃ sb, c.CanLoad copy sb

theorem SameDisk.refl (c : Core) : SameDisk c c := ⟨rfl, rfl, rfl, rfl, rfl⟩

theorem SameDisk.bitmapFits (same : SameDisk c c') (fits : c.BitmapFits copy sb) : c'.BitmapFits copy sb := by
  rw [Core.BitmapFits, same.store]
  exact fits

theorem SameDisk.offered (same : SameDisk c c') (copy : Nat) : c'.offered copy = c.offered copy := by
  rw [Core.offered, Core.offered, same.store, same.curSectors]

/-- The bitmap in memory is the one of the copy. -/
def Core.HasBitmap (c : Core) (copy : Nat) : Prop :=
  ∀ b < c.mem.vol.bmpDataBlocks * MFS_BMP_BLOCK_SPAN,
    c.mem.vol.bmp b = storedBit c.store (c.mem.vol.copyStart copy) b

/-- The search for a superblock ends with a copy from which the volume can be loaded. -/
def Core.Finds (c : Core) (copy : Nat) (sb : Super) (c' : Core) : Prop :=
  c.CanLoad copy sb ∧ (∃ c₀, SameDisk c c₀ ∧ Adopted sb c₀ c') ∧ c'.HasBitmap copy

/-- Adopting a copy with a bitmap that fits takes over that bitmap. -/
theorem ideal_tryCopy_fits (pages : ∀ i, c.env.pageOk i = true) (offer : c.offered copy = some sb)
    (newer : ch.skips sb.gen = false) (fits : c.BitmapFits copy sb) :
    ∃ c', (tryCopy copy ch).ideal c = (.ok ⟨true, sb.gen, true⟩, c') ∧ Adopted sb c c' ∧ c'.HasBitmap copy := by
  obtain ⟨c', loaded, ran, adopted, taken, -⟩ := ideal_tryCopy_adopts pages offer newer
  obtain ⟨rfl, bits⟩ := taken fits
  refine ⟨c', ran, adopted, ?_⟩
  obtain ⟨slots, bmp, crc, -, vol⟩ := adopted.vol
  have size : c'.mem.vol.bmpDataBlocks = bbFor sb.total := by rw [vol]; rfl
  rw [Core.HasBitmap, Vol.copyStart, size, adopted.store]
  exact bits

theorem skips_start (gen : Nat) : Choice.skips ⟨false, 0, false⟩ gen = false := rfl

theorem skips_found {best gen : Nat} {loaded : Bool} :
    Choice.skips ⟨true, best, loaded⟩ gen = true ↔ gen < best ∨ gen = best ∧ loaded = true := by
  simp [Choice.skips]

section

variable (pages : ∀ i, c.env.pageOk i = true)
include pages

/-- The first copy offers nothing, so the second one is taken. -/
theorem search_second (none : c.offered 0 = none) (can : c.CanLoad 1 sb) :
    ∃ c', (tryCopy 0 ⟨false, 0, false⟩).ideal c = (.ok ⟨false, 0, false⟩, c) ∧
      (tryCopy 1 ⟨false, 0, false⟩).ideal c = (.ok ⟨true, sb.gen, true⟩, c') ∧ c.Finds 1 sb c' := by
  obtain ⟨c', ran, adopted, bits⟩ := ideal_tryCopy_fits pages can.1 (skips_start sb.gen) can.2.1
  refine ⟨c', ?_, ran, can, ⟨c, .refl c, adopted⟩, bits⟩
  apply ideal_tryCopy_refused
  intro sb' offer
  rw [none] at offer
  cases offer

/-- The search for a superblock when both copies may offer one. -/
theorem search_both {sb₀ : Super} (offer₀ : c.offered 0 = some sb₀) (can : c.Recoverable) :
    ∃ first c₁, ∃ copy < MFS_SB_COPIES, ∃ sb c', (tryCopy 0 ⟨false, 0, false⟩).ideal c = (.ok first, c₁) ∧
      (tryCopy 1 first).ideal c₁ = (.ok ⟨true, sb.gen, true⟩, c') ∧ c.Finds copy sb c' := by
  obtain ⟨c₁, loaded, ran₀, adopted, taken, fits₀⟩ := ideal_tryCopy_adopts pages offer₀
    (show Choice.skips ⟨false, 0, false⟩ sb₀.gen = false from rfl)
  have pages₁ : ∀ i, c₁.env.pageOk i = true := by
    rw [adopted.env]
    exact pages
  obtain ⟨copy, small, sb, can⟩ := can
  obtain ⟨sb₁, offer₁, newer⟩ | rest : (∃ sb₁, c.offered 1 = some sb₁ ∧
      Choice.skips ⟨true, sb₀.gen, loaded⟩ sb₁.gen = false) ∨
      ∀ sb₁, c.offered 1 = some sb₁ → Choice.skips ⟨true, sb₀.gen, loaded⟩ sb₁.gen = true := by
    by_contra neither
    push Not at neither
    obtain ⟨sb₁, offer₁, skipped⟩ := neither.2
    exact neither.1 sb₁ offer₁ (by simpa using skipped)
  · -- the second copy replaces the first one
    have order : ¬ (sb₁.gen < sb₀.gen ∨ sb₁.gen = sb₀.gen ∧ loaded = true) := by
      rw [← skips_found, newer]
      exact Bool.false_ne_true
    have fits₁ : c.BitmapFits 1 sb₁ := by
      obtain rfl | rfl := copy_cases small
      · obtain rfl : sb₀ = sb := some.inj (offer₀.symm.trans can.1)
        have older := can.2.2 1 (by decide) sb₁ offer₁
        exact absurd (Nat.lt_or_eq_of_le older |>.imp id fun same => ⟨same, (taken can.2.1).1⟩) order
      · obtain rfl : sb₁ = sb := some.inj (offer₁.symm.trans can.1)
        exact can.2.1
    obtain ⟨c', ran₁, adopted₁, bits⟩ := ideal_tryCopy_fits pages₁
      ((adopted.toSameDisk.offered 1).trans offer₁) newer (adopted.toSameDisk.bitmapFits fits₁)
    refine ⟨_, c₁, 1, by decide, sb₁, c', ran₀, ran₁, ⟨offer₁, fits₁, ?_⟩, ⟨c₁, adopted.toSameDisk, adopted₁⟩, bits⟩
    intro other small' sb' offer'
    obtain rfl | rfl := copy_cases small'
    · obtain rfl : sb₀ = sb' := some.inj (offer₀.symm.trans offer')
      omega
    · obtain rfl : sb₁ = sb' := some.inj (offer₁.symm.trans offer')
      exact le_rfl
  · -- the first copy stays
    have all : loaded = true := by
      obtain rfl | rfl := copy_cases small
      · obtain rfl : sb₀ = sb := some.inj (offer₀.symm.trans can.1)
        exact (taken can.2.1).1
      · have newest := can.2.2 0 (by decide) sb₀ offer₀
        rcases skips_found.mp (rest sb can.1) with older | ⟨-, loaded⟩
        · omega
        · exact loaded
    subst all
    obtain ⟨c', ran, adopted', bits⟩ := ideal_tryCopy_fits pages offer₀ (skips_start _) (fits₀ rfl)
    obtain rfl : c₁ = c' := congrArg Prod.snd (ran₀.symm.trans ran)
    refine ⟨_, c₁, 0, by decide, sb₀, c₁, ran₀, ?_, ⟨offer₀, fits₀ rfl, ?_⟩, ⟨c, .refl c, adopted⟩, bits⟩
    · apply ideal_tryCopy_refused
      intro sb₁ offer₁
      exact rest sb₁ ((adopted.toSameDisk.offered 1).symm.trans offer₁)
    · intro other small' sb' offer'
      obtain rfl | rfl := copy_cases small'
      · obtain rfl : sb₀ = sb' := some.inj (offer₀.symm.trans offer')
        exact le_rfl
      · rcases skips_found.mp (rest sb' offer') with older | ⟨same, -⟩
        · exact older.le
        · exact same.le

/-- A volume that is recoverable is loaded, with the state of such a copy. -/
theorem load_of_recoverable (can : c.Recoverable) :
    ∃ copy < MFS_SB_COPIES, ∃ sb c', c.Finds copy sb c' ∧ mfsLoadState.ideal c =
      (.ok (), { c' with mem := c'.mem.setVol fun v => v.bmpRecount.bmpSetAll c'.metaBlocks }) := by
  obtain ⟨first, c₁, copy, small, sb, c', ran₀, ran₁, finds⟩ : ∃ first c₁, ∃ copy < MFS_SB_COPIES, ∃ sb c',
      (tryCopy 0 ⟨false, 0, false⟩).ideal c = (.ok first, c₁) ∧
        (tryCopy 1 first).ideal c₁ = (.ok ⟨true, sb.gen, true⟩, c') ∧ c.Finds copy sb c' := by
    cases offer₀ : c.offered 0 with
    | none =>
      obtain ⟨copy, small, sb, can⟩ := can
      obtain rfl | rfl := copy_cases small
      · cases offer₀.symm.trans can.1
      · obtain ⟨c', ran₀, ran₁, finds⟩ := search_second pages offer₀ can
        exact ⟨_, c, 1, by decide, sb, c', ran₀, ran₁, finds⟩
    | some sb₀ => exact search_both pages offer₀ can
  refine ⟨copy, small, sb, c', finds, ?_⟩
  rw [mfsLoadState, ideal_bind, ideal_mfsCommitFlush, after_ok, ideal_bind, ran₀, after_ok,
    ideal_bind, ran₁, after_ok, ideal_bind, ensure_true, ideal_pure, after_ok]
  simp [ideal_protectMeta]

end

end MorionOS.Mfs
