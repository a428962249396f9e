import MorionOS.Blk.Service

/-!
# Which commands a request sends

For each handler of the block service, the queries it asks whatever the answers are.
`Query.Names` names an NVMe command by the sectors it is for; the pages of the buffer
are left open.
-/

namespace MorionOS.Blk

open Dialogue

variable {σ : Type} {P : Query σ → Prop} {mem : Memory σ}

/-- An NVMe command for `count` sectors from `lba` on. -/
def Query.Names (write : Bool) (nsid lba count : Nat) : Query σ → Prop
  | .nvme _ sqe _ => sqe.write = write ∧ sqe.nsid = nsid ∧ sqe.cdw10 = lba ∧ sqe.cdw12 + 1 = count
  | _ => False

/-- The buffer checks of `nvme_rw_sectors` pass for this many sectors. -/
def Memory.maps (mem : Memory σ) (buf count : Nat) : Bool :=
  mem.phys buf != 0 &&
    (prp2 mem buf (mem.phys buf)
      ((count * NVME_SECTOR_SIZE + (NVME_PAGE_SIZE - 1)) / NVME_PAGE_SIZE)).isSome

/-- `nvme_rw_sectors` refuses, or it sends one command. -/
theorem nvmeRwSectors_cases (mem : Memory σ) (queue : Nat) (write : Bool)
    (nsid lba count buf : Nat) :
    (¬(0 < count ∧ count ≤ NVME_MAX_SECTORS ∧ mem.maps buf count = true) ∧
        nvmeRwSectors mem queue write nsid lba count buf = pure .refused) ∨
      0 < count ∧ ∃ second, nvmeRwSectors mem queue write nsid lba count buf =
        .query (.nvme queue ⟨write, 5, nsid, mem.phys buf, second, lba, count - 1⟩
          (mem.buffer buf)) := by
  unfold nvmeRwSectors
  dsimp only
  split
  next sized => exact .inl ⟨by omega, rfl⟩
  next sized =>
    split
    next unmapped => exact .inl ⟨by simp [Memory.maps, unmapped], rfl⟩
    · split
      next unmapped => exact .inl ⟨by simp [Memory.maps, unmapped], rfl⟩
      next second mapped => exact .inr ⟨by omega, second, rfl⟩

theorem nvmeRwSectors_asks {queue nsid lba count buf : Nat} {write : Bool}
    (allowed : ∀ query : Query σ, query.Names write nsid lba count → P query) :
    (nvmeRwSectors mem queue write nsid lba count buf).Asks P := by
  rcases nvmeRwSectors_cases mem queue write nsid lba count buf with ⟨-, eq⟩ | ⟨some_, second, eq⟩
  · rw [eq]
    exact asks_pure _
  · rw [eq]
    exact asks_query (allowed _ ⟨rfl, rfl, rfl, by dsimp only; omega⟩)

/-- The sectors of a line: what `blk_cache_fill` reads for a page. -/
def lineSectors (vol : Volume) (page : Nat) : Nat :=
  min (vol.sectors - page * BLK_CACHE_SECTORS_PER_LINE) BLK_CACHE_SECTORS_PER_LINE

/-- Filling a line of the volume may ask only queries that satisfy `P`. -/
def FillsAllow (P : Query σ → Prop) (vol : Volume) : Prop :=
  ∀ page, page * BLK_CACHE_SECTORS_PER_LINE < vol.sectors → ∀ query : Query σ,
    query.Names false vol.nsid ((vol.startLba + page * BLK_CACHE_SECTORS_PER_LINE) % 2 ^ 32)
      (lineSectors vol page) → P query

section Cache

variable {queue volId : Nat} {vol : Volume}

section

variable (allowed : FillsAllow P vol)
include allowed

theorem blkCacheFill_asks (page : Nat) (cache : Cache σ) :
    (blkCacheFill mem queue volId vol page cache).Asks P := by
  unfold blkCacheFill
  dsimp only
  split
  · exact asks_pure _
  next inside =>
    refine (nvmeRwSectors_asks (allowed page (by omega))).bind fun answer => ?_
    split <;> exact asks_pure _

theorem cacheLine_asks (page : Nat) (cache : Cache σ) :
    (cacheLine mem queue volId vol page cache).Asks P := by
  unfold cacheLine
  split
  · exact asks_pure _
  · exact (blkCacheFill_asks allowed page cache).bind fun filled => asks_pure _

theorem cacheCopy_asks (turns cur left : Nat) (copied : List σ)
    (cache : Cache σ) : (cacheCopy mem queue volId vol turns cur left copied cache).Asks P := by
  induction turns generalizing cur left copied cache with
  | zero => exact asks_pure _
  | succ turns ih =>
    unfold cacheCopy
    split
    · exact asks_pure _
    · refine (cacheLine_asks allowed _ cache).bind fun line => ?_
      split
      · exact asks_pure _
      · split
        · exact asks_pure _
        · exact ih _ _ _ _

theorem cachePrefetch_asks (pages : List Nat) (cache : Cache σ) :
    (cachePrefetch mem queue volId vol pages cache).Asks P := by
  induction pages generalizing cache with
  | nil => exact asks_pure _
  | cons page pages ih =>
    unfold cachePrefetch
    split
    · exact ih cache
    · exact (blkCacheFill_asks allowed page cache).bind fun filled => ih filled.2

theorem blkCacheRead_asks (lba count : Nat) (cache : Cache σ) :
    (blkCacheRead mem queue volId vol lba count cache).Asks P := by
  refine (cacheCopy_asks allowed count lba count [] cache).bind fun copied => ?_
  split
  · exact asks_pure _
  · exact (cachePrefetch_asks allowed _ _).bind fun cache => asks_pure _

end

end Cache

/-- The commands of a direct transfer start where a segment starts. -/
def SegmentsAllow (P : Query σ → Prop) (vol : Volume) (write : Bool) (baseLba total : Nat) : Prop :=
  ∀ done < total, ∀ query : Query σ,
    query.Names write vol.nsid (saturatingAdd baseLba (done % 2 ^ 32))
      (min (total - done) NVME_MAX_SECTORS) → P query

theorem segments_asks {vol : Volume} {write : Bool} {baseLba total buf : Nat}
    (allowed : SegmentsAllow P vol write baseLba total) (turns done rr : Nat) :
    (segments mem vol write baseLba total buf turns done rr).Asks P := by
  induction turns generalizing done rr with
  | zero => exact asks_pure _
  | succ turns ih =>
    unfold segments
    split
    · exact asks_pure _
    next inside =>
      refine (nvmeRwSectors_asks (allowed done (by omega))).bind fun answer => ?_
      split
      · exact ih _ _
      · exact asks_pure _

theorem backendRw_asks {backend : Backend} {write : Bool} {lba count buf : Nat}
    (allowed : ∀ done < count, ∀ data,
      P (.driver backend write ((lba + done) % 2 ^ 64) (min (count - done) BACKEND_MAX_SECTORS) data))
    (turns done : Nat) : (backendRw mem backend write lba count buf turns done).Asks P := by
  induction turns generalizing done with
  | zero => exact asks_pure _
  | succ turns ih =>
    unfold backendRw
    split
    · exact asks_pure _
    next inside =>
      refine (asks_query (allowed done (by omega) _)).bind fun answer => ?_
      split
      · exact ih _
      · exact asks_pure _

theorem BatchEnt.accepted_pos {ent : BatchEnt} (accepted : ent.accepted mem = true) :
    0 < ent.sectors := by
  simp only [BatchEnt.accepted, Bool.and_eq_true, bne_iff_ne] at accepted
  exact Nat.pos_of_ne_zero accepted.1.1.1.1

/-- A batch is accepted whole or refused at its first descriptor. -/
def Request.Accepted (mem : Memory σ) : Request → Prop
  | .rw .. => True
  | .batch _ _ k desc => (desc 0).accepted mem = true → ∀ i < k, (desc i).accepted mem = true

end MorionOS.Blk
