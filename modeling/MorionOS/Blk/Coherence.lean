import Mathlib.Data.List.Forall2
import Mathlib.Data.Nat.Bitwise
import MorionOS.Blk.Disk

/-!
# The read cache agrees with the disk

A line is filled by the disk before its tag is set, and a write drops the lines under it
only when it succeeded.  So two failures leave a valid line that is not what the disk
holds: a write or a batch that fails after some of its sectors reached the disk, and a fill
that fails after it overwrote a line whose tag still names another page.

`Coherent` says that valid lines are copies.  It is kept by every request in the range of
its volume for which neither failure happens (`Careful`), on volumes that do not overlap,
and it is what a read through the cache needs to return what is on the disk
(`cached_reads_agree`).  The runs at the end show both failures.
-/

namespace MorionOS.Blk

open Dialogue List Triple CacheTag

variable {σ : Type}

/-! ## Volumes and ranges -/

/-- The volume is served by the NVMe branch. -/
def Volume.direct (vol : Volume) : Prop := ¬(vol.backend = .ahci ∨ vol.backend = .usb)

theorem Volume.direct_of_nvme {vol : Volume} (nvme : vol.backend = .nvme) : vol.direct := by
  rintro (ahci | usb)
  · rw [nvme] at ahci
    cases ahci
  · rw [nvme] at usb
    cases usb

/-- The sector of the namespace belongs to the volume; one of unknown size takes all from
its start on. -/
def Volume.Holds (vol : Volume) (nsid sector : Nat) : Prop :=
  nsid = vol.nsid ∧ vol.startLba ≤ sector ∧
    (vol.sectors = 0 ∨ sector < vol.startLba + vol.sectors)

/-- The range lies in the volume, and its sector numbers in 32 bits. -/
def Volume.Admits (vol : Volume) (lba count : Nat) : Prop :=
  vol.startLba + lba + count ≤ 2 ^ 32 ∧ (vol.sectors ≠ 0 → lba + count ≤ vol.sectors)

/-- The volumes lie on their disks and do not overlap. -/
structure Apart (volumes : List Volume) : Prop where
  fits : ∀ (i : Nat) vol, volumes[i]? = some vol → vol.startLba + vol.sectors ≤ 2 ^ 32
  apart : ∀ (i j : Nat) vol vol', volumes[i]? = some vol → volumes[j]? = some vol' →
    vol.direct → vol'.direct → i ≠ j → ∀ nsid sector, vol.Holds nsid sector →
      ¬vol'.Holds nsid sector

/-! ## Slots -/

/-- Pages of one volume that differ modulo 16 have different slots: the number of lines is
a multiple of 16. -/
theorem blkCacheSlot_ne {volId page other : Nat} (differ : page % 16 ≠ other % 16) :
    blkCacheSlot volId page ≠ blkCacheSlot volId other := by
  intro same
  have low (p : Nat) : blkCacheSlot volId p % 16 = (volId * 0x9E3779B1 % 2 ^ 64) % 16 ^^^ p % 16 := by
    unfold blkCacheSlot BLK_CACHE_LINES
    rw [Nat.mod_mod_of_dvd _ (by decide)]
    exact Nat.xor_mod_two_pow (n := 4)
  have equal := congrArg (· % 16) same
  simp only [low] at equal
  exact differ (Nat.xor_right_injective equal)

/-! ## The invariant -/

/-- The line in this slot is a copy of the sectors its tag names. -/
structure Copies (volumes : List Volume) (content : Nat → Nat → σ) (slot : Nat) (tag : CacheTag)
    (line : Nat → σ) (vol : Volume) : Prop where
  volume : volumes[tag.vol]? = some vol
  direct : vol.direct
  place : slot = blkCacheSlot tag.vol tag.page
  inside : tag.page * BLK_CACHE_SECTORS_PER_LINE < vol.sectors
  sectors : tag.sectors = lineSectors vol tag.page
  copied : ∀ i < lineSectors vol tag.page,
    line i = content vol.nsid (vol.startLba + tag.page * BLK_CACHE_SECTORS_PER_LINE + i)

/-- Every valid line is a copy. -/
def Coherent (volumes : List Volume) (cache : Cache σ) (content : Nat → Nat → σ) : Prop :=
  ∀ slot, (cache.tags slot).valid = true →
    ∃ vol, Copies volumes content slot (cache.tags slot) (cache.lines slot) vol

theorem CacheTag.hit_iff {tag : CacheTag} {volId page : Nat} :
    tag.hit volId page = true ↔ tag.valid = true ∧ tag.vol = volId ∧ tag.page = page := by
  simp [hit, and_assoc]

variable {content' : Nat → Nat → σ} {cache' : Cache σ}

/-- A cache that differs at one slot only stays coherent when that slot is. -/
theorem Coherent.update {volumes : List Volume} {cache : Cache σ} {content : Nat → Nat → σ} {slot : Nat}
    (coherent : Coherent volumes cache content)
    (tags : ∀ other, other ≠ slot → cache'.tags other = cache.tags other)
    (lines : ∀ other, other ≠ slot → cache'.lines other = cache.lines other)
    (here : (cache'.tags slot).valid = true →
      ∃ vol, Copies volumes content slot (cache'.tags slot) (cache'.lines slot) vol) :
    Coherent volumes cache' content := by
  intro other valid
  by_cases same : other = slot
  · subst same
    exact here valid
  · rw [tags other same] at valid ⊢
    rw [lines other same]
    exact coherent other valid

/-! ## Reads through the cache -/

section CacheRule

variable {S : Type} {env : S → Query σ → Answer σ → S → Prop} {mem : Memory σ} {queue volId : Nat}
  {vol : Volume} {pages : Nat → Prop} {I : Cache σ → S → Prop} {good : Nat → σ → Prop}

/-- The line has the whole page of the volume, each sector of it as `good` asks. -/
def WholeLine (vol : Volume) (good : Nat → σ → Prop) (page sectors : Nat) (line : Nat → σ) : Prop :=
  page * BLK_CACHE_SECTORS_PER_LINE < vol.sectors ∧ sectors = lineSectors vol page ∧
    ∀ i < sectors, good (page * BLK_CACHE_SECTORS_PER_LINE + i) (line i)

/-- What a read through the cache needs of an invariant of the cache and the disks: filling a
line for one of the `pages` keeps it, and under it a hit is a whole line. -/
structure CacheRule (env : S → Query σ → Answer σ → S → Prop) (mem : Memory σ) (queue volId : Nat)
    (vol : Volume) (pages : Nat → Prop) (I : Cache σ → S → Prop) (good : Nat → σ → Prop) :
    Prop where
  fill : ∀ {page : Nat} {cache : Cache σ}, pages page →
    (cache.tags (blkCacheSlot volId page)).hit volId page = false →
    Triple env (I cache) (blkCacheFill mem queue volId vol page cache) fun filled s =>
      I filled.2 s ∧
        (filled.1 = true → (filled.2.tags (blkCacheSlot volId page)).hit volId page = true)
  hit : ∀ {page : Nat} {cache : Cache σ} {s : S}, I cache s →
    (cache.tags (blkCacheSlot volId page)).hit volId page = true →
    WholeLine vol good page (cache.tags (blkCacheSlot volId page)).sectors
      (cache.lines (blkCacheSlot volId page))
  seq : ∀ {cache : Cache σ} {s : S} (seqVol : Option Nat) (seqNext : Nat), I cache s →
    I { cache with seqVol := seqVol, seqNext := seqNext } s

variable (rule : CacheRule env mem queue volId vol pages I good)

include rule

theorem CacheRule.cacheLine {page : Nat} (allowed : pages page) (cache : Cache σ) :
    Triple env (I cache) (cacheLine mem queue volId vol page cache) fun result s =>
      I result.2 s ∧ ∀ sectors, result.1 = some sectors →
        WholeLine vol good page sectors (result.2.lines (blkCacheSlot volId page)) := by
  rw [Blk.cacheLine, blkCacheProbe]
  cases hit : (cache.tags (blkCacheSlot volId page)).hit volId page with
  | true =>
    refine ret fun s before => ⟨before, ?_⟩
    rintro sectors ⟨⟩
    exact rule.hit before hit
  | false =>
    refine bind (rule.fill allowed hit) fun filled => ?_
    refine ret fun s after => ⟨after.1, ?_⟩
    intro sectors some_
    split at some_
    next ok =>
      cases some_
      exact rule.hit after.1 (after.2 ok)
    · cases some_

/-- The copying loop gets to its end only inside of the volume, with good sectors. -/
theorem CacheRule.cacheCopy (bounded : vol.sectors < 2 ^ 64) (turns cur left : Nat)
    (copied : List σ) (cache : Cache σ) (enough : left ≤ turns)
    (allowed : ∀ sector, cur ≤ sector → sector < cur + left →
      pages (sector / BLK_CACHE_SECTORS_PER_LINE)) :
    Triple env (I cache) (cacheCopy mem queue volId vol turns cur left copied cache) fun result s =>
      I result.2 s ∧ ∀ sectors, result.1 = some sectors →
        (left = 0 ∨ cur + left ≤ vol.sectors) ∧
        ∃ new, sectors = copied ++ new ∧ List.Forall₂ good (range' cur left) new := by
  have done (cur : Nat) (copied : List σ) (cache : Cache σ) :
      Triple env (I cache) (pure (some copied, cache)) fun result s =>
        I result.2 s ∧ ∀ sectors, result.1 = some sectors → (0 = 0 ∨ cur + 0 ≤ vol.sectors) ∧
          ∃ new, sectors = copied ++ new ∧ List.Forall₂ good (range' cur 0) new := by
    refine ret fun s before => ⟨before, ?_⟩
    rintro sectors ⟨⟩
    exact ⟨.inl rfl, [], (append_nil copied).symm, .nil⟩
  induction turns generalizing cur left copied cache with
  | zero =>
    obtain rfl : left = 0 := by omega
    exact done cur copied cache
  | succ turns ih =>
    rw [Blk.cacheCopy]
    split
    next none_ =>
      subst none_
      exact done cur copied cache
    · have page := Nat.div_add_mod cur BLK_CACHE_SECTORS_PER_LINE
      rw [Nat.mul_comm] at page
      refine bind (rule.cacheLine (allowed cur le_rfl (by omega)) cache) fun line => ?_
      split
      · exact ret fun s after => ⟨after.1, fun _ none_ => by cases none_⟩
      next sectors size =>
        split
        · exact ret fun s after => ⟨after.1, fun _ none_ => by cases none_⟩
        next long =>
          intro s result s' before run
          obtain ⟨inside, whole, line_⟩ := before.2 sectors size
          rw [lineSectors] at whole
          dsimp only at run
          generalize taken : min (sectors - cur % BLK_CACHE_SECTORS_PER_LINE) left = take at run
          have wrapped : (cur + take) % 2 ^ 64 = cur + take := Nat.mod_eq_of_lt (by omega)
          rw [wrapped] at run
          obtain ⟨kept, rest⟩ := ih (cur + take) (left - take) _ line.2 (by omega)
            (fun sector low high => allowed sector (by omega) (by omega)) s result s' before.1 run
          refine ⟨kept, fun all some_ => ?_⟩
          obtain ⟨reach, new, rfl, fine⟩ := rest all some_
          refine ⟨.inr (by omega), _, append_assoc _ _ _, ?_⟩
          rw [show left = take + (left - take) by omega, ← range'_append_1]
          refine rel_append ?_ fine
          rw [range'_eq_map_range, forall₂_map_left_iff, forall₂_map_right_iff]
          refine forall₂_same.mpr fun i below => ?_
          have here := line_ (cur % BLK_CACHE_SECTORS_PER_LINE + i)
            (by have := mem_range.mp below; omega)
          rwa [← Nat.add_assoc, page] at here

theorem CacheRule.cachePrefetch (list : List Nat) (cache : Cache σ)
    (allowed : ∀ page ∈ list, pages page) :
    Triple env (I cache) (cachePrefetch mem queue volId vol list cache) I := by
  induction list generalizing cache with
  | nil => exact ret fun s before => before
  | cons page list ih =>
    obtain ⟨here, later⟩ := forall_mem_cons.mp allowed
    rw [Blk.cachePrefetch, blkCacheProbe]
    cases hit : (cache.tags (blkCacheSlot volId page)).hit volId page with
    | true => exact ih cache later
    | false =>
      refine bind ((rule.fill here hit).weaken fun filled s after => after.1) fun filled => ?_
      exact ih filled.2 later

/-- A read that succeeds stays inside of the volume and copies good sectors. -/
theorem CacheRule.blkCacheRead (bounded : vol.sectors < 2 ^ 64) {lba count : Nat}
    (some_ : 0 < count) (cache : Cache σ) (allowed : ∀ sector, lba ≤ sector → sector < lba + count →
      pages (sector / BLK_CACHE_SECTORS_PER_LINE))
    (ahead : lba + count ≤ vol.sectors → ∀ k < BLK_CACHE_PREFETCH_LINES,
      pages ((lba + count - 1) / BLK_CACHE_SECTORS_PER_LINE + (k + 1))) :
    Triple env (I cache) (blkCacheRead mem queue volId vol lba count cache) fun result s =>
      I result.2 s ∧ ∀ sectors, result.1 = some sectors → lba + count ≤ vol.sectors ∧
        List.Forall₂ good (range' lba count) sectors := by
  refine bind (rule.cacheCopy bounded count lba count [] cache le_rfl allowed)
    fun copied => ?_
  split
  next failed =>
    refine ret fun s after => ⟨after.1, fun sectors some_ => ?_⟩
    rw [failed] at some_
    cases some_
  next sectors done =>
    intro s result s' before run
    obtain ⟨reach, new, rfl, fine⟩ := before.2 sectors done
    have inside := reach.resolve_left (by omega)
    obtain ⟨cache', mid, head, tail⟩ := runs_bind.mp run
    obtain ⟨rfl, rfl⟩ := tail
    have wrapped : (lba + count - 1) % 2 ^ 64 = lba + count - 1 := Nat.mod_eq_of_lt (by omega)
    rw [wrapped] at head
    have after := rule.cachePrefetch _ copied.2 (by
      intro page member
      obtain ⟨k, below, rfl⟩ := mem_map.mp member
      have near := mem_range.mp below
      exact ahead inside k (by split at near <;> omega)) s cache' _ before.1 head
    refine ⟨rule.seq _ _ after, ?_⟩
    rintro _ ⟨⟩
    exact ⟨inside, fine⟩

end CacheRule

/-! ## Reads of a coherent cache -/

/-- The commands succeed or leave the buffer alone. -/
def Outcome.quiet (outcome : Outcome) : Prop :=
  outcome.ok = true ∨ ∀ command i, outcome.reached command i = false

/-- The slots of these pages hold the page itself or nothing valid. -/
def Clear (cache : Cache σ) (volId first last : Nat) : Prop :=
  ∀ page, first ≤ page → page ≤ last →
    (cache.tags (blkCacheSlot volId page)).valid = true →
    (cache.tags (blkCacheSlot volId page)).hit volId page = true

/-- No fill of these pages can spoil a valid line: none fails half way, or there is no other
line in their slots. -/
def FillsSafe (outcomes : Nat → Outcome) (cache : Cache σ) (volId first last : Nat) : Prop :=
  (∀ j, (outcomes j).quiet) ∨ Clear cache volId first last

section Reads

variable {outcomes : Nat → Outcome} {volumes : List Volume} {mem : Memory σ} {queue volId : Nat}
  {vol : Volume} {content : Nat → Nat → σ} {first last : Nat}

/-- What a step of a cached read keeps. -/
structure Keeps (outcomes : Nat → Outcome) (volumes : List Volume) (content : Nat → Nat → σ)
    (volId first last : Nat) (cache : Cache σ) (disk : Disk σ) : Prop where
  same : disk.content = content
  coherent : Coherent volumes cache content
  safe : FillsSafe outcomes cache volId first last

variable {page : Nat} {cache : Cache σ}

/-- A successful fill makes the slot hold the page, and no other slot of a near page. -/
theorem FillsSafe.filled (safe : FillsSafe outcomes cache volId first last) (near : last < first + 16)
    (low : first ≤ page) (high : page ≤ last)
    (tags : ∀ other, other ≠ blkCacheSlot volId page → cache'.tags other = cache.tags other)
    (here : (cache'.tags (blkCacheSlot volId page)).hit volId page = true) :
    FillsSafe outcomes cache' volId first last := by
  refine safe.imp_right fun clear other low' high' valid => ?_
  by_cases same : other = page
  · subst same
    exact here
  · have apart := @blkCacheSlot_ne volId other page (by omega)
    rw [tags _ apart] at valid ⊢
    exact clear other low' high' valid

theorem blkCacheFill_keeps (found : volumes[volId]? = some vol) (direct : vol.direct)
    (fits : vol.startLba + vol.sectors ≤ 2 ^ 32) (near : last < first + 16) (low : first ≤ page)
    (high : page ≤ last) (miss : (cache.tags (blkCacheSlot volId page)).hit volId page = false) :
    Triple (diskEnv outcomes) (Keeps outcomes volumes content volId first last cache)
      (blkCacheFill mem queue volId vol page cache)
      (fun result disk => Keeps outcomes volumes content volId first last result.2 disk ∧
        (result.1 = true →
          (result.2.tags (blkCacheSlot volId page)).hit volId page = true)) := by
  unfold blkCacheFill
  dsimp only
  split
  · refine ret fun disk before => ⟨before, ?_⟩
    intro filled
    cases filled
  next inside =>
    have inside' : page * BLK_CACHE_SECTORS_PER_LINE < vol.sectors := by omega
    have whole : (vol.startLba + page * BLK_CACHE_SECTORS_PER_LINE) % 2 ^ 32 =
        vol.startLba + page * BLK_CACHE_SECTORS_PER_LINE := Nat.mod_eq_of_lt (by omega)
    rw [whole]
    intro disk result disk' before run
    obtain ⟨answer, mid, head, tail⟩ := runs_bind.mp run
    obtain ⟨same, moved⟩ := nvmeRwSectors_read disk answer mid ⟨before.same, rfl⟩ head
    -- a fill that left the buffer alone leaves the line as it was
    have untouched (nothing : ∀ i, answer.got i = none) : Function.update cache.lines
        (blkCacheSlot volId page)
        (fun i => (answer.got i).getD (cache.lines (blkCacheSlot volId page) i)) = cache.lines := by
      have line : (fun i => (answer.got i).getD (cache.lines (blkCacheSlot volId page) i)) =
          cache.lines (blkCacheSlot volId page) := by
        funext i
        rw [nothing i]
        rfl
      rw [line, Function.update_eq_self]
    split at tail
    next ok =>
      obtain ⟨rfl, rfl⟩ := tail
      rcases moved with rfl | ⟨status, got⟩
      · cases ok
      have hit : (Function.update cache.tags (blkCacheSlot volId page)
          ⟨true, volId, page, lineSectors vol page⟩ (blkCacheSlot volId page)).hit volId page =
            true := by
        rw [Function.update_self, hit_iff]
        exact ⟨rfl, rfl, rfl⟩
      refine ⟨⟨same, ?_, ?_⟩, fun _ => hit⟩
      · refine before.coherent.update (fun other elsewhere => Function.update_of_ne elsewhere _ _)
          (fun other elsewhere => Function.update_of_ne elsewhere _ _) fun _ => ⟨vol, ?_⟩
        dsimp only
        rw [Function.update_self, Function.update_self]
        refine ⟨found, direct, rfl, inside', rfl, ?_⟩
        intro i below
        rw [got i, if_pos ⟨below, by simp [Outcome.moves, ← status, ok]⟩]
        rfl
      · exact before.safe.filled near low high
          (fun other elsewhere => Function.update_of_ne elsewhere _ _) hit
    next failed =>
      obtain ⟨rfl, rfl⟩ := tail
      refine ⟨⟨same, ?_, before.safe⟩, fun filled => by cases filled⟩
      rcases moved with rfl | ⟨status, got⟩
      · rw [untouched fun _ => rfl]
        exact before.coherent
      rcases before.safe with quiet | clear
      · rw [untouched]
        · exact before.coherent
        intro i
        have still := (quiet disk.asked).resolve_left (by rw [← status]; exact failed)
        rw [got i, if_neg]
        simp [Outcome.moves, ← status, failed, still]
      · refine before.coherent.update (fun _ _ => rfl)
          (fun other elsewhere => Function.update_of_ne elsewhere _ _) fun valid => ?_
        rw [clear page low high valid] at miss
        cases miss

theorem Coherent.hit (coherent : Coherent volumes cache content) (found : volumes[volId]? = some vol)
    (hit : (cache.tags (blkCacheSlot volId page)).hit volId page = true) :
    WholeLine vol (fun n sector => content vol.nsid (vol.startLba + n) = sector) page
      (cache.tags (blkCacheSlot volId page)).sectors (cache.lines (blkCacheSlot volId page)) := by
  obtain ⟨valid, volEq, pageEq⟩ := hit_iff.mp hit
  obtain ⟨vol', copies⟩ := coherent _ valid
  have volume := copies.volume
  rw [volEq, found] at volume
  cases volume
  have inside := copies.inside
  have sectors := copies.sectors
  have copied := copies.copied
  rw [pageEq] at inside sectors copied
  refine ⟨inside, sectors, fun i below => ?_⟩
  rw [copied i (sectors ▸ below), Nat.add_assoc]

theorem keepsRule (found : volumes[volId]? = some vol) (direct : vol.direct)
    (fits : vol.startLba + vol.sectors ≤ 2 ^ 32) (near : last < first + 16) :
    CacheRule (diskEnv outcomes) mem queue volId vol (fun page => first ≤ page ∧ page ≤ last)
      (Keeps outcomes volumes content volId first last)
      fun n sector => content vol.nsid (vol.startLba + n) = sector where
  fill := fun between miss => blkCacheFill_keeps found direct fits near between.1 between.2 miss
  hit := fun keeps hit => keeps.coherent.hit found hit
  seq := fun _ _ keeps => ⟨keeps.same, keeps.coherent, keeps.safe⟩

/-- The sectors of a range of the volume, as they are on the disk. -/
def onDisk (content : Nat → Nat → σ) (vol : Volume) (lba count : Nat) : List σ :=
  (range count).map fun i => content vol.nsid (vol.startLba + lba + i)

/-- The pages a cached read can fill: those it reads and the two it reads ahead. -/
def lastPage (lba count : Nat) : Nat :=
  (lba + count - 1) / BLK_CACHE_SECTORS_PER_LINE + BLK_CACHE_PREFETCH_LINES

theorem blkCacheRead_keeps (found : volumes[volId]? = some vol) (direct : vol.direct)
    (fits : vol.startLba + vol.sectors ≤ 2 ^ 32) {lba count : Nat} (some_ : 0 < count)
    (few : count ≤ BLK_CACHE_SECTORS_PER_LINE) (cache : Cache σ) :
    Triple (diskEnv outcomes)
      (Keeps outcomes volumes content volId (lba / BLK_CACHE_SECTORS_PER_LINE) (lastPage lba count)
        cache)
      (blkCacheRead mem queue volId vol lba count cache)
      (fun result disk => disk.content = content ∧ Coherent volumes result.2 content ∧
        ∀ sectors, result.1 = some sectors → sectors = onDisk content vol lba count) := by
  have near : lastPage lba count < lba / BLK_CACHE_SECTORS_PER_LINE + 16 := by
    unfold lastPage BLK_CACHE_SECTORS_PER_LINE BLK_CACHE_PREFETCH_LINES at *
    omega
  have pages (sector : Nat) (low : lba ≤ sector) (high : sector < lba + count) :
      lba / BLK_CACHE_SECTORS_PER_LINE ≤ sector / BLK_CACHE_SECTORS_PER_LINE ∧
        sector / BLK_CACHE_SECTORS_PER_LINE ≤ lastPage lba count := by
    unfold lastPage BLK_CACHE_SECTORS_PER_LINE
    omega
  refine ((keepsRule found direct fits near).blkCacheRead (by omega) some_ cache pages
    (fun _ k below => ?_)).weaken fun result disk after => ⟨after.1.same, after.1.coherent, ?_⟩
  · unfold lastPage BLK_CACHE_SECTORS_PER_LINE
    omega
  · intro sectors done
    obtain ⟨-, copied⟩ := after.2 sectors done
    rw [range'_eq_map_range, forall₂_map_left_iff, ← forall₂_map_left_iff,
      forall₂_eq_eq_eq] at copied
    rw [← copied, onDisk]
    simp [Nat.add_assoc]

end Reads

/-! ## Writes -/

/-- The page with this sector of the volume is in the cache. -/
def Cache.has (cache : Cache σ) (dev lba : Nat) : Bool :=
  (cache.tags (blkCacheSlot dev (lba / BLK_CACHE_SECTORS_PER_LINE))).hit dev
    (lba / BLK_CACHE_SECTORS_PER_LINE)

/-- The lines still valid are lines of before, and none of these pages of the volume. -/
structure Dropped (volId : Nat) (pages : Nat → Prop) (cache cache' : Cache σ) : Prop where
  lines : cache'.lines = cache.lines
  tags : ∀ slot, (cache'.tags slot).valid = true → cache'.tags slot = cache.tags slot
  gone : ∀ slot page, (cache'.tags slot).valid = true → pages page →
    slot = blkCacheSlot volId page → (cache.tags slot).hit volId page = false

section Writes

variable {volumes : List Volume} {volId dev : Nat} {vol : Volume} {content : Nat → Nat → σ}
  {cache cache' : Cache σ} {pages : Nat → Prop}

theorem Dropped.trans {pages' : Nat → Prop} {mid : Cache σ} (head : Dropped volId pages cache mid)
    (tail : Dropped volId pages' mid cache') :
    Dropped volId (fun page => pages page ∨ pages' page) cache cache' := by
  refine ⟨tail.lines.trans head.lines, ?_, ?_⟩
  · intro slot valid
    have same := tail.tags slot valid
    exact same.trans (head.tags slot (same ▸ valid))
  · intro slot page valid either place
    have same := tail.tags slot valid
    have valid' : (mid.tags slot).valid = true := same ▸ valid
    rcases either with first | second
    · exact head.gone slot page valid' first place
    · exact head.tags slot valid' ▸ tail.gone slot page valid second place

theorem Dropped.weaken {pages' : Nat → Prop} (dropped : Dropped volId pages cache cache')
    (fewer : ∀ page, pages' page → pages page) : Dropped volId pages' cache cache' :=
  ⟨dropped.lines, dropped.tags, fun slot page valid inside =>
    dropped.gone slot page valid (fewer page inside)⟩

theorem Cache.drop_dropped (cache : Cache σ) (volId page : Nat) :
    Dropped volId (· = page) cache (cache.drop volId page) := by
  unfold Cache.drop
  dsimp only
  split
  · refine ⟨rfl, ?_, ?_⟩
    · intro slot valid
      by_cases here : slot = blkCacheSlot volId page
      · subst here
        dsimp only at valid
        rw [Function.update_self] at valid
        cases valid
      · exact Function.update_of_ne here _ _
    · rintro slot _ valid rfl rfl
      dsimp only at valid
      rw [Function.update_self] at valid
      cases valid
  next miss =>
    refine ⟨rfl, fun slot valid => rfl, ?_⟩
    rintro slot _ valid rfl rfl
    exact Bool.eq_false_iff.mpr miss

theorem foldl_drop_dropped (volId : Nat) (pages : List Nat) (cache : Cache σ) :
    Dropped volId (· ∈ pages) cache
      (pages.foldl (fun cache page => cache.drop volId page) cache) := by
  induction pages generalizing cache with
  | nil => exact ⟨rfl, fun _ _ => rfl, fun _ _ _ member => by cases member⟩
  | cons page pages ih =>
    exact ((cache.drop_dropped volId page).trans (ih _)).weaken fun _ member =>
      mem_cons.mp member

theorem blkCacheInvalidate_dropped (cache : Cache σ) {lba count : Nat}
    (small : lba + count ≤ 2 ^ 32) :
    Dropped volId (fun page => ∃ k < count, page = (lba + k) / BLK_CACHE_SECTORS_PER_LINE) cache
      (blkCacheInvalidate cache volId lba count) := by
  unfold blkCacheInvalidate
  split
  next none_ =>
    subst none_
    refine ⟨rfl, fun _ _ => rfl, ?_⟩
    rintro _ _ _ ⟨k, below, -⟩
    cases below
  · have wrapped : (lba + count - 1) % 2 ^ 64 = lba + count - 1 := Nat.mod_eq_of_lt (by omega)
    refine (foldl_drop_dropped volId _ cache).weaken ?_
    rintro _ ⟨k, below, rfl⟩
    rw [mem_range'_1]
    unfold BLK_CACHE_SECTORS_PER_LINE
    omega

theorem foldl_invalidate_dropped (volId : Nat) (ents : List BatchEnt) (cache : Cache σ)
    (small : ∀ ent ∈ ents, ent.lba + ent.sectors ≤ 2 ^ 32) :
    Dropped volId (fun page => ∃ ent ∈ ents, ∃ k < ent.sectors,
        page = (ent.lba + k) / BLK_CACHE_SECTORS_PER_LINE) cache
      (ents.foldl (fun cache ent => blkCacheInvalidate cache volId ent.lba ent.sectors) cache) := by
  induction ents generalizing cache with
  | nil =>
    refine ⟨rfl, fun _ _ => rfl, ?_⟩
    rintro _ _ _ ⟨ent, member, -⟩
    cases member
  | cons ent ents ih =>
    have head := @blkCacheInvalidate_dropped σ volId cache _ _ (small ent mem_cons_self)
    refine (head.trans (ih _ fun other member => small other (mem_cons_of_mem _ member))).weaken ?_
    rintro page ⟨other, member, inside⟩
    rcases mem_cons.mp member with rfl | later
    · exact .inl inside
    · exact .inr ⟨other, later, inside⟩

theorem Coherent.dropped (coherent : Coherent volumes cache content)
    (dropped : Dropped volId pages cache cache') : Coherent volumes cache' content := by
  intro slot valid
  have same := dropped.tags slot valid
  rw [same] at valid ⊢
  rw [dropped.lines]
  exact coherent slot valid

/-- The disk changed at these sectors of the volume only. -/
def Touched (vol : Volume) (touched : Nat → Prop) (content content' : Nat → Nat → σ) : Prop :=
  ∀ ns sector, content' ns sector ≠ content ns sector → ns = vol.nsid ∧
    ∃ k, touched k ∧ sector = vol.startLba + k ∧ (vol.sectors ≠ 0 → k < vol.sectors)

/-- The cache stays coherent when the sectors touched are in none of its valid lines. -/
theorem Coherent.touched (apart : Apart volumes) (found : volumes[dev]? = some vol)
    (direct : vol.direct) {touched : Nat → Prop} (coherent : Coherent volumes cache content)
    (changed : Touched vol touched content content')
    (uncached : ∀ slot k, (cache.tags slot).hit dev (k / BLK_CACHE_SECTORS_PER_LINE) = true →
      slot = blkCacheSlot dev (k / BLK_CACHE_SECTORS_PER_LINE) → ¬touched k) :
    Coherent volumes cache content' := by
  intro slot valid
  obtain ⟨vol', copies⟩ := coherent slot valid
  refine ⟨vol', { copies with copied := fun i below => (copies.copied i below).trans ?_ }⟩
  by_contra differs
  obtain ⟨same, k, hit, sector, inside⟩ := changed _ _ (Ne.symm differs)
  have short : i < BLK_CACHE_SECTORS_PER_LINE ∧
      (cache.tags slot).page * BLK_CACHE_SECTORS_PER_LINE + i < vol'.sectors := by
    unfold lineSectors at below
    omega
  have other : vol'.Holds vol'.nsid (vol.startLba + k) := ⟨rfl, by omega, .inr (by omega)⟩
  have mine : vol.Holds vol'.nsid (vol.startLba + k) := by
    refine ⟨same, by omega, ?_⟩
    rcases Nat.eq_zero_or_pos vol.sectors with unknown | known
    · exact .inl unknown
    · exact .inr (by have := inside (by omega); omega)
  by_cases here : (cache.tags slot).vol = dev
  · have volume := copies.volume
    rw [here, found] at volume
    cases volume
    have page : k / BLK_CACHE_SECTORS_PER_LINE = (cache.tags slot).page := by
      unfold BLK_CACHE_SECTORS_PER_LINE at *
      omega
    refine uncached slot k (hit_iff.mpr ⟨valid, here, page.symm⟩) ?_ hit
    rw [page, ← here]
    exact copies.place
  · exact apart.apart _ _ vol' vol copies.volume found copies.direct direct here _ _ other mine

/-- A write whose lines were dropped, or that touched nothing in the cache. -/
theorem Coherent.written (apart : Apart volumes) (found : volumes[dev]? = some vol)
    (direct : vol.direct) {touched : Nat → Prop} (coherent : Coherent volumes cache content)
    (changed : Touched vol touched content content')
    (kept : (∃ pages, Dropped dev pages cache cache' ∧
        ∀ k, touched k → pages (k / BLK_CACHE_SECTORS_PER_LINE)) ∨
      cache' = cache ∧ ∀ k, touched k → cache.has dev k = false) : Coherent volumes cache' content' := by
  rcases kept with ⟨pages, dropped, covered⟩ | ⟨rfl, uncached⟩
  · refine (coherent.dropped dropped).touched apart found direct changed ?_
    intro slot k hit place touches
    have valid := (hit_iff.mp hit).1
    have gone := dropped.gone slot _ valid (covered k touches) place
    rw [← dropped.tags slot valid, hit] at gone
    cases gone
  · refine coherent.touched apart found direct changed ?_
    intro slot k hit place touches
    have gone := uncached k touches
    rw [Cache.has, ← place, hit] at gone
    cases gone

end Writes

/-! ## Requests -/

/-- The request stays in the range of its volume. -/
def Request.InRange (volumes : List Volume) : Request → Prop
  | .rw dev _ lba count _ => ∀ vol, volumes[dev]? = some vol → vol.Admits lba count
  | .batch dev _ k desc => ∀ vol, volumes[dev]? = some vol →
      ∀ i < k, vol.Admits (desc i).lba (desc i).sectors

/-- Nothing goes wrong half way where the cache has something to lose: a write or batch
either succeeds or moves no sector that is in the cache, and a small read has safe fills.
No batch stops after a command was placed, which a later request would start. -/
def Careful (mem : Memory σ) (outcomes : Nat → Outcome) (service : Service σ) : Request → Prop
  | .rw dev true lba count _ => count ≤ BLK_CACHE_SECTORS_PER_LINE →
      FillsSafe outcomes service.cache dev (lba / BLK_CACHE_SECTORS_PER_LINE) (lastPage lba count)
  | .rw dev false lba count buf => Succeeds mem outcomes buf count ∨
      ∀ k < count, movedBy outcomes k = true → service.cache.has dev (lba + k) = false
  | .batch dev isRead k desc => (Request.batch dev isRead k desc).Accepted mem ∧ (isRead = false →
      ((∀ i < k, (desc i).accepted mem = true) ∧ (outcomes 0).ok = true) ∨
        ∀ i < k, ∀ j < (desc i).sectors, (outcomes 0).moves i j = true →
          service.cache.has dev ((desc i).lba + j) = false)

section Requests

variable {outcomes : Nat → Outcome} {mem : Memory σ} {service : Service σ}
  {content : Nat → Nat → σ} {dev : Nat} {vol : Volume}

/-- What a request keeps. -/
structure Kept (volumes : List Volume) (service : Service σ) (content : Nat → Nat → σ) :
    Prop where
  table : service.volumes = volumes
  coherent : Coherent volumes service.cache content

/-- The query writes nothing to an NVMe disk. -/
def Query.Reads : Query σ → Prop
  | .nvme _ sqe _ => sqe.write = false
  | .batch sqes _ => ∀ entry ∈ sqes, entry.1.write = false
  | .driver .. | .ide .. => True

theorem Query.Names.reads {query : Query σ} {nsid lba count : Nat}
    (names : query.Names false nsid lba count) : query.Reads := by
  cases query with
  | nvme queue sqe data => exact names.1
  | _ => exact names.elim

theorem appliedAll_reads (outcome : Outcome) (first : Nat) (sqes : List (Sqe × (Nat → σ)))
    (reads : ∀ entry ∈ sqes, entry.1.write = false) : appliedAll outcome first sqes content = content := by
  induction sqes generalizing first with
  | nil => rfl
  | cons entry rest ih =>
    unfold appliedAll
    rw [reads entry mem_cons_self, if_neg Bool.false_ne_true]
    exact ih (first + 1) fun other member => reads other (mem_cons_of_mem _ member)

theorem reads_keep {α : Type} {program : Program σ α} (reads : program.Asks Query.Reads) :
    Triple (diskEnv outcomes) (fun disk => disk.content = content) program
      (fun _ disk => disk.content = content) := by
  refine reads.keeps ?_
  rintro query reads disk answer _ rfl ⟨-, rfl⟩
  cases query with
  | nvme queue sqe data =>
    have read : sqe.write = false := reads
    simp [Disk.respond, read]
  | batch sqes whole =>
    simp only [Disk.respond]
    split
    · exact appliedAll_reads _ 0 sqes reads
    · rfl
  | driver | ide => rfl

section

variable (apart : Apart service.volumes) (found : service.volumes[dev]? = some vol)
include apart found

theorem nvmeRw_write_kept
    (direct : vol.direct) {lba count buf : Nat} (admits : vol.Admits lba count)
    (careful : Careful mem outcomes service (.rw dev false lba count buf))
    (coherent : Coherent service.volumes service.cache content) :
    Triple (diskEnv outcomes) (fun disk => disk.content = content ∧ disk.asked = 0)
      (nvmeRw mem service dev vol false lba count buf)
      (fun result disk => Kept service.volumes result.2 disk.content) := by
  unfold nvmeRw
  split
  · exact ret fun disk before => ⟨rfl, before.1 ▸ coherent⟩
  · split
    next reads => cases reads.1
    next some_ _ =>
      have short := admits.1
      have start : saturatingAdd vol.startLba (lba % 2 ^ 32) = vol.startLba + lba := by
        rw [Nat.mod_eq_of_lt (by omega), saturatingAdd_eq (by omega)]
      rw [start]
      refine bind (R := fun result disk =>
        Changed vol.nsid (vol.startLba + lba) count (movedBy outcomes) content disk.content ∧
          (Succeeds mem outcomes buf count → result.1 = true)) ?_ fun done => ?_
      · intro disk result disk' before run
        refine segments_write short count 0 0 service.rr (fun _ => by simp)
          (fun i below => by cases below) disk result disk' ⟨fun _ => before.2, ?_⟩ run
        intro ns sector differs
        rw [before.1] at differs
        exact absurd rfl differs
      · refine ret fun disk after => ⟨rfl, ?_⟩
        obtain ⟨changed, succeeds⟩ := after
        have touched : Touched vol (fun k => ∃ i < count, movedBy outcomes i = true ∧ k = lba + i)
            content disk.content := by
          intro ns sector differs
          obtain ⟨same, low, high, moved⟩ := changed ns sector differs
          refine ⟨same, sector - vol.startLba, ⟨_, by omega, moved, by omega⟩, by omega, ?_⟩
          intro known
          have := admits.2 known
          omega
        refine coherent.written apart found direct touched ?_
        cases status : done.1 with
        | true =>
          left
          refine ⟨_, blkCacheInvalidate_dropped service.cache (by omega), ?_⟩
          rintro _ ⟨i, below, -, rfl⟩
          exact ⟨i, below, rfl⟩
        | false =>
          right
          refine ⟨rfl, ?_⟩
          rintro _ ⟨i, below, moved, rfl⟩
          rcases careful with good | uncached
          · rw [succeeds good] at status
            cases status
          · exact uncached i below moved

theorem nvmeBatch_write_kept {k : Nat} {desc : Nat → BatchEnt}
    (admits : ∀ i < k, vol.Admits (desc i).lba (desc i).sectors)
    (careful : Careful mem outcomes service (.batch dev false k desc))
    (coherent : Coherent service.volumes service.cache content) :
    Triple (diskEnv outcomes) (fun disk => disk.content = content ∧ disk.asked = 0)
      (nvmeBatch mem service dev vol false k desc)
      (fun result disk => Kept service.volumes result.2 disk.content) := by
  unfold nvmeBatch
  split
  · exact ret fun disk before => ⟨rfl, before.1 ▸ coherent⟩
  next nvme =>
    have direct : vol.direct := Volume.direct_of_nvme (not_not.mp nvme)
    split
    · exact ret fun disk before => ⟨rfl, before.1 ▸ coherent⟩
    · have ranges : ∀ ent ∈ (range k).map desc, vol.Admits ent.lba ent.sectors := by
        intro ent member
        obtain ⟨i, inside, rfl⟩ := mem_map.mp member
        exact admits i (mem_range.mp inside)
      refine bind (nvmeBatchRw_write fun ent member => (ranges ent member).1) fun answer => ?_
      refine ret fun disk after => ⟨rfl, ?_⟩
      obtain ⟨changed, status⟩ := after
      have touched : Touched vol (fun sector => ∃ i < k, ∃ j < (desc i).sectors,
          (outcomes 0).moves i j = true ∧ sector = (desc i).lba + j) content disk.content := by
        intro ns sector differs
        obtain ⟨same, i, ent, here, low, high, moved⟩ := changed ns sector differs
        rw [getElem?_map, Option.map_eq_some_iff] at here
        obtain ⟨_, inside, rfl⟩ := here
        obtain ⟨below, index⟩ := List.getElem?_eq_some_iff.mp inside
        rw [getElem_range] at index
        subst index
        rw [length_range] at below
        refine ⟨same, sector - vol.startLba, ⟨i, below, _, by omega, moved, by omega⟩, by omega, ?_⟩
        intro known
        have := (admits i below).2 known
        omega
      refine coherent.written apart found direct touched ?_
      cases ok : answer.ok with
      | true =>
        left
        refine ⟨_, foldl_invalidate_dropped dev _ service.cache fun ent member => ?_, ?_⟩
        · have := (ranges ent member).1
          omega
        · rintro _ ⟨i, below, j, inside, -, rfl⟩
          exact ⟨desc i, mem_map_of_mem (mem_range.mpr below), j, inside, rfl⟩
      | false =>
        right
        refine ⟨rfl, ?_⟩
        rintro _ ⟨i, below, j, inside, moved, rfl⟩
        rcases careful.2 rfl with ⟨accepted, good⟩ | uncached
        · rw [status fun ent member => ?_, good] at ok
          · cases ok
          · obtain ⟨i, inside, rfl⟩ := mem_map.mp member
            exact accepted i (mem_range.mp inside)
        · exact uncached i below j inside moved

end

theorem nvmeBatchRw_reads (ents : List BatchEnt) :
    (nvmeBatchRw mem vol false ents).Asks Query.Reads := by
  refine (asks_query ?_).bind fun answer => asks_pure _
  intro entry member
  obtain ⟨i, ent, -, rfl⟩ := mem_mapIdx.mp member
  rfl

theorem nvmeBatch_read_kept (k : Nat) (desc : Nat → BatchEnt)
    (coherent : Coherent service.volumes service.cache content) :
    Triple (diskEnv outcomes) (fun disk => disk.content = content)
      (nvmeBatch mem service dev vol true k desc)
      (fun result disk => Kept service.volumes result.2 disk.content) := by
  unfold nvmeBatch
  split
  · exact ret fun disk before => ⟨rfl, before ▸ coherent⟩
  · split
    · exact ret fun disk before => ⟨rfl, before ▸ coherent⟩
    · refine bind (reads_keep (nvmeBatchRw_reads _)) fun answer => ?_
      exact ret fun disk same => ⟨rfl, same ▸ coherent⟩

theorem driverRw_reads (isRead : Bool) (lba count buf : Nat) :
    (driverRw mem vol isRead lba count buf).Asks Query.Reads := by
  unfold driverRw
  split
  · exact asks_pure _
  · exact backendRw_asks (fun done inside data => trivial) _ _

/-- A read of at most a line that goes through the cache. -/
theorem nvmeRw_read_kept (apart : Apart service.volumes) (found : service.volumes[dev]? = some vol)
    (direct : vol.direct) {lba count buf : Nat} (_ : vol.Admits lba count)
    (careful : Careful mem outcomes service (.rw dev true lba count buf))
    (coherent : Coherent service.volumes service.cache content) :
    Triple (diskEnv outcomes) (fun disk => disk.content = content)
      (nvmeRw mem service dev vol true lba count buf)
      (fun result disk => Kept service.volumes result.2 disk.content ∧
        (service.cache.on = true → vol.sectors ≠ 0 → count ≤ BLK_CACHE_SECTORS_PER_LINE →
          result.1.code = 1 → result.1.copied = onDisk disk.content vol lba count)) := by
  unfold nvmeRw
  split
  · refine ret fun disk before => ⟨⟨rfl, before ▸ coherent⟩, ?_⟩
    intro _ _ _ served
    cases served
  next some_ =>
    split
    next cached =>
      intro disk result disk' before run
      obtain ⟨done, mid, head, tail⟩ := runs_bind.mp run
      obtain ⟨rfl, rfl⟩ := tail
      obtain ⟨same, kept, copied⟩ := blkCacheRead_keeps found direct (apart.fits dev vol found)
        (Nat.pos_of_ne_zero some_) cached.2.2.2 service.cache disk done _
        ⟨before, coherent, careful cached.2.2.2⟩ head
      refine ⟨⟨rfl, same ▸ kept⟩, ?_⟩
      intro _ _ _ served
      cases got : done.1 with
      | none =>
        rw [got] at served
        cases served
      | some sectors =>
        rw [same]
        exact copied sectors got
    next uncached =>
      intro disk result disk' before run
      obtain ⟨done, mid, head, tail⟩ := runs_bind.mp run
      obtain ⟨rfl, rfl⟩ := tail
      have same := reads_keep (segments_asks (fun done _ query names => names.reads) _ _ _)
        disk done _ before head
      refine ⟨⟨rfl, same ▸ coherent⟩, ?_⟩
      intro on known few _
      exact absurd ⟨rfl, on, known, few⟩ uncached

/-- The service keeps its cache coherent. -/
theorem serveNvme_kept (apart : Apart service.volumes) {request : Request}
    (inRange : request.InRange service.volumes) (careful : Careful mem outcomes service request)
    (coherent : Coherent service.volumes service.cache content) :
    Triple (diskEnv outcomes) (fun disk => disk.content = content ∧ disk.asked = 0)
      (serveNvme mem service request)
      (fun result disk => Kept service.volumes result.2 disk.content) := by
  have idle {disk : Disk σ} (same : disk.content = content) :
      Kept service.volumes service disk.content := ⟨rfl, same ▸ coherent⟩
  cases request with
  | rw dev isRead lba count buf =>
    simp only [serveNvme]
    cases found : service.volumes[dev]? with
    | none => exact ret fun disk before => idle before.1
    | some vol =>
      dsimp only
      split
      · intro disk result disk' before run
        obtain ⟨ok, mid, head, tail⟩ := runs_bind.mp run
        obtain ⟨rfl, rfl⟩ := tail
        exact idle (reads_keep (driverRw_reads isRead lba count buf) disk ok _ before.1 head)
      next direct =>
        cases isRead with
        | true =>
          intro disk result disk' before run
          exact (nvmeRw_read_kept apart found direct (inRange vol found) careful coherent
            disk result disk' before.1 run).1
        | false => exact nvmeRw_write_kept apart found direct (inRange vol found) careful coherent
  | batch dev isRead k desc =>
    simp only [serveNvme]
    cases found : service.volumes[dev]? with
    | none => exact ret fun disk before => idle before.1
    | some vol =>
      cases isRead with
      | true =>
        exact fun disk result disk' before =>
          nvmeBatch_read_kept k desc coherent disk result disk' before.1
      | false => exact nvmeBatch_write_kept apart found (inRange vol found) careful coherent

end Requests

/-! ## Whole runs -/

/-- The tables of the service and the contents of the disks. -/
structure Station (σ : Type) where
  service : Service σ
  content : Nat → Nat → σ

/-- Serve one request, with these outcomes of its commands. -/
def Station.serve (s : Station σ) (mem : Memory σ) (outcomes : Nat → Outcome) (request : Request) :
    Reply σ × Station σ :=
  let done := (serveNvme mem s.service request).exec (Disk.respond outcomes) ⟨s.content, 0⟩
  (done.1.1, ⟨done.1.2, done.2.content⟩)

theorem Station.runs_serve (s : Station σ) (mem : Memory σ) (outcomes : Nat → Outcome)
    (request : Request) : ∃ asked, (serveNvme mem s.service request).Runs (diskEnv outcomes)
      ⟨s.content, 0⟩ ((s.serve mem outcomes request).1, (s.serve mem outcomes request).2.service)
      ⟨(s.serve mem outcomes request).2.content, asked⟩ := by
  have allowed (disk : Disk σ) (query : Query σ) :
      diskEnv outcomes disk query (disk.respond outcomes query).1 (disk.respond outcomes query).2 :=
    ⟨rfl, rfl⟩
  exact ⟨_, runs_exec allowed (serveNvme mem s.service request) ⟨s.content, 0⟩⟩

/-- The stations after any number of requests in the ranges of their volumes, each of which
`allowed` permits. -/
inductive Used (allowed : Memory σ → (Nat → Outcome) → Service σ → Request → Prop) :
    Station σ → Prop where
  | start {s : Station σ} (apart : Apart s.service.volumes)
      (empty : ∀ slot, (s.service.cache.tags slot).valid = false) : Used allowed s
  | step {s : Station σ} (used : Used allowed s) (mem : Memory σ) (outcomes : Nat → Outcome)
      (request : Request) (inRange : request.InRange s.service.volumes)
      (fits : allowed mem outcomes s.service request) :
      Used allowed (s.serve mem outcomes request).2

theorem Used.coherent {s : Station σ} (used : Used Careful s) :
    Apart s.service.volumes ∧ Coherent s.service.volumes s.service.cache s.content := by
  induction used with
  | @start s apart empty =>
    refine ⟨apart, ?_⟩
    intro slot valid
    rw [empty slot] at valid
    cases valid
  | @step s _ mem outcomes request inRange careful ih =>
    obtain ⟨asked, run⟩ := s.runs_serve mem outcomes request
    have kept := serveNvme_kept ih.1 inRange careful ih.2 _ _ _ ⟨rfl, rfl⟩ run
    rw [kept.table]
    exact ⟨ih.1, kept.coherent⟩

/-- In a run of requests in range and careful, a successful read of at most eight sectors
through the cache returns what is on the disk. -/
theorem cached_reads_agree {s : Station σ} (used : Used Careful s) (mem : Memory σ)
    (outcomes : Nat → Outcome) {dev lba count buf : Nat} {vol : Volume}
    (found : s.service.volumes[dev]? = some vol) (nvme : vol.backend = .nvme)
    (inRange : vol.Admits lba count)
    (careful : Careful mem outcomes s.service (.rw dev true lba count buf))
    (on : s.service.cache.on = true) (known : vol.sectors ≠ 0)
    (small : count ≤ BLK_CACHE_SECTORS_PER_LINE)
    (ok : (s.serve mem outcomes (.rw dev true lba count buf)).1.code = 1) :
    (s.serve mem outcomes (.rw dev true lba count buf)).1.copied =
      onDisk (s.serve mem outcomes (.rw dev true lba count buf)).2.content vol lba count := by
  obtain ⟨asked, run⟩ := s.runs_serve mem outcomes (.rw dev true lba count buf)
  have direct := Volume.direct_of_nvme nvme
  simp only [serveNvme, found, if_neg direct] at run
  exact (nvmeRw_read_kept used.coherent.1 found direct inRange careful used.coherent.2
    _ _ _ rfl run).2 on known small ok

/-! ## Three runs -/

def demoVolume : Volume := ⟨1, 0, 4096, .nvme⟩

/-- One volume, an empty cache, and every sector holds its own number. -/
def demoStation : Station Nat where
  service := ⟨[demoVolume], ⟨true, fun _ => ⟨false, 0, 0, 0⟩, fun _ _ => 0, none, 0⟩, 0⟩
  content _ sector := sector

/-- Every address is a mapped page; the caller's buffer is full of `fill`. -/
def demoBuffer (fill : Nat) : Memory Nat := ⟨fun _ => 4096, fun _ => fill⟩

def allOk : Nat → Outcome := fun _ => ⟨true, fun _ _ => true⟩

theorem demoStation_start {allowed : Memory Nat → (Nat → Outcome) → Service Nat → Request → Prop} :
    Used allowed demoStation := by
  have only {i : Nat} {vol : Volume} (found : demoStation.service.volumes[i]? = some vol) :
      i = 0 ∧ vol = demoVolume := by
    simpa [demoStation, getElem?_singleton, eq_comm] using found
  refine .start ⟨?_, ?_⟩ fun _ => rfl
  · intro i vol found
    rw [(only found).2]
    decide
  · exact fun i j _ _ found found' _ _ differ => absurd ((only found).1.trans (only found').1.symm) differ

/-- With the demonstration volume, a request inside its 4096 sectors is in range. -/
theorem demo_inRange {s : Station Nat} (table : s.service.volumes = [demoVolume])
    {isRead : Bool} {lba count buf : Nat} (inside : lba + count ≤ 4096) :
    (Request.rw 0 isRead lba count buf).InRange s.service.volumes := by
  intro vol found
  rw [table] at found
  cases found
  refine ⟨?_, fun _ => inside⟩
  change 0 + lba + count ≤ 2 ^ 32
  omega

/-- Read a sector, overwrite it, read it again. -/
def demoWritten : Station Nat :=
  ((demoStation.serve (demoBuffer 0) allOk (.rw 0 true 3 1 0)).2.serve (demoBuffer 7) allOk
    (.rw 0 false 3 1 0)).2

theorem demoWritten_agrees :
    (demoWritten.serve (demoBuffer 0) allOk (.rw 0 true 3 1 0)).1.copied =
      onDisk (demoWritten.serve (demoBuffer 0) allOk (.rw 0 true 3 1 0)).2.content demoVolume 3 1 := by
  have reads (service : Service Nat) :
      Careful (demoBuffer 0) allOk service (.rw 0 true 3 1 0) := fun _ => .inl fun _ => .inl rfl
  have writes (service : Service Nat) :
      Careful (demoBuffer 7) allOk service (.rw 0 false 3 1 0) := by
    refine .inl fun j inside => ⟨rfl, ?_⟩
    obtain rfl : j = 0 := by
      unfold NVME_MAX_SECTORS at inside
      omega
    decide +kernel
  have first := demoStation_start.step (demoBuffer 0) allOk (.rw 0 true 3 1 0)
    (demo_inRange rfl (by decide)) (reads _)
  have second := first.step (demoBuffer 7) allOk (.rw 0 false 3 1 0)
    (demo_inRange (by decide +kernel) (by decide)) (writes _)
  have table : demoWritten.service.volumes = [demoVolume] := by decide +kernel
  exact cached_reads_agree second (demoBuffer 0) allOk
    (show demoWritten.service.volumes[0]? = some demoVolume by rw [table]; rfl) rfl
    ⟨by decide, fun _ => by decide⟩ (reads _) (by decide +kernel) (by decide) (by decide)
    (by decide +kernel)

/-- A write of two segments, the second of which fails after the first reached the disk: the
line filled before it stays valid, and the next read returns the old sector. -/
theorem partial_write_leaves_stale_line :
    ∃ s : Station Nat, Used (fun _ _ _ _ => True) s ∧ s.service.volumes = [demoVolume] ∧
      (s.serve (demoBuffer 0) allOk (.rw 0 true 3 1 0)).1.code = 1 ∧
      (s.serve (demoBuffer 0) allOk (.rw 0 true 3 1 0)).1.copied ≠
        onDisk (s.serve (demoBuffer 0) allOk (.rw 0 true 3 1 0)).2.content demoVolume 3 1 := by
  have start : Used (fun _ _ _ _ => True) demoStation := demoStation_start
  have first := start.step (demoBuffer 0) allOk (.rw 0 true 3 1 0)
    (demo_inRange rfl (by decide)) trivial
  have second := first.step (demoBuffer 7) (fun j => ⟨j == 0, fun _ _ => false⟩)
    (.rw 0 false 0 512 0) (demo_inRange (by decide +kernel) (by decide)) trivial
  exact ⟨_, second, by decide +kernel, by decide +kernel, by decide +kernel⟩

end MorionOS.Blk
