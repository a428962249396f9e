import MorionOS.Blk.Coherence

/-!
# Requests and the ranges of their volumes

Only a read that goes through the cache is compared with the size of the volume.  The
other paths add the request's sector number to the start of the volume, with whatever
truncation or saturation the path has, and send the command.

`Confined` is what a volume promises about a request: no command for a sector outside of
the volume, and no success for a request that reaches past its end.  The result,
`volume_confinement`, is for which requests the service keeps the promise, for both main
loops and all backends: those that stay in the volume, as long as the commands can name
its sectors, and those that one of the few checks refuses.  The tables of the disks are
not checked when volumes are attached, so a volume may reach beyond the last number that
a command has, and its end then wraps to the start of the disk.  A request is judged over
all answers of the disks and all page mappings of the caller, after any number of requests
and attached disks; changes of a partition table are not modelled.
-/

namespace MorionOS.Blk

open Dialogue List BatchEnt Triple Memory Backend

variable {σ : Type}

/-! ## The promise -/

/-- The sectors from `first` on lie in the volume. -/
def Volume.covers (vol : Volume) (first count : Nat) : Prop :=
  vol.startLba ≤ first ∧ first + count ≤ vol.startLba + vol.sectors

/-- How many sectors the commands of a backend can tell apart: LBA48 for AHCI, READ(10) for
USB, 32-bit addresses for NVMe and LBA28 for IDE. -/
def Backend.addresses : Backend → Nat
  | .nvme => 2 ^ 32
  | .ahci => 2 ^ 48
  | .ide => 2 ^ 28
  | .usb => 2 ^ 32

/-- Every sector the query reads or writes lies in the volume.  Commands left in a queue
count: the next doorbell write starts them. -/
def Query.Inside (vol : Volume) : Query σ → Prop
  | .nvme _ sqe _ => sqe.nsid = vol.nsid ∧ vol.covers sqe.cdw10 (sqe.cdw12 + 1)
  | .batch sqes _ => ∀ entry ∈ sqes,
      entry.1.nsid = vol.nsid ∧ vol.covers entry.1.cdw10 (entry.1.cdw12 + 1)
  | .driver backend _ lba count _ =>
    backend = vol.backend ∧ vol.covers (lba % backend.addresses) count
  | .ide _ lba count _ => vol.covers (lba % Backend.ide.addresses) count

/-- A disk that answers anything. -/
def anyone (_ : Unit) (_ : Query σ) (_ : Answer σ) (_ : Unit) : Prop := True

/-- The request reaches past the end of the volume. -/
def Request.PastEnd (vol : Volume) : Request → Prop
  | .rw _ _ lba count _ => vol.sectors < lba + count
  | .batch _ _ k desc => ∃ i < k, vol.sectors < (desc i).lba + (desc i).sectors

/-- The two main loops. -/
inductive MainLoop where
  | nvme
  | ide
deriving DecidableEq

def MainLoop.serve (loop : MainLoop) (mem : Memory σ) (service : Service σ) (request : Request) :
    Program σ (Reply σ × Service σ) :=
  match loop with
  | .nvme => serveNvme mem service request
  | .ide => serveIde mem service request

/-- Whatever the disks answer and whatever pages the caller has, the request touches sectors
of the volume only, and fails when it reaches past the end. -/
def Confined (loop : MainLoop) (service : Service σ) (request : Request) (vol : Volume) : Prop :=
  ∀ mem, (loop.serve mem service request).Asks (Query.Inside vol) ∧
    (request.PastEnd vol → ∀ result,
      (loop.serve mem service request).Runs anyone () result () → result.1.code = 0)

/-! ## The cache knows the sizes -/

/-- Every valid tag names a page of its volume and the sectors that page has. -/
def TagsFit (volumes : List Volume) (cache : Cache σ) : Prop :=
  ∀ slot, (cache.tags slot).valid = true → ∃ vol, volumes[(cache.tags slot).vol]? = some vol ∧
    (cache.tags slot).page * BLK_CACHE_SECTORS_PER_LINE < vol.sectors ∧
    (cache.tags slot).sectors = lineSectors vol (cache.tags slot).page

variable {volumes : List Volume} {cache : Cache σ}

section

variable (fit : TagsFit volumes cache)
include fit

theorem TagsFit.dropped {volId : Nat} {pages : Nat → Prop} {cache' : Cache σ}
    (dropped : Dropped volId pages cache cache') : TagsFit volumes cache' := by
  intro slot valid
  have same := dropped.tags slot valid
  rw [same] at valid ⊢
  exact fit slot valid

theorem TagsFit.invalidate (volId lba count : Nat) :
    TagsFit volumes (blkCacheInvalidate cache volId lba count) := by
  unfold blkCacheInvalidate
  split
  · exact fit
  · exact fit.dropped (foldl_drop_dropped volId _ cache)

theorem TagsFit.invalidateAll (volId : Nat) (ents : List BatchEnt) :
    TagsFit volumes
      (ents.foldl (fun cache ent => blkCacheInvalidate cache volId ent.lba ent.sectors) cache) := by
  induction ents generalizing cache with
  | nil => exact fit
  | cons ent ents ih => exact ih (fit.invalidate volId ent.lba ent.sectors)

end

section Cache

variable {volumes : List Volume} {mem : Memory σ} {queue volId : Nat} {vol : Volume}

/-- Whatever the disks answer, a filled line gets the tag of its page. -/
theorem fitRule (found : volumes[volId]? = some vol) :
    CacheRule anyone mem queue volId vol (fun _ => True) (fun cache _ => TagsFit volumes cache)
      fun _ _ => True where
  fill := by
    intro page cache _ _
    rw [blkCacheFill]
    split
    · exact ret fun _ fit => ⟨fit, nofun⟩
    next inside =>
      refine skip fun answer => ?_
      split
      · refine ret fun _ fit => ⟨fun slot valid => ?_, fun _ => ?_⟩
        · by_cases here : slot = blkCacheSlot volId page
          · subst here
            dsimp only
            rw [Function.update_self]
            exact ⟨vol, found, by dsimp only; omega, rfl⟩
          · dsimp only at valid ⊢
            rw [Function.update_of_ne here] at valid ⊢
            exact fit slot valid
        · dsimp only
          rw [Function.update_self, CacheTag.hit_iff]
          exact ⟨rfl, rfl, rfl⟩
      · exact ret fun _ fit => ⟨fit, nofun⟩
  hit := by
    intro page cache _ fit hit
    obtain ⟨valid, volEq, pageEq⟩ := CacheTag.hit_iff.mp hit
    obtain ⟨vol', found', inside, size⟩ := fit _ valid
    rw [volEq, found] at found'
    cases found'
    rw [pageEq] at inside size
    exact ⟨inside, size, fun _ _ => trivial⟩
  seq := fun _ _ fit => fit

end Cache

section Requests

variable {mem : Memory σ} {service : Service σ} {dev : Nat} {vol : Volume}

/-- The table is the same and the tags fit it. -/
def Fits (volumes : List Volume) (service : Service σ) : Prop :=
  service.volumes = volumes ∧ TagsFit volumes service.cache

theorem nvmeRw_fit (found : service.volumes[dev]? = some vol) (bounded : vol.sectors < 2 ^ 32)
    (isRead : Bool) (lba count buf : Nat) :
    Triple anyone (fun _ => TagsFit service.volumes service.cache)
      (nvmeRw mem service dev vol isRead lba count buf)
      (fun result _ => Fits service.volumes result.2 ∧
        (isRead = true → service.cache.on = true → vol.sectors ≠ 0 →
          count ≤ BLK_CACHE_SECTORS_PER_LINE → vol.sectors < lba + count → result.1.code = 0)) := by
  unfold nvmeRw
  split
  · exact ret fun _ fit => ⟨⟨rfl, fit⟩, fun _ _ _ _ _ => rfl⟩
  next some_ =>
    split
    · intro _ result _ fit run
      obtain ⟨done, _, head, tail⟩ := runs_bind.mp run
      obtain ⟨rfl, -⟩ := tail
      obtain ⟨fit', reach⟩ := (fitRule found).blkCacheRead (by omega) (Nat.pos_of_ne_zero some_)
        service.cache (fun _ _ _ => trivial) (fun _ _ _ => trivial) _ done _ fit head
      refine ⟨⟨rfl, fit'⟩, fun _ _ _ _ past => ?_⟩
      cases got : done.1 with
      | none => rfl
      | some copied =>
        have := (reach copied got).1
        omega
    next uncached =>
      refine skip fun done => ret fun _ fit => ⟨⟨rfl, ?_⟩, ?_⟩
      · split
        · exact fit.invalidate dev lba count
        · exact fit
      · intro read on known few
        exact absurd ⟨read, on, known, few⟩ uncached

theorem nvmeBatch_fit (isRead : Bool) (k : Nat) (desc : Nat → BatchEnt) :
    Triple anyone (fun _ => TagsFit service.volumes service.cache)
      (nvmeBatch mem service dev vol isRead k desc)
      (fun result _ => Fits service.volumes result.2) := by
  unfold nvmeBatch
  split
  · exact ret fun _ fit => ⟨rfl, fit⟩
  · split
    · exact ret fun _ fit => ⟨rfl, fit⟩
    · refine skip fun answer => ret fun _ fit => ⟨rfl, ?_⟩
      split
      · exact fit.invalidateAll dev _
      · exact fit

/-- The sizes of the volumes are 32-bit numbers. -/
def Bounded (volumes : List Volume) : Prop := ∀ vol ∈ volumes, vol.sectors < 2 ^ 32

theorem serve_fit (bounded : Bounded service.volumes) (loop : MainLoop) (request : Request) :
    Triple anyone (fun _ => TagsFit service.volumes service.cache) (loop.serve mem service request)
      (fun result _ => Fits service.volumes result.2) := by
  have idle (reply : Reply σ) : Triple anyone (fun _ => TagsFit service.volumes service.cache)
      (pure (reply, service) : Program σ (Reply σ × Service σ))
      (fun result _ => Fits service.volumes result.2) :=
    ret fun _ fit => ⟨rfl, fit⟩
  cases loop with
  | nvme =>
    cases request with
    | rw dev isRead lba count buf =>
      simp only [MainLoop.serve, serveNvme]
      cases found : service.volumes[dev]? with
      | none => exact idle _
      | some vol =>
        dsimp only
        split
        · exact skip fun _ => idle _
        · exact (nvmeRw_fit found (bounded vol (mem_of_getElem? found)) isRead lba count
            buf).weaken fun _ _ after => after.1
    | batch dev isRead k desc =>
      simp only [MainLoop.serve, serveNvme]
      cases service.volumes[dev]? with
      | none => exact idle _
      | some vol => exact nvmeBatch_fit isRead k desc
  | ide =>
    cases request with
    | rw dev isRead lba count buf =>
      simp only [MainLoop.serve, serveIde]
      cases service.volumes[dev]? with
      | none => exact idle _
      | some vol =>
        dsimp only
        split <;> exact skip fun _ => idle _
    | batch dev isRead k desc => exact idle _

/-- The services after any number of requests and attached disks: the cache starts empty. -/
inductive Served (loop : MainLoop) : Service σ → Prop where
  | start {service : Service σ} (bounded : Bounded service.volumes)
      (empty : ∀ slot, (service.cache.tags slot).valid = false) : Served loop service
  | step {service service' : Service σ} {mem : Memory σ} {request : Request} {reply : Reply σ}
      (served : Served loop service)
      (run : (loop.serve mem service request).Runs anyone () (reply, service') ()) :
      Served loop service'
  | attach {service : Service σ} {added : List Volume} (served : Served loop service) (bounded : Bounded added) :
      Served loop { service with volumes := service.volumes ++ added }

theorem Served.fit {loop : MainLoop} (served : Served loop service) :
    Bounded service.volumes ∧ TagsFit service.volumes service.cache := by
  induction served with
  | start bounded empty =>
    refine ⟨bounded, ?_⟩
    intro slot valid
    rw [empty slot] at valid
    cases valid
  | @step service service' mem request reply _ run ih =>
    obtain ⟨same, fit⟩ := serve_fit ih.1 loop request _ _ _ ih.2 run
    rw [same]
    exact ⟨ih.1, fit⟩
  | @attach service added _ bounded ih =>
    refine ⟨forall_mem_append.mpr ⟨ih.1, bounded⟩, fun slot valid => ?_⟩
    obtain ⟨vol, found, size⟩ := ih.2 slot valid
    exact ⟨vol, (getElem?_append_left (List.getElem?_eq_some_iff.mp found).1).trans found, size⟩

end Requests

/-! ## Requests in range stay in their volume -/

/-- The sectors of the volume have 32-bit numbers, and 28-bit ones on the disk of the IDE
loop, whose capacity is cut to that. -/
def Volume.Addressable (vol : Volume) (loop : MainLoop) : Prop :=
  vol.startLba + vol.sectors ≤ 2 ^ 32 ∧
    (loop = .ide → vol.direct → vol.startLba + vol.sectors ≤ ide.addresses)

variable {ents : List BatchEnt} {isRead : Bool}

section Inside

variable {mem : Memory σ} {vol : Volume}

theorem fills_inside (fits : vol.startLba + vol.sectors ≤ 2 ^ 32) :
    FillsAllow (Query.Inside (σ := σ) vol) vol := by
  intro page inside query names
  cases query with
  | nvme queue sqe data =>
    obtain ⟨-, nsid, lba, count⟩ := names
    refine ⟨nsid, ?_⟩
    rw [lba, count]
    unfold Volume.covers lineSectors
    omega
  | _ => exact names.elim

variable {write : Bool}

theorem segments_inside (fits : vol.startLba + vol.sectors ≤ 2 ^ 32)
    {lba total : Nat} (inside : lba + total ≤ vol.sectors) :
    SegmentsAllow (Query.Inside (σ := σ) vol) vol write
      (saturatingAdd vol.startLba (lba % 2 ^ 32)) total := by
  intro done more query names
  cases query with
  | nvme queue sqe data =>
    obtain ⟨-, nsid, start, count⟩ := names
    have base : saturatingAdd vol.startLba (lba % 2 ^ 32) = vol.startLba + lba := by
      rw [Nat.mod_eq_of_lt (by omega), saturatingAdd_eq (by omega)]
    rw [base, Nat.mod_eq_of_lt (by omega), saturatingAdd_eq (by omega)] at start
    refine ⟨nsid, ?_⟩
    unfold Volume.covers
    omega
  | _ => exact names.elim

theorem driverRw_inside (fits : vol.startLba + vol.sectors ≤ 2 ^ 32) (driver : ¬vol.direct)
    {lba count buf : Nat} (inside : lba + count ≤ vol.sectors) :
    (driverRw mem vol isRead lba count buf).Asks (Query.Inside vol) := by
  have address : 2 ^ 32 ≤ vol.backend.addresses := by
    rcases not_not.mp driver with backend | backend <;> rw [backend] <;> decide
  unfold driverRw
  split
  · exact asks_pure _
  · refine backendRw_asks (fun done more data => ⟨rfl, ?_⟩) _ _
    rw [Nat.mod_eq_of_lt (show vol.startLba + lba < 2 ^ 64 by omega),
      Nat.mod_eq_of_lt (by omega)]
    unfold Volume.covers
    omega

theorem ideRw_inside (fits : vol.startLba + vol.sectors ≤ ide.addresses)
    {lba count buf : Nat} (inside : lba + count ≤ vol.sectors) :
    (ideRw mem write ((vol.startLba + lba) % 2 ^ 64 % 2 ^ 32) (count % 2 ^ 16) buf).Asks
      (Query.Inside vol) := by
  have small : ide.addresses = 2 ^ 28 := rfl
  unfold ideRw
  split
  · exact asks_pure _
  next sized =>
    refine asks_query ?_
    change vol.covers ((vol.startLba + lba) % 2 ^ 64 % 2 ^ 32 % ide.addresses) _
    rw [small] at fits ⊢
    unfold Volume.covers
    omega

theorem nvmeBatchRw_inside (inside : ∀ ent ∈ ents.takeWhile (·.accepted mem),
      vol.covers (saturatingAdd vol.startLba (ent.lba % 2 ^ 32)) ent.sectors) :
    (nvmeBatchRw mem vol write ents).Asks (Query.Inside vol) := by
  refine (asks_query ?_).bind fun answer => asks_pure _
  intro entry member
  obtain ⟨i, short, rfl⟩ := mem_mapIdx.mp member
  have placed := getElem_mem short
  generalize (ents.takeWhile fun ent => ent.accepted mem)[i] = ent at placed
  have whole : (ent.sqe mem vol write i).cdw12 + 1 = ent.sectors :=
    Nat.succ_pred_eq_of_pos (accepted_pos (mem_takeWhile_imp placed))
  refine ⟨rfl, ?_⟩
  rw [whole]
  exact inside ent placed

end Inside

/-! ## Requests out of range are served -/

/-- Memory in which every address is the start of a mapped page. -/
def Memory.allMapped [Inhabited σ] : Memory σ := ⟨fun _ => NVME_PAGE_SIZE, fun _ => default⟩

theorem Memory.allMapped_maps [Inhabited σ] (buf count : Nat) :
    (allMapped : Memory σ).maps buf count = true := by
  have second (pages : Nat) :
      (prp2 (allMapped : Memory σ) buf NVME_PAGE_SIZE pages).isSome = true := by
    unfold prp2
    split
    · rfl
    · rw [if_neg (by decide)]
      split
      · rfl
      · simp [allMapped, NVME_PAGE_SIZE]
  unfold maps
  rw [Bool.and_eq_true]
  exact ⟨by simp [allMapped, NVME_PAGE_SIZE], second _⟩

theorem backendRw_yes {backend : Backend} {write : Bool} (mem : Memory σ)
    (lba count buf turns done : Nat) :
    (backendRw mem backend write lba count buf turns done).Runs anyone () true () := by
  induction turns generalizing done with
  | zero => exact ⟨rfl, rfl⟩
  | succ turns ih =>
    unfold backendRw
    split
    · exact ⟨rfl, rfl⟩
    · refine runs_bind.mpr ⟨⟨true, fun _ => none⟩, (), ⟨_, (), trivial, rfl, rfl⟩, ?_⟩
      exact ih _

theorem driverRw_yes (mem : Memory σ) {vol : Volume} {lba count buf : Nat} (some_ : count ≠ 0) :
    (driverRw mem vol isRead lba count buf).Runs anyone () true () := by
  unfold driverRw
  rw [if_neg some_]
  exact backendRw_yes mem _ _ _ _ _

section Served

variable [Inhabited σ]

/-- With all pages mapped and a disk that answers yes, a command of 1 to 256 sectors
succeeds. -/
theorem nvmeRwSectors_yes {queue nsid lba count buf : Nat} {write : Bool} (some_ : 0 < count)
    (few : count ≤ NVME_MAX_SECTORS) : ∃ answer : Answer σ, answer.ok = true ∧
      (nvmeRwSectors allMapped queue write nsid lba count buf).Runs anyone () answer () := by
  rcases nvmeRwSectors_cases (σ := σ) .allMapped queue write nsid lba count buf with
    ⟨bad, -⟩ | ⟨-, second, eq⟩
  · exact absurd ⟨some_, few, allMapped_maps buf count⟩ bad
  · rw [eq]
    exact ⟨⟨true, fun _ => none⟩, rfl, _, (), trivial, rfl, rfl⟩

theorem segments_yes (vol : Volume) (write : Bool) (base total buf turns done rr : Nat) : ∃ rr',
    (segments (σ := σ) allMapped vol write base total buf turns done rr).Runs anyone ()
      (true, rr') () := by
  induction turns generalizing done rr with
  | zero => exact ⟨rr, rfl, rfl⟩
  | succ turns ih =>
    unfold segments
    split
    · exact ⟨rr, rfl, rfl⟩
    next more =>
      obtain ⟨answer, ok, run⟩ := @nvmeRwSectors_yes σ _ (ioSelectQueue rr).1 vol.nsid
        (saturatingAdd base (done % 2 ^ 32)) (min (total - done) NVME_MAX_SECTORS)
        ((buf + done * NVME_SECTOR_SIZE) % 2 ^ 64) write (by unfold NVME_MAX_SECTORS; omega)
        (Nat.min_le_right _ _)
      obtain ⟨rr', rest⟩ := ih (done + min (total - done) NVME_MAX_SECTORS) (ioSelectQueue rr).2
      refine ⟨rr', runs_bind.mpr ⟨answer, (), run, ?_⟩⟩
      rw [if_pos ok]
      exact rest

end Served

/-! ## Which requests are confined -/

/-- The volume a request is for. -/
def Request.dev : Request → Nat
  | .rw dev _ _ _ _ | .batch dev _ _ _ => dev

/-- The checks of `nvme_batch_rw` that do not depend on the page tables. -/
def BatchEnt.proper (ent : BatchEnt) : Bool :=
  ent.sectors != 0 && decide (ent.sectors ≤ BLK_CACHE_SECTORS_PER_LINE) && ent.buf != 0

/-- What the loop checks before it sends commands for a request out of range: the cache knows
the size of the volume, and the IDE functions take 1 to 256 sectors of a 16-bit count. -/
def MainLoop.refuses (loop : MainLoop) (service : Service σ) (vol : Volume) (isRead : Bool) (count : Nat) : Prop :=
  match loop with
  | .nvme => vol.Addressable .nvme ∧ isRead = true ∧ service.cache.on = true ∧ count ≤ BLK_CACHE_SECTORS_PER_LINE
  | .ide => count % 2 ^ 16 = 0 ∨ 256 < count % 2 ^ 16

/-- The requests that the service keeps in their volume. -/
def InBounds (loop : MainLoop) (service : Service σ) (vol : Volume) : Request → Prop
  | .rw _ isRead lba count _ => count = 0 ∨ (vol.Addressable loop ∧ lba + count ≤ vol.sectors) ∨
      vol.direct ∧ loop.refuses service vol isRead count
  | .batch _ _ k desc => loop = .ide ∨ vol.backend ≠ .nvme ∨ k = 0 ∨ BLOCK_BATCH_MAX < k ∨
      (vol.Addressable loop ∧ ∀ i < k, (desc i).lba + (desc i).sectors ≤ vol.sectors) ∨
      (∃ i < k, (desc i).proper = false) ∧ ∀ i < k, (∀ j ≤ i, (desc j).proper = true) →
        vol.covers (saturatingAdd vol.startLba ((desc i).lba % 2 ^ 32)) (desc i).sectors

variable {ent : BatchEnt}

theorem BatchEnt.proper_of_accepted {mem : Memory σ} (accepted : ent.accepted mem = true) :
    ent.proper = true := by
  simp only [BatchEnt.accepted, Bool.and_eq_true] at accepted
  simp only [proper, Bool.and_eq_true]
  exact accepted.1.1

theorem BatchEnt.accepted_allMapped [Inhabited σ] (ent : BatchEnt) :
    ent.accepted (allMapped : Memory σ) = ent.proper := by
  simp [accepted, proper, allMapped, NVME_PAGE_SIZE]

/-- The elements a `takeWhile` keeps are those with only good ones up to them. -/
theorem mem_takeWhile_range {p : BatchEnt → Bool} {desc : Nat → BatchEnt} {k : Nat} :
    ent ∈ ((range k).map desc).takeWhile p ↔
      ∃ i < k, (∀ j ≤ i, p (desc j) = true) ∧ desc i = ent := by
  induction k generalizing desc with
  | zero => simp
  | succ k ih =>
    rw [range_succ_eq_map, map_cons, map_map]
    cases first : p (desc 0) with
    | false =>
      rw [takeWhile_cons_of_neg (by simp [first])]
      constructor
      · intro member
        cases member
      · rintro ⟨i, -, good, -⟩
        rw [good 0 (Nat.zero_le i)] at first
        cases first
    | true =>
      rw [takeWhile_cons_of_pos first, mem_cons, ih]
      constructor
      · rintro (rfl | ⟨i, below, good, rfl⟩)
        · exact ⟨0, by omega, fun j zero => by rwa [Nat.le_zero.mp zero], rfl⟩
        · refine ⟨i + 1, by omega, ?_, rfl⟩
          rintro (_ | j) inside
          · exact first
          · exact good j (by omega)
      · rintro ⟨_ | i, below, good, rfl⟩
        · exact .inl rfl
        · exact .inr ⟨i, by omega, fun j inside => good (j + 1) (by omega), rfl⟩

section Main

variable {service : Service σ} {vol : Volume}

theorem refused_confined (past : Prop) :
    (pure (.status false, service) : Program σ (Reply σ × Service σ)).Asks (Query.Inside vol) ∧
      (past → ∀ result, (pure (.status false, service) : Program σ (Reply σ × Service σ)).Runs
        anyone () result () → result.1.code = 0) := by
  refine ⟨asks_pure _, ?_⟩
  rintro - result ⟨rfl, -⟩
  rfl

variable {loop : MainLoop}

/-- Both loops forward a request for a driver's volume. -/
theorem serve_driver {dev : Nat} (found : service.volumes[dev]? = some vol)
    (driver : vol.backend = .ahci ∨ vol.backend = .usb) (mem : Memory σ) (isRead : Bool) (lba count buf : Nat) :
    loop.serve mem service (.rw dev isRead lba count buf) = (do
      let ok ← driverRw mem vol isRead lba count buf
      pure (.status ok, service)) := by
  cases loop <;> simp [MainLoop.serve, serveNvme, serveIde, found, if_pos driver]

theorem rw_confined (served : Served loop service) {dev : Nat}
    (found : service.volumes[dev]? = some vol) (known : vol.sectors ≠ 0) {lba count buf : Nat}
    (bounds : InBounds loop service vol (.rw dev isRead lba count buf)) :
    Confined loop service (.rw dev isRead lba count buf) vol := by
  have bounded := served.fit.1 vol (mem_of_getElem? found)
  intro mem
  by_cases driver : vol.backend = .ahci ∨ vol.backend = .usb
  · rw [serve_driver found driver]
    rcases bounds with rfl | ⟨address, inside⟩ | ⟨direct, -⟩
    · exact refused_confined _
    · exact ⟨(driverRw_inside address.1 (not_not.mpr driver) inside).bind fun _ => asks_pure _,
        fun past => absurd past (Nat.not_lt.mpr inside)⟩
    · exact absurd driver direct
  · cases loop with
    | nvme =>
      simp only [MainLoop.serve, serveNvme, found, if_neg driver]
      refine ⟨?_, ?_⟩
      · unfold nvmeRw
        split
        · exact asks_pure _
        next some_ =>
          have address : vol.Addressable .nvme := by
            rcases bounds with none_ | ⟨address, -⟩ | ⟨-, address, -⟩
            · exact absurd none_ some_
            · exact address
            · exact address
          split
          · exact (blkCacheRead_asks (fills_inside address.1) _ _ _).bind fun _ => asks_pure _
          next uncached =>
            refine (segments_asks (segments_inside address.1 ?_) _ _ _).bind fun _ => asks_pure _
            rcases bounds with none_ | ⟨-, inside⟩ | ⟨-, -, read, on, few⟩
            · exact absurd none_ some_
            · exact inside
            · exact absurd ⟨read, on, known, few⟩ uncached
      · intro past result run
        rcases bounds with rfl | ⟨-, inside⟩ | ⟨-, -, read, on, few⟩
        · obtain ⟨rfl, -⟩ := run
          rfl
        · exact absurd past (Nat.not_lt.mpr inside)
        · exact (nvmeRw_fit found bounded isRead lba count buf _ result _ served.fit.2 run).2
            read on known few past
    | ide =>
      simp only [MainLoop.serve, serveIde, found, if_neg driver]
      rcases bounds with rfl | ⟨address, inside⟩ | ⟨-, sized⟩
      · exact refused_confined _
      · exact ⟨(ideRw_inside (address.2 rfl driver) inside).bind fun _ => asks_pure _,
          fun past => absurd past (Nat.not_lt.mpr inside)⟩
      · have refused : count % 2 ^ 16 = 0 ∨ 256 < count % 2 ^ 16 := sized
        unfold ideRw
        rw [if_pos refused]
        exact refused_confined _

theorem nvmeBatchRw_improper {mem : Memory σ} {write : Bool} (member : ent ∈ ents)
    (bad : ent.proper = false) {answer : Answer σ}
    (run : (nvmeBatchRw mem vol write ents).Runs anyone () answer ()) : answer = .refused := by
  have half : (ents.takeWhile (·.accepted mem)).length ≠ ents.length := by
    intro whole
    have same := (takeWhile_sublist fun ent => accepted mem ent).eq_of_length whole
    rw [proper_of_accepted (takeWhile_eq_self_iff.mp same ent member)] at bad
    cases bad
  obtain ⟨_, _, -, rfl, -⟩ := runs_bind.mp run
  rw [beq_eq_false_iff_ne.mpr half]
  rfl

theorem batch_confined {dev : Nat} (found : service.volumes[dev]? = some vol) {k : Nat} {desc : Nat → BatchEnt}
    (bounds : InBounds loop service vol (.batch dev isRead k desc)) :
    Confined loop service (.batch dev isRead k desc) vol := by
  intro mem
  cases loop with
  | ide => exact refused_confined _
  | nvme =>
    simp only [MainLoop.serve, serveNvme, found]
    unfold nvmeBatch
    split
    · exact refused_confined _
    next nvme =>
      split
      · exact refused_confined _
      next sized =>
        rcases bounds with ide | other | none_ | many | ⟨address, inside⟩ | ⟨improper, covered⟩
        · cases ide
        · exact absurd other nvme
        · exact absurd (.inl none_) sized
        · exact absurd (.inr many) sized
        · refine ⟨(nvmeBatchRw_inside ?_).bind fun _ => asks_pure _, ?_⟩
          · intro ent placed
            obtain ⟨i, below, -, rfl⟩ := mem_takeWhile_range.mp placed
            have some_ := accepted_pos (mem_takeWhile_imp placed)
            have short := address.1
            have range := inside i below
            rw [Nat.mod_eq_of_lt (by omega), saturatingAdd_eq (by omega)]
            unfold Volume.covers
            omega
          · rintro ⟨i, below, past⟩
            exact absurd past (Nat.not_lt.mpr (inside i below))
        · refine ⟨(nvmeBatchRw_inside ?_).bind fun _ => asks_pure _, ?_⟩
          · intro ent placed
            obtain ⟨i, below, good, rfl⟩ := mem_takeWhile_range.mp placed
            exact covered i below fun j inside => proper_of_accepted (good j inside)
          · intro _ result run
            obtain ⟨i, below, bad⟩ := improper
            obtain ⟨answer, _, head, rfl, -⟩ := runs_bind.mp run
            rw [nvmeBatchRw_improper (mem_map_of_mem (mem_range.mpr below)) bad head]
            rfl

/-- With all pages mapped, a batch of proper descriptors succeeds when the disk says yes. -/
theorem nvmeBatchRw_yes [Inhabited σ] {write : Bool} (proper : ∀ ent ∈ ents, ent.proper = true) :
    (nvmeBatchRw (σ := σ) allMapped vol write ents).Runs anyone () ⟨true, fun _ => none⟩ () := by
  have whole : ents.takeWhile (·.accepted (allMapped : Memory σ)) = ents :=
    takeWhile_eq_self_iff.mpr fun ent member =>
      (accepted_allMapped ent).trans (proper ent member)
  refine runs_bind.mpr ⟨⟨true, fun _ => none⟩, (), ⟨_, (), trivial, rfl, rfl⟩, ?_⟩
  rw [whole, beq_self_eq_true]
  exact ⟨rfl, rfl⟩

theorem inBounds_of_confined [Inhabited σ] {request : Request}
    (found : service.volumes[request.dev]? = some vol) (address : vol.Addressable loop)
    (confined : Confined loop service request vol) : InBounds loop service vol request := by
  obtain ⟨asks, refuses⟩ := confined .allMapped
  cases request with
  | rw dev isRead lba count buf =>
    have found : service.volumes[dev]? = some vol := found
    by_contra out
    obtain ⟨some_, out⟩ := not_or.mp out
    obtain ⟨past, out⟩ := not_or.mp out
    replace past : ¬ lba + count ≤ vol.sectors := fun inside => past ⟨address, inside⟩
    -- a yes from the disk becomes a success of the request
    have served (reply : Reply σ × Service σ) (ok : reply.1.code = 1)
        (run : (loop.serve .allMapped service (.rw dev isRead lba count buf)).Runs anyone () reply
          ()) : False := by
      rw [refuses (Nat.not_le.mp past) reply run] at ok
      cases ok
    by_cases driver : vol.backend = .ahci ∨ vol.backend = .usb
    · refine served (.status true, service) rfl ?_
      rw [serve_driver found driver]
      exact runs_bind.mpr ⟨true, (), driverRw_yes _ some_, rfl, rfl⟩
    · have unchecked : ¬loop.refuses service vol isRead count := fun checks => out ⟨driver, checks⟩
      cases loop with
      | nvme =>
        obtain ⟨rr, run⟩ := segments_yes (σ := σ) vol (!isRead)
          (saturatingAdd vol.startLba (lba % 2 ^ 32)) count buf count 0 service.rr
        simp only [MainLoop.serve, serveNvme, found, if_neg driver] at served
        unfold nvmeRw at served
        rw [if_neg some_, if_neg fun cached =>
          unchecked ⟨address, cached.1, cached.2.1, cached.2.2.2⟩] at served
        exact served _ rfl (runs_bind.mpr ⟨(true, rr), (), run, rfl, rfl⟩)
      | ide =>
        simp only [MainLoop.serve, serveIde, found, if_neg driver] at served
        unfold ideRw at served
        have sized : ¬(count % 2 ^ 16 = 0 ∨ 256 < count % 2 ^ 16) := unchecked
        rw [if_neg sized] at served
        exact served (.status true, service) rfl (runs_bind.mpr
          ⟨⟨true, fun _ => none⟩, (), ⟨_, (), trivial, rfl, rfl⟩, rfl, rfl⟩)
  | batch dev isRead k desc =>
    have found : service.volumes[dev]? = some vol := found
    cases loop with
    | ide => exact .inl rfl
    | nvme =>
      right
      by_cases nvme : vol.backend ≠ .nvme
      · exact .inl nvme
      right
      by_cases sized : k = 0 ∨ BLOCK_BATCH_MAX < k
      · exact sized.imp_right .inl
      right
      right
      simp only [MainLoop.serve, serveNvme, found] at asks refuses
      unfold nvmeBatch at asks refuses
      rw [if_neg nvme, if_neg sized] at asks refuses
      by_cases inside : ∀ i < k, (desc i).lba + (desc i).sectors ≤ vol.sectors
      · exact .inl ⟨address, inside⟩
      right
      have past : (Request.batch dev isRead k desc).PastEnd vol := by
        simpa only [Request.PastEnd, not_forall, Nat.not_le, exists_prop] using inside
      constructor
      · -- were all descriptors proper, the batch would succeed
        by_contra none_
        have proper (ent : BatchEnt) (member : ent ∈ (range k).map desc) :
            ent.proper = true := by
          obtain ⟨i, below, rfl⟩ := mem_map.mp member
          by_contra bad
          exact none_ ⟨i, mem_range.mp below, Bool.eq_false_iff.mpr bad⟩
        have failed := refuses past _ (runs_bind.mpr ⟨_, (), nvmeBatchRw_yes proper, rfl, rfl⟩)
        cases failed
      · intro i below good
        have placed : desc i ∈ ((range k).map desc).takeWhile
            (·.accepted (allMapped : Memory σ)) :=
          mem_takeWhile_range.mpr ⟨i, below, fun j inside =>
            (accepted_allMapped _).trans (good j inside), rfl⟩
        obtain ⟨n, short, here⟩ := getElem_of_mem placed
        have covers := (asks.1 _ (mem_mapIdx.mpr ⟨n, short, rfl⟩)).2
        rw [here] at covers
        have whole : ((desc i).sqe (allMapped : Memory σ) vol (!isRead) n).cdw12 + 1 =
            (desc i).sectors :=
          Nat.succ_pred_eq_of_pos (accepted_pos (mem_takeWhile_imp placed))
        rw [whole] at covers
        exact covers

end Main

/-- Two volumes of eight sectors, one behind the other. -/
def demoNeighbours : Service Unit where
  volumes := [⟨1, 0, 8, .nvme⟩, ⟨1, 8, 8, .nvme⟩]
  cache := ⟨true, fun _ => ⟨false, 0, 0, 0⟩, fun _ _ => (), none, 0⟩
  rr := 0

theorem demoNeighbours_served : Served .nvme demoNeighbours := by
  refine .start ?_ fun _ => rfl
  intro vol member
  rcases mem_pair.mp member with rfl | rfl <;> decide

/-- A volume that a partition table puts across the last sector number. -/
def demoWrapped : Service Unit := { demoNeighbours with volumes := [⟨1, 0xFFFFFFF8, 16, .nvme⟩] }

end MorionOS.Blk
