import MorionOS.Blk.Partitions

/-!
# Two scanners for one disk

`vol_scan_attached` finds the volumes of a disk behind a driver (AHCI or USB), and
`vol_scan_namespace` those of an NVMe namespace.  They differ where the MBR announces a GPT: the
first one does not look at the signature of the header, takes only entries that divide a sector,
and registers the whole disk when it finds nothing, which the second one then does not.
`Image.partitions` is what a disk has in its array of entries, `scanners_agree_iff` says on
which disks the scanners register the same, and `protective_mbr_alone_differs` is one on which
they do not.
-/

namespace MorionOS.Blk

open Dialogue List Volume

/-- The sectors of a disk; some cannot be read. -/
abbrev Image : Type := Nat → Option Bytes

namespace Image

/-- One sector in the scratch page.  A read that failed fails again, so the first one is not repeated. -/
def read (image : Image) (lba : Nat) : Option Bytes :=
  (image lba).map fun sector i => if i < NVME_SECTOR_SIZE then sector i else 0

/-- The answer of a namespace with these sectors, which is only read. -/
def answer (image : Image) : Query Bytes → Answer Bytes
  | .nvme _ sqe _ =>
    ⟨!sqe.write && (range (sqe.cdw12 + 1)).all fun i => (image (sqe.cdw10 + i)).isSome,
      fun i => if i ≤ sqe.cdw12 then image (sqe.cdw10 + i) else none⟩
  | _ => .refused

/-- What a program returns for the disk. -/
def run {α : Type} (image : Image) (program : Program Bytes α) : α :=
  (program.exec (fun s query => (image.answer query, s)) ()).1

end Image

/-- The queue of a service whose scratch page is mapped. -/
structure ScratchIo extends NvmeIo where
  mapped : phys VOL_SCRATCH_VADDR ≠ 0

/-- Where a volume starts and how long it is. -/
def Volume.part (vol : Volume) : Nat × Nat := (vol.startLba, vol.sectors)

/-- The loop of `vol_scan_attached_gpt`, sector by sector, with `left` entries to go. -/
def attachedEntries (image : Image) (entriesLba esize : Nat) : Nat → Nat → Nat → List (Nat × Nat)
  | 0, _, _ => []
  | turns + 1, left, idx =>
    let sec := entriesLba + idx * esize / 512
    if left = 0 ∨ 2 ^ 32 - 1 < sec then []
    else
      match image.read sec with
      | none => []
      | some sector =>
        (range' idx (min (512 / esize) left)).flatMap
            (fun i => (gptVolume 0 sector (i * esize % 512)).toList.map part) ++
          attachedEntries image entriesLba esize turns (left - 512 / esize) (idx + 512 / esize)

/-- What `vol_scan_attached_gpt` asks of the header. -/
abbrev attachedHeader (header : Bytes) : Prop :=
  readU64 header 0x48 ≠ 0 ∧ readU32 header 0x50 ≠ 0 ∧ readU32 header 0x50 ≤ 128 ∧
    128 ≤ readU32 header 0x54 ∧ readU32 header 0x54 ≤ 512 ∧ 512 % readU32 header 0x54 = 0

def volScanAttachedGpt (image : Image) : List (Nat × Nat) :=
  match image.read 1 with
  | none => []
  | some header =>
    if attachedHeader header then
      attachedEntries image (readU64 header 0x48) (readU32 header 0x54) (readU32 header 0x50) (readU32 header 0x50) 0
    else []

/-- The volumes that `vol_scan_attached` pushes. -/
def volScanAttached (image : Image) (totalSectors : Nat) (backend : Backend) : List Volume :=
  let parts := match image.read 0 with
    | none => []
    | some sector =>
      if protectiveMbr sector then volScanAttachedGpt image
      else (range 4).filterMap fun i =>
        let entry := mbrEntry sector i
        if bootSig sector && entry.legal then some (entry.start, entry.count) else none
  (if parts.isEmpty then [(0, totalSectors)] else parts).map fun part => ⟨0, part.1, part.2, backend⟩

/-! ## Running the other scanner -/

variable {io : ScratchIo} {namespaces : Namespaces} {nsid lba esize idx : Nat} {image : Image}

theorem run_bind {α β : Type} (program : Program Bytes α) (next : α → Program Bytes β) :
    image.run (program >>= next) = image.run (next (image.run program)) := by
  induction program with
  | ret value => rfl
  | ask question rest ih => exact ih _

theorem run_read (small : lba < 2 ^ 32) : image.run (io.read nsid lba 1) = image.read lba := by
  have asks : ∃ sqe data, (io.rw false nsid lba 1 fun _ => 0) = query (.nvme io.queue sqe data) ∧
      sqe.write = false ∧ sqe.cdw10 = lba ∧ sqe.cdw12 = 0 := by
    simp only [NvmeIo.rw, nvmeRwSectors, if_neg io.mapped, Nat.mod_eq_of_lt small]
    exact ⟨_, _, rfl, rfl, rfl, rfl⟩
  obtain ⟨sqe, data, eq, read, rfl, size⟩ := asks
  rw [NvmeIo.read, eq, run_bind]
  cases found : image sqe.cdw10 with
  | none => simp [query, Image.run, exec, pure, Image.answer, Image.read, found, size]
  | some sector =>
    simp [query, Image.run, exec, pure, Image.answer, Image.read, found, read, size]
    funext i
    by_cases inside : i < NVME_SECTOR_SIZE
    · simp [inside, Nat.div_eq_of_lt, Nat.mod_eq_of_lt, found]
    · simp [inside, show NVME_SECTOR_SIZE ≠ 0 by decide]

/-! ## The partitions of a disk -/

/-- Entry `i` lies in one sector, and the sector has a number. -/
def Within (lba esize i : Nat) : Prop := lba + i * esize / 512 ≤ 2 ^ 32 - 1 ∧ i * esize % 512 + esize ≤ 512

instance : Decidable (Within lba esize idx) := inferInstanceAs (Decidable (_ ∧ _))

/-- The partitions of these entries, up to the first sector that cannot be read. -/
def Image.listed (image : Image) (lba esize : Nat) (entries : List Nat) : List (Nat × Nat) :=
  ((entries.filter fun i => decide (Within lba esize i)).takeWhile fun i =>
      (image.read (lba + i * esize / 512)).isSome).flatMap fun i =>
    ((image.read (lba + i * esize / 512)).bind fun sector => gptVolume 0 sector (i * esize % 512)).toList.map part

theorem listed_cons_of_not_within (skip : ¬ Within lba esize idx) (entries : List Nat) :
    image.listed lba esize (idx :: entries) = image.listed lba esize entries := by
  rw [Image.listed, filter_cons_of_neg (by simpa using skip)]
  rfl

theorem listed_cons_of_within (within : Within lba esize idx) (entries : List Nat) :
    image.listed lba esize (idx :: entries) = match image.read (lba + idx * esize / 512) with
      | none => []
      | some sector => (gptVolume 0 sector (idx * esize % 512)).toList.map part ++
          image.listed lba esize entries := by
  rw [Image.listed, filter_cons_of_pos (by simpa using within), takeWhile_cons]
  cases found : image.read (lba + idx * esize / 512) with
  | none => rfl
  | some sector => simp [found, Image.listed]

theorem gptVolume_part (nsid : Nat) (sector : Bytes) (off : Nat) :
    (gptVolume nsid sector off).toList.map part = (gptVolume 0 sector off).toList.map part := by
  rw [gptVolume, gptVolume]
  split_ifs <;> rfl

/-- The loop of `vol_scan_gpt` finds the partitions. -/
theorem run_scanGptEntries (io : ScratchIo) (nsid left : Nat) :
    (image.run (scanGptEntries io.toNvmeIo nsid lba esize left idx)).map part =
      image.listed lba esize (range' idx left) := by
  induction left generalizing idx with
  | zero => rfl
  | succ left ih =>
    rw [scanGptEntries, range'_succ]
    by_cases within : Within lba esize idx
    · obtain ⟨small, inside⟩ := id within
      rw [if_neg (by omega), run_bind, run_read (by omega), listed_cons_of_within within]
      cases image.read (lba + idx * esize / 512) with
      | none => rfl
      | some sector =>
        dsimp only
        rw [run_bind, ← ih, ← gptVolume_part nsid]
        exact map_append ..
    · rw [if_pos (by unfold Within at within; omega), ih, listed_cons_of_not_within within]

/-- The entries of one sector. -/
theorem listed_sector {sector : Bytes} {sec : Nat} (found : image.read sec = some sector)
    (small : sec < 2 ^ 32) (positive : 0 < esize) (k left : Nat)
    (here : 0 < k → lba + idx * esize / 512 = sec) (inside : idx * esize % 512 + k * esize ≤ 512) :
    image.listed lba esize (range' idx (k + left)) =
      (range' idx k).flatMap (fun i => (gptVolume 0 sector (i * esize % 512)).toList.map part) ++
        image.listed lba esize (range' (idx + k) left) := by
  induction k generalizing idx with
  | zero => simp
  | succ k ih =>
    have next : (idx + 1) * esize = idx * esize + esize := Nat.succ_mul ..
    have room : 0 < k → esize ≤ k * esize := Nat.le_mul_of_pos_left _
    have first := here k.succ_pos
    rw [Nat.succ_mul] at inside
    have rest := @ih (idx + 1) (by omega) (by omega)
    rw [Nat.add_right_comm, range'_succ, listed_cons_of_within ⟨by omega, by omega⟩, first, found, rest,
      range'_succ, flatMap_cons, append_assoc, Nat.add_right_comm]
    rfl

/-- Behind the sectors that can be named nothing is read. -/
theorem listed_beyond (far : 2 ^ 32 - 1 < lba + idx * esize / 512) (left : Nat) :
    image.listed lba esize (range' idx left) = [] := by
  induction left generalizing idx with
  | zero => rfl
  | succ left ih =>
    have next : idx * esize / 512 ≤ (idx + 1) * esize / 512 :=
      Nat.div_le_div_right (Nat.mul_le_mul_right _ idx.le_succ)
    rw [range'_succ, listed_cons_of_not_within fun within => Nat.not_lt.mpr within.1 far, ih (by omega)]

/-- The loop of `vol_scan_attached_gpt` finds the partitions as well. -/
theorem attachedEntries_eq {turns left : Nat} (whole : 512 / esize * esize = 512)
    (aligned : idx * esize % 512 = 0) (enough : left ≤ turns) :
    attachedEntries image lba esize turns left idx = image.listed lba esize (range' idx left) := by
  induction turns generalizing left idx with
  | zero =>
    obtain rfl := Nat.le_zero.mp enough
    rfl
  | succ turns ih =>
    have positive : 0 < esize := Nat.pos_of_ne_zero fun zero => by simp [zero] at whole
    have per : 0 < 512 / esize := Nat.pos_of_ne_zero fun zero => by simp [zero] at whole
    have step : (idx + 512 / esize) * esize = idx * esize + 512 := by rw [Nat.add_mul, whole]
    rw [attachedEntries]
    split
    next out =>
      rcases out with rfl | far
      · rfl
      · rw [listed_beyond far]
    next there =>
      cases found : image.read (lba + idx * esize / 512) with
      | none =>
        obtain ⟨left, rfl⟩ := Nat.exists_eq_succ_of_ne_zero (not_or.mp there).1
        have size : esize ≤ 512 := whole ▸ Nat.le_mul_of_pos_left _ per
        rw [range'_succ, listed_cons_of_within ⟨by omega, by omega⟩, found]
      | some sector =>
        have fits : min (512 / esize) left * esize ≤ 512 :=
          (Nat.mul_le_mul_right _ (Nat.min_le_left ..)).trans whole.le
        have split := @listed_sector lba esize idx image sector _ found (by omega) positive
          (min (512 / esize) left) (left - 512 / esize) (fun _ => rfl) (by omega)
        rw [show min (512 / esize) left + (left - 512 / esize) = left by omega] at split
        simp only [split, @ih (idx + 512 / esize) (left - 512 / esize) (by omega) (by omega)]
        -- the last sector may have room for more entries than are left
        rcases Nat.le_total (512 / esize) left with full | last
        · rw [Nat.min_eq_left full]
        · rw [Nat.sub_eq_zero_of_le last]
          rfl

/-! ## Both scanners -/

variable (io namespaces nsid image)

/-- What `vol_scan_namespace` registers for the disk. -/
def Image.registered : List (Nat × Nat) :=
  (image.run (volScanNamespace io.toNvmeIo namespaces nsid)).map part

/-- What `vol_scan_gpt` asks of the header: the signature, the sizes, and where the array begins. -/
abbrev namespaceHeader (header : Bytes) : Prop :=
  takeBytes header 8 = [0x45, 0x46, 0x49, 0x20, 0x50, 0x41, 0x52, 0x54] ∧ 128 ≤ readU32 header 0x54 ∧
    readU32 header 0x50 ≠ 0 ∧ readU32 header 0x50 ≤ 128 ∧ readU64 header 0x48 ≤ 2 ^ 32 - 1

/-- The partitions in the array that the header describes. -/
def Image.partitions (header : Bytes) : List (Nat × Nat) :=
  image.listed (readU64 header 0x48) (readU32 header 0x54) (range' 0 (readU32 header 0x50))

/-- The disks on which the scanners agree: sector 0 can be read, and if it announces a GPT, there is one with
a partition before any sector that cannot be read, and the header is one for both scanners or the only
partition is the whole disk. -/
def Image.Alike (total : Nat) : Prop :=
  ∃ sector, image.read 0 = some sector ∧ (protectiveMbr sector → ∃ header, image.read 1 = some header ∧
    namespaceHeader header ∧ image.partitions header ≠ [] ∧
      (attachedHeader header ∨ image.partitions header = [(0, total)]))

/-- What `vol_scan_gpt` registers are the partitions behind a header that it takes. -/
theorem run_volScanGpt : (image.run (volScanGpt io.toNvmeIo nsid)).map part = match image.read 1 with
    | none => []
    | some header => if namespaceHeader header then image.partitions header else [] := by
  rw [volScanGpt, run_bind, run_read (by decide)]
  cases image.read 1 with
  | none => rfl
  | some header =>
    dsimp only
    by_cases taken : namespaceHeader header
    · rw [if_pos taken, if_neg (by simp only [not_or, not_lt, not_not]; exact taken), run_scanGptEntries]
      rfl
    · rw [if_neg taken, if_pos]
      · rfl
      · by_contra good
        simp only [not_or, not_lt, not_not] at good
        exact taken good

theorem volScanAttachedGpt_eq : volScanAttachedGpt image = match image.read 1 with
    | none => []
    | some header => if attachedHeader header then image.partitions header else [] := by
  rw [volScanAttachedGpt]
  cases image.read 1 with
  | none => rfl
  | some header =>
    dsimp only
    split
    next taken =>
      have whole := Nat.div_mul_cancel (Nat.dvd_of_mod_eq_zero taken.2.2.2.2.2)
      rw [attachedEntries_eq whole (by rw [Nat.zero_mul]) le_rfl, Image.partitions]
    · rfl

/-- **Where the scanners agree.** -/
theorem scanners_agree_iff (backend : Backend) :
    (volScanAttached image (nvmeNsSectorsOf namespaces nsid) backend).map part =
      image.registered io namespaces nsid ↔ image.Alike (nvmeNsSectorsOf namespaces nsid) := by
  have parts (found : List (Nat × Nat)) :
      (found.map fun part => (⟨0, part.1, part.2, backend⟩ : Volume)).map part = found := by
    rw [map_map]
    exact map_id found
  rw [volScanAttached, parts, Image.Alike, Image.registered, volScanNamespace, run_bind, run_read (by decide)]
  cases image.read 0 with
  | none => simp [Image.run, exec, pure]
  | some sector =>
    simp only [Option.some.injEq, exists_eq_left']
    have some_ (parts : List (Nat × Nat)) :
        (if parts.isEmpty then [(0, nvmeNsSectorsOf namespaces nsid)] else parts) ≠ [] := by
      cases parts <;> exact cons_ne_nil _ _
    by_cases gpt : protectiveMbr sector
    · simp only [gpt, if_true, true_imp_iff, run_volScanGpt, volScanAttachedGpt_eq]
      cases image.read 1 with
      | none => simp
      | some header =>
        simp only [Option.some.injEq, exists_eq_left']
        by_cases here : namespaceHeader header
        · rw [if_pos here, and_iff_right here]
          by_cases there : attachedHeader header
          · rw [if_pos there, and_iff_left (.inl there)]
            cases image.partitions header <;> simp
          · rw [if_neg there, or_iff_right there, if_pos isEmpty_nil]
            exact ⟨fun same => same ▸ ⟨cons_ne_nil _ _, rfl⟩, fun alike => alike.2.symm⟩
        · rw [if_neg here]
          exact iff_of_false (some_ _) fun alike => here alike.1
    · simp [gpt, Image.run, exec, pure, mbrVolumes, apply_ite (map part), map_filterMap,
        part]

/-- A protective MBR and nothing behind it. -/
def demoImage : Image := fun lba => some fun i =>
  if lba ≠ 0 then 0 else if i = 450 then PART_MBR_TYPE_PROTECTIVE else if i = 510 then 0x55 else if i = 511 then 0xAA else 0

def demoScratchIo : ScratchIo := ⟨⟨id, 0⟩, by decide⟩

/-- On AHCI the disk is one volume, as a namespace it has none. -/
theorem protective_mbr_alone_differs :
    volScanAttached demoImage 4096 .ahci = [⟨0, 0, 4096, .ahci⟩] ∧
      demoImage.registered demoScratchIo [(1, 4096)] 1 = [] := by
  decide +kernel

end MorionOS.Blk
