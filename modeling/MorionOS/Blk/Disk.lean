import Mathlib.Data.List.TakeWhile
import MorionOS.Blk.Footprint

/-!
# What the commands do to the disk

An environment for the block service in which every command is over when its answer is
taken (`Completions` says when that is so): it succeeded and moved all its sectors, or it
failed and moved some of them.  Which, is the outcome given for each query of a request,
in the order in which they are asked.

The results say what a request can have changed: sectors of its own range only, and only
those that its commands moved.
-/

namespace MorionOS.Blk

open Dialogue List Triple

/-- What becomes of the commands of one query: whether all succeed, and which sectors of
which command are moved when not. -/
structure Outcome where
  ok : Bool
  reached : Nat → Nat → Bool

/-- The sector is moved: all are when the command succeeds. -/
def Outcome.moves (outcome : Outcome) (command i : Nat) : Bool :=
  outcome.ok || outcome.reached command i

variable {σ : Type}

/-- The contents of the namespaces, and how many queries of this request were asked. -/
structure Disk (σ : Type) where
  content : Nat → Nat → σ
  asked : Nat

/-- The contents after a write command that moved these sectors. -/
def Sqe.applied (sqe : Sqe) (data : Nat → σ) (moved : Nat → Bool) (content : Nat → Nat → σ) :
    Nat → Nat → σ := fun nsid sector =>
  if nsid = sqe.nsid ∧ sqe.cdw10 ≤ sector ∧ sector - sqe.cdw10 ≤ sqe.cdw12 ∧
      moved (sector - sqe.cdw10) = true then
    data (sector - sqe.cdw10)
  else
    content nsid sector

/-- The commands of a batch, the first of them with number `first`. -/
def appliedAll (outcome : Outcome) :
    Nat → List (Sqe × (Nat → σ)) → (Nat → Nat → σ) → Nat → Nat → σ
  | _, [], content => content
  | first, (sqe, data) :: rest, content =>
    appliedAll outcome (first + 1) rest
      (if sqe.write then sqe.applied data (outcome.moves first) content else content)

/-- What the disk makes of a query.  The drivers' disks are other disks. -/
def Disk.respond (outcomes : Nat → Outcome) (disk : Disk σ) : Query σ → Answer σ × Disk σ
  | .nvme _ sqe data =>
    let outcome := outcomes disk.asked
    if sqe.write then
      (⟨outcome.ok, fun _ => none⟩,
        ⟨sqe.applied data (outcome.moves 0) disk.content, disk.asked + 1⟩)
    else
      (⟨outcome.ok, fun i =>
          if i ≤ sqe.cdw12 ∧ outcome.moves 0 i = true then
            some (disk.content sqe.nsid (sqe.cdw10 + i))
          else
            none⟩,
        { disk with asked := disk.asked + 1 })
  | .batch sqes whole =>
    let outcome := outcomes disk.asked
    if whole then
      (⟨outcome.ok, fun _ => none⟩,
        ⟨appliedAll outcome 0 sqes disk.content, disk.asked + 1⟩)
    else
      (.refused, { disk with asked := disk.asked + 1 })
  | .driver .. => (⟨(outcomes disk.asked).ok, fun _ => none⟩, { disk with asked := disk.asked + 1 })
  | .ide .. => (⟨(outcomes disk.asked).ok, fun _ => none⟩, { disk with asked := disk.asked + 1 })

/-- The disk as an environment. -/
def diskEnv (outcomes : Nat → Outcome) (disk : Disk σ) (query : Query σ) (answer : Answer σ)
    (disk' : Disk σ) : Prop :=
  answer = (disk.respond outcomes query).1 ∧ disk' = (disk.respond outcomes query).2

section Single

variable {outcomes : Nat → Outcome} {mem : Memory σ} {queue nsid lba count buf asked : Nat}
  {content : Nat → Nat → σ}

/-- A read moves sectors into the buffer and changes nothing on the disk. -/
theorem nvmeRwSectors_read :
    Triple (diskEnv outcomes) (fun disk => disk.content = content ∧ disk.asked = asked)
      (nvmeRwSectors mem queue false nsid lba count buf)
      (fun answer disk => disk.content = content ∧ (answer = .refused ∨
        answer.ok = (outcomes asked).ok ∧ ∀ i, answer.got i =
          if i < count ∧ (outcomes asked).moves 0 i = true then
            some (content nsid (lba + i))
          else
            none)) := by
  rcases nvmeRwSectors_cases mem queue false nsid lba count buf with ⟨-, eq⟩ | ⟨some_, second, eq⟩
  · rw [eq]
    exact ret fun disk before => ⟨before.1, .inl rfl⟩
  · rw [eq]
    refine query ?_
    rintro disk _ _ ⟨rfl, rfl⟩ ⟨rfl, rfl⟩
    refine ⟨rfl, .inr ⟨rfl, fun i => ?_⟩⟩
    have same : i ≤ count - 1 ↔ i < count := by omega
    simp [Disk.respond, same]

/-- What a write of `count` sectors can change: sectors of its range that were moved. -/
def Changed (nsid lba count : Nat) (moved : Nat → Bool) (before after : Nat → Nat → σ) : Prop :=
  ∀ ns sector, after ns sector ≠ before ns sector →
    ns = nsid ∧ lba ≤ sector ∧ sector < lba + count ∧ moved (sector - lba) = true

theorem Sqe.applied_changed (sqe : Sqe) (data : Nat → σ) (moved : Nat → Bool)
    (content : Nat → Nat → σ) :
    Changed sqe.nsid sqe.cdw10 (sqe.cdw12 + 1) moved content (sqe.applied data moved content) := by
  intro ns sector differs
  unfold Sqe.applied at differs
  split at differs
  next inside => exact ⟨inside.1, inside.2.1, by omega, inside.2.2.2⟩
  · exact absurd rfl differs

/-- A write that passes the checks succeeds when its command does. -/
theorem nvmeRwSectors_write :
    Triple (diskEnv outcomes) (fun disk => disk.content = content ∧ disk.asked = asked)
      (nvmeRwSectors mem queue true nsid lba count buf) (fun answer disk =>
        (answer.ok = false ∧ disk.content = content ∧
          ¬(0 < count ∧ count ≤ NVME_MAX_SECTORS ∧ mem.maps buf count = true)) ∨
        (answer.ok = (outcomes asked).ok ∧ disk.asked = asked + 1 ∧
          Changed nsid lba count ((outcomes asked).moves 0) content disk.content)) := by
  rcases nvmeRwSectors_cases mem queue true nsid lba count buf with ⟨bad, eq⟩ | ⟨some_, second, eq⟩
  · rw [eq]
    exact ret fun disk before => .inl ⟨rfl, before.1, bad⟩
  · rw [eq]
    refine query ?_
    rintro disk _ _ ⟨rfl, rfl⟩ ⟨rfl, rfl⟩
    refine .inr ⟨rfl, rfl, ?_⟩
    have whole : count - 1 + 1 = count := by omega
    have changed := Sqe.applied_changed ⟨true, 5, nsid, mem.phys buf, second, lba, count - 1⟩
      (mem.buffer buf) ((outcomes disk.asked).moves 0) disk.content
    rw [whole] at changed
    exact changed

end Single

/-! ## Direct writes -/

/-- The `k`-th sector of a direct transfer is moved: every segment before its own
succeeded, and its own moved it. -/
def movedBy (outcomes : Nat → Outcome) (k : Nat) : Bool :=
  ((range (k / NVME_MAX_SECTORS)).all fun j => (outcomes j).ok) &&
    (outcomes (k / NVME_MAX_SECTORS)).moves 0 (k % NVME_MAX_SECTORS)

/-- Every segment passes the checks and succeeds. -/
def Succeeds (mem : Memory σ) (outcomes : Nat → Outcome) (buf total : Nat) : Prop :=
  ∀ j, j * NVME_MAX_SECTORS < total → (outcomes j).ok = true ∧
    mem.maps ((buf + j * NVME_MAX_SECTORS * NVME_SECTOR_SIZE) % 2 ^ 64)
      (min (total - j * NVME_MAX_SECTORS) NVME_MAX_SECTORS) = true

theorem saturatingAdd_eq {a b : Nat} (small : a + b < 2 ^ 32) : saturatingAdd a b = a + b :=
  Nat.min_eq_left (by omega)

variable {outcomes : Nat → Outcome}

/-- One more segment changes sectors that `movedBy` counts. -/
theorem Changed.segment {nsid base total j : Nat} {before mid after : Nat → Nat → σ}
    (changed : Changed nsid base total (movedBy outcomes) before mid)
    (good : ∀ i < j, (outcomes i).ok = true) (last : Changed nsid (base + j * NVME_MAX_SECTORS)
      (min (total - j * NVME_MAX_SECTORS) NVME_MAX_SECTORS) ((outcomes j).moves 0) mid after) :
    Changed nsid base total (movedBy outcomes) before after := by
  intro ns sector differs
  by_cases here : after ns sector = mid ns sector
  · exact changed ns sector (here ▸ differs)
  · obtain ⟨same, low, high, moved⟩ := last ns sector here
    obtain ⟨i, rfl⟩ : ∃ i, sector = base + j * NVME_MAX_SECTORS + i := Nat.exists_eq_add_of_le low
    have index : base + j * NVME_MAX_SECTORS + i - base = i + j * NVME_MAX_SECTORS := by omega
    have short : i < NVME_MAX_SECTORS := by omega
    refine ⟨same, by omega, by omega, ?_⟩
    rw [Nat.add_sub_cancel_left] at moved
    rw [index, movedBy, Nat.add_mul_div_right i j (by decide), Nat.div_eq_of_lt short, Nat.zero_add,
      Nat.add_mul_mod_self_right, Nat.mod_eq_of_lt short, moved, Bool.and_true]
    simpa using good

theorem segments_write {mem : Memory σ} {vol : Volume} {base total buf : Nat}
    (small : base + total ≤ 2 ^ 32) {content : Nat → Nat → σ} (turns done j rr : Nat)
    (place : done < total → done = j * NVME_MAX_SECTORS) (good : ∀ i < j, (outcomes i).ok = true) :
    Triple (diskEnv outcomes)
      (fun disk => (done < total → disk.asked = j) ∧
        Changed vol.nsid base total (movedBy outcomes) content disk.content)
      (segments mem vol true base total buf turns done rr)
      (fun result disk => Changed vol.nsid base total (movedBy outcomes) content disk.content ∧
        (Succeeds mem outcomes buf total → result.1 = true)) := by
  induction turns generalizing done j rr with
  | zero => exact ret fun disk before => ⟨before.2, fun _ => rfl⟩
  | succ turns ih =>
    unfold segments
    split
    · exact ret fun disk before => ⟨before.2, fun _ => rfl⟩
    next inside =>
      obtain rfl := place (by omega)
      have wrapped : j * NVME_MAX_SECTORS % 2 ^ 32 = j * NVME_MAX_SECTORS :=
        Nat.mod_eq_of_lt (by omega)
      rw [wrapped, saturatingAdd_eq (by omega)]
      intro disk result disk' before run
      obtain ⟨answer, mid, head, tail⟩ := runs_bind.mp run
      have asked := before.1 (by omega)
      rcases nvmeRwSectors_write disk answer mid ⟨rfl, asked⟩ head with
        ⟨failed, same, refused⟩ | ⟨status, next, changed⟩
      · rw [failed, if_neg Bool.false_ne_true] at tail
        obtain ⟨rfl, rfl⟩ := tail
        refine ⟨same ▸ before.2, fun succeeds => absurd ?_ refused⟩
        exact ⟨by unfold NVME_MAX_SECTORS at *; omega, Nat.min_le_right _ _,
          (succeeds j (by omega)).2⟩
      · have changed' := before.2.segment good changed
        split at tail
        next ok =>
          refine ih _ (j + 1) _ ?_ ?_ mid result disk' ⟨fun _ => next, changed'⟩ tail
          · intro more
            unfold NVME_MAX_SECTORS at *
            omega
          · intro i below
            rcases Nat.lt_succ_iff_lt_or_eq.mp below with early | rfl
            · exact good i early
            · exact status ▸ ok
        next failed =>
          obtain ⟨rfl, rfl⟩ := tail
          refine ⟨changed', fun succeeds => absurd ?_ failed⟩
          rw [status]
          exact (succeeds j (by omega)).1

/-! ## Batches -/

/-- What a batch can change: sectors of its descriptors that were moved. -/
def BatchChanged (vol : Volume) (ents : List BatchEnt) (outcome : Outcome)
    (before after : Nat → Nat → σ) : Prop :=
  ∀ ns sector, after ns sector ≠ before ns sector → ns = vol.nsid ∧
    ∃ i ent, ents[i]? = some ent ∧ vol.startLba + ent.lba ≤ sector ∧
      sector < vol.startLba + ent.lba + ent.sectors ∧
      outcome.moves i (sector - (vol.startLba + ent.lba)) = true

theorem appliedAll_changed (outcome : Outcome) (first : Nat) (sqes : List (Sqe × (Nat → σ)))
    (content : Nat → Nat → σ) (ns sector : Nat)
    (differs : appliedAll outcome first sqes content ns sector ≠ content ns sector) :
    ∃ i sqe data, sqes[i]? = some (sqe, data) ∧ ns = sqe.nsid ∧ sqe.cdw10 ≤ sector ∧
      sector < sqe.cdw10 + (sqe.cdw12 + 1) ∧
      outcome.moves (first + i) (sector - sqe.cdw10) = true := by
  induction sqes generalizing first content with
  | nil => exact absurd rfl differs
  | cons entry rest ih =>
    obtain ⟨sqe, data⟩ := entry
    by_cases later : (if sqe.write then sqe.applied data (outcome.moves first) content else content)
        ns sector = content ns sector
    · rw [← later] at differs
      obtain ⟨i, other, bytes, found, facts⟩ := ih (first + 1) _ differs
      rw [Nat.add_assoc, Nat.add_comm 1] at facts
      exact ⟨i + 1, other, bytes, by simpa using found, facts⟩
    · split at later
      · exact ⟨0, sqe, data, rfl, sqe.applied_changed data _ content ns sector later⟩
      · exact absurd rfl later

theorem nvmeBatchRw_write {mem : Memory σ} {vol : Volume} {ents : List BatchEnt}
    (small : ∀ ent ∈ ents, vol.startLba + ent.lba + ent.sectors ≤ 2 ^ 32) {content : Nat → Nat → σ} :
    Triple (diskEnv outcomes) (fun disk => disk.content = content ∧ disk.asked = 0)
      (nvmeBatchRw mem vol true ents)
      (fun answer disk => BatchChanged vol ents (outcomes 0) content disk.content ∧
        ((∀ ent ∈ ents, ent.accepted mem = true) → answer.ok = (outcomes 0).ok)) := by
  intro disk result disk' before run
  obtain ⟨answer, mid, ⟨_, _, ⟨rfl, rfl⟩, rfl, rfl⟩, rfl, rfl⟩ := runs_bind.mp run
  obtain ⟨rfl, zero⟩ := before
  simp only [Disk.respond, zero]
  split
  · refine ⟨?_, fun _ => rfl⟩
    intro ns sector differs
    obtain ⟨i, sqe, data, found, same, low, high, moved⟩ :=
      appliedAll_changed _ _ _ _ ns sector differs
    rw [getElem?_mapIdx] at found
    obtain ⟨ent, here, eq⟩ := Option.map_eq_some_iff.mp found
    cases eq
    have accepted := mem_takeWhile_imp (mem_of_getElem? here)
    have inside : ents[i]? = some ent := by
      obtain ⟨short, -⟩ := List.getElem?_eq_some_iff.mp here
      rw [← takeWhile_append_dropWhile (p := (·.accepted mem)) (l := ents),
        getElem?_append_left short]
      exact here
    have sized := BatchEnt.accepted_pos accepted
    have fits := small ent (mem_of_getElem? inside)
    have start : saturatingAdd vol.startLba (ent.lba % 2 ^ 32) = vol.startLba + ent.lba := by
      rw [Nat.mod_eq_of_lt (by omega), saturatingAdd_eq (by omega)]
    simp only [BatchEnt.sqe, start, Nat.zero_add] at same low high moved
    exact ⟨same, i, ent, inside, low, by omega, moved⟩
  · refine ⟨fun ns sector differs => absurd rfl differs, fun all => ?_⟩
    rename_i half
    rw [takeWhile_eq_self_iff.mpr all] at half
    exact absurd (beq_self_eq_true _) half

end MorionOS.Blk
