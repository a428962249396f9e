import MorionOS.Blk.Disk
import MorionOS.Blk.Partitions

/-!
# What a partition request leaves of the other volumes

A change of a partition table rebuilds the volume table from all disks.  The volumes of
the other disks and the attached ones come out of the rebuilding as they were, in the
same order, so the table consists of three parts: the volumes of the disks that are
scanned before the changed one, its own volumes, and everything behind them.  Only the
part in the middle changes.

Therefore a volume of another disk keeps its start and size, but its number moves with
the number of volumes before it (`volumes_elsewhere_kept`), and a service that goes by
the number can meet another partition (`create_renumbers_volumes`).

The disk that is changed may fail and hold anything; the other disks are read without
error.
-/

namespace MorionOS.Blk

open Dialogue List Asks Triple NvmeIo

/-- The contents of the namespaces. -/
abbrev Contents : Type := Nat → Nat → Bytes

/-- What a read command finds. -/
def Sqe.found (sqe : Sqe) (content : Contents) : Answer Bytes :=
  ⟨true, fun i => if i ≤ sqe.cdw12 then some (content sqe.nsid (sqe.cdw10 + i)) else none⟩

/-- Disks without errors. -/
def obey (content : Contents) : Query Bytes → Answer Bytes × Contents
  | .nvme _ sqe data =>
    if sqe.write then
      (⟨true, fun _ => none⟩, sqe.applied data (fun _ => true) content)
    else
      (sqe.found content, content)
  | _ => (.refused, content)

/-- Only this disk may fail; what its commands do to it is left open. -/
def mayFail (disk : Nat) (content : Contents) (query : Query Bytes) (answer : Answer Bytes)
    (content' : Contents) : Prop :=
  match query with
  | .nvme _ sqe _ =>
    if sqe.nsid = disk then
      ∀ nsid, nsid ≠ disk → content' nsid = content nsid
    else
      (answer, content') = obey content query
  | _ => (answer, content') = obey content query

theorem Sqe.applied_others (sqe : Sqe) (data : Nat → Bytes) (moved : Nat → Bool)
    (content : Contents) {nsid : Nat} (other : nsid ≠ sqe.nsid) :
    sqe.applied data moved content nsid = content nsid := by
  funext sector
  exact if_neg fun inside => other inside.1

theorem obey_mayFail (disk : Nat) (content : Contents) (query : Query Bytes) :
    mayFail disk content query (obey content query).1 (obey content query).2 := by
  cases query with
  | nvme queue sqe data =>
    unfold mayFail
    dsimp only
    split
    next own =>
      intro nsid other
      dsimp only [obey]
      split
      · exact sqe.applied_others data (fun _ => true) content (own ▸ other)
      · rfl
    · rfl
  | _ => rfl

/-- The other disks hold the same. -/
def SameElsewhere (disk : Nat) (content content' : Contents) : Prop :=
  ∀ nsid, nsid ≠ disk → content' nsid = content nsid

/-! ## Which disks are read and written -/

/-- The query is a command for this disk. -/
def Query.SentTo (nsid : Nat) : Query Bytes → Prop
  | .nvme _ sqe _ => sqe.nsid = nsid
  | _ => False

/-- The query is a read of this disk. -/
def Query.ReadsFrom (nsid : Nat) : Query Bytes → Prop
  | .nvme _ sqe _ => sqe.nsid = nsid ∧ sqe.write = false
  | _ => False

theorem Query.ReadsFrom.sentTo {nsid : Nat} (query : Query Bytes) (reads : query.ReadsFrom nsid) :
    query.SentTo nsid := by
  cases query with
  | nvme queue sqe data => exact reads.1
  | _ => exact reads

variable {io : NvmeIo} {namespaces : Namespaces} {nsid disk : Nat} {content : Contents}

theorem NvmeIo.read_asks (lba count : Nat) : (io.read nsid lba count).Asks (Query.ReadsFrom nsid) := by
  refine bind (nvmeRwSectors_asks fun query names => ?_) fun answer => asks_pure _
  cases query with
  | nvme queue sqe data => exact ⟨names.2.1, names.1⟩
  | _ => exact names

theorem NvmeIo.read_sent (lba count : Nat) : (io.read nsid lba count).Asks (Query.SentTo nsid) :=
  (read_asks lba count).imp Query.ReadsFrom.sentTo

theorem NvmeIo.write_sent (lba count : Nat) (scratch : Bytes) :
    (io.write nsid lba count scratch).Asks (Query.SentTo nsid) := by
  refine bind (nvmeRwSectors_asks fun query names => ?_) fun answer => asks_pure _
  cases query with
  | nvme queue sqe data => exact names.2.1
  | _ => exact names

theorem scanGptEntries_asks (entryLba esize left idx : Nat) :
    (scanGptEntries io nsid entryLba esize left idx).Asks (Query.ReadsFrom nsid) := by
  induction left generalizing idx with
  | zero => exact asks_pure _
  | succ left ih =>
    refine ite (ih (idx + 1)) (option (read_asks _ _) (asks_pure _) fun sector => ?_)
    exact bind (ih (idx + 1)) fun rest => asks_pure _

theorem volScanGpt_asks : (volScanGpt io nsid).Asks (Query.ReadsFrom nsid) :=
  option (read_asks _ _) (asks_pure _) fun _ =>
    ite (asks_pure _) (scanGptEntries_asks _ _ _ _)

theorem volScanNamespace_asks : (volScanNamespace io namespaces nsid).Asks (Query.ReadsFrom nsid) :=
  option (read_asks _ _) (asks_pure _) fun _ => ite volScanGpt_asks (asks_pure _)

theorem partProbeStyle_sent : (partProbeStyle io nsid).Asks (Query.SentTo nsid) :=
  option (read_sent _ _) (asks_pure _) fun _ => asks_pure _

theorem scanChunks_sent (target left c : Nat) (scan : GptScan) :
    (scanChunks io nsid target left c scan).Asks (Query.SentTo nsid) := by
  induction left generalizing c scan with
  | zero => exact asks_pure _
  | succ left ih => exact option (read_sent _ _) (asks_pure _) fun chunk => ih _ _

theorem flushChunks_sent (backup : Nat) (patch : GptPatch) (left c : Nat) (reg : UInt32) :
    (flushChunks io nsid backup patch left c reg).Asks (Query.SentTo nsid) := by
  induction left generalizing c reg with
  | zero => exact asks_pure _
  | succ left ih =>
    refine option (read_sent _ _) (asks_pure _) fun chunk => ?_
    refine bind (write_sent _ _ _) fun first => ite ?_ (asks_pure _)
    refine bind (write_sent _ _ _) fun second => ite ?_ (asks_pure _)
    exact ih _ _

theorem gptFlush_sent (cap : Nat) (patch : GptPatch) :
    (gptFlush io nsid cap patch).Asks (Query.SentTo nsid) := by
  refine option (flushChunks_sent _ _ _ _ _) (asks_pure _) fun reg => ?_
  refine bind (write_sent _ _ _) fun first => ite ?_ (asks_pure _)
  exact bind (write_sent _ _ _) fun second => asks_pure _

theorem partCreateGpt_sent (cap sizeSectors : Nat) :
    (partCreateGpt io nsid cap sizeSectors).Asks (Query.SentTo nsid) := by
  refine option (scanChunks_sent _ _ _ _) (asks_pure _) fun scan => ?_
  exact ite (asks_pure _) (bind (gptFlush_sent _ _) fun flushed => asks_pure _)

theorem partCreateMbr_sent (cap sizeSectors : Nat) :
    (partCreateMbr io nsid cap sizeSectors).Asks (Query.SentTo nsid) := by
  refine option (read_sent _ _) (asks_pure _) fun sector => ?_
  dsimp only
  cases mbrSlot sector with
  | none => exact asks_pure _
  | some slot =>
    exact ite (asks_pure _) (bind (write_sent _ _ _) fun written => asks_pure _)

theorem partCreate_sent (cap sizeSectors : Nat) (useGpt : Bool) (style : PartStyle) :
    (partCreate io nsid cap sizeSectors useGpt style).Asks (Query.SentTo nsid) := by
  cases useGpt with
  | false => exact partCreateMbr_sent _ _
  | true =>
    refine option (partCreateGpt_sent _ _) (asks_pure _) fun made => ?_
    exact ite (asks_pure _) (bind (write_sent _ _ _) fun written => asks_pure _)

theorem mbrClearTable_sent : (mbrClearTable io nsid).Asks (Query.SentTo nsid) :=
  option (read_sent _ _) (asks_pure _) fun _ => write_sent _ _ _

theorem clearSectors_sent (stop turns lba : Nat) :
    (clearSectors io nsid stop turns lba).Asks (Query.SentTo nsid) := by
  induction turns generalizing lba with
  | zero => exact asks_pure _
  | succ turns ih =>
    refine ite (bind (write_sent _ _ _) fun written => ?_) (asks_pure _)
    exact ite (ih _) (asks_pure _)

variable {α : Type}

/-- Commands for one disk leave the others alone. -/
theorem sent_keeps {program : Program Bytes α} (sent : program.Asks (Query.SentTo disk)) :
    Triple (mayFail disk) (SameElsewhere disk content) program
      (fun _ => SameElsewhere disk content) := by
  refine sent.keeps ?_
  intro query sent mid answer after same asked
  cases query with
  | nvme queue sqe data =>
    have kept : ∀ nsid, nsid ≠ disk → after nsid = mid nsid := by
      simpa [mayFail, if_pos (show sqe.nsid = disk from sent)] using asked
    exact fun nsid other => (kept nsid other).trans (same nsid other)
  | _ => exact sent.elim

/-! ## What a scan finds -/

/-- The volume lies on this NVMe disk. -/
def Volume.OnDisk (vol : Volume) (disk : Nat) : Prop := vol.backend = .nvme ∧ vol.nsid = disk

variable {sector : Bytes} {vol : Volume}

theorem gptVolume_onDisk {off : Nat}
    (found : gptVolume nsid sector off = some vol) : vol.OnDisk nsid := by
  unfold gptVolume at found
  dsimp only at found
  split at found
  · cases found
    exact ⟨rfl, rfl⟩
  · cases found

theorem mbrVolumes_onDisk
    (member : vol ∈ mbrVolumes namespaces nsid sector) : vol.OnDisk nsid := by
  unfold mbrVolumes at member
  dsimp only at member
  split at member
  · rw [mem_singleton.mp member]
    exact ⟨rfl, rfl⟩
  · obtain ⟨i, -, entry⟩ := mem_filterMap.mp member
    split at entry
    · cases entry
      exact ⟨rfl, rfl⟩
    · cases entry

section OnDisk

variable {S : Type} {env : S → Query Bytes → Answer Bytes → S → Prop}

/-- The program finds volumes of this disk only. -/
def Finds (env : S → Query Bytes → Answer Bytes → S → Prop) (nsid : Nat) (program : Program Bytes (List Volume)) :
    Prop :=
  Triple env (fun _ => True) program fun found _ => ∀ vol ∈ found, vol.OnDisk nsid

theorem Finds.nothing : Finds env nsid (pure []) := ret fun _ _ => forall_mem_nil _

theorem Finds.option {first : Program Bytes (Option α)}
    {next : Option α → Program Bytes (List Volume)} (failed : next none = pure [])
    (got : ∀ value, Finds env nsid (next (some value))) : Finds env nsid (first >>= next) := by
  refine skip fun read => ?_
  cases read with
  | none =>
    rw [failed]
    exact Finds.nothing
  | some value => exact got value

theorem scanGptEntries_finds (entryLba esize left idx : Nat) :
    Finds env nsid (scanGptEntries io nsid entryLba esize left idx) := by
  induction left generalizing idx with
  | zero => exact Finds.nothing
  | succ left ih =>
    refine ite (ih (idx + 1)) (Finds.option rfl fun sector => ?_)
    refine bind (ih (idx + 1)) fun rest => ret fun _ later => ?_
    refine forall_mem_append.mpr ⟨fun vol here => ?_, later⟩
    exact gptVolume_onDisk (Option.mem_toList.mp here)

theorem volScanNamespace_finds : Finds env nsid (volScanNamespace io namespaces nsid) := by
  refine Finds.option rfl fun sector => ite (Finds.option rfl fun header => ?_) ?_
  · exact ite Finds.nothing (scanGptEntries_finds _ _ _ _)
  · exact ret fun _ _ vol member => mbrVolumes_onDisk member

end OnDisk

/-- What a scan finds on a disk with these contents. -/
def scanned (io : NvmeIo) (namespaces : Namespaces) (content : Contents) (nsid : Nat) :
    List Volume :=
  ((volScanNamespace io namespaces nsid).exec obey content).1

theorem scanned_onDisk (member : vol ∈ scanned io namespaces content nsid) :
    vol.OnDisk nsid := by
  have onDisk := @volScanNamespace_finds io namespaces nsid Contents fun _ _ _ _ => True
  exact onDisk _ _ _ trivial (runs_exec (fun _ _ => trivial) _ content) vol member

/-- A scan of another disk finds what it always finds. -/
theorem volScanNamespace_elsewhere (other : nsid ≠ disk) :
    Triple (mayFail disk) (SameElsewhere disk content) (volScanNamespace io namespaces nsid)
      (fun found content' => found = scanned io namespaces content nsid ∧
        SameElsewhere disk content content') := by
  refine volScanNamespace_asks.determined ?_
  intro query reads mid answer after same asked
  cases query with
  | nvme queue sqe data =>
    obtain ⟨rfl, read⟩ := reads
    have answered : (answer, after) = (sqe.found mid, mid) := by
      simpa [mayFail, if_neg other, obey, read] using asked
    have found : sqe.found mid = sqe.found content := by
      simp [Sqe.found, same sqe.nsid other]
    obtain ⟨rfl, rfl⟩ := Prod.mk.inj answered
    refine ⟨?_, same⟩
    simp [obey, read, found]
  | _ => exact reads.elim

/-! ## The rebuilt table -/

/-- The volumes of the disks that are scanned before this one. -/
def volumesBefore (io : NvmeIo) (namespaces : Namespaces) (content : Contents) (disk : Nat)
    (nsids : List Nat) : List Volume :=
  (nsids.takeWhile (· ≠ disk)).flatMap (scanned io namespaces content)

/-- The volumes of the disks that are scanned after this one. -/
def volumesAfter (io : NvmeIo) (namespaces : Namespaces) (content : Contents) (disk : Nat)
    (nsids : List Nat) : List Volume :=
  ((nsids.dropWhile (· ≠ disk)).drop 1).flatMap (scanned io namespaces content)

variable {nsids : List Nat}

theorem not_mem_after (distinct : nsids.Nodup) :
    disk ∉ (nsids.dropWhile (· ≠ disk)).drop 1 := by
  induction nsids with
  | nil => exact not_mem_nil
  | cons nsid rest ih =>
    obtain ⟨absent, distinct⟩ := nodup_cons.mp distinct
    by_cases own : nsid = disk
    · subst own
      simpa using absent
    · simpa [own] using ih distinct

/-- Neither part has volumes of the disk between them. -/
theorem around_elsewhere (distinct : nsids.Nodup)
    (member : vol ∈ volumesBefore io namespaces content disk nsids ++
      volumesAfter io namespaces content disk nsids) : ¬vol.OnDisk disk := by
  intro onDisk
  rcases mem_append.mp member with member | member
  · obtain ⟨nsid, early, found⟩ := mem_flatMap.mp member
    have other := mem_takeWhile_imp early
    rw [(scanned_onDisk found).2.symm.trans onDisk.2] at other
    simp at other
  · obtain ⟨nsid, late, found⟩ := mem_flatMap.mp member
    rw [(scanned_onDisk found).2.symm.trans onDisk.2] at late
    exact not_mem_after distinct late

theorem scanNamespaces_elsewhere (nsids : List Nat) (absent : disk ∉ nsids) :
    Triple (mayFail disk) (SameElsewhere disk content) (scanNamespaces io namespaces nsids)
      (fun found content' => found = nsids.flatMap (scanned io namespaces content) ∧
        SameElsewhere disk content content') := by
  induction nsids with
  | nil => exact ret fun _ same => ⟨rfl, same⟩
  | cons nsid rest ih =>
    have other : nsid ≠ disk := fun same => absent (same ▸ mem_cons_self)
    have later := ih fun member => absent (mem_cons_of_mem _ member)
    refine bind (volScanNamespace_elsewhere other) fun found => ?_
    intro mid result after before run
    obtain ⟨more, late, scan, returned⟩ := runs_bind.mp run
    obtain ⟨rfl, same⟩ := later mid more late before.2 scan
    obtain ⟨rfl, rfl⟩ := returned
    rw [before.1, flatMap_cons]
    exact ⟨rfl, same⟩

/-- What a scan of all disks finds: only the volumes of the one disk are new. -/
theorem scanNamespaces_parts (nsids : List Nat) (distinct : nsids.Nodup) :
    Triple (mayFail disk) (SameElsewhere disk content) (scanNamespaces io namespaces nsids)
      (fun found content' => SameElsewhere disk content content' ∧
        ∃ own, (∀ vol ∈ own, vol.OnDisk disk) ∧
          found = volumesBefore io namespaces content disk nsids ++ own ++
            volumesAfter io namespaces content disk nsids) := by
  induction nsids with
  | nil => exact ret fun _ same => ⟨same, [], fun vol member => absurd member not_mem_nil, rfl⟩
  | cons nsid rest ih =>
    obtain ⟨absent, distinct⟩ := nodup_cons.mp distinct
    intro start result after same run
    obtain ⟨found, mid, first, run⟩ := runs_bind.mp run
    obtain ⟨more, late, second, returned⟩ := runs_bind.mp run
    obtain ⟨rfl, rfl⟩ := returned
    by_cases own : nsid = disk
    · subst own
      have same := sent_keeps (volScanNamespace_asks.imp Query.ReadsFrom.sentTo) _ _ _ same first
      obtain ⟨rfl, same⟩ := scanNamespaces_elsewhere rest absent _ _ _ same second
      refine ⟨same, found, volScanNamespace_finds _ _ _ trivial first, ?_⟩
      simp [volumesBefore, volumesAfter]
    · obtain ⟨rfl, same⟩ := volScanNamespace_elsewhere own _ _ _ same first
      obtain ⟨same, own', onDisk, rfl⟩ := ih distinct _ _ _ same second
      refine ⟨same, own', onDisk, ?_⟩
      simp [volumesBefore, volumesAfter, own]

/-- The table lists the volumes of the disks before this one, some of its own, and those
behind it, up to the end of the table. -/
structure Listed (io : NvmeIo) (namespaces : Namespaces) (content : Contents) (disk : Nat)
    (own : List Volume) (table : VolTable) : Prop where
  onDisk : ∀ vol ∈ own, vol.OnDisk disk
  parts : table.volumes = (volumesBefore io namespaces content disk (namespaces.map Prod.fst) ++ own ++
    (volumesAfter io namespaces content disk (namespaces.map Prod.fst) ++ table.attached)).take VOL_MAX

theorem foldl_volPush_volumes (found : List Volume) (table : VolTable) :
    (found.foldl volPush table).volumes = found.foldl pushed table.volumes := by
  induction found generalizing table with
  | nil => rfl
  | cons vol found ih => exact ih (volPush table vol)

theorem foldl_volPush_attached {found : List Volume} (nvme : ∀ vol ∈ found, vol.backend = .nvme)
    (table : VolTable) : (found.foldl volPush table).attached = table.attached := by
  induction found generalizing table with
  | nil => rfl
  | cons vol found ih =>
    rw [foldl_cons, ih fun other member => nvme other (mem_cons_of_mem _ member)]
    exact if_pos (.inr (.inl (nvme vol mem_cons_self)))

theorem partReloadVolumes_listed (distinct : (namespaces.map Prod.fst).Nodup) (table : VolTable) :
    Triple (mayFail disk) (SameElsewhere disk content) (partReloadVolumes io namespaces table)
      (fun table' content' => SameElsewhere disk content content' ∧
        table'.attached = table.attached ∧ ∃ own, Listed io namespaces content disk own table') := by
  refine bind (scanNamespaces_parts _ distinct) fun found => ret ?_
  rintro content' ⟨same, own, onDisk, rfl⟩
  have nvme : ∀ vol ∈ volumesBefore io namespaces content disk (namespaces.map Prod.fst) ++ own ++
      volumesAfter io namespaces content disk (namespaces.map Prod.fst), vol.backend = .nvme := by
    intro vol member
    simp only [volumesBefore, volumesAfter, mem_append, mem_flatMap] at member
    rcases member with (⟨nsid, -, member⟩ | member) | ⟨nsid, -, member⟩
    · exact (scanned_onDisk member).1
    · exact (onDisk vol member).1
    · exact (scanned_onDisk member).1
  have attached := foldl_volPush_attached nvme (volReset table)
  refine ⟨same, attached, own, onDisk, ?_⟩
  simp only [volAttachedReattach]
  rw [foldl_volPush_volumes, attached, ← foldl_append, ← append_assoc]
  exact foldl_pushed (Nat.zero_le _) _

/-- The table is the old one, or it was rebuilt from the disks. -/
def Rebuilt (io : NvmeIo) (namespaces : Namespaces) (content : Contents) (disk : Nat)
    (table table' : VolTable) : Prop :=
  table' = table ∨
    table'.attached = table.attached ∧ ∃ own, Listed io namespaces content disk own table'

/-- The program keeps the other disks, and what is left of the table is of them. -/
def Rebuilds (io : NvmeIo) (namespaces : Namespaces) (content : Contents) (disk : Nat) (table : VolTable)
    (program : Program Bytes (Nat × VolTable)) : Prop :=
  Triple (mayFail disk) (SameElsewhere disk content) program fun result content' =>
    SameElsewhere disk content content' ∧ Rebuilt io namespaces content disk table result.2

section Requests

variable {table : VolTable} (distinct : (namespaces.map Prod.fst).Nodup)

include distinct

omit distinct in
theorem Rebuilds.bind {first : Program Bytes α} {next : α → Program Bytes (Nat × VolTable)}
    (sent : first.Asks (Query.SentTo disk))
    (then_ : ∀ value, Rebuilds io namespaces content disk table (next value)) :
    Rebuilds io namespaces content disk table (first >>= next) :=
  Triple.bind (sent_keeps sent) then_

omit distinct in
theorem Rebuilds.option {first : Program Bytes (Option α)}
    {next : Option α → Program Bytes (Nat × VolTable)} (sent : first.Asks (Query.SentTo disk))
    (failed : Rebuilds io namespaces content disk table (next none))
    (got : ∀ value, Rebuilds io namespaces content disk table (next (some value))) :
    Rebuilds io namespaces content disk table (first >>= next) :=
  .bind sent fun result => by
    cases result with
    | none => exact failed
    | some value => exact got value

theorem reload_rebuilt {reply : VolTable → Nat} :
    Rebuilds io namespaces content disk table
      (partReloadVolumes io namespaces table >>= fun table => pure (reply table, table)) :=
  bind (partReloadVolumes_listed distinct table) fun _ =>
    ret fun _ listed => ⟨listed.1, .inr listed.2⟩

omit distinct in
theorem over_rebuilt (reply : Nat) : Rebuilds io namespaces content disk table (pure (reply, table)) :=
  ret fun _ same => ⟨same, .inl rfl⟩

theorem nvmePartWipe_rebuilt :
    Rebuilds io namespaces content disk table (nvmePartWipe io namespaces disk table) := by
  refine Rebuilds.bind partProbeStyle_sent fun style => ?_
  refine Rebuilds.bind mbrClearTable_sent fun cleared => ?_
  refine ite (Rebuilds.bind (clearSectors_sent _ _ _) fun head => ?_) (over_rebuilt 0)
  refine ite (Rebuilds.bind (clearSectors_sent _ _ _) fun tail => ?_) (over_rebuilt 0)
  exact ite (reload_rebuilt distinct) (over_rebuilt 0)

theorem nvmePartDelete_rebuilt (index : Nat) :
    Rebuilds io namespaces content disk table (nvmePartDelete io namespaces disk index table) := by
  refine Rebuilds.bind partProbeStyle_sent fun style => ?_
  cases style with
  | none => exact over_rebuilt 0
  | mbr =>
    refine ite (over_rebuilt 0) ?_
    refine Rebuilds.option (read_sent _ _) (over_rebuilt 0) fun sector => ?_
    refine ite (over_rebuilt 0) ?_
    refine Rebuilds.bind (write_sent _ _ _) fun written => ?_
    exact ite (reload_rebuilt distinct) (over_rebuilt 0)
  | gpt =>
    refine ite (over_rebuilt 0) ?_
    refine Rebuilds.option (scanChunks_sent _ _ _ _) (over_rebuilt 0) fun scan => ?_
    refine ite (over_rebuilt 0) (ite (nvmePartWipe_rebuilt distinct) ?_)
    exact Rebuilds.option (gptFlush_sent _ _) (over_rebuilt 0) fun crc => reload_rebuilt distinct

theorem nvmePartCreate_rebuilt (sizeSectors : Nat) (forceMbr : Bool) :
    Rebuilds io namespaces content disk table (nvmePartCreate io namespaces disk sizeSectors forceMbr table) := by
  refine ite (over_rebuilt _) ?_
  refine Rebuilds.bind partProbeStyle_sent fun style => ?_
  refine ite (over_rebuilt _) ?_
  exact Rebuilds.option (partCreate_sent _ _ _ _) (over_rebuilt _) fun made => reload_rebuilt distinct

theorem servePart_rebuilt (request : PartRequest) :
    Rebuilds io namespaces content disk table (servePart io namespaces disk table request) := by
  cases request with
  | create sizeSectors forceMbr => exact nvmePartCreate_rebuilt distinct sizeSectors forceMbr
  | delete index => exact nvmePartDelete_rebuilt distinct index
  | wipe => exact nvmePartWipe_rebuilt distinct
  | reload => exact reload_rebuilt distinct

end Requests

/-! ## Sequences of requests -/

/-- Partition requests for one disk, one after the other. -/
inductive PartRuns (io : NvmeIo) (namespaces : Namespaces) (disk : Nat) :
    VolTable → Contents → List PartRequest → VolTable → Contents → Prop
  | done {table : VolTable} {content : Contents} :
      PartRuns io namespaces disk table content [] table content
  | step {table table' last : VolTable} {content content' final : Contents} {reply : Nat}
      {request : PartRequest} {requests : List PartRequest}
      (served : (servePart io namespaces disk table request).Runs (mayFail disk) content
        (reply, table') content')
      (rest : PartRuns io namespaces disk table' content' requests last final) :
      PartRuns io namespaces disk table content (request :: requests) last final

theorem PartRuns.listed (distinct : (namespaces.map Prod.fst).Nodup) {start : Contents}
    {table table' : VolTable} {content' : Contents} {requests : List PartRequest} {own : List Volume}
    (run : PartRuns io namespaces disk table content requests table' content')
    (same : SameElsewhere disk start content) (listed : Listed io namespaces start disk own table) :
    table'.attached = table.attached ∧ ∃ own, Listed io namespaces start disk own table' := by
  induction run generalizing own with
  | done => exact ⟨rfl, own, listed⟩
  | step served rest ih =>
    obtain ⟨same, rebuilt⟩ := servePart_rebuilt distinct _ _ _ _ same served
    rcases rebuilt with rfl | ⟨attached, own', listed⟩
    · exact ih same listed
    · obtain ⟨attached', listed⟩ := ih same listed
      exact ⟨attached'.trans attached, listed⟩

/-- The number of a volume after the volumes from `first` on, `old` of them, became `new`. -/
def renumber (first old new number : Nat) : Nat :=
  if number < first then number else number - old + new

/-- The parts around the changed one keep their volumes. -/
theorem getElem?_renumber {before own own' rest : List α} {limit number : Nat} {item : α}
    (found : ((before ++ own ++ rest).take limit)[number]? = some item) (elsewhere : item ∉ own)
    (room : renumber before.length own.length own'.length number < limit) :
    ((before ++ own' ++ rest).take limit)[renumber before.length own.length own'.length number]? =
      some item := by
  have found : (before ++ (own ++ rest))[number]? = some item := by
    rw [← append_assoc]
    rw [getElem?_take] at found
    split at found
    · exact found
    · cases found
  rw [getElem?_take_of_lt room, append_assoc]
  unfold renumber
  split
  next early =>
    rw [getElem?_append_left early] at found ⊢
    exact found
  next late =>
    rw [getElem?_append_right (by omega)] at found
    have behind : own.length ≤ number - before.length := by
      by_contra inside
      rw [getElem?_append_left (by omega)] at found
      exact elsewhere (mem_of_getElem? found)
    rw [getElem?_append_right behind] at found
    rw [getElem?_append_right (by omega), getElem?_append_right (by omega), ← found]
    congr 1
    omega

/-- Whatever partition requests are made to one disk, the volumes of the other disks and
the attached ones keep their backend, disk, start and size, and their order.  The table
has three parts of which only the middle one changes, so the volumes before it keep their
numbers, and those behind it move by the change of its length. -/
theorem volumes_elsewhere_kept (distinct : (namespaces.map Prod.fst).Nodup)
    {table table' : VolTable} {content' : Contents} {requests : List PartRequest} {own : List Volume}
    (listed : Listed io namespaces content disk own table)
    (run : PartRuns io namespaces disk table content requests table' content') :
    ∃ before own' rest, (∀ vol ∈ before ++ rest, ¬vol.OnDisk disk) ∧
      (∀ vol ∈ own', vol.OnDisk disk) ∧
      table.volumes = (before ++ own ++ rest).take VOL_MAX ∧
      table'.volumes = (before ++ own' ++ rest).take VOL_MAX ∧
      ∀ number vol, table.volumes[number]? = some vol → ¬vol.OnDisk disk →
        renumber before.length own.length own'.length number < VOL_MAX →
        table'.volumes[renumber before.length own.length own'.length number]? = some vol := by
  obtain ⟨attached, own', listed'⟩ := run.listed distinct (fun _ _ => rfl) listed
  refine ⟨_, own', _, ?_, listed'.onDisk, listed.parts, attached ▸ listed'.parts, ?_⟩
  · intro vol member onDisk
    rw [← append_assoc] at member
    rcases mem_append.mp member with around | attached
    · exact around_elsewhere distinct around onDisk
    · exact table.foreign vol attached onDisk.1
  · intro number vol found elsewhere room
    rw [listed.parts] at found
    rw [listed'.parts, attached]
    exact getElem?_renumber found (fun member => elsewhere (listed.onDisk vol member)) room

section Demo

/-- Two blank disks. -/
def demoDisks : Namespaces := [(1, 8192), (2, 4096)]

def demoIo : NvmeIo := ⟨id, 0⟩

def demoBlank : Contents := fun _ _ _ => 0

/-- The table that the service builds when it starts. -/
def demoTable : VolTable where
  volumes := [⟨1, 0, 8192, .nvme⟩, ⟨2, 0, 4096, .nvme⟩]
  attached := []
  bounded := by decide
  backed := by decide
  foreign := by simp

/-- A partition of 2048 sectors on the first disk. -/
def demoServed (table : VolTable) (content : Contents) : (Nat × VolTable) × Contents :=
  (servePart demoIo demoDisks 1 table (.create 2048 true)).exec obey content

def demoFirst : (Nat × VolTable) × Contents := demoServed demoTable demoBlank

def demoSecond : (Nat × VolTable) × Contents := demoServed demoFirst.1.2 demoFirst.2

theorem demoServed_runs (table : VolTable) (content : Contents) :
    (servePart demoIo demoDisks 1 table (.create 2048 true)).Runs (mayFail 1) content
      ((demoServed table content).1.1, (demoServed table content).1.2)
      (demoServed table content).2 :=
  runs_exec (obey_mayFail 1) _ content

theorem demoTable_listed : Listed demoIo demoDisks demoBlank 1 [⟨1, 0, 8192, .nvme⟩] demoTable where
  onDisk := by
    intro vol member
    rw [mem_singleton.mp member]
    exact ⟨rfl, rfl⟩
  parts := by decide +kernel

theorem demo_runs : PartRuns demoIo demoDisks 1 demoTable demoBlank
    [.create 2048 true, .create 2048 true] demoSecond.1.2 demoSecond.2 :=
  .step (demoServed_runs demoTable demoBlank) (.step (demoServed_runs demoFirst.1.2 demoFirst.2) .done)

theorem demoPartitions_kept :
    ∃ before own' rest, (∀ vol ∈ before ++ rest, ¬vol.OnDisk 1) ∧ (∀ vol ∈ own', vol.OnDisk 1) ∧
      demoTable.volumes = (before ++ [⟨1, 0, 8192, .nvme⟩] ++ rest).take VOL_MAX ∧
      demoSecond.1.2.volumes = (before ++ own' ++ rest).take VOL_MAX ∧
      ∀ number vol, demoTable.volumes[number]? = some vol → ¬vol.OnDisk 1 →
        renumber before.length 1 own'.length number < VOL_MAX →
        demoSecond.1.2.volumes[renumber before.length 1 own'.length number]? = some vol :=
  volumes_elsewhere_kept (by decide) demoTable_listed demo_runs

/-- Two partitions on the first disk, and number 1 is no longer the second disk but the
second of the new partitions. -/
theorem create_renumbers_volumes :
    ∃ table' content', PartRuns demoIo demoDisks 1 demoTable demoBlank
      [.create 2048 true, .create 2048 true] table' content' ∧
      demoTable.volumes[1]? = some ⟨2, 0, 4096, .nvme⟩ ∧
      table'.volumes[1]? = some ⟨1, 4096, 2048, .nvme⟩ ∧
      table'.volumes[2]? = some ⟨2, 0, 4096, .nvme⟩ :=
  ⟨_, _, demo_runs, rfl, by decide +kernel, by decide +kernel⟩

end Demo

end MorionOS.Blk
