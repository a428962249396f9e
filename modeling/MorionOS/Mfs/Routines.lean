import MorionOS.Mfs.Moves
import MorionOS.Mfs.Service

/-!
# The programs consist of moves

One instance for each function of the service.  The rules for programs are instances
too, so that only loops and case distinctions need an argument; the parts that a long
function is divided into are unfolded with it.  `works_dispatch`, `stays_dispatch` and
`via_handle` say which moves a request is made of.
-/

namespace MorionOS.Mfs

open StateAct Layered Labelled Label Act

set_option synthInstance.maxSize 8192

variable {ino b blk level total n k t offset count slot1 slot2 slot3 bi db dirIno parent child owner : Nat}
  {path : List UInt8} {cred : Cred} {isDir : Bool} {canon sc dc : Canon} {comp : Name} {typ : EntType}
  {loc : MfsLoc} {w : FileBuf} {slots : Nat → Nat} {node : FileBlock} {d : DirBlock}

/-! ## The inode table -/

instance works_loadTable : Works (loadTable t) := by
  unfold loadTable
  refine Within.next fun found => ?_
  split <;> infer_instance

instance works_cacheTable : Works (cacheTable k t) := by
  unfold cacheTable
  refine Within.next fun found => ?_
  split <;> infer_instance

instance works_mfsInoBlock : Works (mfsInoBlock ino) := by
  unfold mfsInoBlock
  refine Within.next fun _ => .next fun blk => ?_
  split <;> infer_instance

instance works_allocatedBlock : Works (allocatedBlock ino) := by
  unfold allocatedBlock
  infer_instance

/-- A change of nothing but the inode table. -/
theorem peeks_setTable {f : Vol → Vol} (only : ∀ v, f v = { v with
      itab := (f v).itab, itabMem := (f v).itabMem, inoCount := (f v).inoCount, inoHint := (f v).inoHint }) :
    Peeks (setVol f : Op Unit Unit) := by
  refine ⟨fun s => ?_⟩
  have moved := Move.table (s := s) (f s.mem.vol).itab (f s.mem.vol).itabMem (f s.mem.vol).inoCount
    (f s.mem.vol).inoHint
  rw [Mem.setVol, ← only] at moved
  exact .single moved trivial

instance peeks_setItabMem : Peeks (setVol fun v => { v with itabMem := slots } : Op Unit Unit) := peeks_setTable fun _ => rfl

instance peeks_setItab : Peeks (setVol fun v => { v with itab := b } : Op Unit Unit) := peeks_setTable fun _ => rfl

instance peeks_updateItabMem : Peeks (setVol fun v => { v with itabMem := Function.update v.itabMem k t } : Op Unit Unit) :=
  peeks_setTable fun _ => rfl

instance peeks_addIno : Peeks (setVol fun v => { v with inoHint := n, inoCount := v.inoCount + 1 } : Op Unit Unit) :=
  peeks_setTable fun _ => rfl

instance peeks_dropIno : Peeks (setVol fun v => { v with inoCount := v.inoCount - 1 } : Op Unit Unit) :=
  peeks_setTable fun _ => rfl

instance peeks_mfsItabReload : Peeks mfsItabReload := by
  unfold mfsItabReload
  refine Within.next fun _ => .next fun _ => .next fun _ => .next fun blk => ?_
  split <;> infer_instance

instance works_mfsItabFlush : Works mfsItabFlush := by
  unfold mfsItabFlush
  infer_instance

instance works_mfsItabSet : Works (mfsItabSet ino blk) := by
  unfold mfsItabSet prepareTable
  infer_instance

instance works_inoAllocFrom : Works (inoAllocFrom blk n ino) := by
  induction n generalizing ino with
  | zero => exact inferInstanceAs (Works (throw ()))
  | succ n ih =>
    refine Within.next fun found => ?_
    split <;> infer_instance

instance works_mfsInoAllocFor : Works (mfsInoAllocFor blk) := by
  unfold mfsInoAllocFor
  infer_instance

instance works_mfsFreeIno : Works (mfsFreeIno ino) := by
  unfold mfsFreeIno
  infer_instance

instance works_mfsCommitObject {blk : Block} : Works (mfsCommitObject ino blk) := by
  unfold mfsCommitObject
  infer_instance

/-! ## Garbage collection -/

theorem traversal_follows {K : Label → Prop} (quiet : ∀ l : Label, l.quiet → K l) :
    TraversalRule fun _ m => Follows K m where
  pure := fun _ => inferInstance
  throw := inferInstance
  bind := Within.bind
  getMem := fun _ => inferInstance
  setGc := fun _ => peeks_setGc.mono quiet
  read := fun _ => peeks_mfsReadBlk.mono quiet

theorem traversal_works : TraversalRule fun _ m => Works m := traversal_follows Label.onTree_of_quiet

instance works_mfsGcPush : Works (mfsGcPush b total) := traversal_works.pushWith _ _ _

instance works_mfsGcPushSeen : Works (mfsGcPushSeen b total) := traversal_works.pushWith _ _ _

instance works_drain {expand : Block → Op Unit Unit} [h : ∀ blk, Works (expand blk)] : Works (drain expand n) :=
  traversal_works.drain h n

instance works_mfsGcMark : Works mfsGcMark := traversal_works.mfsGcMark

instance tends_mfsGcSweep : Tends mfsGcSweep := by
  unfold mfsGcSweep
  infer_instance

instance tends_mfsGc : Tends mfsGc := by
  unfold mfsGc
  refine Within.next fun flushed => ?_
  have mark := (traversal_follows Label.reading_of_quiet).mfsGcMark
  split <;> infer_instance

instance stays_mfsMaybeGc : Stays mfsMaybeGc := by
  unfold mfsMaybeGc
  infer_instance

/-! ## Loading and formatting -/

instance peeks_growWin {f : Windows → Windows} : Peeks (growWin f n) := by
  induction n with
  | zero => exact inferInstanceAs (Peeks (pure ()))
  | succ n ih => exact Within.next fun _ => .next fun _ => ih

instance peeks_mfsWinEnsure {pages : Nat} : Peeks (mfsWinEnsure pages) := by
  unfold mfsWinEnsure
  infer_instance

instance loads_loadChunk {start : Nat} {crc : Nat → UInt32} : Loads (loadChunk start crc k) := by
  unfold loadChunk
  refine Within.next fun found => ?_
  split <;> infer_instance

variable {copy : Nat}

instance loads_mfsLoadBitmapCopy : Loads (mfsLoadBitmapCopy copy) := by
  unfold mfsLoadBitmapCopy
  refine Within.next fun _ => .next fun blk => ?_
  split <;> infer_instance

variable {i itab keep left newSize pos want : Nat}

instance peeks_checkIndex : Peeks (checkIndex itab) := by
  unfold checkIndex
  refine Within.next fun found => ?_
  split <;> infer_instance

variable {ch : Choice}

instance loads_adoptSuper {sb : Super} : Loads (adoptSuper copy ch sb) := by
  unfold adoptSuper
  infer_instance

instance loads_tryCopy : Loads (tryCopy copy ch) := by
  unfold tryCopy
  have read : Loads (do
      match ← mfsReadBlk copy with
      | .super sb => adoptSuper copy ch sb
      | _ => throw ()) := by
    refine Within.next fun blk => ?_
    split <;> infer_instance
  infer_instance

instance loads_mfsMarkItabMeta : Loads (mfsMarkItabMeta itab) := by
  unfold mfsMarkItabMeta
  refine Within.ite inferInstance (.next fun _ => .next fun found => ?_)
  split <;> infer_instance

instance loads_protectMeta : Loads protectMeta := by
  unfold protectMeta
  infer_instance

instance tends_mfsRebuildBitmap : Tends mfsRebuildBitmap := by
  unfold mfsRebuildBitmap
  infer_instance

instance tends_mfsLoadState : Tends mfsLoadState := by
  unfold mfsLoadState
  infer_instance

instance stays_mfsFormat : Stays mfsFormat := by
  unfold mfsFormat
  infer_instance

/-! ## Directories -/

variable {bis bs ks : List Nat} {x : DirIdx}

instance works_fillExts : Works (fillExts slots ks x) := by
  induction ks generalizing x with
  | nil => exact inferInstanceAs (Works (pure x))
  | cons k ks ih =>
    refine Within.ite ih (.next fun found => ?_)
    split <;> infer_instance

variable {ext : Nat}

instance works_fillFromIndex : Works (fillFromIndex ext x) := by
  unfold fillFromIndex
  refine Within.ite inferInstance (.next fun found => ?_)
  split <;> infer_instance

instance works_mfsDidxBuild : Works (mfsDidxBuild dirIno) := by
  unfold mfsDidxBuild
  refine Within.next fun _ => .next fun blk => ?_
  split <;> infer_instance

instance works_mfsDidxLookup : Works (mfsDidxLookup dirIno comp) := by
  unfold mfsDidxLookup
  refine Within.next fun found => ?_
  split
  · infer_instance
  · refine Within.next fun built => ?_
    split <;> infer_instance

instance works_scanExt : Works (scanExt dirIno comp blk) := by
  unfold scanExt
  refine Within.ite inferInstance (.next fun found => ?_)
  split <;> infer_instance

instance works_scanIndex : Works (scanIndex dirIno comp ext) := by
  unfold scanIndex
  refine Within.next fun _ => .next fun blk => ?_
  split <;> infer_instance

instance works_scanDir : Works (scanDir dirIno comp) := by
  unfold scanDir
  refine Within.next fun _ => .next fun blk => ?_
  split
  · split <;> infer_instance
  · infer_instance

instance works_mfsDirLookup : Works (mfsDirLookup dirIno comp) := by
  unfold mfsDirLookup
  refine Within.next fun found => ?_
  split <;> infer_instance

instance works_mfsDirLoadLoc : Works (mfsDirLoadLoc loc) := by
  unfold mfsDirLoadLoc
  refine Within.next fun found => ?_
  split <;> infer_instance

instance works_slotAt : Works (slotAt loc) := by
  unfold slotAt
  infer_instance

instance works_dirNode : Works (dirNode dirIno) := by
  unfold dirNode
  refine Within.next fun _ => .next fun blk => ?_
  split <;> infer_instance

instance works_indexSlots : Works (indexSlots ext) := by
  unfold indexSlots
  refine Within.next fun found => ?_
  split <;> infer_instance

instance works_mfsDirStoreLoc : Works (mfsDirStoreLoc loc d) := by
  unfold mfsDirStoreLoc storeExt
  infer_instance

instance works_mfsDirDelete : Works (mfsDirDelete loc) := by
  unfold mfsDirDelete
  infer_instance

instance works_extWithRoom {need : Nat} : Works (extWithRoom slots need i) := by
  unfold extWithRoom
  refine Within.ite inferInstance (.next fun found => ?_)
  split <;> infer_instance

variable {a : DirBlock}

instance works_insertExt : Works (insertExt dirIno a comp child typ) := by
  unfold insertExt ensureIndex commitExt addExt
  refine Within.next fun slots => .next fun room => ?_
  split <;> infer_instance

instance works_mfsDirInsert : Works (mfsDirInsert dirIno comp child typ) := by
  unfold mfsDirInsert
  refine Within.next fun _ => .next fun d => .next fun now => ?_
  split <;> infer_instance

instance works_extHasEntry : Works (extHasEntry blk) := by
  unfold extHasEntry
  refine Within.ite inferInstance (.next fun found => ?_)
  split <;> infer_instance

instance works_mfsDirIsEmpty : Works (mfsDirIsEmpty dirIno) := by
  unfold mfsDirIsEmpty
  infer_instance

/-! ## Paths -/

instance works_mfsLinkTarget : Works (mfsLinkTarget ino) := by
  unfold mfsLinkTarget
  refine Within.next fun _ => .next fun blk => ?_
  split <;> infer_instance

instance works_walk {follow : Bool} {pre : Canon} {cur : Nat} : Works (walk follow canon pre cur) := by
  induction canon generalizing pre cur with
  | nil => exact inferInstanceAs (Works (throw ()))
  | cons comp rest ih =>
    unfold walk
    infer_instance

instance works_resolveWalks {follow : Bool} {links : Nat} : Works (resolveWalks follow links canon) := by
  induction links generalizing canon with
  | zero | succ =>
    rw [resolveWalks]
    refine Within.ite inferInstance (.next fun walked => ?_)
    split <;> infer_instance

instance works_mfsResolveEx {follow : Bool} : Works (mfsResolveEx canon follow) := by
  unfold mfsResolveEx
  infer_instance

instance works_mfsResolve : Works (mfsResolve canon) := works_mfsResolveEx

instance works_mfsResolveNoFollow : Works (mfsResolveNoFollow canon) := works_mfsResolveEx

instance works_mfsCheckDirIno : Works (mfsCheckDirIno dirIno cred want) := by
  unfold mfsCheckDirIno
  infer_instance

instance works_mfsCheckTraverse : Works (mfsCheckTraverse canon cred) := by
  unfold mfsCheckTraverse
  infer_instance

instance works_mfsIsDir : Works (mfsIsDir blk) := by
  unfold mfsIsDir
  refine Within.next fun found => ?_
  split <;> infer_instance

/-! ## File contents -/

instance works_readPointers : Works (readPointers level b) := by
  unfold readPointers
  infer_instance

instance works_pointersOrZero : Works (pointersOrZero level b) := by
  unfold pointersOrZero
  infer_instance

instance works_follow {slot : Nat} : Works (follow level b slot) := by
  unfold follow
  infer_instance

instance works_peek3 {ind3 : Nat} : Works (peek3 ind3 slot3 slot2 slot1) := by
  unfold peek3
  infer_instance

variable {f : FileBlock}

instance works_mfsFileMap : Works (mfsFileMap f bi) := by
  unfold mfsFileMap
  refine Within.next fun found => ?_
  split <;> infer_instance

instance works_mfsIndFlush : Works (mfsIndFlush w) := by
  unfold mfsIndFlush
  infer_instance

instance works_mfsIndPeek : Works (mfsIndPeek w bi) := by
  unfold mfsIndPeek loadInd1 loadInd2 ensureInd2
  refine Within.next fun found => ?_
  split <;> infer_instance

instance works_mfsIndLink3 : Works (mfsIndLink3 node slot3 slot2 slot1 db) := by
  unfold mfsIndLink3
  infer_instance

instance works_mfsIndLink : Works (mfsIndLink w bi db) := by
  unfold mfsIndLink linkCached
  refine Within.next fun found => ?_
  split <;> infer_instance

instance works_fileNode : Works (fileNode ino) := by
  unfold fileNode
  refine Within.next fun _ => .next fun blk => ?_
  split <;> infer_instance

instance works_dataBytes : Works (dataBytes db) := by
  unfold dataBytes
  refine Within.ite inferInstance (.next fun found => ?_)
  split <;> infer_instance

variable {src : Nat → UInt8}

instance works_writeBlock {boff chunk : Nat} : Works (writeBlock w bi boff chunk src) := by
  unfold writeBlock
  infer_instance

instance works_writeLoop {done : Nat} : Works (writeLoop offset count src n done w) := by
  induction n generalizing done w with
  | zero => exact inferInstanceAs (Works (pure w))
  | succ n ih => exact Within.ite inferInstance (.next fun _ => ih)

instance works_mfsWriteFile : Works (mfsWriteFile ino offset count src) := by
  unfold mfsWriteFile
  infer_instance

instance works_mfsUnmapBlock : Works (mfsUnmapBlock w bi) := by
  unfold mfsUnmapBlock
  infer_instance

instance works_unmapRange : Works (unmapRange bis w) := by
  induction bis generalizing w with
  | nil => exact inferInstanceAs (Works (pure w))
  | cons bi rest ih => exact Within.next fun _ => ih

instance works_mfsTruncate : Works (mfsTruncate ino newSize) := by
  unfold mfsTruncate shrinkFile truncLevel truncTail
  infer_instance

/-! ## Reading files

These programs read in batches and are defined on the concrete state only. -/

theorem works_rawReads : KeepsTo onTree (rawReads bs) := by
  induction bs with
  | nil => exact keeps_same _
  | cons b bs ih =>
    have read : KeepsTo onTree fun s : Fs => blockReadDev s.mem.curVol b s :=
      fun s => (peeks_blockReadDev s).mono onTree_of_quiet
    exact read.after fun _ => ih.after fun _ => keeps_same _

theorem works_batchRead : KeepsTo onTree (batchRead bs) := by
  intro s
  rw [batchRead]
  split
  · exact refl_of _ s
  · have tried : Via Move onTree s { s with tick := s.tick + 1 } :=
      via_memory (m := s.mem) _ trivial rfl rfl rfl
    split
    · exact tried
    · exact trans_of _ tried (works_rawReads _)

theorem works_mapWindow : KeepsTo onTree (mapWindow f bis) := by
  induction bis with
  | nil => exact keeps_same _
  | cons bi rest ih =>
    have more : ∀ db, KeepsTo onTree fun s =>
        after (mapWindow f rest s) fun dbs s' => (.ok (db :: dbs), s') :=
      fun _ => ih.after fun _ => keeps_same _
    rw [mapWindow]
    split
    · exact works_mfsFileMap.keeps.after more
    · exact more 0

theorem works_readWindow : KeepsTo onTree (readWindow f pos left) := by
  refine works_mapWindow.after fun dbs => works_batchRead.after fun blks => ?_
  split <;> exact keeps_same _

theorem works_readLoop : KeepsTo onTree (readLoop f n pos left) := by
  induction n generalizing pos left with
  | zero => exact keeps_same _
  | succ n ih =>
    rw [readLoop]
    split
    · exact keeps_same _
    · exact works_readWindow.after fun _ => ih.after fun _ => keeps_same _

theorem works_mfsReadFile : KeepsTo onTree (mfsReadFile ino offset count) := by
  refine works_fileNode.keeps.after fun f => ?_
  split
  · exact keeps_same _
  · exact works_readLoop

/-! ## Names -/

instance works_ownerOf : Works (ownerOf blk isDir) := by
  unfold ownerOf
  refine Within.next fun found => ?_
  split <;> infer_instance

instance works_checkSticky {dirMd : Meta} {owner : Op Nat Nat} [Works owner] :
    Works (checkSticky dirMd cred owner) := by
  unfold checkSticky
  infer_instance

instance works_mfsNodeType : Works (mfsNodeType blk) := by
  unfold mfsNodeType
  infer_instance

variable {sTyp : EntType}

instance works_replaceTarget : Works (replaceTarget dc sTyp) := by
  unfold replaceTarget replaceEntry ensureEmpty
  refine Within.next fun found => ?_
  split <;> infer_instance

instance works_mfsRename {src dst : List UInt8} : Works (mfsRename src dst cred) := by
  unfold mfsRename renameCanon moveEntry
  infer_instance

instance works_changeMeta {allowed : Meta → Bool} {f : Meta → Meta} : Works (changeMeta path allowed f) := by
  unfold changeMeta
  infer_instance

instance works_newEntryParent : Works (newEntryParent canon cred) := by
  unfold newEntryParent
  infer_instance

instance works_refuseExisting : Works (refuseExisting parent comp) := by
  unfold refuseExisting
  refine Within.next fun found => ?_
  split <;> infer_instance

instance works_addNode {blk : Block} : Works (addNode parent comp blk typ) := by
  unfold addNode
  infer_instance

instance works_mfsCreate : Works (mfsCreate path isDir owner cred) := by
  unfold mfsCreate openExisting createNew
  refine Within.next fun _ => .next fun blk => ?_
  split <;> infer_instance

instance works_mfsSymlink {target linkpath : List UInt8} : Works (mfsSymlink target linkpath owner cred) := by
  unfold mfsSymlink
  infer_instance

instance works_checkLinkSource : Works (checkLinkSource blk cred) := by
  unfold checkLinkSource
  refine Within.ite inferInstance (.next fun found => ?_)
  split <;> infer_instance

instance works_setNlink {nlink : Nat} : Works (setNlink ino f nlink) := by
  unfold setNlink
  infer_instance

instance works_mfsLink {src dst : List UInt8} : Works (mfsLink src dst cred) := by
  unfold mfsLink linkCanon
  infer_instance

instance works_entryOwner : Works (entryOwner ino isDir) := by
  unfold entryOwner
  refine Within.next fun found => ?_
  split <;> infer_instance

variable {wantDir : Bool}

instance works_mfsRemove : Works (mfsRemove path wantDir cred) := by
  unfold mfsRemove removeCanon removeEntry removeDir removeLeaf dropName
  infer_instance

instance stays_mfsSnapshot : Stays mfsSnapshot := by
  unfold mfsSnapshot
  infer_instance

instance stays_mfsSnapRestore {idx : Nat} : Stays (mfsSnapRestore idx) := by
  unfold mfsSnapRestore
  infer_instance

instance works_mfsSync : Works mfsSync := by
  unfold mfsSync
  infer_instance

/-! ## Checking -/

instance works_mfsFsckWinEnsure : Works mfsFsckWinEnsure := by
  unfold mfsFsckWinEnsure
  infer_instance

instance works_pushIfDir : Works (pushIfDir blk total) := by
  unfold pushIfDir
  refine Within.ite inferInstance (.next fun found => ?_)
  split <;> infer_instance

variable {e : DirSlot}

instance works_walkExpand {blk : Block} : Works (walkExpand total blk) := by
  unfold walkExpand walkEntry
  split <;> infer_instance

instance works_mfsFsckWalkInos : Works mfsFsckWalkInos := by
  unfold mfsFsckWalkInos
  infer_instance

instance works_pushOwned : Works (pushOwned total b) := by
  unfold pushOwned
  refine Within.next fun found => ?_
  split <;> infer_instance

instance works_countOwned {rounds : Nat} : Works (countOwned total rounds n) := by
  induction rounds generalizing n with
  | zero => exact inferInstanceAs (Works (pure n))
  | succ rounds ih =>
    refine Within.next fun popped => ?_
    rcases popped with _ | ⟨b, g⟩
    · exact inferInstanceAs (Works (pure n))
    · exact Within.next fun _ => .next fun _ => .next fun _ => .ite ih inferInstance

instance works_mfsFsckOwnedBlocks : Works (mfsFsckOwnedBlocks blk total) := by
  unfold mfsFsckOwnedBlocks
  refine Within.next fun _ => .next fun pushed => ?_
  split <;> infer_instance

instance works_leakedBlock : Works (leakedBlock ino) := by
  unfold leakedBlock
  infer_instance

instance works_countLeaks {inos : List Nat} {blocks : Nat} : Works (countLeaks total inos n blocks) := by
  induction inos generalizing n blocks with
  | nil => exact inferInstanceAs (Works (pure (n, blocks)))
  | cons ino rest ih =>
    refine Within.next fun leaked => ?_
    split <;> infer_instance

instance works_releaseLeaked : Works (releaseLeaked ino) := by
  unfold releaseLeaked
  refine Within.next fun found => ?_
  split <;> infer_instance

instance stays_mfsFsck {repair : Bool} : Stays (mfsFsck repair) := by
  unfold mfsFsck
  refine Within.next fun _ => .next fun v => .next fun _ => .next fun _ => .next fun _ => .next fun _ =>
    .next fun _ => ?_
  split
  infer_instance

/-! ## Requests that only read -/

instance works_mfsStatInto : Works (mfsStatInto blk) := by
  unfold mfsStatInto
  refine Within.next fun found => ?_
  split <;> infer_instance

instance works_statPath {follow : Bool} : Works (statPath path follow cred) := by
  unfold statPath
  infer_instance

instance works_mfsReadlink : Works (mfsReadlink canon) := by
  unfold mfsReadlink
  infer_instance

instance works_readlinkPath : Works (readlinkPath path cred) := by
  unfold readlinkPath
  infer_instance

instance works_emitEntry : Works (emitEntry e) := by
  unfold emitEntry
  refine Within.next fun found => ?_
  split
  · infer_instance
  · refine Within.next fun read => ?_
    split <;> infer_instance

variable {out : List DirEntry}

instance works_dirEmit {es : List DirSlot} : Works (dirEmit es out) := by
  induction es generalizing out with
  | nil => exact inferInstanceAs (Works (pure out))
  | cons e rest ih => exact Within.ite inferInstance (.ite ih (.next fun _ => ih))

instance works_emitExts : Works (emitExts slots ks out) := by
  induction ks generalizing out with
  | nil => exact inferInstanceAs (Works (pure out))
  | cons k ks ih =>
    refine Within.ite inferInstance (.ite ih (.next fun found => ?_))
    split <;> infer_instance

instance works_mfsReaddir : Works (mfsReaddir ino) := by
  unfold mfsReaddir
  refine Within.next fun d => .next fun out => .ite inferInstance (.next fun found => ?_)
  split <;> infer_instance

instance works_openNode : Works (openNode path cred) := by
  unfold openNode
  infer_instance

/-! ## Volumes -/

theorem peeks_sbProbeScan (vol : Nat) (copies : List Nat) (best : Option Nat) :
    KeepsTo quiet (sbProbeScan vol copies best) := by
  induction copies generalizing best with
  | nil => exact keeps_same _
  | cons copy rest ih =>
    refine peeks_blockReadDev.caught.after fun found => ?_
    rcases found with _ | blk
    · exact ih _
    · cases blk with
      | super sb =>
        dsimp only
        split <;> exact ih _
      | _ => exact ih _

theorem peeks_mfsSbProbe (vol : Nat) : KeepsTo quiet (mfsSbProbe vol) := by
  refine peeks_mfsCommitFlush.keeps.caught.after fun flushed => ?_
  cases flushed with
  | none => exact keeps_same _
  | some u => exact peeks_sbProbeScan _ _ _

theorem peeks_mfsPrimaryOfVol (vol : Nat) : KeepsTo quiet (mfsPrimaryOfVol vol) :=
  (peeks_mfsSbProbe vol).after fun _ => keeps_same _

theorem peeks_maxPrimary (target : Nat) (vols : List VolumeDesc) (best : Nat) :
    KeepsTo quiet (maxPrimary target vols best) := by
  induction vols generalizing best with
  | nil => exact keeps_same _
  | cons d rest ih =>
    rw [maxPrimary]
    split
    · exact (peeks_mfsPrimaryOfVol _).after fun _ => ih _
    · exact ih _

theorem peeks_mfsNextPrimarySerial (target : Nat) : KeepsTo quiet (mfsNextPrimarySerial target) := by
  have best : ∀ own, KeepsTo quiet fun s : Fs =>
      after (maxPrimary target s.env.volumes own s) fun best s' => (.ok (best + 1), s') := by
    intro own s
    have last := after_map_snd (maxPrimary target s.env.volumes own s) (· + 1)
    exact last ▸ peeks_maxPrimary target s.env.volumes own s
  exact (peeks_mfsPrimaryOfVol target).after best

theorem peeks_landedSerial (vol : Nat) : KeepsTo quiet (landedSerial vol) := by
  refine (peeks_mfsPrimaryOfVol vol).after fun landed => ?_
  split <;> exact keeps_same _

theorem works_clearLeaf (s : Fs) : Via Move onTree s s.clearLeaf :=
  via_memory s.tick trivial rfl rfl rfl

theorem via_select (s : Fs) (vol sectors : Nat) : Via Move any s (s.setCurVol vol sectors) :=
  .single (.select vol sectors) trivial

theorem via_any {K : Label → Prop} {s s' : Fs} (h : Via Move K s s') : Via Move any s s' :=
  h.mono fun _ _ => trivial

theorem via_switched (s : Fs) (vol sectors : Nat) : Via Move any s (s.setCurVol vol sectors).clearLeaf :=
  trans_of _ (via_select s vol sectors) (via_any (works_clearLeaf _))

theorem via_mfsSwitchVol (vol : Nat) : KeepsTo any (mfsSwitchVol vol) := by
  have flush : KeepsTo any flushRun := fun s => via_any (peeks_mfsCommitFlush.keeps s)
  have choose : KeepsTo any (modify (fun s : Fs =>
      (s.setCurVol vol ((s.env.findVolume vol).elim 0 (·.sectors))).clearLeaf) :
        Fs → Except Unit Unit × Fs) := fun s => via_switched s vol _
  have load : KeepsTo any mfsLoadState.run := fun s => via_any (tends_mfsLoadState.keeps s)
  exact flush.after fun _ => choose.after fun _ => load

theorem via_landedSerial (vol : Nat) : KeepsTo any (landedSerial vol) :=
  fun s => via_any (peeks_landedSerial vol s)

theorem via_mfsNextPrimarySerial (vol : Nat) : KeepsTo any (mfsNextPrimarySerial vol) :=
  fun s => via_any (peeks_mfsNextPrimarySerial vol s)

/-- The end of `mfs_mkfs_volume` and `mfs_set_primary_volume`: back to the volume of before. -/
theorem via_return (vol sectors : Nat) {f : Unit → Act Fs Unit Nat}
    (rest : ∀ u, KeepsTo any (f u)) :
    KeepsTo any fun s : Fs =>
      Act.after (mfsLoadState.run (s.setCurVol vol sectors)) f := by
  have load : KeepsTo any fun s : Fs => mfsLoadState.run (s.setCurVol vol sectors) :=
    fun s => trans_of _ (via_select s vol sectors) (via_any (tends_mfsLoadState.keeps _))
  exact load.after rest

theorem via_marked (s : Fs) (n : Nat) :
    Via Move any s { s with mem := s.mem.setVol fun v => { v with primarySerial := n } } :=
  .single (.volume { s.mem.vol with primarySerial := n }) trivial

theorem via_mkfsOn (desc : VolumeDesc) : KeepsTo any (mkfsOn desc) := by
  intro s
  refine (via_mfsNextPrimarySerial desc.id).after (fun n s₁ => ?_) s
  have chosen := via_switched s₁ desc.id desc.sectors
  have marked := via_marked (s₁.setCurVol desc.id desc.sectors).clearLeaf n
  refine trans_of _ (trans_of _ (trans_of _ chosen marked) (via_any (stays_mfsFormat.keeps _)))
    (via_return s.mem.curVol s.mem.curSectors (fun _ => ?_) _)
  split
  · exact keeps_same _
  · exact via_landedSerial desc.id

theorem via_mfsMkfsVolume (vol : Nat) (force : Bool) : KeepsTo any (mfsMkfsVolume vol force) := by
  intro s
  rw [mfsMkfsVolume]
  split
  · exact refl_of _ s
  · split
    · exact refl_of _ s
    · exact via_mkfsOn _ s

theorem via_setPrimaryOn (desc : VolumeDesc) : KeepsTo any (setPrimaryOn desc) := by
  intro s
  refine (via_mfsNextPrimarySerial desc.id).after (fun n s₁ => ?_) s
  have upTo := trans_of _ (via_switched s₁ desc.id desc.sectors)
    (via_any (tends_mfsLoadState.keeps (s₁.setCurVol desc.id desc.sectors).clearLeaf))
  rcases outcome : mfsLoadState.run (s₁.setCurVol desc.id desc.sectors).clearLeaf with ⟨e | u, s₂⟩ <;>
    rw [outcome] at upTo
  · exact trans_of _ (trans_of _ upTo (via_select s₂ s.mem.curVol s.mem.curSectors))
      (via_any (tends_mfsLoadState.keeps _))
  · refine trans_of _ (trans_of _ (trans_of _ upTo (via_marked s₂ n)) (via_any (works_mfsBmpFlush.keeps _)))
      (via_return s.mem.curVol s.mem.curSectors (fun _ => ?_) _)
    split
    · exact keeps_same _
    · exact via_landedSerial desc.id

theorem via_mfsSetPrimaryVolume (vol : Nat) : KeepsTo any (mfsSetPrimaryVolume vol) := by
  intro s
  rw [mfsSetPrimaryVolume]
  split
  · exact refl_of _ s
  next desc found =>
    have probe : KeepsTo any (mfsSbProbe vol) := fun s => via_any (peeks_mfsSbProbe vol s)
    refine probe.after (fun probed => ?_) s
    cases probed with
    | none => exact keeps_same _
    | some serial => exact via_setPrimaryOn desc

/-! ## Requests -/

section Requests

variable {R : Fs → Fs → Prop} {α : Type}

variable {code : α → Nat} {page : α → Result}

theorem keeps_run {s : Srv} {m : Fs → Except Nat α × Fs} (h : Act.Keeps R m) : R s.fs (s.run m code page).2.fs := by
  have step := h s.fs
  rw [Srv.run]
  rcases ran : m s.fs with ⟨e | a, fs⟩ <;>
    · rw [ran] at step
      exact step

theorem keeps_withMax {m : Fs → Except Unit α × Fs} (h : Act.Keeps R m) : Act.Keeps R (withMax m) :=
  Act.Keeps.relabelled U64_MAX h

theorem keeps_viaFd [IsPreorder Fs R] {s : Srv} {fd : Nat}
    {act : Nat → Fs → Except Nat α × Fs} (resolve : ∀ path, Act.Keeps R ((mfsResolve path).orErr (mfsErr MFS_ENOENT)).run)
    (h : ∀ ino, Act.Keeps R (act ino)) :
    R s.fs (s.viaFd fd isDir want act code page).2.fs := by
  rw [Srv.viaFd]
  split
  · exact refl_of R _
  · split
    · exact refl_of R _
    · split
      · exact refl_of R _
      · exact keeps_run ((resolve _).after h)

end Requests

variable {s : Srv} {sender : Nat} {req : Request}

theorem works_openPath : Via Move onTree s.fs (s.openPath path cred).2.fs := by
  have step := (@works_openNode path cred).keeps s.fs
  rw [Srv.openPath]
  rcases ran : (openNode path cred).run s.fs with ⟨e | ⟨canon, isDir, perm⟩, fs⟩ <;>
    · rw [ran] at step
      exact step

theorem works_createReq : Via Move onTree s.fs (s.create path isDir owner cred).2.fs := by
  have step := (@works_mfsCreate owner path cred isDir).keeps s.fs
  rw [Srv.create]
  rcases ran : (mfsCreate path isDir owner cred).run s.fs with ⟨e | _ | ⟨canon, perm⟩, fs⟩ <;>
    · rw [ran] at step
      exact step

theorem works_twoPaths {a b : List UInt8} {m : Op Nat Nat} [h : Works m] :
    Via Move onTree s.fs (s.twoPaths a b m).2.fs := by
  rw [Srv.twoPaths]
  split
  · exact refl_of _ s.fs
  · exact keeps_run h.keeps

/-- The requests that change files and directories or only read. -/
def Request.onTree : Request → Bool
  | .snap | .snapRestore _ | .gc | .fsck _ | .mkfs _ _ | .setPrimary _ => false
  | _ => true

/-- The requests that stay on the current volume. -/
def Request.onVolume : Request → Bool
  | .mkfs _ _ | .setPrimary _ => false
  | _ => true

theorem works_dispatch (h : req.onTree = true) :
    Via Move onTree s.fs (s.dispatch sender cred req).2.fs := by
  have resolve : ∀ path, KeepsTo Label.onTree ((mfsResolve path).orErr (mfsErr MFS_ENOENT)).run :=
    fun path => Within.keeps
  cases req with
  | openPath path => exact works_openPath
  | read fd offset count => exact keeps_viaFd resolve fun ino => keeps_withMax works_mfsReadFile
  | write fd offset count src => exact keeps_viaFd resolve fun ino => keeps_withMax works_mfsWriteFile.keeps
  | readdir fd => exact keeps_viaFd resolve fun ino => keeps_withMax works_mfsReaddir.keeps
  | truncate fd size => exact keeps_viaFd resolve fun ino => keeps_withMax works_mfsTruncate.keeps
  | creat | mkdir => exact works_createReq
  | unlink | rmdir => exact keeps_run works_mfsRemove.keeps
  | rename src dst => exact works_twoPaths
  | link src dst => exact works_twoPaths
  | symlink target linkpath => exact works_twoPaths
  | chmod | chown => exact keeps_run works_changeMeta.keeps
  | stat | lstat => exact keeps_run works_statPath.keeps
  | readlink path => exact keeps_run works_readlinkPath.keeps
  | sync => exact keeps_run works_mfsSync.keeps
  | close | snapList | volStat | other => exact refl_of _ s.fs
  | snap | snapRestore | gc | fsck | mkfs | setPrimary => cases h

theorem stays_dispatch (h : req.onVolume = true) :
    Via Move onVolume s.fs (s.dispatch sender cred req).2.fs := by
  cases tree : req.onTree with
  | true => exact (works_dispatch tree).mono onVolume_of_onTree
  | false =>
    cases req with
    | snap => exact keeps_run stays_mfsSnapshot.keeps
    | snapRestore idx => exact keeps_run stays_mfsSnapRestore.keeps
    | gc => exact keeps_run (keeps_withMax (stays_of_tends (m := mfsGc)).keeps)
    | fsck repair => exact keeps_run (keeps_withMax stays_mfsFsck.keeps)
    | mkfs | setPrimary => cases h
    | _ => cases tree

theorem via_dispatch : Via Move any s.fs (s.dispatch sender cred req).2.fs := by
  cases local' : req.onVolume with
  | true => exact via_any (stays_dispatch local')
  | false =>
    cases req with
    | mkfs vol force => exact keeps_run (keeps_withMax (via_mfsMkfsVolume vol force))
    | setPrimary vol => exact keeps_run (keeps_withMax (via_mfsSetPrimaryVolume vol))
    | _ => cases local'

theorem stays_collected (s : Srv) : Via Move onVolume s.fs s.collected.fs := stays_mfsMaybeGc.keeps s.fs

theorem via_onVolume (s : Srv) (vol : Nat) : Via Move any s.fs (s.onVolume vol).2.fs := by
  rw [Srv.onVolume]
  split
  · exact refl_of _ s.fs
  · exact via_mfsSwitchVol vol s.fs

theorem via_prepared (s : Srv) (msg : Message) : Via Move any s.fs (s.prepared msg).2.fs :=
  trans_of _ (via_any (stays_collected s)) (via_onVolume s.collected _)

theorem via_handle (s : Srv) (msg : Message) : Via Move any s.fs (s.handle msg).2.fs := by
  have prepared := via_prepared s msg
  rw [Srv.handle]
  rcases ran : s.prepared msg with ⟨e | u, s'⟩
  · rw [ran] at prepared
    exact prepared
  · rw [ran] at prepared
    exact trans_of _ prepared via_dispatch

end MorionOS.Mfs
