import MorionOS.Mfs.Volumes
import MorionOS.Lib.Frame
import MorionOS.Lib.Trace

/-!
# The moves of the service

Whatever a program of the service does to the state is a sequence of few kinds of
`Move`: changes of the memory, flushes of the write window, new blocks, commits and
the choice of another volume.  Properties of all runs are proved of the moves; that
the programs consist of them is shown here for the primitives and in
`MorionOS.Mfs.Routines` for the rest.
-/

namespace MorionOS.Mfs

open StateAct Layered Labelled

/-- The kinds of moves. -/
inductive Label where
  /-- The memory apart from the state of the volume. -/
  | memory
  /-- The inode table as it is mirrored in memory. -/
  | table
  /-- Any part of the state of the volume. -/
  | volume
  | flush
  /-- A new block. -/
  | write
  /-- A commit, with the state before it. -/
  | commit (before : Fs)
  /-- Another volume becomes the current one. -/
  | select

/-- One move. -/
inductive Move : Fs → Label → Fs → Prop where
  | memory {s : Fs} {m : Mem} (tick : Nat) (vol : m.vol = s.mem.vol) (cur : m.curVol = s.mem.curVol)
      (sectors : m.curSectors = s.mem.curSectors) : Move s .memory { s with tick := tick, mem := m }
  | table {s : Fs} (itab : Nat) (itabMem : Nat → Nat) (inoCount inoHint : Nat) :
      Move s .table { s with mem := s.mem.setVol fun v =>
        { v with itab := itab, itabMem := itabMem, inoCount := inoCount, inoHint := inoHint } }
  | volume {s : Fs} (v : Vol) : Move s .volume { s with mem := s.mem.setVol fun _ => v }
  | flush (s : Fs) : Move s .flush (flushRun s).2
  | write (blk : Block) (s : Fs) : Move s .write ((mfsCommit blk).run s).2
  | commit (s : Fs) : Move s (.commit s) (mfsBmpFlush.run s).2
  | select {s : Fs} (vol sectors : Nat) : Move s .select (s.setCurVol vol sectors)

/-- The moves that neither write a block nor commit. -/
def Label.quiet : Label → Prop
  | .memory | .table | .flush => True
  | _ => False

/-- The moves that load a volume without committing. -/
def Label.reading : Label → Prop
  | .memory | .table | .volume | .flush => True
  | _ => False

/-- The moves that load a volume or collect its free blocks. -/
def Label.upkeep : Label → Prop
  | .write | .select => False
  | _ => True

/-- The moves of programs that change files and directories. -/
def Label.onTree : Label → Prop
  | .volume | .select => False
  | _ => True

/-- The moves that stay on the current volume. -/
def Label.onVolume : Label → Prop
  | .select => False
  | _ => True

/-- All moves. -/
def Label.any : Label → Prop := fun _ => True

theorem Label.onTree_of_quiet (l : Label) (h : l.quiet) : l.onTree := by
  cases l <;> trivial

theorem Label.reading_of_quiet (l : Label) (h : l.quiet) : l.reading := by
  cases l <;> trivial

theorem Label.upkeep_of_reading (l : Label) (h : l.reading) : l.upkeep := by
  cases l <;> trivial

theorem Label.onVolume_of_upkeep (l : Label) (h : l.upkeep) : l.onVolume := by
  cases l <;> trivial

theorem Label.onVolume_of_onTree (l : Label) (h : l.onTree) : l.onVolume := by
  cases l <;> trivial

/-! ## Programs made of moves -/

/-- Every run is a sequence of moves with labels in `K`. -/
abbrev KeepsTo (K : Label → Prop) {ε α : Type} (m : Fs → Except ε α × Fs) : Prop := Act.Keeps (Via Move K) m

/-- Every run of the program is a sequence of moves with labels in `K`. -/
abbrev Follows (K : Label → Prop) {ε α : Type} (m : Op ε α) : Prop := Within (Via Move K) m

/-- Programs that neither write a block nor commit. -/
abbrev Peeks {ε α : Type} (m : Op ε α) : Prop := Follows Label.quiet m

/-- Programs that change files and directories. -/
abbrev Works {ε α : Type} (m : Op ε α) : Prop := Follows Label.onTree m

/-- Programs that load a volume without committing. -/
abbrev Loads {ε α : Type} (m : Op ε α) : Prop := Follows Label.reading m

/-- Programs that load a volume or collect its free blocks. -/
abbrev Tends {ε α : Type} (m : Op ε α) : Prop := Follows Label.upkeep m

/-- Programs that stay on the current volume. -/
abbrev Stays {ε α : Type} (m : Op ε α) : Prop := Follows Label.onVolume m

section Rules

variable {ε α : Type} {K K' : Label → Prop} {m : Op ε α}

theorem Follows.mono (h : Follows K m) (le : ∀ l, K l → K' l) : Follows K' m := ⟨fun s => (h.keeps s).mono le⟩

instance (priority := low) works_of_peeks [h : Peeks m] : Works m := h.mono Label.onTree_of_quiet
instance (priority := low) loads_of_peeks [h : Peeks m] : Loads m := h.mono Label.reading_of_quiet
instance (priority := low) tends_of_loads [h : Loads m] : Tends m := h.mono Label.upkeep_of_reading
instance (priority := low) stays_of_tends [h : Tends m] : Stays m := h.mono Label.onVolume_of_upkeep
instance (priority := low) stays_of_works [h : Works m] : Stays m := h.mono Label.onVolume_of_onTree

end Rules

/-! ## Primitives -/

section Primitives

variable {ε α : Type} {K : Label → Prop}

instance follows_getMem {f : Mem → α} : Follows K (getMem f : Op ε α) := ⟨Act.keeps_same _⟩
instance follows_getEnv {f : Env → α} : Follows K (getEnv f : Op ε α) := ⟨Act.keeps_same _⟩

theorem via_memory {s : Fs} {m : Mem} (tick : Nat) (label : K .memory) (vol : m.vol = s.mem.vol)
    (cur : m.curVol = s.mem.curVol) (sectors : m.curSectors = s.mem.curSectors) :
    Via Move K s { s with tick := tick, mem := m } := .single (.memory tick vol cur sectors) label

instance peeks_setCache {f : Cache → Cache} : Peeks (setCache f : Op ε Unit) :=
  ⟨fun s => via_memory s.tick trivial rfl rfl rfl⟩

instance peeks_setGc {f : Gc → Gc} : Peeks (setGc f : Op ε Unit) :=
  ⟨fun s => via_memory s.tick trivial rfl rfl rfl⟩

instance peeks_setLeaf {loc : MfsLoc} : Peeks (setLeaf loc : Op ε Unit) :=
  ⟨fun s => via_memory s.tick trivial rfl rfl rfl⟩

instance peeks_setWin {f : Windows → Windows} : Peeks (setWin f : Op ε Unit) :=
  ⟨fun s => via_memory s.tick trivial rfl rfl rfl⟩

instance peeks_mfsNow : Peeks (mfsNow : Op ε Nat) :=
  ⟨fun s => via_memory s.tick trivial rfl rfl rfl⟩

instance peeks_sysAllocPage : Peeks sysAllocPage :=
  ⟨fun s => via_memory s.tick trivial rfl rfl rfl⟩

instance loads_setVol {f : Vol → Vol} : Loads (setVol f : Op ε Unit) :=
  ⟨fun s => .single (.volume (f s.mem.vol)) trivial⟩

instance peeks_mfsCommitFlush : Peeks mfsCommitFlush := ⟨fun s => .single (.flush s) trivial⟩
instance works_mfsCommit {blk : Block} : Works (mfsCommit blk) := ⟨fun s => .single (.write blk s) trivial⟩
instance works_mfsBmpFlush : Works mfsBmpFlush := ⟨fun s => .single (.commit s) trivial⟩
instance tends_mfsBmpFlush : Tends mfsBmpFlush := ⟨fun s => .single (.commit s) trivial⟩

theorem peeks_blockReadDev {vol b : Nat} : KeepsTo Label.quiet (blockReadDev vol b) :=
  fun s => via_memory (m := s.mem) _ trivial rfl rfl rfl

instance peeks_mfsReadBlk {b : Nat} : Peeks (mfsReadBlk b) := by
  refine ⟨fun s => ?_⟩
  change Via Move Label.quiet s (readRun b s).2
  rw [readRun]
  split
  · have read : ∀ u : Unit, KeepsTo Label.quiet
        fun s' : Fs => blockReadDev s'.mem.curVol b s' := fun _ s' => peeks_blockReadDev s'
    exact peeks_mfsCommitFlush.keeps.after read s
  · exact peeks_blockReadDev s

end Primitives

end MorionOS.Mfs
