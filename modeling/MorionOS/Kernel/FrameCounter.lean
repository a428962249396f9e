import MorionOS.Kernel.BootFrames

/-!
# The counter of free frames

`FREE_FRAMES` is kept beside the bitmap: `init` counts the bits that it clears, and
`reserve_frame`, `allocate_frame`, `allocate_frames` and `free_frame` each change bits and
counter on their own.  `Counted` says that the counter is the number of clear bits; every
operation keeps it, and `init` establishes it when no two descriptors of the memory map
overlap (`frames_accounted`).  A request for no frames is refused (`empty_block_is_refused`).
-/

namespace MorionOS.Kernel

open Function

/-- The memory of the two descriptors does not overlap. -/
def MemoryDescriptor.Apart (a b : MemoryDescriptor) : Prop :=
  a.physStart + a.pageCount * FRAME_SIZE ≤ b.physStart ∨
    b.physStart + b.pageCount * FRAME_SIZE ≤ a.physStart

namespace Frames

variable {f f' : Frames} {addr idx count first : Nat}

/-- The frames whose bit is clear. -/
def freeSet (f : Frames) : Finset Nat :=
  (Finset.range MAX_MANAGED_FRAMES).filter fun idx => f.bitmap idx = false

@[simp] theorem mem_freeSet : idx ∈ f.freeSet ↔ idx < MAX_MANAGED_FRAMES ∧ f.bitmap idx = false := by
  rw [freeSet, Finset.mem_filter, Finset.mem_range]

/-- `FREE_FRAMES` is the number of clear bits. -/
def Counted (f : Frames) : Prop := f.freeFrames = f.freeSet.card

/-- There are `count` free frames in a row. -/
def FreeRun (f : Frames) (first count : Nat) : Prop :=
  first + count ≤ MAX_MANAGED_FRAMES ∧ ∀ i < count, f.bitmap (first + i) = false

theorem freeSet_set : freeSet { f with bitmap := update f.bitmap idx true, freeFrames := count } =
    f.freeSet \ {idx} := by
  ext other
  by_cases here : other = idx <;> simp [here]

theorem freeSet_clear (inside : idx < MAX_MANAGED_FRAMES) :
    freeSet { f with bitmap := update f.bitmap idx false, freeFrames := count } =
      insert idx f.freeSet := by
  ext other
  by_cases here : other = idx <;> simp [here, inside]

theorem Counted.clear (counted : f.Counted) (inside : idx < MAX_MANAGED_FRAMES)
    (used : f.bitmap idx = true) :
    Counted { f with bitmap := update f.bitmap idx false, freeFrames := f.freeFrames + 1 } := by
  rw [Counted, freeSet_clear inside, Finset.card_insert_of_notMem (by simp [used]), ← counted]

/-! ## The calls -/

/-- The calls that change the bitmap. -/
inductive FrameOp where
  | reserve (addr : Nat)
  | allocate
  | allocateFrames (count : Nat)
  | free (addr : Nat)

def step (f : Frames) : FrameOp → Frames
  | .reserve addr => f.reserveFrame addr
  | .allocate => (f.allocateFrame.map (·.2)).getD f
  | .allocateFrames count => ((f.allocateFrames count).map (·.2)).getD f
  | .free addr => f.freeFrame addr

/-- Some free frames are taken. -/
structure Takes (f f' : Frames) (taken : Finset Nat) : Prop where
  pinned : f'.pinned = f.pinned
  free : taken ⊆ f.freeSet
  left : f'.freeSet = f.freeSet \ taken
  counter : f'.freeFrames = f.freeFrames - taken.card

theorem takes_nothing (f : Frames) : Takes f f ∅ := ⟨rfl, by simp, by simp, rfl⟩

/-- **What a call can do**: take free frames, or give back one that is in use and not
pinned. -/
theorem step_cases (f : Frames) (op : FrameOp) : (∃ taken, Takes f (f.step op) taken) ∨
    ∃ addr, f.isPinned addr = false ∧ addr / FRAME_SIZE < MAX_MANAGED_FRAMES ∧
      f.bitmap (addr / FRAME_SIZE) = true ∧ f.step op = { f with
        bitmap := update f.bitmap (addr / FRAME_SIZE) false
        freeFrames := f.freeFrames + 1 } := by
  cases op with
  | reserve addr =>
    rw [step, Frames.reserveFrame]
    split
    next free => exact .inl ⟨{addr / FRAME_SIZE}, rfl, by simp [free], freeSet_set, rfl⟩
    · exact .inl ⟨∅, takes_nothing f⟩
  | allocate =>
    rw [step, Frames.allocateFrame]
    split
    · exact .inl ⟨∅, takes_nothing f⟩
    next idx found =>
      obtain ⟨clear, -, inside⟩ := firstClear_spec found
      exact .inl ⟨{idx}, rfl, by simp [clear]; omega, freeSet_set, rfl⟩
  | allocateFrames count =>
    rw [step, Frames.allocateFrames]
    split
    · exact .inl ⟨∅, takes_nothing f⟩
    split
    · exact .inl ⟨∅, takes_nothing f⟩
    next first found =>
      obtain ⟨bound, clear⟩ := findRun_spec (.inl rfl) found
      refine .inl ⟨Finset.Ico first (first + count), rfl, fun idx member => ?_, ?_, by simp⟩
      · obtain ⟨lower, upper⟩ := Finset.mem_Ico.mp member
        exact mem_freeSet.mpr ⟨by omega, clear idx lower upper⟩
      · ext idx
        simp only [Option.map_some, Option.getD_some, mem_freeSet, Bool.or_eq_false_iff,
          decide_eq_false_iff_not, Finset.mem_sdiff, Finset.mem_Ico]
        tauto
  | free addr =>
    rw [step, Frames.freeFrame]
    split
    · exact .inl ⟨∅, takes_nothing f⟩
    next unpinned =>
      split
      next used => exact .inr ⟨addr, by simpa using unpinned, used.1, used.2, rfl⟩
      · exact .inl ⟨∅, takes_nothing f⟩

theorem Counted.step (counted : f.Counted) (op : FrameOp) : (f.step op).Counted := by
  rcases f.step_cases op with ⟨taken, takes⟩ | ⟨addr, -, inside, used, same⟩
  · rw [Counted, takes.counter, takes.left, Finset.card_sdiff_of_subset takes.free, ← counted]
  · exact same ▸ counted.clear inside used

/-- The scan passes over no run: one that starts behind the last used bit would have been
found. -/
theorem findRun_complete {bitmap : Nat → Bool} {fuel run runStart : Nat} (short : run < count)
    (none : findRun bitmap count fuel idx run runStart = none) (lower : idx ≤ first + run)
    (upper : first + count ≤ idx + fuel) : ∃ i < count, bitmap (first + i) = true := by
  induction fuel generalizing idx run runStart with
  | zero => omega
  | succ fuel ih =>
    rw [findRun] at none
    split at none
    next used =>
      rcases Nat.lt_or_ge idx first with before | inside
      · exact ih (by omega) none (by omega) (by omega)
      · exact ⟨idx - first, by omega, by rwa [Nat.add_sub_cancel' inside]⟩
    · simp only at none
      split at none
      · cases none
      · exact ih (by omega) none (by omega) (by omega)

/-- `allocate_frames` finds a block of at least one frame exactly when there is one. -/
theorem allocateFrames_eq_none (positive : 0 < count) :
    f.allocateFrames count = none ↔ ¬ ∃ first, f.FreeRun first count := by
  constructor
  · rintro none ⟨first, bound, clear⟩
    rw [Frames.allocateFrames, if_neg (Nat.ne_of_gt positive)] at none
    split at none
    next missing =>
      obtain ⟨i, inside, used⟩ := findRun_complete positive missing (Nat.zero_le (first + 0))
        (by omega)
      rw [clear i inside] at used
      cases used
    · cases none
  · intro missing
    by_contra found
    obtain ⟨⟨addr, f'⟩, allocated⟩ := Option.ne_none_iff_exists'.mp found
    obtain ⟨-, bound, clear, -⟩ := allocateFrames_spec allocated
    exact missing ⟨addr / FRAME_SIZE, bound, clear⟩

/-! ## The start -/

variable {info : BootInfo}

theorem Counted.clearFrames {kernelEnd pages : Nat} (counted : f.Counted)
    (used : ∀ i < pages, f.bitmap (addr / FRAME_SIZE + i) = true) :
    (Frames.clearFrames info kernelEnd pages addr f).Counted := by
  induction pages generalizing addr f with
  | zero => exact counted
  | succ pages ih =>
    have next : (addr + FRAME_SIZE) / FRAME_SIZE = addr / FRAME_SIZE + 1 :=
      Nat.add_div_right _ (by decide)
    have later : ∀ i < pages, f.bitmap ((addr + FRAME_SIZE) / FRAME_SIZE + i) = true := by
      intro i inside
      rw [next, Nat.add_assoc, Nat.add_comm 1]
      exact used (i + 1) (by omega)
    rw [Frames.clearFrames]
    split
    · exact counted
    split
    · exact ih counted later
    split
    · exact ih counted later
    · refine ih (counted.clear (by omega) (used 0 (by omega))) fun i inside => ?_
      have elsewhere : (addr + FRAME_SIZE) / FRAME_SIZE + i ≠ addr / FRAME_SIZE := by omega
      simpa [update_of_ne elsewhere] using later i inside

/-- Every descriptor that is still to come has all its bits set. -/
theorem Counted.clearDescriptors {kernelEnd : Nat} {mmap : List MemoryDescriptor}
    (apart : mmap.Pairwise MemoryDescriptor.Apart) (counted : f.Counted)
    (used : ∀ desc ∈ mmap, ∀ i < desc.pageCount, f.bitmap (desc.physStart / FRAME_SIZE + i) = true) :
    (mmap.foldl (clearDescriptor info kernelEnd) f).Counted := by
  induction mmap generalizing f with
  | nil => exact counted
  | cons desc rest ih =>
    obtain ⟨apartHere, apartRest⟩ := List.pairwise_cons.mp apart
    obtain ⟨usedHere, usedRest⟩ := List.forall_mem_cons.mp used
    rw [List.foldl_cons, clearDescriptor]
    split
    · exact ih apartRest counted usedRest
    · refine ih apartRest (counted.clearFrames usedHere) fun other member i inside => ?_
      rw [← Bool.not_eq_false]
      intro clear
      -- a bit that this descriptor cleared lies in no other descriptor
      rcases clearFrames_clear clear with before | ⟨j, bound, same, -⟩
      · rw [usedRest other member i inside] at before
        cases before
      · have := apartHere other member
        unfold MemoryDescriptor.Apart FRAME_SIZE at *
        omega

/-! ## Runs -/

/-- The counter is right, the framebuffer is pinned, and none of its frames is free. -/
structure Kept (info : BootInfo) (f : Frames) : Prop where
  counted : f.Counted
  pinned : f.pinned = (whitelist info).pinned
  used : ∀ idx ∈ f.freeSet, ¬ (info.fbStartFrame ≤ idx ∧ idx < info.fbEndFrame)

theorem Kept.isPinned (kept : Kept info f) (addr : Nat) : f.isPinned addr = true ↔
    info.fbStartFrame ≤ addr / FRAME_SIZE ∧ addr / FRAME_SIZE < info.fbEndFrame := by
  have range : (whitelist info).pinned = [(info.fbAddr / FRAME_SIZE * FRAME_SIZE,
      (info.fbAddr + info.fbBytes + (FRAME_SIZE - 1)) / FRAME_SIZE * FRAME_SIZE)] := rfl
  rw [Frames.isPinned, kept.pinned, range, List.any_cons, List.any_nil, Bool.or_false,
    Bool.and_eq_true, decide_eq_true_eq, decide_eq_true_eq, BootInfo.fbStartFrame,
    BootInfo.fbEndFrame, Nat.le_div_iff_mul_le (by decide), Nat.div_lt_iff_lt_mul (by decide)]

theorem Kept.step (kept : Kept info f) (op : FrameOp) : Kept info (f.step op) := by
  have counted := kept.counted.step op
  rcases f.step_cases op with ⟨taken, takes⟩ | ⟨addr, unpinned, inside, -, same⟩
  · refine ⟨counted, takes.pinned.trans kept.pinned, fun idx member => kept.used idx ?_⟩
    rw [takes.left] at member
    exact (Finset.mem_sdiff.mp member).1
  · rw [same] at counted ⊢
    refine ⟨counted, kept.pinned, fun idx member => ?_⟩
    rw [freeSet_clear inside, Finset.mem_insert] at member
    rcases member with rfl | old
    · rw [← kept.isPinned, unpinned]
      exact Bool.false_ne_true
    · exact kept.used idx old

theorem kept_init (apart : info.mmap.Pairwise MemoryDescriptor.Apart) (kernelImageEnd : Nat)
    (active : List Nat) : Kept info (init info kernelImageEnd active) := by
  have clearing : Counted (info.mmap.foldl (clearDescriptor info
      ((kernelImageEnd + (0x10000 - 1)) / 0x10000 * 0x10000)) (whitelist info)) := by
    refine Counted.clearDescriptors apart ?_ fun _ _ _ _ => rfl
    have nothing : (whitelist info).freeSet = ∅ := by
      ext idx
      simp [whitelist, pinRange, MAX_PINNED_RANGES]
    rw [Counted, nothing]
    rfl
  refine ⟨List.foldlRecOn active Frames.reserveFrame (motive := Counted) clearing
    fun f counted addr _ => counted.step (.reserve addr), (init_rest info kernelImageEnd active).1,
    fun idx member => ?_⟩
  obtain ⟨-, -, -, -, -, -, -, outside⟩ := init_clear (mem_freeSet.mp member).2
  exact outside

/-- The allocator's data agree, and what it returns was free. -/
structure Accounted (f : Frames) : Prop where
  counter : f.freeFrames = f.freeSet.card
  frame : ∀ addr f', f.allocateFrame = some (addr, f') →
    ∃ first, addr = first * FRAME_SIZE ∧ f.FreeRun first 1
  block : ∀ count addr f', f.allocateFrames count = some (addr, f') →
    ∃ first, addr = first * FRAME_SIZE ∧ f.FreeRun first count
  refused : ∀ count, f.allocateFrames count = none ↔ count = 0 ∨ ¬ ∃ first, f.FreeRun first count
  pinned : ∀ addr, f.isPinned addr = true → addr / FRAME_SIZE ∉ f.freeSet

theorem Kept.accounted (kept : Kept info f) : f.Accounted where
  counter := kept.counted
  frame := fun addr f' allocated => by
    obtain ⟨aligned, inside, clear, -⟩ := allocateFrame_spec allocated
    exact ⟨_, (frame_start aligned).symm, inside,
      fun i zero => by rwa [Nat.lt_one_iff.mp zero]⟩
  block := fun count addr f' allocated => by
    obtain ⟨aligned, bound, clear, -⟩ := allocateFrames_spec allocated
    exact ⟨_, (frame_start aligned).symm, bound, clear⟩
  refused := fun count => by
    rcases Nat.eq_zero_or_pos count with rfl | positive
    · simp [Frames.allocateFrames]
    · rw [allocateFrames_eq_none positive, or_iff_right (Nat.ne_of_gt positive)]
  pinned := fun addr pinned free => kept.used _ free ((kept.isPinned addr).mp pinned)

/-- **The allocator keeps its books**: after `init` on a memory map without overlaps and any
sequence of calls. -/
theorem frames_accounted (info : BootInfo) (kernelImageEnd : Nat) (active : List Nat)
    (apart : info.mmap.Pairwise MemoryDescriptor.Apart) (ops : List FrameOp) :
    (ops.foldl step (init info kernelImageEnd active)).Accounted := by
  have kept : Kept info (ops.foldl step (init info kernelImageEnd active)) :=
    List.foldlRecOn ops step (motive := Kept info) (kept_init apart kernelImageEnd active)
      fun f kept op _ => kept.step op
  exact kept.accounted

/-- Two descriptors that meet, and a block taken from behind them. -/
theorem two_descriptors_accounted :
    ([FrameOp.allocateFrames 3, .free 0x11000].foldl step
      (init ⟨0xFD000000, 16, 16, 32, [⟨MEMORY_CONVENTIONAL, 0x10000, 2⟩,
        ⟨MEMORY_CONVENTIONAL, 0x12000, 2⟩]⟩ 0x8000 [])).Accounted :=
  frames_accounted _ _ _ (by simp [MemoryDescriptor.Apart, FRAME_SIZE]) _

/-- A block of no frames is there in every state, and `allocate_frames` refuses it. -/
theorem empty_block_is_refused :
    (init ⟨0, 0, 0, 0, []⟩ 0 []).FreeRun 0 0 ∧ (init ⟨0, 0, 0, 0, []⟩ 0 []).allocateFrames 0 = none :=
  ⟨⟨Nat.zero_le _, fun _ below => absurd below (Nat.not_lt_zero _)⟩, rfl⟩

end Frames

end MorionOS.Kernel
