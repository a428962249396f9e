import MorionOS.Kernel.Paging

/-!
# The allocator at boot, and blocks of frames

`frame_allocator::init` marks every frame used and then clears the bits of the
frames that the firmware's memory map calls conventional, except those below the
end of the kernel image, those of the framebuffer and those of the page tables
that are still in use.  The framebuffer also becomes a pinned range, which
`free_frame` leaves alone.

`allocate_frames` takes the first run of clear bits that is long enough.
-/

namespace MorionOS.Kernel

open Function

def MEMORY_CONVENTIONAL : Nat := 7
def MAX_PINNED_RANGES : Nat := 4

structure MemoryDescriptor where
  ty : Nat
  physStart : Nat
  pageCount : Nat

/-- The part of `BootInfo` that describes memory and the framebuffer. -/
structure BootInfo where
  fbAddr : Nat
  fbHeight : Nat
  fbStride : Nat
  fbBpp : Nat
  mmap : List MemoryDescriptor

namespace BootInfo

variable (info : BootInfo)

def fbBytes : Nat := info.fbHeight * info.fbStride * (info.fbBpp / 8)

def fbStartFrame : Nat := info.fbAddr / FRAME_SIZE

def fbEndFrame : Nat :=
  (info.fbAddr + info.fbBytes + (FRAME_SIZE - 1)) / FRAME_SIZE

/-- Conventional memory that `init` may hand out: behind the kernel image and
outside the framebuffer. -/
def Conventional (kernelEnd idx : Nat) : Prop :=
  ∃ desc ∈ info.mmap, desc.ty = MEMORY_CONVENTIONAL ∧ ∃ i < desc.pageCount,
    idx = (desc.physStart + i * FRAME_SIZE) / FRAME_SIZE ∧
      kernelEnd ≤ desc.physStart + i * FRAME_SIZE ∧
      ¬ (info.fbStartFrame ≤ idx ∧ idx < info.fbEndFrame)

end BootInfo

namespace Frames

def pinRange (f : Frames) (first last : Nat) : Frames :=
  if f.pinned.length < MAX_PINNED_RANGES then
    { f with pinned := f.pinned ++ [(first / FRAME_SIZE * FRAME_SIZE,
        (last + (FRAME_SIZE - 1)) / FRAME_SIZE * FRAME_SIZE)] }
  else f

/-- The inner loop of `init`: the frames of one descriptor from an address on. -/
def clearFrames (info : BootInfo) (kernelEnd : Nat) : Nat → Nat → Frames → Frames
  | 0, _, f => f
  | pages + 1, addr, f =>
    let idx := addr / FRAME_SIZE
    if idx ≥ MAX_MANAGED_FRAMES then f
    else if addr < kernelEnd then clearFrames info kernelEnd pages (addr + FRAME_SIZE) f
    else if info.fbStartFrame ≤ idx ∧ idx < info.fbEndFrame then
      clearFrames info kernelEnd pages (addr + FRAME_SIZE) f
    else
      clearFrames info kernelEnd pages (addr + FRAME_SIZE)
        { f with bitmap := update f.bitmap idx false, freeFrames := f.freeFrames + 1 }

variable (info : BootInfo)

/-- The outer loop of `init`: one descriptor of the memory map. -/
def clearDescriptor (kernelEnd : Nat) (f : Frames) (desc : MemoryDescriptor) :
    Frames :=
  if desc.ty ≠ MEMORY_CONVENTIONAL then f
  else clearFrames info kernelEnd desc.pageCount desc.physStart f

def reserveFrame (f : Frames) (addr : Nat) : Frames :=
  if addr / FRAME_SIZE < MAX_MANAGED_FRAMES ∧ f.bitmap (addr / FRAME_SIZE) = false then
    { f with
      bitmap := update f.bitmap (addr / FRAME_SIZE) true
      freeFrames := f.freeFrames - 1 }
  else f

/-- Every frame used, no count, the framebuffer pinned. -/
def whitelist : Frames :=
  pinRange ⟨fun _ => true, 0, [], List.replicate MAX_SHARED_FRAMES ⟨0, 0⟩⟩ info.fbAddr
    (info.fbAddr + info.fbBytes)

/-- `init`.  The end of the image is rounded up to 64 KiB; `active` lists the
frames of the page tables that the walk from `CR3` finds. -/
def init (kernelImageEnd : Nat) (active : List Nat) : Frames :=
  let kernelEnd := (kernelImageEnd + (0x10000 - 1)) / 0x10000 * 0x10000
  active.foldl reserveFrame (info.mmap.foldl (clearDescriptor info kernelEnd) (whitelist info))

/-- The loop of `allocate_frames`: the start of the first run of `count` clear
bits, when `run` clear bits from `runStart` on lie right before `idx`. -/
def findRun (bitmap : Nat → Bool) (count : Nat) : Nat → Nat → Nat → Nat → Option Nat
  | 0, _, _, _ => none
  | fuel + 1, idx, run, runStart =>
    if bitmap idx then findRun bitmap count fuel (idx + 1) 0 runStart
    else
      let runStart := if run = 0 then idx else runStart
      if run + 1 = count then some runStart
      else findRun bitmap count fuel (idx + 1) (run + 1) runStart

def allocateFrames (f : Frames) (count : Nat) : Option (Nat × Frames) :=
  if count = 0 then none
  else
    match findRun f.bitmap count MAX_MANAGED_FRAMES 0 0 0 with
    | none => none
    | some first =>
      some (first * FRAME_SIZE, { f with
        bitmap := fun idx => decide (first ≤ idx ∧ idx < first + count) || f.bitmap idx
        freeFrames := f.freeFrames - count })

/-! ## What `init` clears -/

variable {addr idx : Nat} {f : Frames}

theorem clearFrames_clear {info : BootInfo} {kernelEnd pages : Nat}
    (clear : (clearFrames info kernelEnd pages addr f).bitmap idx = false) :
    f.bitmap idx = false ∨ ∃ i < pages, idx = (addr + i * FRAME_SIZE) / FRAME_SIZE ∧
      kernelEnd ≤ addr + i * FRAME_SIZE ∧ ¬ (info.fbStartFrame ≤ idx ∧ idx < info.fbEndFrame) := by
  induction pages generalizing addr f with
  | zero => exact .inl clear
  | succ pages ih =>
    -- what the rest of the loop clears lies one page further on
    have later : ∀ {g : Frames},
        (clearFrames info kernelEnd pages (addr + FRAME_SIZE) g).bitmap idx = false →
        g.bitmap idx = false ∨ ∃ i < pages + 1, idx = (addr + i * FRAME_SIZE) / FRAME_SIZE ∧
          kernelEnd ≤ addr + i * FRAME_SIZE ∧
          ¬ (info.fbStartFrame ≤ idx ∧ idx < info.fbEndFrame) := by
      intro g clear
      rcases ih clear with before | ⟨i, bound, at_, behind, outside⟩
      · exact .inl before
      · have shift : addr + FRAME_SIZE + i * FRAME_SIZE = addr + (i + 1) * FRAME_SIZE := by ring
        exact .inr ⟨i + 1, by omega, shift ▸ at_, shift ▸ behind, outside⟩
    rw [clearFrames] at clear
    split at clear
    · exact .inl clear
    split at clear
    · exact later clear
    split at clear
    · exact later clear
    next behind outside =>
      rcases later clear with before | found
      · by_cases here : idx = addr / FRAME_SIZE
        · subst here
          exact .inr ⟨0, by omega, by simp, by simpa using behind, outside⟩
        · exact .inl (by simpa [update_of_ne here] using before)
      · exact .inr found

theorem reserveFrame_clear (clear : (f.reserveFrame addr).bitmap idx = false) : f.bitmap idx = false := by
  unfold reserveFrame at clear
  split at clear
  · by_cases here : idx = addr / FRAME_SIZE
    · simp [here] at clear
    · simpa [update_of_ne here] using clear
  · exact clear

/-- **What `init` classifies as free** is conventional memory behind the kernel
image and outside the framebuffer. -/
theorem init_clear {info : BootInfo} {kernelImageEnd : Nat} {active : List Nat}
    (clear : (init info kernelImageEnd active).bitmap idx = false) :
    info.Conventional ((kernelImageEnd + (0x10000 - 1)) / 0x10000 * 0x10000) idx := by
  revert clear
  unfold init
  generalize (kernelImageEnd + (0x10000 - 1)) / 0x10000 * 0x10000 = kernelEnd
  refine List.foldlRecOn active reserveFrame
    (motive := fun f => f.bitmap idx = false → info.Conventional kernelEnd idx) ?_
    fun f known addr _ clear => known (reserveFrame_clear clear)
  refine List.foldlRecOn info.mmap (clearDescriptor info kernelEnd)
    (motive := fun f => f.bitmap idx = false → info.Conventional kernelEnd idx) ?_ ?_
  · intro clear
    cases clear
  · intro f known desc member clear
    unfold clearDescriptor at clear
    split at clear
    · exact known clear
    next conventional =>
      rcases clearFrames_clear clear with before | ⟨i, bound, at_, behind, outside⟩
      · exact known before
      · exact ⟨desc, member, not_not.mp conventional, i, bound, at_, behind, outside⟩

/-- The loops of `init` change the bitmap only. -/
theorem clearFrames_rest (kernelEnd pages addr : Nat) (f : Frames) :
    (clearFrames info kernelEnd pages addr f).pinned = f.pinned ∧
      (clearFrames info kernelEnd pages addr f).shared = f.shared := by
  induction pages generalizing addr f with
  | zero => exact ⟨rfl, rfl⟩
  | succ pages ih =>
    rw [clearFrames]
    split
    · exact ⟨rfl, rfl⟩
    split
    · exact ih _ _
    split <;> exact ih _ _

theorem init_rest (kernelImageEnd : Nat) (active : List Nat) :
    (init info kernelImageEnd active).pinned = (whitelist info).pinned ∧
      (init info kernelImageEnd active).shared = (whitelist info).shared := by
  unfold init
  generalize (kernelImageEnd + (0x10000 - 1)) / 0x10000 * 0x10000 = kernelEnd
  refine List.foldlRecOn active reserveFrame (motive := fun f =>
    f.pinned = (whitelist info).pinned ∧ f.shared = (whitelist info).shared) ?_ ?_
  · refine List.foldlRecOn info.mmap (clearDescriptor info kernelEnd) (motive := fun f =>
      f.pinned = (whitelist info).pinned ∧ f.shared = (whitelist info).shared) ⟨rfl, rfl⟩ ?_
    intro f rest desc _
    unfold clearDescriptor
    split
    · exact rest
    · obtain ⟨pinned, shared⟩ := clearFrames_rest info kernelEnd desc.pageCount desc.physStart f
      exact ⟨pinned.trans rest.1, shared.trans rest.2⟩
  · intro f rest addr _
    unfold reserveFrame
    split <;> exact rest

theorem init_pinned (kernelImageEnd : Nat) (active : List Nat) :
    (init info kernelImageEnd active).pinned = [(info.fbAddr / FRAME_SIZE * FRAME_SIZE,
      (info.fbAddr + info.fbBytes + (FRAME_SIZE - 1)) / FRAME_SIZE * FRAME_SIZE)] :=
  (init_rest info kernelImageEnd active).1

/-! ## What allocation takes -/

theorem findRun_spec {bitmap : Nat → Bool} {count fuel run runStart first : Nat}
    (before : run = 0 ∨ runStart + run = idx ∧ ∀ i, runStart ≤ i → i < idx → bitmap i = false)
    (found : findRun bitmap count fuel idx run runStart = some first) :
    first + count ≤ idx + fuel ∧ ∀ i, first ≤ i → i < first + count → bitmap i = false := by
  induction fuel generalizing idx run runStart with
  | zero => cases found
  | succ fuel ih =>
    rw [findRun] at found
    split at found
    · obtain ⟨bound, clear⟩ := ih (.inl rfl) found
      exact ⟨by omega, clear⟩
    next free =>
      have free : bitmap idx = false := by simpa using free
      -- the run now ends behind `idx`
      have extended : (if run = 0 then idx else runStart) + (run + 1) = idx + 1 ∧
          ∀ i, (if run = 0 then idx else runStart) ≤ i → i < idx + 1 → bitmap i = false := by
        rcases before with rfl | ⟨ends, clear⟩
        · refine ⟨by simp, fun i lower upper => ?_⟩
          have here : i = idx := by
            simp only [if_pos] at lower
            omega
          exact here ▸ free
        · by_cases empty : run = 0
          · refine ⟨by simp [empty], fun i lower upper => ?_⟩
            have here : i = idx := by
              simp only [empty, if_pos] at lower
              omega
            exact here ▸ free
          · simp only [empty, if_false]
            refine ⟨by omega, fun i lower upper => ?_⟩
            rcases Nat.lt_or_ge i idx with inside | last
            · exact clear i lower inside
            · rw [show i = idx by omega]
              exact free
      simp only at found
      split at found
      next complete =>
        cases found
        exact ⟨by omega, fun i lower upper => extended.2 i lower (by omega)⟩
      · obtain ⟨bound, clear⟩ := ih (.inr extended) found
        exact ⟨by omega, clear⟩

/-- `allocate_frames` returns an aligned block whose bits were clear, sets them and
touches nothing else. -/
theorem allocateFrames_spec {f' : Frames} {count : Nat} (allocated : f.allocateFrames count = some (addr, f')) :
    addr % FRAME_SIZE = 0 ∧ addr / FRAME_SIZE + count ≤ MAX_MANAGED_FRAMES ∧
      (∀ i < count, f.bitmap (addr / FRAME_SIZE + i) = false) ∧
      (∀ idx, f'.bitmap idx =
        (decide (addr / FRAME_SIZE ≤ idx ∧ idx < addr / FRAME_SIZE + count) || f.bitmap idx)) ∧
      f'.shared = f.shared ∧ f'.pinned = f.pinned := by
  unfold allocateFrames at allocated
  split at allocated
  · cases allocated
  split at allocated
  · cases allocated
  next first found =>
    obtain ⟨bound, clear⟩ := findRun_spec (.inl rfl) found
    cases allocated
    have index : first * FRAME_SIZE / FRAME_SIZE = first := Nat.mul_div_cancel _ (by decide)
    rw [index]
    exact ⟨Nat.mul_mod_left _ _, by omega, fun i inside => clear _ (by omega) (by omega),
      fun _ => rfl, rfl, rfl⟩

theorem firstClear_le {bitmap : Nat → Bool} {fuel start : Nat} (clear : bitmap idx = false)
    (lower : start ≤ idx) (upper : idx < start + fuel) :
    ∃ j ≤ idx, firstClear bitmap fuel start = some j := by
  induction fuel generalizing start with
  | zero => omega
  | succ fuel ih =>
    rw [firstClear]
    split
    next used =>
      have differs : start ≠ idx := by
        rintro rfl
        rw [clear] at used
        cases used
      exact ih (by omega) (by omega)
    · exact ⟨start, lower, rfl⟩

/-- **A clear bit is handed out.**  After enough allocations the next one returns
the frame. -/
theorem exists_allocation_of_clear (inside : idx < MAX_MANAGED_FRAMES)
    (clear : f.bitmap idx = false) : ∃ taken f₁ f₂, AllocChain f taken f₁ ∧
      f₁.allocateFrame = some (idx * FRAME_SIZE, f₂) := by
  -- each allocation before that takes a clear bit below `idx`
  induction card : ((Finset.range idx).filter fun j => f.bitmap j = false).card
    using Nat.strong_induction_on generalizing f with
  | _ below ih =>
    obtain ⟨j, atMost, first⟩ := firstClear_le clear (Nat.zero_le idx)
      (show idx < 0 + MAX_MANAGED_FRAMES by omega)
    have taken : f.allocateFrame = some (j * FRAME_SIZE, { f with
        bitmap := update f.bitmap j true, freeFrames := f.freeFrames - 1 }) := by
      rw [allocateFrame, first]
    by_cases here : j = idx
    · exact ⟨[], f, _, .nil f, here ▸ taken⟩
    · have free : f.bitmap j = false := (firstClear_spec first).1
      have fewer : ((Finset.range idx).filter fun i =>
          update f.bitmap j true i = false).card < below := by
        rw [← card]
        apply Finset.card_lt_card
        rw [Finset.ssubset_iff_of_subset]
        · exact ⟨j, by simp [free]; omega, by simp⟩
        · intro i member
          simp only [Finset.mem_filter] at member ⊢
          refine ⟨member.1, ?_⟩
          by_cases same : i = j
          · simp [same] at member
          · simpa [update_of_ne same] using member.2
      obtain ⟨more, f₁, f₂, chain, last⟩ := ih _ fewer
        (f := { f with bitmap := update f.bitmap j true, freeFrames := f.freeFrames - 1 })
        (by simpa [update_of_ne (Ne.symm here)] using clear) rfl
      exact ⟨j * FRAME_SIZE :: more, f₁, f₂, .cons taken chain, last⟩

end Frames

end MorionOS.Kernel
