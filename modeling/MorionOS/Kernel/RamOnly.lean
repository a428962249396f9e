import MorionOS.Kernel.CountedShares
import MorionOS.Kernel.Custody

/-!
# Only RAM is allocated

The allocator hands out frames whose bit is clear.  At boot these are the frames
that `init` took from the memory map.  Later a bit is cleared when a frame is given
back, and `free_user_space` gives back whatever a domain has mapped, device memory
included: `free_frame` leaves a frame alone only when it lies in a pinned range or
beyond the managed memory.

`backing` says that whatever can be given back is RAM, pinned or beyond the managed
memory.  Every move keeps it as long as the device memory that is mapped is pinned
or beyond the managed memory, which the framebuffer always is
(`only_ram_is_allocated`); memory of a card that is neither is handed out (`bar_is_allocated`).
-/

namespace MorionOS.Kernel

open Frames

section Backed

variable {ram : Nat → Prop} {pinned : List (Nat × Nat)}

/-- Giving the frame back clears no bit but one of RAM. -/
def Releasable (ram : Nat → Prop) (pinned : List (Nat × Nat)) (a : Nat) : Prop :=
  (∃ range ∈ pinned, range.1 ≤ a ∧ a < range.2) ∨ MAX_MANAGED_FRAMES ≤ a / FRAME_SIZE ∨
    ram (a / FRAME_SIZE)

/-- The clear bits belong to RAM. -/
structure FramesBacked (ram : Nat → Prop) (pinned : List (Nat × Nat)) (f : Frames) : Prop where
  pinned : f.pinned = pinned
  clear : ∀ idx < MAX_MANAGED_FRAMES, f.bitmap idx = false → ram idx

namespace FramesBacked

variable {f f' : Frames} {a : Nat}

section

variable (backed : FramesBacked ram pinned f)
include backed

theorem congr (bitmap : f'.bitmap = f.bitmap)
    (ranges : f'.pinned = f.pinned) : FramesBacked ram pinned f' :=
  ⟨ranges.trans backed.pinned, bitmap ▸ backed.clear⟩

theorem freeFrame (releasable : Releasable ram pinned a) :
    FramesBacked ram pinned (f.freeFrame a) := by
  unfold Frames.freeFrame
  split
  · exact backed
  next unpinned =>
    split
    next managed =>
      refine ⟨backed.pinned, fun idx inside clear => ?_⟩
      by_cases here : idx = a / FRAME_SIZE
      · rcases releasable with ⟨range, member, lower, upper⟩ | beyond | isRam
        · refine absurd (List.any_eq_true.mpr ⟨range, backed.pinned ▸ member, ?_⟩) unpinned
          simp [lower, upper]
        · exact absurd managed.1 (by omega)
        · exact here ▸ isRam
      · exact backed.clear idx inside (by simpa [Function.update_of_ne here] using clear)
    · exact backed

theorem incRef (a : Nat) : FramesBacked ram pinned (f.incRef a) := by
  refine backed.congr (f.incRef_bitmap a) ?_
  unfold Frames.incRef
  split
  · rfl
  · split <;> rfl

theorem dropFrame (releasable : Releasable ram pinned a) :
    FramesBacked ram pinned (f.dropFrame a) := by
  have counted : FramesBacked ram pinned (f.decRef a).2 := backed.congr rfl rfl
  unfold Frames.dropFrame
  split
  · exact counted.freeFrame releasable
  · exact counted

theorem allocateFrame (allocated : f.allocateFrame = some (a, f')) :
    FramesBacked ram pinned f' ∧ a % FRAME_SIZE = 0 ∧ ram (a / FRAME_SIZE) := by
  obtain ⟨aligned, inside, clear, bits, -, ranges⟩ := allocateFrame_spec allocated
  refine ⟨⟨ranges.trans backed.pinned, fun idx bound free => ?_⟩, aligned,
    backed.clear _ inside clear⟩
  rw [bits] at free
  by_cases here : idx = a / FRAME_SIZE
  · simp [here] at free
  · exact backed.clear idx bound (by simpa [Function.update_of_ne here] using free)

theorem allocateFrames {count : Nat} (allocated : f.allocateFrames count = some (a, f')) :
    FramesBacked ram pinned f' ∧ a % FRAME_SIZE = 0 ∧ ∀ i < count, ram (a / FRAME_SIZE + i) := by
  obtain ⟨aligned, inside, clear, bits, -, ranges⟩ := allocateFrames_spec allocated
  refine ⟨⟨ranges.trans backed.pinned, fun idx bound free => ?_⟩, aligned,
    fun i bound => backed.clear _ (by omega) (clear i bound)⟩
  rw [bits, Bool.or_eq_false_iff] at free
  exact backed.clear idx bound free.2

end

end FramesBacked

/-- Whatever can be given back is RAM, pinned or beyond the managed memory. -/
def backing {rules : Rules} (device : ∀ a, rules.device a → Releasable ram pinned a) : Custody rules where
  sound := FramesBacked ram pinned
  spare := fun a => a % FRAME_SIZE = 0 ∧ Releasable ram pinned a
  page := fun _ a => a % FRAME_SIZE = 0 ∧ Releasable ram pinned a
  counted := Releasable ram pinned
  allocate := fun backed allocated =>
    have ⟨frames, aligned, isRam⟩ := backed.allocateFrame allocated
    ⟨frames, aligned, .inr (.inr isRam)⟩
  allocateBlock := fun backed allocated => by
    obtain ⟨frames, aligned, isRam⟩ := backed.allocateFrames allocated
    refine ⟨frames, fun b member => ?_⟩
    obtain ⟨i, inside, rfl⟩ := List.mem_map.mp member
    have index := isRam i (List.mem_range.mp inside)
    refine ⟨by rw [Nat.add_mul_mod_self_right, aligned], .inr (.inr ?_)⟩
    rwa [Nat.add_mul_div_right _ _ (by decide)]
  free := fun backed spare => backed.freeFrame spare.2
  drop := FramesBacked.dropFrame
  count := fun backed _ => backed.incRef _
  base := fun spare => by rwa [frame_start spare.1]
  spare_counted := And.right
  page_counted := And.right
  spare_page := id
  device := fun allowed => ⟨Nat.mul_mod_left _ _, device _ allowed⟩
  share := fun {m current vaddr target paddr} _ pages resolved => by
    obtain ⟨d, live, walk⟩ := Option.map_eq_some_iff.mp resolved
    obtain ⟨frame, member, rfl⟩ := UserHalf.resolve_mem_frames walk
    have here := pages d live frame member
    have same : (frame + vaddr % FRAME_SIZE) / FRAME_SIZE * FRAME_SIZE = frame := by
      have aligned := here.1
      unfold FRAME_SIZE at *
      omega
    rwa [same]
  release := fun _ page => page

end Backed

/-! ## Runs -/

/-- A run of the operations, all of which meet a condition on the state before
them. -/
inductive DevRun (mp : Mapper) (info : BootInfo) (K : Machine → DevOp → Prop) (start : Machine) :
    Machine → Prop where
  | nil : DevRun mp info K start start
  | step {m m' : Machine} {op : DevOp} (before : DevRun mp info K start m) (meets : K m op)
      (stepped : stepDev mp info m op = some m') : DevRun mp info K start m'

variable {mp : Mapper} {info : BootInfo} {K : Machine → DevOp → Prop} {start m : Machine}

/-- What holds at the start and after every move holds along the run, together with
some frames that the kernel holds. -/
theorem DevRun.invariant {rules : Rules} {I : Machine × List Nat → Prop}
    (ran : DevRun mp info K start m) (initial : I (start, []))
    (meets : ∀ {m held op}, I (m, held) → K m op → rules.Meets info m op)
    (move : ∀ {s s'}, I s → Move mp rules s s' → I s') : ∃ held, I (m, held) := by
  induction ran with
  | nil => exact ⟨[], initial⟩
  | step _ condition stepped ih =>
    obtain ⟨held, here⟩ := ih
    obtain ⟨held', moves⟩ := stepDev_moves (meets here condition) stepped held
    exact ⟨held', moves.invariant here move⟩

/-- The machine after `frame_allocator::init`. -/
def initMachine (info : BootInfo) (kernelImageEnd : Nat) (active : List Nat) : Machine where
  frames := Frames.init info kernelImageEnd active
  domains := []
  kernelPages := fun _ => none

/-- The allocator returns only frames that `init` classified as free: their bits
were clear then, and they belong to conventional memory. -/
def OnlyRam (info : BootInfo) (kernelImageEnd : Nat) (active : List Nat) (m : Machine) : Prop :=
  ∀ count addr f, m.frames.allocateFrame = some (addr, f) ∧ count = 1 ∨
      m.frames.allocateFrames count = some (addr, f) →
    ∀ i < count, (Frames.init info kernelImageEnd active).bitmap (addr / FRAME_SIZE + i) = false ∧
      info.Conventional ((kernelImageEnd + (0x10000 - 1)) / 0x10000 * 0x10000)
        (addr / FRAME_SIZE + i)

/-- The frame is never given back: it lies in the framebuffer, which is pinned, or
beyond the managed memory. -/
def NeverFreed (info : BootInfo) (a : Nat) : Prop :=
  info.fbAddr / FRAME_SIZE * FRAME_SIZE ≤ a ∧
      a < (info.fbAddr + info.fbBytes + (FRAME_SIZE - 1)) / FRAME_SIZE * FRAME_SIZE ∨
    MAX_MANAGED_FRAMES ≤ a / FRAME_SIZE

/-- The BARs that the operation maps are never given back.  Other operations are not
restricted. -/
def BarsProtected (info : BootInfo) : DevOp → Prop
  | .mapMmio hasMmio _ paddr vaddr => hasMmio = true → isUserAddress vaddr = true →
      NeverFreed info (paddr / FRAME_SIZE * FRAME_SIZE)
  | .grantAt req =>
    (∀ i < req.barPages, NeverFreed info
      ((req.barPaddr / FRAME_SIZE * FRAME_SIZE + i * FRAME_SIZE) / FRAME_SIZE * FRAME_SIZE)) ∧
    ∀ table pages, req.msix = some (table, pages) → ∀ i < pages,
      NeverFreed info ((table + i * FRAME_SIZE) / FRAME_SIZE * FRAME_SIZE)
  | _ => True

/-- Device memory that is never given back, and any share. -/
def protectedRules (info : BootInfo) : Rules where
  device := NeverFreed info
  share := fun _ _ _ _ => True

/-- The framebuffer is pinned, so mapping it needs no condition. -/
theorem BarsProtected.meets {op : DevOp} (protected_ : BarsProtected info op)
    (m : Machine) : (protectedRules info).Meets info m op := by
  cases op with
  | mem op =>
    cases op with
    | sharePage hasMapInto current vaddr target => exact fun _ _ => trivial
    | spawnElf segments started => exact fun _ _ => trivial
    | _ => trivial
  | fbMap hasFb current vaddr =>
    intro _ i inside
    refine .inl ?_
    unfold FRAME_SIZE at *
    omega
  | _ => trivial

/-- **Only RAM is allocated** along every run from the boot in which each BAR that is
mapped lies in the pinned range or beyond the managed memory, however often domains
with device memory are restarted or destroyed. -/
theorem only_ram_is_allocated (mp : Mapper) (info : BootInfo) (kernelImageEnd : Nat)
    (active : List Nat) {m : Machine}
    (ran : DevRun mp info (fun _ => BarsProtected info) (initMachine info kernelImageEnd active) m) :
    OnlyRam info kernelImageEnd active m := by
  have device : ∀ a, (protectedRules info).device a →
      Releasable (fun idx => (init info kernelImageEnd active).bitmap idx = false)
        (init info kernelImageEnd active).pinned a := by
    rintro a (⟨lower, upper⟩ | beyond)
    · exact .inl ⟨_, by rw [init_pinned]; exact List.mem_singleton_self _, lower, upper⟩
    · exact .inr (.inl beyond)
  have start : (backing device).Holds (initMachine info kernelImageEnd active, []) :=
    ⟨⟨rfl, fun _ _ clear => clear⟩, by simp [initMachine, Machine.tables], by simp [initMachine],
      by simp [initMachine, Machine.domain], fun _ fixed => absurd trivial fixed, by simp⟩
  obtain ⟨held, backed⟩ := ran.invariant start (fun _ condition => condition.meets _) Custody.Holds.move
  rintro count addr f (⟨allocated, rfl⟩ | allocated) i inside
  · obtain rfl : i = 0 := by omega
    have clear := (backed.frames.allocateFrame allocated).2.2
    exact ⟨clear, init_clear clear⟩
  · have clear := (backed.frames.allocateFrames allocated).2.2 i inside
    exact ⟨clear, init_clear clear⟩

/-! ## Two runs -/

/-- Run a list of operations. -/
def runDev (mp : Mapper) (info : BootInfo) (m : Machine) (ops : List DevOp) : Option Machine :=
  ops.foldlM (stepDev mp info) m

theorem DevRun.of_runDev {m' : Machine} {ops : List DevOp} (before : DevRun mp info K start m)
    (meets : ∀ m, ∀ op ∈ ops, K m op) (ran : runDev mp info m ops = some m') :
    DevRun mp info K start m' := by
  induction ops generalizing m with
  | nil =>
    cases ran
    exact before
  | cons op ops ih =>
    obtain ⟨m₁, stepped, rest⟩ := Option.bind_eq_some_iff.mp ran
    exact ih (.step before (meets m op List.mem_cons_self) stepped)
      (fun m op member => meets m op (List.mem_cons_of_mem _ member)) rest

/-- The kernel takes frames one after the other. -/
theorem DevRun.allocChain {f f' : Frames} {taken : List Nat} (chain : AllocChain f taken f')
    (free : ∀ m, K m .kernelFrame) (before : DevRun mp info K start { m with frames := f }) :
    DevRun mp info K start { m with frames := f' } := by
  induction chain with
  | nil => exact before
  | cons allocated _ ih =>
    refine ih (.step before (free _) ?_)
    simp [stepDev, allocated]

/-- Thirty-two frames from 64 KiB on, and a small framebuffer. -/
def demoInfo : BootInfo where
  fbAddr := 0xFD000000
  fbHeight := 16
  fbStride := 16
  fbBpp := 32
  mmap := [⟨MEMORY_CONVENTIONAL, 0x10000, 32⟩]

/-- The machine starts with the kernel image below 32 KiB. -/
def demoInit : Machine := initMachine demoInfo 0x8000 []

/-- A driver maps the framebuffer and a BAR at `bar`, and its domain is restarted in
place. -/
def demoDriver (bar : Nat) : List DevOp :=
  [.mem .createDomain, .fbMap true 0 (USER_SPACE_BASE + 0x40000000),
    .mapMmio true 0 bar (USER_SPACE_BASE + 0x820000),
    .mem (.restartInPlace [demoSegment] false true 0)]

/-- With a BAR beyond the managed memory only RAM is allocated afterwards. -/
theorem demoDriver_only_ram : ∃ m,
    runDev Mapper.fourLevel demoInfo demoInit (demoDriver 0x800000000) = some m ∧
      OnlyRam demoInfo 0x8000 [] m := by
  obtain ⟨m, ran, -⟩ : ∃ m ∈ runDev Mapper.fourLevel demoInfo demoInit (demoDriver 0x800000000), True := by
    decide +kernel
  refine ⟨m, ran, only_ram_is_allocated Mapper.fourLevel demoInfo 0x8000 []
    (DevRun.of_runDev .nil ?_ ran)⟩
  intro m op member
  simp only [demoDriver, List.mem_cons, List.not_mem_nil, or_false] at member
  rcases member with rfl | rfl | rfl | rfl
  · trivial
  · trivial
  · exact fun _ _ => .inr (by decide)
  · trivial

/-- A BAR at 0xFEBD0000, below 4 GiB, is handed out as memory after the restart. -/
theorem bar_is_allocated : ∃ m f,
    DevRun Mapper.fourLevel demoInfo (fun _ _ => True) demoInit m ∧
      m.frames.allocateFrame = some (0xFEBD0000, f) ∧
      demoInit.frames.bitmap (0xFEBD0000 / FRAME_SIZE) = true ∧
      ¬ OnlyRam demoInfo 0x8000 [] m := by
  obtain ⟨m, ran, evaluated⟩ : ∃ m ∈ runDev Mapper.fourLevel demoInfo demoInit (demoDriver 0xFEBD0000),
      m.frames.bitmap (0xFEBD0000 / FRAME_SIZE) = false := by decide +kernel
  have used : demoInit.frames.bitmap (0xFEBD0000 / FRAME_SIZE) = true := by decide +kernel
  obtain ⟨taken, f₁, f₂, chain, last⟩ := exists_allocation_of_clear (by decide) evaluated
  have reached : DevRun Mapper.fourLevel demoInfo (fun _ _ => True) demoInit m :=
    DevRun.of_runDev .nil (fun _ _ _ => trivial) ran
  refine ⟨{ m with frames := f₁ }, f₂, DevRun.allocChain chain (fun _ => trivial) reached, last,
    used, fun only => ?_⟩
  have clear := (only 1 _ _ (.inl ⟨last, rfl⟩) 0 (by decide)).1
  exact absurd (used.symm.trans clear) (by decide)

end MorionOS.Kernel
