import MorionOS.Kernel.BootFrames
import MorionOS.Kernel.FrameOwnership

/-!
# Device memory in user page tables

The other ways into a page table: `SYS_MAP_MMIO` and `SYS_FB_MAP` (`syscall.rs`)
map device memory into the calling domain, and at boot the kernel grants devices
(`device::grant_at`), maps pages of its own making (`publish_nic_table`,
`map_zero_cfg`) and takes frames for itself.  `DevOp` adds them to the operations
of `MemOp`.

Every operation is a sequence of a few moves (`Move`): the kernel takes frames and
holds them, a frame that it holds becomes a user page, device memory becomes a user
page, a page is shared, a page is unmapped, a domain is created, reset or destroyed.
`stepDev_moves` says so once, and an invariant of memory has to be proved for the
moves only.
-/

namespace MorionOS.Kernel

open Option

def DEVICE_MSIX_VADDR : Nat := USER_SPACE_BASE + 0x840000

/-! ## The functions -/

/-- `map_mmio`: a writable page that is not executable.  `PhysAddr::new` panics on
an address of more than 52 bits; the cache flag of the entry is left out. -/
def mapMmio (mp : Mapper) (id : Nat) (m : Machine) (vaddr paddr : Nat) : Option Machine :=
  if paddr < 2 ^ 52 then mapUserPage mp m id vaddr paddr .readWrite else none

/-- `map_user_page` for a writable page, as the loop of `grant_at` calls it. -/
def mapDma (mp : Mapper) (id : Nat) (m : Machine) (vaddr paddr : Nat) : Option Machine :=
  mapUserPage mp m id vaddr paddr .readWrite

/-- A loop that maps consecutive pages. -/
def mapPages (map : Machine → Nat → Nat → Option Machine) : Nat → Nat → Nat → Machine → Option Machine
  | 0, _, _, m => some m
  | pages + 1, vaddr, paddr, m => do
      let m ← map m vaddr paddr
      mapPages map pages (vaddr + FRAME_SIZE) (paddr + FRAME_SIZE) m

/-- `SYS_MAP_MMIO`; `hasMmio` is the answer of the capability check for the page. -/
def sysMapMmio (mp : Mapper) (m : Machine) (hasMmio : Bool) (current paddr vaddr : Nat) :
    Option (Nat × Machine) :=
  if hasMmio && isUserAddress vaddr then
    (mapMmio mp current m vaddr (paddr / FRAME_SIZE * FRAME_SIZE)).map fun m => (1, m)
  else some (0, m)

/-- `SYS_FB_MAP` for the framebuffer of the boot information. -/
def sysFbMap (mp : Mapper) (info : BootInfo) (m : Machine) (hasFb : Bool) (current vaddr : Nat) :
    Option (Nat × Machine) :=
  let base := info.fbAddr
  let bytes := info.fbBytes
  let pages := (bytes + (FRAME_SIZE - 1)) / FRAME_SIZE
  if !hasFb then some (0, m)
  else if base = 0 ∨ bytes = 0 ∨ vaddr % FRAME_SIZE ≠ 0 then some (0, m)
  else if vaddr + bytes ≥ 2 ^ 64 then some (0, m)
  else if !isUserAddress vaddr || !isUserAddress (vaddr + bytes - 1) then some (0, m)
  else
    match m.domain current with
    | none => none
    | some d =>
      -- the whole range is looked at before anything is mapped
      if (List.range pages).any fun i => (d.user.resolve (vaddr + i * FRAME_SIZE)).isSome then
        some (0, m)
      else (mapPages (mapMmio mp current) pages vaddr base m).map fun m => (1, m)

/-- What `grant_at` is asked for.  `msix` is the address and the number of pages of
an MSI-X table that lies in another BAR. -/
structure GrantRequest where
  domain : Nat
  barPaddr : Nat
  barPages : Nat
  dmaPages : Nat
  cfgVaddr : Nat
  barVaddr : Nat
  dmaVaddr : Nat
  msix : Option (Nat × Nat)

/-- What `setup_msix` maps. -/
def setupMsix (mp : Mapper) (m : Machine) (req : GrantRequest) : Option Machine :=
  match req.msix with
  | none => some m
  | some (table, pages) => mapPages (mapMmio mp req.domain) pages DEVICE_MSIX_VADDR table m

/-- `grant_at`: the MSI-X table, a block of one page at least for DMA and the page of
the description are prepared, then the description, the BAR and the block are
mapped. -/
def grantAt (mp : Mapper) (m : Machine) (req : GrantRequest) : Option (Bool × Machine) := do
  let m ← setupMsix mp m req
  match m.frames.allocateFrames (max req.dmaPages 1) with
  | none => some (false, m)
  | some (dma, f) =>
    match f.allocateFrame with
    | none => some (false, { m with frames := f })
    | some (cfg, f) => do
        let m ← mapUserPage mp { m with frames := f } req.domain req.cfgVaddr cfg .readWrite
        let m ← mapPages (mapMmio mp req.domain) req.barPages req.barVaddr
          (req.barPaddr / FRAME_SIZE * FRAME_SIZE) m
        let m ← mapPages (mapDma mp req.domain) (max req.dmaPages 1) req.dmaVaddr dma m
        some (true, m)

/-- A page that the kernel fills and maps: `publish_nic_table` (read-only) and
`map_zero_cfg` (read-write). -/
def mapOwnPage (mp : Mapper) (m : Machine) (id vaddr : Nat) (perm : UserPagePerm) :
    Option (Bool × Machine) :=
  match m.frames.allocateFrame with
  | none => some (false, m)
  | some (paddr, f) =>
    (mapUserPage mp { m with frames := f } id vaddr paddr perm).map fun m => (true, m)

/-- The test of the allocator in `main.rs`: two frames are taken and given back. -/
def testFrames (f : Frames) : Frames :=
  match f.allocateFrame with
  | none => f
  | some (a, f) =>
    match f.allocateFrame with
    | none => f
    | some (b, f) => (f.freeFrame a).freeFrame b

/-- The operations on memory with devices and the boot. -/
inductive DevOp where
  | mem (op : MemOp)
  | mapMmio (hasMmio : Bool) (current paddr vaddr : Nat)
  | fbMap (hasFb : Bool) (current vaddr : Nat)
  | grantAt (req : GrantRequest)
  | mapOwnPage (id vaddr : Nat) (perm : UserPagePerm)
  /-- The kernel takes a frame for itself: a table, a stack. -/
  | kernelFrame
  /-- `init_heap` maps a page of the kernel heap. -/
  | heapPage (page : Nat)
  | testFrames

/-- The state after one operation; `none` when the kernel panics. -/
def stepDev (mp : Mapper) (info : BootInfo) (m : Machine) : DevOp → Option Machine
  | .mem op => step mp m op
  | .mapMmio hasMmio current paddr vaddr => (sysMapMmio mp m hasMmio current paddr vaddr).map (·.2)
  | .fbMap hasFb current vaddr => (sysFbMap mp info m hasFb current vaddr).map (·.2)
  | .grantAt req => (grantAt mp m req).map (·.2)
  | .mapOwnPage id vaddr perm => (mapOwnPage mp m id vaddr perm).map (·.2)
  | .kernelFrame => m.frames.allocateFrame.map fun taken => { m with frames := taken.2 }
  | .heapPage page => m.frames.allocateFrame.map fun taken => { m with
      frames := taken.2
      kernelPages := Function.update m.kernelPages page (some taken.1) }
  | .testFrames => some { m with frames := testFrames m.frames }

/-! ## Moves -/

/-- Which device memory may be mapped, which pages may be shared and which domains may
be reset or destroyed. -/
structure Rules where
  /-- The frame may be mapped as device memory. -/
  device : Nat → Prop
  /-- Domain `current` may share its page at `vaddr` with `target`. -/
  share : Machine → Nat → Nat → Nat → Prop
  /-- The user space of the domain may be given back. -/
  release : Nat → Prop := fun _ => True

/-- Consecutive pages of device memory may be mapped. -/
def Rules.Devices (rules : Rules) (paddr pages : Nat) : Prop :=
  ∀ i < pages, rules.device ((paddr + i * FRAME_SIZE) / FRAME_SIZE * FRAME_SIZE)

/-- The device memory that an operation maps, the page that it shares and the domain that
it resets or destroys are within the rules; a failed `spawn_elf` destroys the domain that
it made. -/
def Rules.Meets (rules : Rules) (info : BootInfo) (m : Machine) : DevOp → Prop
  | .mem (.sharePage hasMapInto current vaddr target) =>
    hasMapInto = true → isUserAddress vaddr = true → rules.share m current vaddr target
  | .mem (.destroy id) | .mem (.restartInPlace _ _ _ id) => rules.release id
  | .mem (.spawnElf _ _) => ∀ id, m.domain id = none → rules.release id
  | .mapMmio hasMmio _ paddr vaddr =>
    hasMmio = true → isUserAddress vaddr = true → rules.device (paddr / FRAME_SIZE * FRAME_SIZE)
  | .fbMap hasFb _ _ =>
    hasFb = true → rules.Devices info.fbAddr ((info.fbBytes + (FRAME_SIZE - 1)) / FRAME_SIZE)
  | .grantAt req => rules.Devices (req.barPaddr / FRAME_SIZE * FRAME_SIZE) req.barPages ∧
      ∀ table pages, req.msix = some (table, pages) → rules.Devices table pages
  | _ => True

/-- The frames of a block. -/
def blockFrames (base count : Nat) : List Nat := (List.range count).map fun i => base + i * FRAME_SIZE

/-- One move of memory together with the frames that the kernel holds: those that
were allocated and are no user page, page table or page of the kernel yet. -/
inductive Move (mp : Mapper) (rules : Rules) : Machine × List Nat → Machine × List Nat → Prop where
  | take {m : Machine} {held : List Nat} {a : Nat} {f : Frames}
      (allocated : m.frames.allocateFrame = some (a, f)) :
      Move mp rules (m, held) ({ m with frames := f }, a :: held)
  | takeBlock {m : Machine} {held : List Nat} {count a : Nat} {f : Frames}
      (allocated : m.frames.allocateFrames count = some (a, f)) :
      Move mp rules (m, held) ({ m with frames := f }, blockFrames a count ++ held)
  /-- The order in which frames are held does not matter. -/
  | reorder {m : Machine} {held held' : List Nat} (same : held'.Perm held) :
      Move mp rules (m, held) (m, held')
  /-- A frame goes back that was not used. -/
  | giveBack {m : Machine} {held : List Nat} {a : Nat} :
      Move mp rules (m, a :: held) ({ m with frames := m.frames.freeFrame a }, held)
  | heapPage {m : Machine} {held : List Nat} {a page : Nat} :
      Move mp rules (m, a :: held)
        ({ m with kernelPages := Function.update m.kernelPages page (some a) }, held)
  | map {m m' : Machine} {held : List Nat} {a id vaddr : Nat} {perm : UserPagePerm}
      (mapped : mapUserPage mp m id vaddr a perm = some m') :
      Move mp rules (m, a :: held) (m', held)
  /-- A page for a system call is counted. -/
  | mapCounted {m m' : Machine} {held : List Nat} {a id vaddr : Nat}
      (mapped : mapUserPage mp m id vaddr a .readWrite = some m') :
      Move mp rules (m, a :: held) ({ m' with frames := m'.frames.incRef a }, held)
  | device {m m' : Machine} {held : List Nat} {id vaddr paddr : Nat}
      (allowed : rules.device (paddr / FRAME_SIZE * FRAME_SIZE))
      (mapped : mapUserPage mp m id vaddr paddr .readWrite = some m') :
      Move mp rules (m, held) (m', held)
  | share {m m' : Machine} {held : List Nat} {hasMapInto : Bool} {current vaddr target code : Nat}
      (allowed : hasMapInto = true → isUserAddress vaddr = true → rules.share m current vaddr target)
      (shared : sysSharePage mp m hasMapInto current vaddr target = some (code, m')) :
      Move mp rules (m, held) (m', held)
  | unmap {m m' : Machine} {held : List Nat} {id vaddr : Nat} {frame : Option Nat}
      (unmapped : unmapUserPage mp m id vaddr = some (frame, m')) :
      Move mp rules (m, held) (dropUnmapped m' frame, held)
  | create {m m' : Machine} {held : List Nat} {id : Nat} (created : createDomain m = some (id, m')) :
      Move mp rules (m, held) (m', held)
  | reset {m : Machine} {held : List Nat} (id : Nat) (allowed : rules.release id) :
      Move mp rules (m, held) ((resetDomain m id).2, held)
  | destroy {m : Machine} {held : List Nat} (id : Nat) (allowed : rules.release id) :
      Move mp rules (m, held) ((destroyDomain m id).2, held)

/-- A sequence of moves. -/
abbrev Moves (mp : Mapper) (rules : Rules) : Machine × List Nat → Machine × List Nat → Prop :=
  Relation.ReflTransGen (Move mp rules)

theorem Moves.invariant {mp : Mapper} {rules : Rules} {I : Machine × List Nat → Prop}
    {s s' : Machine × List Nat} (moves : Moves mp rules s s') (initial : I s)
    (keeps : ∀ {s s'}, I s → Move mp rules s s' → I s') : I s' := by
  induction moves with
  | refl => exact initial
  | tail _ last ih => exact keeps ih last

namespace Moves

variable {mp : Mapper} {rules : Rules} {m m' : Machine}

/-- Moves from one machine to another after which the kernel holds the same
frames. -/
abbrev Keeps (mp : Mapper) (rules : Rules) (m m' : Machine) : Prop :=
  ∀ held, Moves mp rules (m, held) (m', held)

theorem Keeps.refl (m : Machine) : Keeps mp rules m m := fun _ => .refl

theorem Keeps.trans {m₁ : Machine} (first : Keeps mp rules m m₁) (second : Keeps mp rules m₁ m') :
    Keeps mp rules m m' := fun held => (first held).trans (second held)

theorem Keeps.single (move : ∀ held, Move mp rules (m, held) (m', held)) : Keeps mp rules m m' :=
  fun held => .single (move held)

/-! ## The operations of `MemOp` -/

variable {id vaddr paddr : Nat} {segments : List Segment} {mapped : Bool}

theorem mapFresh {f : Frames} {perm : UserPagePerm} (allocated : m.frames.allocateFrame = some (paddr, f))
    (mapped : mapUserPage mp { m with frames := f } id vaddr paddr perm = some m') :
    Keeps mp rules m m' :=
  fun _ => .trans (.single (.take allocated)) (.single (.map mapped))

theorem mapFreshPage {code : Nat}
    (ran : Kernel.mapFreshPage mp m id vaddr = some (code, m')) : Keeps mp rules m m' := by
  unfold Kernel.mapFreshPage at ran
  split at ran
  · cases ran
    exact .refl _
  · next paddr f allocated =>
      obtain ⟨m₁, mapped, result⟩ := bind_eq_some_iff.mp ran
      cases result
      exact fun _ => .trans (.single (.take allocated)) (.single (.mapCounted mapped))

theorem mapImage (ran : Kernel.mapImage mp segments id m = some (mapped, m')) : Keeps mp rules m m' :=
  LoadRule.mapImage ⟨Keeps.refl, Keeps.trans, mapFresh⟩ ran

theorem spawnElfAt {started result : Bool}
    (ran : Kernel.spawnElfAt mp segments started id m = some (result, m')) :
    Keeps mp rules m m' := by
  unfold Kernel.spawnElfAt at ran
  split at ran
  · cases ran
    exact .refl _
  · obtain ⟨⟨mapped, m₁⟩, image, ran⟩ := bind_eq_some_iff.mp ran
    cases ran
    exact mapImage image

theorem step {info : BootInfo} {op : MemOp} (meets : rules.Meets info m (.mem op))
    (ran : Kernel.step mp m op = some m') : Keeps mp rules m m' := by
  cases op with
  | destroy id =>
    cases ran
    exact .single fun _ => .destroy id meets
  | allocPage current vaddr =>
    obtain ⟨⟨code, _⟩, call, rfl⟩ := map_eq_some_iff.mp ran
    unfold sysAllocPage at call
    split at call
    · exact mapFreshPage call
    · cases call
      exact .refl _
  | mapAnon hasMapInto target vaddr =>
    obtain ⟨⟨code, _⟩, call, rfl⟩ := map_eq_some_iff.mp ran
    unfold sysMapAnon at call
    split at call
    · cases call
      exact .refl _
    · split at call
      · exact mapFreshPage call
      · cases call
        exact .refl _
  | sharePage hasMapInto current vaddr target =>
    obtain ⟨⟨code, _⟩, call, rfl⟩ := map_eq_some_iff.mp ran
    exact .single fun _ => .share meets call
  | unmap current vaddr =>
    obtain ⟨⟨code, _⟩, call, rfl⟩ := map_eq_some_iff.mp ran
    obtain ⟨⟨frame, m₁⟩, unmapped, pair⟩ := bind_eq_some_iff.mp call
    cases pair
    exact .single fun _ => .unmap unmapped
  | createDomain =>
    obtain ⟨⟨id, _⟩, call, rfl⟩ := map_eq_some_iff.mp ran
    exact .single fun _ => .create call
  | spawnElf segments started =>
    obtain ⟨⟨result, _⟩, call, rfl⟩ := map_eq_some_iff.mp ran
    unfold spawnElf at call
    split at call
    · cases call
      exact .refl _
    · obtain ⟨⟨id, m₁⟩, created, call⟩ := bind_eq_some_iff.mp call
      obtain ⟨⟨mapped, m₂⟩, image, call⟩ := bind_eq_some_iff.mp call
      have loaded : Keeps mp rules m m₂ :=
        (Keeps.single fun _ => .create created).trans (mapImage image)
      simp only at call
      split at call
      · cases call
        exact loaded
      · cases call
        exact loaded.trans (.single fun _ => .destroy id (meets id (createDomain_domain created).1))
  | spawnElfAt segments started id =>
    obtain ⟨⟨result, _⟩, call, rfl⟩ := map_eq_some_iff.mp ran
    exact spawnElfAt call
  | restartInPlace segments liveTasks started id =>
    obtain ⟨⟨result, _⟩, call, rfl⟩ := map_eq_some_iff.mp ran
    unfold restartInPlace at call
    split at call
    · cases call
      exact .refl _
    · exact (Keeps.single fun _ => .reset id meets).trans (spawnElfAt call)

/-! ## Devices and the boot -/

theorem mapMmio (allowed : rules.device (paddr / FRAME_SIZE * FRAME_SIZE))
    (mapped : Kernel.mapMmio mp id m vaddr paddr = some m') : Keeps mp rules m m' := by
  unfold Kernel.mapMmio at mapped
  split at mapped
  · exact .single fun _ => .device allowed mapped
  · cases mapped

theorem mapMmioPages {pages : Nat} (allowed : rules.Devices paddr pages)
    (mapped : mapPages (Kernel.mapMmio mp id) pages vaddr paddr m = some m') :
    Keeps mp rules m m' := by
  induction pages generalizing m vaddr paddr with
  | zero =>
    cases mapped
    exact .refl _
  | succ pages ih =>
    obtain ⟨m₁, first, rest⟩ := bind_eq_some_iff.mp mapped
    have here : rules.device (paddr / FRAME_SIZE * FRAME_SIZE) := by
      simpa using allowed 0 (by omega)
    refine (mapMmio here first).trans (ih ?_ rest)
    intro i inside
    have later := allowed (i + 1) (by omega)
    rwa [show paddr + (i + 1) * FRAME_SIZE = paddr + FRAME_SIZE + i * FRAME_SIZE by ring] at later

theorem mapDmaPages {pages : Nat} {held : List Nat}
    (mapped : mapPages (mapDma mp id) pages vaddr paddr m = some m') :
    Moves mp rules (m, blockFrames paddr pages ++ held) (m', held) := by
  induction pages generalizing m vaddr paddr with
  | zero =>
    cases mapped
    exact .refl
  | succ pages ih =>
    obtain ⟨m₁, first, rest⟩ := bind_eq_some_iff.mp mapped
    have head : blockFrames paddr (pages + 1) =
        paddr :: blockFrames (paddr + FRAME_SIZE) pages := by
      simp only [blockFrames, List.range_succ_eq_map, List.map_cons, List.map_map, Nat.zero_mul,
        Nat.add_zero, List.cons.injEq, true_and, List.map_inj_left, Function.comp_apply]
      intro i _
      simp only [Nat.succ_eq_add_one]
      ring
    rw [head]
    exact .trans (.single (.map first)) (ih rest)

theorem grantAt {req : GrantRequest} {granted : Bool}
    (bar : rules.Devices (req.barPaddr / FRAME_SIZE * FRAME_SIZE) req.barPages)
    (msix : ∀ table pages, req.msix = some (table, pages) → rules.Devices table pages)
    (ran : Kernel.grantAt mp m req = some (granted, m')) (held : List Nat) :
    ∃ held', Moves mp rules (m, held) (m', held') := by
  obtain ⟨m₁, table, ran⟩ := bind_eq_some_iff.mp ran
  have first : Keeps mp rules m m₁ := by
    unfold setupMsix at table
    split at table
    · cases table
      exact .refl _
    next address pages asked => exact mapMmioPages (msix address pages asked) table
  split at ran
  · cases ran
    exact ⟨held, first held⟩
  next dma f allocated =>
    have block := (first held).tail (.takeBlock allocated)
    split at ran
    · cases ran
      exact ⟨_, block⟩
    next cfg f' description =>
      obtain ⟨m₂, cfgMapped, ran⟩ := bind_eq_some_iff.mp ran
      obtain ⟨m₃, barMapped, ran⟩ := bind_eq_some_iff.mp ran
      obtain ⟨m₄, dmaMapped, ran⟩ := bind_eq_some_iff.mp ran
      cases ran
      have described := (block.tail (.take description)).tail (.map cfgMapped)
      have windowed := described.trans (mapMmioPages bar barMapped _)
      exact ⟨held, windowed.trans (mapDmaPages dmaMapped)⟩

theorem testFrames (m : Machine) :
    ∀ held, ∃ held', Moves mp rules (m, held) ({ m with frames := Kernel.testFrames m.frames }, held') := by
  intro held
  unfold Kernel.testFrames
  split
  · exact ⟨held, .refl⟩
  next a f first =>
    have one : Moves mp rules (m, held) ({ m with frames := f }, a :: held) := .single (.take first)
    split
    · exact ⟨_, one⟩
    next b f' second =>
      have two := one.tail (.take second)
      have swapped := two.tail (.reorder (List.Perm.swap _ _ _))
      exact ⟨held, (swapped.tail .giveBack).tail .giveBack⟩

end Moves

/-- **Every operation is a sequence of moves.** -/
theorem stepDev_moves {mp : Mapper} {rules : Rules} {info : BootInfo} {m m' : Machine} {op : DevOp}
    (meets : rules.Meets info m op) (ran : stepDev mp info m op = some m') (held : List Nat) :
    ∃ held', Moves mp rules (m, held) (m', held') := by
  cases op with
  | mem op =>
    exact ⟨held, Moves.step meets ran held⟩
  | mapMmio hasMmio current paddr vaddr =>
    obtain ⟨⟨code, _⟩, call, rfl⟩ := map_eq_some_iff.mp ran
    unfold sysMapMmio at call
    split at call
    next allowed =>
      obtain ⟨m₁, mapped, pair⟩ := map_eq_some_iff.mp call
      cases pair
      rw [Bool.and_eq_true] at allowed
      refine ⟨held, Moves.mapMmio ?_ mapped held⟩
      rw [Nat.mul_div_cancel _ (by decide)]
      exact meets allowed.1 allowed.2
    · cases call
      exact ⟨held, .refl⟩
  | fbMap hasFb current vaddr =>
    obtain ⟨⟨code, _⟩, call, rfl⟩ := map_eq_some_iff.mp ran
    refine ⟨held, ?_⟩
    unfold sysFbMap at call
    simp only at call
    split at call
    · cases call
      exact .refl
    next allowed =>
    split at call
    · cases call
      exact .refl
    split at call
    · cases call
      exact .refl
    split at call
    · cases call
      exact .refl
    split at call
    · cases call
    split at call
    · cases call
      exact .refl
    · obtain ⟨m₁, mapped, pair⟩ := map_eq_some_iff.mp call
      cases pair
      exact Moves.mapMmioPages (meets (by simpa using allowed)) mapped held
  | grantAt req =>
    obtain ⟨⟨granted, _⟩, call, rfl⟩ := map_eq_some_iff.mp ran
    exact Moves.grantAt meets.1 meets.2 call held
  | mapOwnPage id vaddr perm =>
    obtain ⟨⟨done, _⟩, call, rfl⟩ := map_eq_some_iff.mp ran
    refine ⟨held, ?_⟩
    unfold mapOwnPage at call
    split at call
    · cases call
      exact .refl
    next paddr f allocated =>
      obtain ⟨m₁, mapped, pair⟩ := map_eq_some_iff.mp call
      cases pair
      exact Moves.mapFresh allocated mapped held
  | kernelFrame =>
    obtain ⟨⟨a, f⟩, allocated, rfl⟩ := map_eq_some_iff.mp ran
    exact ⟨a :: held, .single (.take allocated)⟩
  | heapPage page =>
    obtain ⟨⟨a, f⟩, allocated, rfl⟩ := map_eq_some_iff.mp ran
    exact ⟨held, .tail (.single (.take allocated)) .heapPage⟩
  | testFrames =>
    cases ran
    exact Moves.testFrames m held

end MorionOS.Kernel
