import MorionOS.Kernel.DeviceMemory

/-!
# Sharing counted pages

The bookkeeping of frames survives every operation except a share of a page whose
frame is not recorded exactly: one that was never counted (an image or stack page),
one addressed with a page offset, one that no longer fits the table, or one whose
`u8` count is full.  `ShareCounted` excludes these, and under it every mapped frame
stays marked used (`counted_runs_keep_mapped_frames_used`).  Sharing a stack page
breaks the property: `stack_page_share_frees_mapped_frame`.
-/

namespace MorionOS.Kernel

open List Option Frames

theorem Owned.allocBlock {kernel : Nat → Prop} {f f' : Frames} {pages tables : List Nat} {a count : Nat}
    (owned : Owned kernel f pages tables) (allocated : f.allocateFrames count = some (a, f')) :
    Owned kernel f' pages (blockFrames a count ++ tables) := by
  obtain ⟨aligned, -, clear, bits, shared, -⟩ := allocateFrames_spec allocated
  have frame : ∀ b ∈ blockFrames a count, b % FRAME_SIZE = 0 ∧
      ∃ i < count, b / FRAME_SIZE = a / FRAME_SIZE + i := by
    intro b member
    obtain ⟨i, inside, rfl⟩ := mem_map.mp member
    refine ⟨?_, i, mem_range.mp inside, Nat.add_mul_div_right _ _ (by decide)⟩
    rw [Nat.add_mul_mod_self_right, aligned]
  refine owned.take ?_ (fun b member => ?_) (fun b member => ?_) (fun idx used => ?_) shared
  · refine nodup_range.map fun i j same => ?_
    unfold FRAME_SIZE at same
    omega
  · obtain ⟨alignedB, i, inside, index⟩ := frame b member
    exact ⟨alignedB, index ▸ clear i inside⟩
  · obtain ⟨-, i, inside, index⟩ := frame b member
    rw [bits, index]
    simp [inside]
  · rw [bits, used, Bool.or_true]

variable {f f' : Frames}

theorem Frames.refCount_dropFrame_le (unique : SlotsUnique f.shared) (a b : Nat) :
    (f.dropFrame a).refCount b ≤ f.refCount b := by
  have le : (f.decRef a).2.refCount b ≤ f.refCount b := by
    rw [refCount_decRef unique]
    split
    next same =>
      subst same
      omega
    · exact le_rfl
  unfold dropFrame
  split
  · rwa [refCount_freeFrame]
  · exact le

theorem Frames.refCount_releaseUserFrame_le (unique : SlotsUnique f.shared)
    (a b : Nat) : (f.releaseUserFrame a).refCount b ≤ f.refCount b := by
  unfold releaseUserFrame
  split
  · exact refCount_dropFrame_le unique a b
  · rw [refCount_freeFrame]

/-! ## Accounts with device memory -/

/-- Which frames are RAM, and what is kept of the allocator for it: it hands out nothing else,
and giving back anything else does nothing. -/
structure Ram where
  isRam : Nat → Bool
  sound : Frames → Prop
  allocate : ∀ {f f' a}, sound f → f.allocateFrame = some (a, f') → sound f' ∧ isRam a = true
  allocateBlock : ∀ {f f' a count}, sound f → f.allocateFrames count = some (a, f') →
    sound f' ∧ ∀ b ∈ blockFrames a count, isRam b = true
  free : ∀ {f a}, sound f → a % FRAME_SIZE = 0 → sound (f.freeFrame a)
  drop : ∀ {f a}, sound f → a % FRAME_SIZE = 0 → sound (f.dropFrame a)
  count : ∀ {f a}, sound f → sound (f.incRef a)
  device : ∀ {f a}, sound f → isRam a = false → f.freeFrame a = f

/-- Every frame is RAM. -/
def Ram.all : Ram where
  isRam := fun _ => true
  sound := fun _ => True
  allocate := fun _ _ => ⟨trivial, rfl⟩
  allocateBlock := fun _ _ => ⟨trivial, fun _ _ => rfl⟩
  free := fun _ _ => trivial
  drop := fun _ _ => trivial
  count := fun _ => trivial
  device := fun _ never => nomatch never

/-- The bookkeeping of frames with device memory among the pages: device memory is
in no table, is not counted and is left out of the ownership of pages. -/
structure Accounts (r : Ram) (kernel : Nat → Prop) (f : Frames) (pages tables : List Nat) : Prop where
  sound : r.sound f
  aligned : ∀ a ∈ pages, a % FRAME_SIZE = 0
  counted : ∀ a, 0 < f.refCount a → r.isRam a = true
  table : ∀ a ∈ tables, r.isRam a = true
  owned : Owned kernel f (pages.filter r.isRam) tables

namespace Accounts

variable {r : Ram} {kernel : Nat → Prop} {pages pages' tables tables' : List Nat} {a : Nat}

section

variable (accounts : Accounts r kernel f pages tables)
include accounts

theorem perm (samePages : pages'.Perm pages)
    (sameTables : tables'.Perm tables) : Accounts r kernel f pages' tables' :=
  ⟨accounts.sound, fun a member => accounts.aligned a (samePages.mem_iff.mp member), accounts.counted,
    fun a member => accounts.table a (sameTables.mem_iff.mp member),
    accounts.owned.perm (samePages.filter _) sameTables⟩

theorem uncounted (device : r.isRam a = false) : f.refCount a = 0 := by
  by_contra counted
  exact absurd (accounts.counted a (by omega)) (by simp [device])

theorem take {new : List Nat}
    (taken : r.sound f' ∧ ∀ a ∈ new, r.isRam a = true) (shared : f'.shared = f.shared)
    (owned : Owned kernel f' (pages.filter r.isRam) (new ++ tables)) :
    Accounts r kernel f' pages (new ++ tables) := by
  refine ⟨taken.1, accounts.aligned, fun b counted => accounts.counted b ?_,
    forall_mem_append.mpr ⟨taken.2, accounts.table⟩, owned⟩
  rwa [refCount, shared] at counted

theorem alloc
    (allocated : f.allocateFrame = some (a, f')) : Accounts r kernel f' pages (a :: tables) :=
  have ⟨sound, isRam⟩ := r.allocate accounts.sound allocated
  accounts.take ⟨sound, forall_mem_singleton.mpr isRam⟩
    (allocateFrame_spec allocated).2.2.2.2.1 (accounts.owned.alloc allocated)

end

theorem allocChain {taken : List Nat} (chain : AllocChain f taken f')
    (accounts : Accounts r kernel f pages tables) : Accounts r kernel f' pages (taken ++ tables) := by
  induction chain generalizing tables with
  | nil => exact accounts
  | cons allocated _ ih =>
    exact (ih (accounts.alloc allocated)).perm (.refl _) perm_middle.symm

theorem allocBlock {count : Nat} (accounts : Accounts r kernel f pages tables)
    (allocated : f.allocateFrames count = some (a, f')) :
    Accounts r kernel f' pages (blockFrames a count ++ tables) :=
  accounts.take (r.allocateBlock accounts.sound allocated)
    (allocateFrames_spec allocated).2.2.2.2.1 (accounts.owned.allocBlock allocated)

theorem freeTable (accounts : Accounts r kernel f pages (a :: tables)) :
    Accounts r kernel (f.freeFrame a) pages tables := by
  have aligned := (accounts.owned.table_used a mem_cons_self).1
  refine ⟨r.free accounts.sound aligned, accounts.aligned, fun b counted => accounts.counted b ?_,
    (forall_mem_cons.mp accounts.table).2, accounts.owned.freeTable⟩
  rwa [refCount_freeFrame] at counted

theorem map (accounts : Accounts r kernel f pages (a :: tables)) :
    Accounts r kernel f (a :: pages) tables := by
  obtain ⟨isRam, others⟩ := forall_mem_cons.mp accounts.table
  have aligned := (accounts.owned.table_used a mem_cons_self).1
  refine ⟨accounts.sound, forall_mem_cons.mpr ⟨aligned, accounts.aligned⟩, accounts.counted,
    others, ?_⟩
  rw [filter_cons_of_pos isRam]
  exact accounts.owned.map

theorem mapDevice (accounts : Accounts r kernel f pages tables) (aligned : a % FRAME_SIZE = 0)
    (device : r.isRam a = false) : Accounts r kernel f (a :: pages) tables := by
  refine ⟨accounts.sound, forall_mem_cons.mpr ⟨aligned, accounts.aligned⟩, accounts.counted,
    accounts.table, ?_⟩
  rw [filter_cons_of_neg (by simp [device])]
  exact accounts.owned

theorem incRef_fresh (accounts : Accounts r kernel f (a :: pages) tables)
    (isRam : r.isRam a = true) (uncounted : f.refCount a = 0) :
    Accounts r kernel (f.incRef a) (a :: pages) tables := by
  have owned := accounts.owned
  rw [filter_cons_of_pos isRam] at owned
  refine ⟨r.count accounts.sound, accounts.aligned, fun b counted => ?_, accounts.table, ?_⟩
  · by_cases same : b = a
    · exact same ▸ isRam
    · rw [(refCount_incRef_of_zero uncounted).2 b same] at counted
      exact accounts.counted b counted
  · rw [filter_cons_of_pos isRam]
    exact owned.incRef_fresh uncounted

theorem share (accounts : Accounts r kernel f pages tables) (counted : 0 < f.refCount a)
    (small : f.refCount a < 255) : Accounts r kernel (f.incRef a) (a :: pages) tables := by
  have isRam := accounts.counted a counted
  refine ⟨r.count accounts.sound, forall_mem_cons.mpr
    ⟨(accounts.owned.counted_used a counted).1, accounts.aligned⟩, fun b now => ?_, accounts.table, ?_⟩
  · rw [refCount_incRef_of_pos counted small] at now
    split at now
    next same => exact same ▸ isRam
    · exact accounts.counted b now
  · rw [filter_cons_of_pos isRam]
    exact accounts.owned.share counted small

theorem drop_uncounted (accounts : Accounts r kernel f pages tables) (aligned : a % FRAME_SIZE = 0)
    (uncounted : f.refCount a = 0) : Accounts r kernel (f.dropFrame a) pages tables :=
  ⟨r.drop accounts.sound aligned, accounts.aligned, fun b counted => accounts.counted b
      (counted.trans_le (refCount_dropFrame_le accounts.owned.unique a b)),
    accounts.table, accounts.owned.drop_uncounted uncounted⟩

section

variable (accounts : Accounts r kernel f (a :: pages) tables)
include accounts

/-- A page is forgotten that is RAM, or one that is not. -/
theorem split :
    r.isRam a = true ∧ Owned kernel f (a :: pages.filter r.isRam) tables ∨
      r.isRam a = false ∧ Owned kernel f (pages.filter r.isRam) tables := by
  have owned := accounts.owned
  cases isRam : r.isRam a with
  | true =>
    rw [filter_cons_of_pos isRam] at owned
    exact .inl ⟨rfl, owned⟩
  | false =>
    rw [filter_cons_of_neg (by simp [isRam])] at owned
    exact .inr ⟨rfl, owned⟩

theorem drop : Accounts r kernel (f.dropFrame a) pages tables := by
  obtain ⟨aligned, others⟩ := forall_mem_cons.mp accounts.aligned
  refine ⟨r.drop accounts.sound aligned, others, fun b counted => accounts.counted b
    (counted.trans_le (refCount_dropFrame_le accounts.owned.unique a b)), accounts.table, ?_⟩
  rcases accounts.split with ⟨-, owned⟩ | ⟨device, owned⟩
  · exact owned.drop
  · exact owned.drop_uncounted (accounts.uncounted device)

/-- `release_user_frame` does nothing to device memory. -/
theorem release : Accounts r kernel (f.releaseUserFrame a) pages tables := by
  unfold releaseUserFrame
  split
  · exact accounts.drop
  next untracked =>
    obtain ⟨aligned, others⟩ := forall_mem_cons.mp accounts.aligned
    refine ⟨r.free accounts.sound aligned, others, fun b counted => accounts.counted b ?_,
      accounts.table, ?_⟩
    · rwa [refCount_freeFrame] at counted
    · rcases accounts.split with ⟨-, owned⟩ | ⟨device, owned⟩
      · have released := owned.release
        rwa [releaseUserFrame, if_neg untracked] at released
      · rwa [r.device accounts.sound device]

end

theorem toKernel (accounts : Accounts r kernel f pages (a :: tables)) :
    Accounts r (fun b => kernel b ∨ b = a) f pages tables :=
  ⟨accounts.sound, accounts.aligned, accounts.counted, (forall_mem_cons.mp accounts.table).2,
    accounts.owned.toKernel⟩

/-- `free_user_space` gives back what is no device memory and counts no frame
higher. -/
theorem freeUserSpace {t : UserHalf}
    (accounts : Accounts r kernel f (t.frames ++ pages) (t.tables ++ tables)) :
    Accounts r kernel (Kernel.freeUserSpace f t) pages tables ∧
      ∀ b, (Kernel.freeUserSpace f t).refCount b ≤ f.refCount b := by
  refine freeUserSpace_release (Q := fun f' pages tables =>
    Accounts r kernel f' pages tables ∧ ∀ b, f'.refCount b ≤ f.refCount b) ?_ ?_
    ⟨accounts, fun _ => le_rfl⟩
  · rintro f' a P T ⟨accounts, le⟩
    exact ⟨accounts.release, fun b =>
      (refCount_releaseUserFrame_le accounts.owned.unique a b).trans (le b)⟩
  · rintro f' a P T ⟨accounts, le⟩
    exact ⟨accounts.freeTable, fun b => by rw [refCount_freeFrame]; exact le b⟩

end Accounts

/-! ## The machine -/

/-- The bookkeeping while the kernel holds frames: they are private, as tables are, and the
pages of the kernel are kernel frames. -/
def Accounted (r : Ram) (kernel : Nat → Prop) (s : Machine × List Nat) : Prop :=
  Accounts r kernel s.1.frames s.1.pages (s.2 ++ s.1.tables) ∧
    ∀ page frame, s.1.kernelPages page = some frame → kernel frame

/-- A share that installs a new mapping finds the shared address recorded, with
room in its `u8` count.  Other operations are not restricted. -/
def ShareCounted (m : Machine) : MemOp → Prop
  | .sharePage hasMapInto current vaddr target =>
    hasMapInto = true → isUserAddress vaddr = true → ∀ paddr,
      resolveUserPage m current vaddr = some (some paddr) →
      resolveUserPage m target vaddr ≠ some (some paddr) →
      0 < m.frames.refCount paddr ∧ m.frames.refCount paddr < 255
  | _ => True

namespace Accounted

variable {r : Ram} {kernel : Nat → Prop} {mp : Mapper} {m m' : Machine} {held : List Nat}

variable {id vaddr paddr : Nat} {perm : UserPagePerm}

/-- `map_user_page` before its page is accounted for. -/
theorem mapUserPage (accounted : Accounted r kernel (m, held))
    (mapped : Kernel.mapUserPage mp m id vaddr paddr perm = some m') :
    m'.pages.Perm (paddr / FRAME_SIZE * FRAME_SIZE :: m.pages) ∧
      (∀ b, m'.frames.refCount b = m.frames.refCount b) ∧
      Accounts r kernel m'.frames m.pages (held ++ m'.tables) ∧
      ∀ page frame, m'.kernelPages page = some frame → kernel frame := by
  obtain ⟨kernelPages, pages, taken, chain, tables⟩ := mapUserPage_spec mapped
  have spread := (tables.append_left held).trans (perm_append_comm_assoc _ _ _)
  refine ⟨pages, fun b => ?_, (accounted.1.allocChain chain).perm (.refl _) spread,
    kernelPages ▸ accounted.2⟩
  rw [refCount, chain.shared, refCount]

/-- Mapping a frame that the kernel held; it was RAM and not counted. -/
theorem mapHeld {a : Nat} (accounted : Accounted r kernel (m, a :: held))
    (mapped : Kernel.mapUserPage mp m id vaddr a perm = some m') :
    Accounted r kernel (m', held) ∧ a / FRAME_SIZE * FRAME_SIZE = a ∧ m'.frames.refCount a = 0 ∧
      r.isRam a = true ∧ a ∉ m.pages := by
  obtain ⟨pages, -, accounts, kernelPages⟩ := accounted.mapUserPage mapped
  have aligned := frame_start (accounts.owned.table_used a mem_cons_self).1
  have isRam := accounts.table a mem_cons_self
  obtain ⟨uncounted, apart⟩ := accounts.owned.table_private a mem_cons_self
  rw [aligned] at pages
  exact ⟨⟨accounts.map.perm pages (.refl _), kernelPages⟩, aligned, uncounted, isRam,
    fun member => apart (mem_filter.mpr ⟨member, isRam⟩)⟩

theorem mapNew {a : Nat} (accounted : Accounted r kernel (m, a :: held))
    (mapped : Kernel.mapUserPage mp m id vaddr a perm = some m') :
    Accounted r kernel ({ m' with frames := m'.frames.incRef a }, held) := by
  obtain ⟨accounted', aligned, uncounted, isRam, -⟩ := accounted.mapHeld mapped
  have pages := (accounted.mapUserPage mapped).1
  rw [aligned] at pages
  have counted := (accounted'.1.perm pages.symm (.refl _)).incRef_fresh isRam uncounted
  exact ⟨counted.perm pages (.refl _), accounted'.2⟩

section

variable (accounted : Accounted r kernel (m, held))
include accounted

theorem mapDevice (device : r.isRam (paddr / FRAME_SIZE * FRAME_SIZE) = false)
    (mapped : Kernel.mapUserPage mp m id vaddr paddr perm = some m') : Accounted r kernel (m', held) := by
  obtain ⟨pages, -, accounts, kernelPages⟩ := accounted.mapUserPage mapped
  exact ⟨(accounts.mapDevice (Nat.mul_mod_left _ _) device).perm pages (.refl _), kernelPages⟩

/-- Removing a mapping and dropping the frame it held. -/
theorem unmap {result : Option Nat} (unmapped : unmapUserPage mp m id vaddr = some (result, m')) :
    Accounted r kernel (dropUnmapped m' result, held) := by
  obtain ⟨frames, tables, kernelPages, cases⟩ := unmapUserPage_spec unmapped
  have tables := tables.append_left held
  have kernelPages' : ∀ page frame, m'.kernelPages page = some frame → kernel frame :=
    fun page frame same => accounted.2 page frame (kernelPages page frame same)
  rcases cases with ⟨rfl, pages⟩ | ⟨frame, rfl, pages, -⟩ | ⟨page, frame, rfl, atPage, -, pages⟩
  · exact ⟨frames ▸ accounted.1.perm pages tables, kernelPages'⟩
  · have dropped := (accounted.1.perm pages.symm tables).drop
    rw [← frames] at dropped
    exact ⟨dropped, kernelPages'⟩
  · have isKernel := accounted.2 page frame atPage
    have dropped := (accounted.1.perm pages tables).drop_uncounted
      (accounted.1.owned.kernel_used frame isKernel).1 (accounted.1.owned.kernel_private frame isKernel).1
    rw [← frames] at dropped
    exact ⟨dropped, kernelPages'⟩

/-- Mapping a counted frame once more and counting that mapping. -/
theorem mapCounted (mapped : Kernel.mapUserPage mp m id vaddr paddr perm = some m')
    (counted : 0 < m.frames.refCount paddr) (small : m.frames.refCount paddr < 255) :
    Accounted r kernel ({ m' with frames := m'.frames.incRef paddr }, held) := by
  obtain ⟨pages, same, accounts, kernelPages⟩ := accounted.mapUserPage mapped
  rw [frame_start (accounted.1.owned.counted_used paddr counted).1] at pages
  rw [← same] at counted small
  exact ⟨(accounts.share counted small).perm pages (.refl _), kernelPages⟩

end

theorem resolved_mem (resolved : resolveUserPage m id vaddr = some (some paddr)) :
    ∃ frame ∈ m.pages, paddr = frame + vaddr % FRAME_SIZE := by
  obtain ⟨d, live, walk⟩ := map_eq_some_iff.mp resolved
  obtain ⟨frame, member, rfl⟩ := UserHalf.resolve_mem_frames walk
  obtain ⟨P, T, pages, -, -⟩ := Machine.focus live
  exact ⟨frame, pages.mem_iff.mpr (mem_append_left _ member), rfl⟩

section

variable (accounted : Accounted r kernel (m, held))
include accounted

theorem aligned_of_counted (resolved : resolveUserPage m id vaddr = some (some paddr))
    (counted : 0 < m.frames.refCount paddr) : vaddr % FRAME_SIZE = 0 := by
  obtain ⟨frame, member, rfl⟩ := resolved_mem resolved
  have frameAligned := accounted.1.aligned frame member
  have sumAligned := (accounted.1.owned.counted_used _ counted).1
  unfold FRAME_SIZE at *
  omega

theorem share {hasMapInto : Bool} {current target code : Nat}
    (recorded : ShareCounted m (.sharePage hasMapInto current vaddr target))
    (ran : sysSharePage mp m hasMapInto current vaddr target = some (code, m')) :
    Accounted r kernel (m', held) := by
  rcases sysSharePage_cases ran with
    rfl | ⟨paddr, m₁, m₂, capability, user, resolved, differs, cleared, mapped, rfl⟩
  · exact accounted
  have ⟨counted, small⟩ := recorded capability user paddr resolved differs
  rcases cleared with rfl | ⟨result, m₀, unmapped, rfl⟩
  · exact accounted.mapCounted mapped counted small
  · have kept := refCount_dropUnmapped accounted.1.owned.unique unmapped user
      (accounted.aligned_of_counted resolved counted) differs
    exact (accounted.unmap unmapped).mapCounted mapped (kept ▸ counted) (kept ▸ small)

/-- The user space of a domain is given back, and the slot gets a domain without one. -/
theorem freed {d : Domain} (live : m.domain id = some d) :
    (∀ b, (freeUserSpace m.frames d.user).refCount b ≤ m.frames.refCount b) ∧
      Accounted r kernel (m.withDomain id { d with user := none } (freeUserSpace m.frames d.user), held) ∧
      Accounted r kernel (⟨(freeUserSpace m.frames d.user).freeFrame d.pml4, m.domains.set id none,
        m.kernelPages⟩, held) := by
  obtain ⟨P, T, pages, tables, focused⟩ := Machine.focus live
  have private_ : (held ++ m.tables).Perm (d.user.tables ++ d.pml4 :: (held ++ T)) := by
    refine (tables.append_left held).trans ((perm_append_comm_assoc _ _ _).trans ?_)
    exact perm_middle.append_left _
  obtain ⟨accounts, counts⟩ := (accounted.1.perm pages.symm private_.symm).freeUserSpace
  obtain ⟨pages₁, tables₁⟩ :=
    focused (some { d with user := none }) (freeUserSpace m.frames d.user) m.kernelPages
  obtain ⟨pages₂, tables₂⟩ :=
    focused none ((freeUserSpace m.frames d.user).freeFrame d.pml4) m.kernelPages
  exact ⟨counts, ⟨accounts.perm pages₁ ((tables₁.append_left _).trans perm_middle), accounted.2⟩,
    accounts.freeTable.perm pages₂ (tables₂.append_left _), accounted.2⟩

end

/-- **Every move keeps it** where only what is no RAM is mapped as device memory and every page
that is shared is counted. -/
theorem move {rules : Rules} (device : ∀ a, rules.device a → r.isRam a = false)
    (counted : ∀ {m hasMapInto current vaddr target},
      (hasMapInto = true → isUserAddress vaddr = true → rules.share m current vaddr target) →
        ShareCounted m (.sharePage hasMapInto current vaddr target))
    {s s' : Machine × List Nat} (accounted : ∃ kernel, Accounted r kernel s) (move : Move mp rules s s') :
    ∃ kernel, Accounted r kernel s' := by
  obtain ⟨kernel, accounted⟩ := accounted
  cases move with
  | take allocated => exact ⟨kernel, accounted.1.alloc allocated, accounted.2⟩
  | takeBlock allocated =>
    refine ⟨kernel, ?_, accounted.2⟩
    rw [append_assoc]
    exact accounted.1.allocBlock allocated
  | reorder same => exact ⟨kernel, accounted.1.perm (.refl _) (same.append_right _), accounted.2⟩
  | giveBack => exact ⟨kernel, accounted.1.freeTable, accounted.2⟩
  | heapPage =>
    rename_i m held a page
    refine ⟨_, accounted.1.toKernel, fun other b atPage => ?_⟩
    by_cases here : other = page
    · simp only [here, Function.update_self, some.injEq] at atPage
      exact .inr atPage.symm
    · exact .inl (accounted.2 other b (by simpa [Function.update_of_ne here] using atPage))
  | map mapped => exact ⟨kernel, (accounted.mapHeld mapped).1⟩
  | mapCounted mapped => exact ⟨kernel, accounted.mapNew mapped⟩
  | device allowed mapped => exact ⟨kernel, accounted.mapDevice (device _ allowed) mapped⟩
  | share allowed shared => exact ⟨kernel, accounted.share (counted allowed) shared⟩
  | unmap unmapped => exact ⟨kernel, accounted.unmap unmapped⟩
  | create created =>
    obtain ⟨pml4, allocated, kernelPages, pages, tables⟩ := createDomain_spec created
    exact ⟨kernel, (accounted.1.alloc allocated).perm pages
      ((tables.append_left _).trans perm_middle), kernelPages ▸ accounted.2⟩
  | reset id =>
    unfold resetDomain
    split
    · exact ⟨kernel, accounted⟩
    next d live => exact ⟨kernel, (accounted.freed live).2.1⟩
  | destroy id =>
    unfold destroyDomain
    split
    · exact ⟨kernel, accounted⟩
    next d live => exact ⟨kernel, (accounted.freed live).2.2⟩

end Accounted

/-- No device memory, and shares of counted pages. -/
def sharingRules : Rules where
  device := fun _ => False
  share := fun m current vaddr target => ∀ paddr,
    resolveUserPage m current vaddr = some (some paddr) →
      resolveUserPage m target vaddr ≠ some (some paddr) →
        0 < m.frames.refCount paddr ∧ m.frames.refCount paddr < 255

variable {m : Machine}

theorem ShareCounted.meets {op : MemOp} (recorded : ShareCounted m op)
    (info : BootInfo) : sharingRules.Meets info m (.mem op) := by
  cases op with
  | spawnElf segments started => exact fun _ _ => trivial
  | _ => trivial

/-! ## Runs -/

/-- Run a list of operations; `none` when one of them panics. -/
def runOps (mp : Mapper) (m : Machine) : List MemOp → Option Machine
  | [] => some m
  | op :: ops => (step mp m op).bind fun m' => runOps mp m' ops

/-- Every share of the run finds its frame recorded. -/
def SharesCounted (mp : Mapper) (m : Machine) : List MemOp → Prop
  | [] => True
  | op :: ops => ShareCounted m op ∧ ∀ m', step mp m op = some m' → SharesCounted mp m' ops

/-- The state at boot: no domain and no counted frame; the kernel's own pages
are marked used. -/
structure BootMachine (m : Machine) : Prop where
  noDomains : m.domains = []
  noCounts : ∀ slot ∈ m.frames.shared, slot.count = 0
  kernelUsed : ∀ page frame, m.kernelPages page = some frame →
    frame % FRAME_SIZE = 0 ∧ m.frames.bitmap (frame / FRAME_SIZE) = true

/-- Every frame mapped in the user half of a live domain is marked used, so the
allocator does not hand it out. -/
def MappedFramesUsed (m : Machine) : Prop :=
  ∀ id vaddr paddr, resolveUserPage m id vaddr = some (some paddr) →
    m.frames.bitmap (paddr / FRAME_SIZE) = true ∧
      ∀ addr f, m.frames.allocateFrame = some (addr, f) → addr / FRAME_SIZE ≠ paddr / FRAME_SIZE

theorem BootMachine.accounted {r : Ram} (boot : BootMachine m) (sound : r.sound m.frames) :
    Accounted r (fun frame => ∃ page, m.kernelPages page = some frame) (m, []) := by
  have uncounted : ∀ a, m.frames.refCount a = 0 := fun a =>
    countOf_eq_zero_of_forall fun slot member live _ => by
      have := boot.noCounts slot member
      omega
  have pages : m.pages = [] := by simp [Machine.pages, boot.noDomains]
  have tables : m.tables = [] := by simp [Machine.tables, boot.noDomains]
  refine ⟨?_, fun page frame atPage => ⟨page, atPage⟩⟩
  rw [pages, tables]
  refine ⟨sound, by simp, fun a counted => absurd (uncounted a) counted.ne', by simp, ?_⟩
  constructor
  case unique =>
    exact pairwise_of_forall_mem_list fun x memberX y _ live => by
      have := boot.noCounts x memberX
      omega
  case kernel_used =>
    rintro a ⟨page, atPage⟩
    exact boot.kernelUsed page a atPage
  case kernel_private => exact fun a _ => ⟨uncounted a, by simp, by simp⟩
  case counted_used => exact fun a counted => by simp [uncounted a] at counted
  all_goals simp

theorem Accounted.mappedFramesUsed {kernel : Nat → Prop} {held : List Nat}
    (accounted : Accounted .all kernel (m, held)) : MappedFramesUsed m := by
  intro id vaddr paddr resolved
  obtain ⟨frame, member, rfl⟩ := Accounted.resolved_mem resolved
  obtain ⟨aligned, used⟩ := accounted.1.owned.page_used frame (mem_filter.mpr ⟨member, rfl⟩)
  have index : (frame + vaddr % FRAME_SIZE) / FRAME_SIZE = frame / FRAME_SIZE := by
    unfold FRAME_SIZE at *
    omega
  rw [index]
  refine ⟨used, fun addr f allocated same => ?_⟩
  rw [← same, (allocateFrame_spec allocated).2.2.1] at used
  cases used

theorem Accounted.runOps {mp : Mapper} {ops : List MemOp} {m' : Machine} {held : List Nat}
    (accounted : ∃ kernel, Accounted .all kernel (m, held)) (counted : SharesCounted mp m ops)
    (ran : Kernel.runOps mp m ops = some m') : ∃ kernel, Accounted .all kernel (m', held) := by
  induction ops generalizing m with
  | nil =>
    cases ran
    exact accounted
  | cons op ops ih =>
    obtain ⟨m₁, stepped, rest⟩ := bind_eq_some_iff.mp ran
    -- no operation on memory looks at the boot information
    have moves := Moves.step (counted.1.meets ⟨0, 0, 0, 0, []⟩) stepped held
    exact ih (moves.invariant accounted fun accounted move => Accounted.move (fun _ => False.elim) id accounted move)
      (counted.2 m₁ stepped) rest

/-- **Frame ownership.**  After any run from boot in which every share that
installs a mapping finds its frame recorded with room in the count, every
mapped frame is marked used and is not handed out again. -/
theorem counted_runs_keep_mapped_frames_used (mp : Mapper) {m m' : Machine} {ops : List MemOp}
    (boot : BootMachine m) (counted : SharesCounted mp m ops)
    (ran : runOps mp m ops = some m') : MappedFramesUsed m' :=
  have ⟨_, accounted⟩ : ∃ kernel, Accounted .all kernel (m', []) :=
    Accounted.runOps ⟨_, boot.accounted trivial⟩ counted ran
  accounted.mappedFramesUsed

/-! ## Two runs -/

/-- A machine at boot whose first sixteen frames are reserved. -/
def demoBoot : Machine where
  frames :=
    { bitmap := fun idx => decide (idx < 16)
      freeFrames := 1000
      pinned := []
      shared := List.replicate MAX_SHARED_FRAMES ⟨0, 0⟩ }
  domains := []
  kernelPages := fun _ => none

theorem demoBoot_boot : BootMachine demoBoot where
  noDomains := rfl
  noCounts := fun slot member => by rw [eq_of_mem_replicate member]
  kernelUsed := fun _ _ atPage => by cases atPage

/-- Two domains; the first allocates a page and shares it with the second, which
unmaps it. -/
def demoShare : List MemOp :=
  [.createDomain, .createDomain, .allocPage 0 USER_SPACE_BASE,
    .sharePage true 0 USER_SPACE_BASE 1, .unmap 1 USER_SPACE_BASE]

/-- A one-page program. -/
def demoSegment : Segment where
  vaddr := USER_SPACE_BASE
  memsz := 4096
  flags := 5
  base_le := le_rfl
  end_le := by decide

/-- The first domain runs a program and shares a page of its stack, which was
never counted; the second domain unmaps the page. -/
def demoStackShare : List MemOp :=
  [.createDomain, .createDomain, .spawnElfAt [demoSegment] true 0,
    .sharePage true 0 (USER_STACK_TOP - 4096) 1, .unmap 1 (USER_STACK_TOP - 4096)]

/-- Does the domain map the address to a frame that is marked free? -/
def mapsFreeFrame (m : Machine) (id vaddr : Nat) : Bool :=
  match resolveUserPage m id vaddr with
  | some (some paddr) => !m.frames.bitmap (paddr / FRAME_SIZE)
  | _ => false

theorem not_mappedFramesUsed_of_mapsFreeFrame {id vaddr : Nat}
    (free : mapsFreeFrame m id vaddr = true) : ¬ MappedFramesUsed m := by
  intro used
  unfold mapsFreeFrame at free
  split at free
  · next paddr resolved => simp [(used id vaddr paddr resolved).1] at free
  · cases free

/-- Unmapping a shared stack page frees its frame while the owner still maps it. -/
theorem stack_page_share_frees_mapped_frame :
    ∃ m, runOps Mapper.fourLevel demoBoot demoStackShare = some m ∧ ¬ MappedFramesUsed m := by
  obtain ⟨m, ran, evaluated⟩ : ∃ m ∈ runOps Mapper.fourLevel demoBoot demoStackShare,
      mapsFreeFrame m 0 (USER_STACK_TOP - 4096) = true := by decide +kernel
  exact ⟨m, ran, not_mappedFramesUsed_of_mapsFreeFrame evaluated⟩

/-- Is the frame behind the address recorded with room in its count? -/
def countedAt (m : Machine) (id vaddr : Nat) : Bool :=
  match resolveUserPage m id vaddr with
  | some (some paddr) => decide (0 < m.frames.refCount paddr ∧ m.frames.refCount paddr < 255)
  | _ => true

theorem countedAt_spec {id vaddr paddr : Nat} (counted : countedAt m id vaddr = true)
    (resolved : resolveUserPage m id vaddr = some (some paddr)) :
    0 < m.frames.refCount paddr ∧ m.frames.refCount paddr < 255 := by
  unfold countedAt at counted
  rw [resolved] at counted
  simpa using counted

theorem demoShare_counted : SharesCounted Mapper.fourLevel demoBoot demoShare := by
  have evaluated : (runOps Mapper.fourLevel demoBoot (demoShare.take 3)).all
      (fun m => countedAt m 0 USER_SPACE_BASE) = true := by decide +kernel
  refine ⟨trivial, fun m₁ step₁ => ⟨trivial, fun m₂ step₂ => ⟨trivial, fun m₃ step₃ => ⟨?_,
    fun m₄ _ => ⟨trivial, fun _ _ => trivial⟩⟩⟩⟩⟩
  intro _ _ paddr resolved _
  have ran : runOps Mapper.fourLevel demoBoot (demoShare.take 3) = some m₃ := by
    simp [demoShare, runOps, step₁, step₂, step₃]
  rw [ran, all_some] at evaluated
  exact countedAt_spec evaluated resolved

theorem demoShare_keeps_mapped_frames_used :
    ∃ m, runOps Mapper.fourLevel demoBoot demoShare = some m ∧ MappedFramesUsed m := by
  have evaluated : (runOps Mapper.fourLevel demoBoot demoShare).isSome = true := by decide +kernel
  obtain ⟨m, ran⟩ := isSome_iff_exists.mp evaluated
  exact ⟨m, ran,
    counted_runs_keep_mapped_frames_used Mapper.fourLevel demoBoot_boot demoShare_counted ran⟩

end MorionOS.Kernel
