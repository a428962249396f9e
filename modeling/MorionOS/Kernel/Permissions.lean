import MorionOS.Kernel.PageFlags
import MorionOS.Kernel.RamOnly

/-!
# Rights to a shared frame

`SYS_SHARE_PAGE` maps the frame behind the caller's page into another domain, and
it always maps it writable: the flags of the caller's page are not looked at.  A
page of code, which its own domain can execute and not write, becomes writable in
the other domain (`code_page_becomes_writable`).

In the accounts of frames (`Accounts`) a frame has more than one mapping only if it is
device memory that is never given back (`givenBack`) or counted, and both kinds are only
ever mapped read-write (`Permitted`); so sharing adds no rights in the runs in which only
counted pages are shared (`shares_add_no_rights`).
-/

namespace MorionOS.Kernel

open List Option Frames

/-- `free_frame` leaves the frame alone: it is pinned or beyond the managed
memory. -/
def inert (pinned : List (Nat × Nat)) (a : Nat) : Bool :=
  (pinned.any fun range => decide (range.1 ≤ a) && decide (a < range.2)) ||
    decide (MAX_MANAGED_FRAMES ≤ a / FRAME_SIZE)

variable {f : Frames} {m : Machine}

variable {a : Nat}

theorem Frames.freeFrame_inert (still : inert f.pinned a = true) : f.freeFrame a = f := by
  unfold freeFrame
  split
  · rfl
  next unpinned =>
    have beyond : MAX_MANAGED_FRAMES ≤ a / FRAME_SIZE := by
      rcases Bool.or_eq_true_iff.mp still with pinned | beyond
      · exact absurd pinned unpinned
      · exact of_decide_eq_true beyond
    rw [if_neg fun managed => absurd managed.1 (by omega)]

/-- Every frame can be given back: it is inert or not. -/
theorem releasable {pinned : List (Nat × Nat)} (aligned : a % FRAME_SIZE = 0) :
    Releasable (fun idx => inert pinned (idx * FRAME_SIZE) = false) pinned a := by
  cases still : inert pinned a with
  | false =>
    refine .inr (.inr (?_ : inert pinned (a / FRAME_SIZE * FRAME_SIZE) = false))
    rwa [frame_start aligned]
  | true =>
    rcases Bool.or_eq_true_iff.mp still with inside | beyond
    · obtain ⟨range, member, bounds⟩ := any_eq_true.mp inside
      rw [Bool.and_eq_true, decide_eq_true_eq, decide_eq_true_eq] at bounds
      exact .inl ⟨range, member, bounds⟩
    · exact .inr (.inl (of_decide_eq_true beyond))

/-- The frames that can be given back are RAM. -/
def givenBack (pinned : List (Nat × Nat)) : Ram where
  isRam := fun a => !inert pinned a
  sound := FramesBacked (fun idx => inert pinned (idx * FRAME_SIZE) = false) pinned
  allocate := fun backed allocated => by
    obtain ⟨frames, aligned, isRam⟩ := backed.allocateFrame allocated
    rw [frame_start aligned] at isRam
    exact ⟨frames, by simp [isRam]⟩
  allocateBlock := fun backed allocated => by
    obtain ⟨frames, aligned, isRam⟩ := backed.allocateFrames allocated
    refine ⟨frames, fun b member => ?_⟩
    obtain ⟨i, inside, rfl⟩ := List.mem_map.mp member
    have here := isRam i (List.mem_range.mp inside)
    rw [Nat.add_mul, frame_start aligned] at here
    simp [here]
  free := fun backed aligned => backed.freeFrame (releasable aligned)
  drop := fun backed aligned => backed.dropFrame (releasable aligned)
  count := fun backed => backed.incRef _
  device := fun backed device => Frames.freeFrame_inert (backed.pinned ▸ by simpa using device)

/-! ## The machine -/

/-- The accounts are in order, and device memory and counted frames are only mapped
read-write. -/
structure Permitted (pinned : List (Nat × Nat)) (s : Machine × List Nat) : Prop where
  small : s.1.NoHuge
  accounted : ∃ kernel, Accounted (givenBack pinned) kernel s
  writable : ∀ pte ∈ s.1.leaves,
    inert pinned pte.frame = true ∨ 0 < s.1.frames.refCount pte.frame → pte.perm = .readWrite

namespace Permitted

variable {pinned : List (Nat × Nat)} {mp : FlagMapper} {m m' : Machine} {held held' : List Nat}

/-- The machine has no more leaves and no higher count than before. -/
theorem shrink (permitted : Permitted pinned (m, held))
    (accounted : ∃ kernel, Accounted (givenBack pinned) kernel (m', held')) (small : m'.NoHuge)
    (leaves : ∀ pte ∈ m'.leaves, pte ∈ m.leaves)
    (counts : ∀ b, m'.frames.refCount b ≤ m.frames.refCount b) : Permitted pinned (m', held') :=
  ⟨small, accounted, fun pte member cause => permitted.writable pte (leaves pte member)
    (cause.imp_right fun counted => counted.trans_le (counts _))⟩

variable {id vaddr paddr : Nat} {perm : UserPagePerm}

/-- A page is mapped that is writable, or whose frame is RAM without a count, and no other count
changes. -/
theorem mapped (permitted : Permitted pinned (m, held))
    (mapped : mapUserPage mp.toMapper m id vaddr paddr perm = some m')
    (accounted : ∃ kernel, Accounted (givenBack pinned) kernel ({ m' with frames := f }, held'))
    (new : inert pinned (paddr / FRAME_SIZE * FRAME_SIZE) = true ∨
      0 < f.refCount (paddr / FRAME_SIZE * FRAME_SIZE) → perm = .readWrite)
    (counts : ∀ pte ∈ m.leaves, 0 < f.refCount pte.frame → 0 < m.frames.refCount pte.frame) :
    Permitted pinned ({ m' with frames := f }, held') := by
  obtain ⟨leaves, small, -⟩ := mapUserPage_leaves mapped
  refine ⟨small permitted.small, accounted, fun pte member cause => ?_⟩
  rcases mem_cons.mp (leaves.mem_iff.mp member) with rfl | old
  · exact new cause
  · exact permitted.writable pte old (cause.imp_right (counts pte old))

theorem mapHeld (permitted : Permitted pinned (m, a :: held))
    (mapped : mapUserPage mp.toMapper m id vaddr a perm = some m') : Permitted pinned (m', held) := by
  obtain ⟨kernel, accounted⟩ := permitted.accounted
  obtain ⟨accounted', aligned, uncounted, isRam, -⟩ := accounted.mapHeld mapped
  refine permitted.mapped mapped ⟨kernel, accounted'⟩ (fun cause => ?_) fun pte _ counted => ?_
  · rw [aligned, uncounted] at cause
    simp [givenBack] at isRam
    simp [isRam] at cause
  · rwa [(accounted.mapUserPage mapped).2.1] at counted

/-- The new page is counted. -/
theorem mapCounted (permitted : Permitted pinned (m, a :: held))
    (mapped : mapUserPage mp.toMapper m id vaddr a .readWrite = some m') :
    Permitted pinned ({ m' with frames := m'.frames.incRef a }, held) := by
  obtain ⟨kernel, accounted⟩ := permitted.accounted
  obtain ⟨-, -, uncounted, -, apart⟩ := accounted.mapHeld mapped
  refine permitted.mapped mapped ⟨kernel, accounted.mapNew mapped⟩ (fun _ => rfl) fun pte old counted => ?_
  have differs : pte.frame ≠ a := fun same => apart
    (same ▸ permitted.small.map_leaves ▸ mem_map_of_mem old)
  rwa [(refCount_incRef_of_zero uncounted).2 _ differs, (accounted.mapUserPage mapped).2.1] at counted

section

variable (permitted : Permitted pinned (m, held))
include permitted

theorem mapDevice (device : inert pinned (paddr / FRAME_SIZE * FRAME_SIZE) = true)
    (mapped : mapUserPage mp.toMapper m id vaddr paddr .readWrite = some m') :
    Permitted pinned (m', held) := by
  obtain ⟨kernel, accounted⟩ := permitted.accounted
  refine permitted.mapped mapped ⟨kernel, accounted.mapDevice (by simp [givenBack, device]) mapped⟩
    (fun _ => rfl) fun pte _ counted => ?_
  rwa [(accounted.mapUserPage mapped).2.1] at counted

theorem unmap {result : Option Nat}
    (unmapped : unmapUserPage mp.toMapper m id vaddr = some (result, m')) :
    Permitted pinned (dropUnmapped m' result, held) := by
  obtain ⟨frames, -⟩ := unmapUserPage_spec unmapped
  obtain ⟨removed, small, -⟩ := unmapUserPage_leaves unmapped
  obtain ⟨kernel, accounted⟩ := permitted.accounted
  have leaves : ∀ pte ∈ m'.leaves, pte ∈ m.leaves := by
    intro pte member
    rcases removed with ⟨frame, perm, -, leaves⟩ | ⟨leaves, -⟩
    · exact leaves.mem_iff.mpr (mem_cons_of_mem _ member)
    · exact leaves ▸ member
  have accounted' : ∃ kernel, Accounted (givenBack pinned) kernel (dropUnmapped m' result, held) :=
    ⟨kernel, accounted.unmap unmapped⟩
  cases result with
  | none => exact permitted.shrink accounted' (small permitted.small) leaves fun b => by rw [dropUnmapped, frames]
  | some frame =>
    refine permitted.shrink accounted' (small permitted.small) leaves fun b => ?_
    rw [dropUnmapped, frames]
    exact refCount_dropFrame_le accounted.1.owned.unique frame b

theorem emptied {d : Domain} (live : m.domain id = some d)
    {slot : Option Domain} (empty : ∀ e, slot = some e → e.user = none)
    (accounted : ∃ kernel, Accounted (givenBack pinned) kernel
      (⟨f, m.domains.set id slot, m.kernelPages⟩, held))
    (counts : ∀ b, f.refCount b ≤ m.frames.refCount b) :
    Permitted pinned (⟨f, m.domains.set id slot, m.kernelPages⟩, held) := by
  obtain ⟨L, leaves, later⟩ := Machine.focus_leaves live
  refine permitted.shrink accounted (noHuge_set permitted.small live (fun e same => ?_) f)
    (fun pte member => leaves.mem_iff.mpr (mem_append_right _ ?_)) counts
  · rw [empty e same]
    exact UserHalf.noHuge_none
  · have member := (later slot f m.kernelPages).mem_iff.mp member
    cases slot with
    | none => exact member
    | some e => simpa [empty e rfl, UserHalf.leaves] using member

/-- The page behind a counted frame is writable. -/
theorem page_of_counted (resolved : resolveUserPage m id vaddr = some (some paddr))
    (counted : 0 < m.frames.refCount paddr) :
    pageAt m id vaddr = some ⟨paddr, .readWrite⟩ ∧ vaddr % FRAME_SIZE = 0 := by
  obtain ⟨kernel, accounted⟩ := permitted.accounted
  have offset := accounted.aligned_of_counted resolved counted
  obtain ⟨d, live, walk⟩ := map_eq_some_iff.mp resolved
  rw [(permitted.small id d live).resolve] at walk
  obtain ⟨pte, found, rfl⟩ := map_eq_some_iff.mp walk
  have page : pageAt m id vaddr = some pte := by
    rw [pageAt, live, bind_some, found]
  refine ⟨?_, offset⟩
  rw [offset, Nat.add_zero] at counted ⊢
  rw [page, ← permitted.writable pte (mem_leaves_of_pageAt page) (.inr counted)]

/-- **A share of a counted page** keeps the accounts, and what becomes writable is
the page that the caller can write. -/
theorem share {hasMapInto : Bool} {current target code : Nat}
    (recorded : ShareCounted m (.sharePage hasMapInto current vaddr target))
    (shared : sysSharePage mp.toMapper m hasMapInto current vaddr target = some (code, m')) :
    Permitted pinned (m', held) ∧ ∀ id v pte, pageAt m' id v = some pte →
      pageAt m id v = some pte ∨ pageAt m current vaddr = some pte := by
  obtain ⟨kernel, accounted⟩ := permitted.accounted
  have accounted' := accounted.share recorded shared
  rcases sysSharePage_cases shared with
    rfl | ⟨paddr, m₁, m₂, capability, user, resolved, differs, cleared, mapped, rfl⟩
  · exact ⟨permitted, fun _ _ _ found => .inl found⟩
  obtain ⟨counted, room⟩ := recorded capability user paddr resolved differs
  obtain ⟨page, offset⟩ := permitted.page_of_counted resolved counted
  -- the target's old page goes first; the shared frame keeps its count
  have first : Permitted pinned (m₁, held) ∧ m₁.frames.refCount paddr = m.frames.refCount paddr ∧
      ∀ id v pte, pageAt m₁ id v = some pte → pageAt m id v = some pte := by
    rcases cleared with rfl | ⟨result, m₀, unmapped, rfl⟩
    · exact ⟨permitted, rfl, fun _ _ _ found => found⟩
    · refine ⟨permitted.unmap unmapped,
        refCount_dropUnmapped accounted.1.owned.unique unmapped user offset differs, ?_⟩
      intro id v pte found
      have found : pageAt m₀ id v = some pte := by
        cases result <;> exact found
      rcases (unmapUserPage_leaves unmapped).2.2 id v with same | ⟨-, -, gone⟩
      · exact same ▸ found
      · cases gone.symm.trans found
  obtain ⟨permitted₁, count, pages⟩ := first
  obtain ⟨kernel₁, accounted₁⟩ := permitted₁.accounted
  have counts := (accounted₁.mapUserPage mapped).2.1
  have frame := frame_start (accounted.1.owned.counted_used paddr counted).1
  rw [← count, ← counts] at counted room
  refine ⟨permitted₁.mapped mapped ⟨kernel, accounted'⟩ (fun _ => rfl) fun pte _ now => ?_, ?_⟩
  · rw [refCount_incRef_of_pos counted room] at now
    split at now
    next same => rwa [same, ← counts]
    · rwa [counts] at now
  · intro id v pte found
    have found : pageAt m₂ id v = some pte := found
    rw [(mapUserPage_leaves mapped).2.2, frame] at found
    split at found
    · exact .inr (page.trans found)
    · exact .inl (pages id v pte found)

end

/-- **Every move keeps it**, if device memory is never given back and every page that
is shared is counted. -/
theorem move (rules : Rules) (device : ∀ a, rules.device a → inert pinned a = true)
    (counted : ∀ {m hasMapInto current vaddr target},
      (hasMapInto = true → isUserAddress vaddr = true → rules.share m current vaddr target) →
        ShareCounted m (.sharePage hasMapInto current vaddr target))
    {s s' : Machine × List Nat} (permitted : Permitted pinned s)
    (move : Move mp.toMapper rules s s') : Permitted pinned s' := by
  have accounted := Accounted.move (fun a allowed => by simp [givenBack, device a allowed]) counted
    permitted.accounted move
  cases move with
  | take allocated =>
    refine permitted.shrink accounted permitted.small (fun _ member => member) fun b => ?_
    rw [refCount, (allocateFrame_spec allocated).2.2.2.2.1, refCount]
  | takeBlock allocated =>
    refine permitted.shrink accounted permitted.small (fun _ member => member) fun b => ?_
    rw [refCount, (allocateFrames_spec allocated).2.2.2.2.1, refCount]
  | reorder | heapPage => exact ⟨permitted.small, accounted, permitted.writable⟩
  | giveBack =>
    refine permitted.shrink accounted permitted.small (fun _ member => member) fun b => ?_
    rw [refCount_freeFrame]
  | map mapped => exact permitted.mapHeld mapped
  | mapCounted mapped => exact permitted.mapCounted mapped
  | device allowed mapped => exact permitted.mapDevice (device _ allowed) mapped
  | share allowed shared => exact (permitted.share (counted allowed) shared).1
  | unmap unmapped => exact permitted.unmap unmapped
  | create created =>
    obtain ⟨pml4, allocated, -⟩ := createDomain_spec created
    obtain ⟨leaves, small⟩ := createDomain_leaves created
    refine permitted.shrink accounted (small permitted.small)
      (fun pte member => leaves.mem_iff.mp member) fun b => ?_
    rw [refCount, (allocateFrame_spec allocated).2.2.2.2.1, refCount]
  | reset id =>
    unfold resetDomain at accounted ⊢
    split
    · exact permitted
    next d live =>
      rw [live] at accounted
      obtain ⟨kernel, before⟩ := permitted.accounted
      exact permitted.emptied live (fun e same => some.inj same ▸ rfl) accounted (before.freed live).1
  | destroy id =>
    unfold destroyDomain at accounted ⊢
    split
    · exact permitted
    next d live =>
      rw [live] at accounted
      obtain ⟨kernel, before⟩ := permitted.accounted
      refine permitted.emptied live (by simp) accounted fun b => ?_
      rw [refCount_freeFrame]
      exact (before.freed live).1 b

end Permitted

/-! ## Runs -/

/-- The bits of a page table entry that concern rights. -/
structure PageTableFlags where
  writable : Bool
  noExecute : Bool
deriving DecidableEq

def flagsFor : UserPagePerm → PageTableFlags
  | .readExecute => { writable := false, noExecute := false }
  | .readWrite => { writable := true, noExecute := true }
  | .readOnly => { writable := false, noExecute := true }

/-- Domain `id` has a page with the frame that it can write. -/
def CanWrite (m : Machine) (id frame : Nat) : Prop :=
  ∃ vaddr pte, pageAt m id vaddr = some pte ∧ pte.frame = frame ∧ (flagsFor pte.perm).writable = true

/-- A frame that one domain can write is executable in no domain. -/
def WxSeparate (m : Machine) : Prop :=
  ∀ id frame, CanWrite m id frame → ∀ other vaddr pte, pageAt m other vaddr = some pte →
    pte.frame = frame → (flagsFor pte.perm).noExecute = true

/-- What is writable after the share at a place where it was not, the sharing domain
can write. -/
def AddsNoRights (m m' : Machine) (current : Nat) : Prop :=
  ∀ id vaddr pte, pageAt m' id vaddr = some pte → (flagsFor pte.perm).writable = true →
    pageAt m id vaddr = some pte ∨ CanWrite m current pte.frame

theorem two_le_count_map {α : Type} {l : List α} {g : α → Nat} {x y : α} (memberX : x ∈ l)
    (memberY : y ∈ l) (differs : x ≠ y) (same : g x = g y) : 2 ≤ (l.map g).count (g y) := by
  obtain ⟨before, after, rfl⟩ := append_of_mem memberX
  have rest : y ∈ before ++ after := by simpa [Ne.symm differs] using memberY
  have occurs := count_pos_iff.mpr (mem_map_of_mem (f := g) rest)
  simp only [map_append, map_cons, count_append, count_cons, same,
    beq_self_eq_true, if_true] at occurs ⊢
  omega

theorem Permitted.wxSeparate {pinned : List (Nat × Nat)} {held : List Nat}
    (permitted : Permitted pinned (m, held)) : WxSeparate m := by
  rintro id _ ⟨vaddr, writer, atWriter, rfl, writable⟩ other v pte found same
  have memberWriter := mem_leaves_of_pageAt atWriter
  have member := mem_leaves_of_pageAt found
  by_cases cause : inert pinned pte.frame = true ∨ 0 < m.frames.refCount pte.frame
  · rw [permitted.writable pte member cause]
    rfl
  · -- an uncounted frame of RAM has one mapping, so the two pages are one
    obtain ⟨kernel, accounted⟩ := permitted.accounted
    obtain ⟨ram, uncounted⟩ := not_or.mp cause
    have single := accounted.1.owned.mappings_le pte.frame
    rw [count_filter (by simpa [givenBack] using ram), ← permitted.small.map_leaves] at single
    simp only at single
    have one : pte = writer := by
      by_contra differs
      have two := two_le_count_map memberWriter member (Ne.symm differs) same.symm
      omega
    rw [one]
    revert writable
    cases writer.perm <;> simp [flagsFor]

/-- Each BAR that is mapped is never given back, and each page that is shared is
counted with room. -/
def SafeOp (info : BootInfo) (m : Machine) (op : DevOp) : Prop :=
  BarsProtected info op ∧ ∀ memOp, op = .mem memOp → ShareCounted m memOp

/-- Device memory that is never given back, and shares of counted pages. -/
def countedRules (info : BootInfo) : Rules := { sharingRules with device := NeverFreed info }

variable {info : BootInfo}

theorem SafeOp.meets {op : DevOp} (safe : SafeOp info m op) :
    (countedRules info).Meets info m op := by
  have device := safe.1.meets m
  cases op with
  | mem op =>
    cases op with
    | sharePage hasMapInto current vaddr target => exact safe.2 _ rfl
    | _ => trivial
  | _ => exact device

theorem inert_of_neverFreed {kernelImageEnd : Nat} {active : List Nat}
    (never : NeverFreed info a) : inert (init info kernelImageEnd active).pinned a = true := by
  rw [init_pinned]
  rcases never with ⟨lower, upper⟩ | beyond
  · simp [inert, lower, upper]
  · simp [inert, beyond]

theorem permitted_init (info : BootInfo) (kernelImageEnd : Nat) (active : List Nat) :
    Permitted (init info kernelImageEnd active).pinned
      (initMachine info kernelImageEnd active, []) := by
  have boot : BootMachine (initMachine info kernelImageEnd active) := by
    refine ⟨rfl, fun slot member => ?_, by simp [initMachine]⟩
    rw [initMachine, (init_rest info kernelImageEnd active).2] at member
    have zero : slot = ⟨0, 0⟩ := eq_of_mem_replicate member
    rw [zero]
  refine ⟨by simp [Machine.NoHuge, initMachine, Machine.domain], ⟨_, boot.accounted ⟨rfl, ?_⟩⟩,
    by simp [Machine.leaves, initMachine]⟩
  intro idx inside clear
  obtain ⟨-, -, -, -, -, -, -, outside⟩ := init_clear clear
  rw [init_pinned]
  unfold BootInfo.fbStartFrame BootInfo.fbEndFrame at outside
  simp only [inert, any_cons, any_nil, Bool.or_false, Bool.or_eq_false_iff,
    Bool.and_eq_false_iff, decide_eq_false_iff_not]
  unfold FRAME_SIZE at *
  omega

/-- **Sharing adds no rights** along every run from the boot in which each page that
is shared is counted with room and each BAR that is mapped is never given back: a
share makes nothing writable that its caller cannot write, and no frame is writable
in one place and executable in another. -/
theorem shares_add_no_rights (mp : FlagMapper) (info : BootInfo) (kernelImageEnd : Nat)
    (active : List Nat) {m : Machine}
    (ran : DevRun mp.toMapper info (SafeOp info) (initMachine info kernelImageEnd active) m) :
    WxSeparate m ∧ ∀ hasMapInto current vaddr target code m',
      ShareCounted m (.sharePage hasMapInto current vaddr target) →
      sysSharePage mp.toMapper m hasMapInto current vaddr target = some (code, m') →
        AddsNoRights m m' current := by
  have keeps : ∀ {s s'}, Permitted (init info kernelImageEnd active).pinned s →
      Move mp.toMapper (countedRules info) s s' →
      Permitted (init info kernelImageEnd active).pinned s' :=
    fun permitted move => permitted.move (countedRules info) (fun _ => inert_of_neverFreed)
      (fun allowed => allowed) move
  obtain ⟨held, permitted⟩ := ran.invariant (permitted_init info kernelImageEnd active)
    (fun _ safe => safe.meets) keeps
  refine ⟨permitted.wxSeparate, fun hasMapInto current vaddr target code m' counted shared => ?_⟩
  intro id v pte found writable
  rcases (permitted.share counted shared).2 id v pte found with old | own
  · exact .inl old
  · exact .inr ⟨vaddr, pte, own, rfl, writable⟩

/-! ## Two runs -/

/-- Two domains; the first allocates a page. -/
def demoWriter : List DevOp :=
  [.mem .createDomain, .mem .createDomain, .mem (.allocPage 0 USER_SPACE_BASE)]

/-- Two domains; the first runs a program of one page. -/
def demoCodePage : List DevOp :=
  [.mem .createDomain, .mem .createDomain, .mem (.spawnElfAt [demoSegment] true 0)]

/-- The first domain shares its page at the bottom of the user space. -/
def demoSharing (m : Machine) : Option (Nat × Machine) :=
  sysSharePage FlagMapper.fourLevel.toMapper m true 0 USER_SPACE_BASE 1

/-- Sharing the allocated page is safe. -/
theorem demoWriter_adds_no_rights : ∃ m code m',
    runDev FlagMapper.fourLevel.toMapper demoInfo demoInit demoWriter = some m ∧
      demoSharing m = some (code, m') ∧ WxSeparate m ∧ AddsNoRights m m' 0 := by
  obtain ⟨m, ran, counted, ⟨code, m'⟩, shared, -⟩ :
      ∃ m ∈ runDev FlagMapper.fourLevel.toMapper demoInfo demoInit demoWriter,
        countedAt m 0 USER_SPACE_BASE = true ∧ ∃ answer ∈ demoSharing m, True := by decide +kernel
  have reached : DevRun FlagMapper.fourLevel.toMapper demoInfo (SafeOp demoInfo) demoInit m := by
    refine DevRun.of_runDev .nil ?_ ran
    intro m op member
    simp only [demoWriter, mem_cons, not_mem_nil, or_false] at member
    rcases member with rfl | rfl | rfl <;> exact ⟨trivial, by rintro _ ⟨⟩; trivial⟩
  obtain ⟨separate, shares⟩ := shares_add_no_rights FlagMapper.fourLevel demoInfo 0x8000 [] reached
  refine ⟨m, code, m', ran, shared, separate, shares true 0 _ 1 code m' ?_ shared⟩
  intro _ _ paddr resolved _
  exact countedAt_spec counted resolved

/-- Does the domain have a writable page with the frame? -/
def hasWritable (m : Machine) (id frame : Nat) : Bool :=
  (m.domain id).any fun d => d.user.leaves.any fun pte =>
    pte.frame == frame && (flagsFor pte.perm).writable

theorem CanWrite.hasWritable {id frame : Nat} (can : CanWrite m id frame) :
    Kernel.hasWritable m id frame = true := by
  obtain ⟨vaddr, pte, found, rfl, writable⟩ := can
  obtain ⟨d, live, found⟩ := bind_eq_some_iff.mp found
  rw [Kernel.hasWritable, live, any_some]
  exact any_eq_true.mpr ⟨pte, UserHalf.lookup_mem_leaves found, by simp [writable]⟩

/-- Was the page at the bottom of the user space code that domain 0 could not write,
and is it now writable in domain 1 as well? -/
def codeWritable (m m' : Machine) : Bool :=
  match pageAt m 0 USER_SPACE_BASE, pageAt m' 0 USER_SPACE_BASE, pageAt m 1 USER_SPACE_BASE,
      pageAt m' 1 USER_SPACE_BASE with
  | some _, some code, none, some new => decide (code.frame = new.frame) &&
      !(flagsFor code.perm).noExecute && (flagsFor new.perm).writable &&
      !hasWritable m 0 new.frame
  | _, _, _, _ => false

/-- **A page of code becomes writable.**  A domain shares a page of its own code; the
other domain can write it while the first one executes it. -/
theorem code_page_becomes_writable : ∃ m code m',
    DevRun FlagMapper.fourLevel.toMapper demoInfo (fun _ _ => True) demoInit m ∧
      demoSharing m = some (code, m') ∧ ¬ AddsNoRights m m' 0 ∧ ¬ WxSeparate m' := by
  obtain ⟨m, ran, ⟨code, m'⟩, shared, evaluated⟩ :
      ∃ m ∈ runDev FlagMapper.fourLevel.toMapper demoInfo demoInit demoCodePage,
        ∃ answer ∈ demoSharing m, codeWritable m answer.2 = true := by decide +kernel
  refine ⟨m, code, m', DevRun.of_runDev .nil (fun _ _ _ => trivial) ran, shared, ?_⟩
  unfold codeWritable at evaluated
  split at evaluated
  next before own new atBefore atOwn absent atNew =>
    simp only [Bool.and_eq_true, Bool.not_eq_true', decide_eq_true_eq] at evaluated
    obtain ⟨⟨⟨same, executable⟩, writable⟩, unwritable⟩ := evaluated
    constructor
    · intro adds
      rcases adds 1 USER_SPACE_BASE new atNew writable with old | can
      · cases absent.symm.trans old
      · exact absurd (can.hasWritable.symm.trans unwritable) (by simp)
    · intro separate
      have never := separate 1 new.frame ⟨_, new, atNew, rfl, writable⟩ 0 _ own atOwn same
      exact absurd (never.symm.trans executable) (by simp)
  · cases evaluated

end MorionOS.Kernel
