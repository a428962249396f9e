import MorionOS.Kernel.RamOnly

/-!
# The memory of a granted device

`grant_at` of `device.rs` allocates a block for DMA and a page for the description of the
device, maps both into the driver's domain and records the domain in the table of bindings.
Nothing takes a binding away again: `domain::reset`, which clears the address space for a
restart in place, and `domain::destroy` leave the table alone.  Both give back every frame
that the domain has mapped, and for a frame without a count this means that it is free.
The block and the description page have no count.

`Guarded` is what keeps them: they are in use, they are not counted, they are no page
tables, and only domains with a binding have them mapped.  Every move of memory keeps it
unless a domain with a binding is reset or destroyed, or a page of the block is shared or
mapped again as device memory (`granted_memory_is_not_recycled`); a driver that is restarted
in place loses its memory (`restarted_driver_loses_dma`).
-/

namespace MorionOS.Kernel

open Function List Option Frames

/-! ## Bindings -/

/-- `DeviceBinding`.  The block is kept for the specification: the source has it in the
description page only. -/
structure DeviceBinding where
  domain : Nat
  bus : UInt8
  dev : UInt8
  func : UInt8
  barPaddr : Nat
  cfgPaddr : Nat
  dmaPaddr : Nat
  dmaPages : Nat
deriving DecidableEq

/-- The frame belongs to the block or is the description page. -/
def DeviceBinding.Holds (b : DeviceBinding) (idx : Nat) : Prop :=
  idx = b.cfgPaddr / FRAME_SIZE ∨
    b.dmaPaddr / FRAME_SIZE ≤ idx ∧ idx < b.dmaPaddr / FRAME_SIZE + b.dmaPages

/-- `bind`: a new grant replaces the binding of the domain. -/
def bindDevice (bindings : List DeviceBinding) (b : DeviceBinding) : List DeviceBinding :=
  match bindings.findIdx? fun e => e.domain = b.domain with
  | some i => bindings.set i b
  | none => bindings ++ [b]

def bindPush (bindings : List DeviceBinding) (b : DeviceBinding) : List DeviceBinding :=
  bindings ++ [b]

/-- Memory with the table of bindings. -/
structure DeviceState where
  machine : Machine
  bindings : List DeviceBinding

/-- `grant_at` with the binding that it records: `multi` says which of the two ways. -/
def grantBound (mp : Mapper) (s : DeviceState) (req : GrantRequest) (multi : Bool)
    (bus dev func : UInt8) : Option (Bool × DeviceState) := do
  let m ← setupMsix mp s.machine req
  match m.frames.allocateFrames (max req.dmaPages 1) with
  | none => some (false, { s with machine := m })
  | some (dma, f) =>
    match f.allocateFrame with
    | none => some (false, { s with machine := { m with frames := f } })
    | some (cfg, f) => do
        let b : DeviceBinding :=
          { domain := req.domain, bus, dev, func
            barPaddr := req.barPaddr / FRAME_SIZE * FRAME_SIZE
            cfgPaddr := cfg, dmaPaddr := dma, dmaPages := max req.dmaPages 1 }
        let bindings := if multi then bindPush s.bindings b else bindDevice s.bindings b
        let m ← mapUserPage mp { m with frames := f } req.domain req.cfgVaddr cfg .readWrite
        let m ← mapPages (mapMmio mp req.domain) req.barPages req.barVaddr
          (req.barPaddr / FRAME_SIZE * FRAME_SIZE) m
        let m ← mapPages (mapDma mp req.domain) (max req.dmaPages 1) req.dmaVaddr dma m
        some (true, ⟨m, bindings⟩)

/-- Operations on memory, with the grants apart. -/
inductive BoundOp where
  | grant (req : GrantRequest) (multi : Bool) (bus dev func : UInt8)
  | dev (op : DevOp)

/-- One operation; a grant always records its binding. -/
def stepBound (mp : Mapper) (info : BootInfo) (s : DeviceState) : BoundOp → Option DeviceState
  | .grant req multi bus dev func => (grantBound mp s req multi bus dev func).map (·.2)
  | .dev (.grantAt _) => none
  | .dev op => (stepDev mp info s.machine op).map fun m => { s with machine := m }

/-! ## Guarded frames -/

variable {count : Nat} {bound : Nat → Prop} {s' : DeviceState}

section Guarded

variable {P : Nat → Prop}

/-- The frames of `P` are in use and not counted. -/
structure FramesGuarded (P : Nat → Prop) (f : Frames) : Prop where
  used : ∀ idx, P idx → f.bitmap idx = true
  uncounted : ∀ slot ∈ f.shared, 0 < slot.count → ¬ P (slot.addr / FRAME_SIZE)

namespace FramesGuarded

variable {f f' : Frames} {a : Nat}

section

variable (guarded : FramesGuarded P f)
include guarded

theorem freeFrame (apart : ¬ P (a / FRAME_SIZE)) : FramesGuarded P (f.freeFrame a) where
  used := fun idx member => by
    rw [freeFrame_bitmap_of_ne _ fun same => apart (same ▸ member)]
    exact guarded.used idx member
  uncounted := by
    rw [freeFrame_shared]
    exact guarded.uncounted

theorem decRef (a : Nat) : FramesGuarded P (f.decRef a).2 where
  used := guarded.used
  uncounted := fun slot member live => by
    change slot ∈ (dropSlot a f.shared).2 at member
    rcases dropSlot_cases a f.shared with ⟨kept, -⟩ | ⟨before, found, after, shared, -, counted, -, dropped⟩
    · rw [kept] at member
      exact guarded.uncounted slot member live
    · rw [dropped] at member
      rcases mem_of_mem_replaced member with rfl | old
      · revert live
        split
        · nofun
        · exact fun _ => guarded.uncounted found (by simp [shared]) counted
      · exact guarded.uncounted slot (shared ▸ old) live

/-- A guarded frame has no count that could reach zero. -/
theorem dropFrame (a : Nat) : FramesGuarded P (f.dropFrame a) := by
  unfold Frames.dropFrame
  split
  next last =>
    change (dropSlot a f.shared).1 = true at last
    rcases dropSlot_cases a f.shared with ⟨kept, -⟩ | ⟨before, found, after, shared, rfl, counted, -, -⟩
    · rw [kept] at last
      cases last
    · exact (guarded.decRef _).freeFrame (guarded.uncounted found (by simp [shared]) counted)
  · exact guarded.decRef a

theorem incRef (apart : ¬ P (a / FRAME_SIZE)) : FramesGuarded P (f.incRef a) where
  used := by
    rw [incRef_bitmap]
    exact guarded.used
  uncounted := fun slot member live => by
    unfold Frames.incRef at member
    split at member
    next table bumped =>
      obtain ⟨before, found, after, shared, rfl, -, counted, -⟩ := bumpSlot_eq_some bumped
      rcases mem_of_mem_replaced member with rfl | old
      · exact guarded.uncounted found (by simp [shared]) counted
      · exact guarded.uncounted slot (shared ▸ old) live
    · split at member
      next table claimed =>
        obtain ⟨before, found, after, shared, rfl, -⟩ := claimSlot_eq_some claimed
        rcases mem_of_mem_replaced member with rfl | old
        · exact apart
        · exact guarded.uncounted slot (shared ▸ old) live
      · exact guarded.uncounted slot member live

theorem allocateFrame (allocated : f.allocateFrame = some (a, f')) :
    FramesGuarded P f' ∧ ¬ P (a / FRAME_SIZE) := by
  obtain ⟨-, -, clear, bits, shared, -⟩ := allocateFrame_spec allocated
  refine ⟨⟨fun idx member => ?_, shared ▸ guarded.uncounted⟩, fun member => ?_⟩
  · rw [bits]
    by_cases here : idx = a / FRAME_SIZE
    · rw [here, update_self]
    · rw [update_of_ne here]
      exact guarded.used idx member
  · exact absurd (clear.symm.trans (guarded.used _ member)) (by decide)

theorem allocateFrames (allocated : f.allocateFrames count = some (a, f')) :
    FramesGuarded P f' ∧ ∀ i < count, ¬ P (a / FRAME_SIZE + i) := by
  obtain ⟨-, -, clear, bits, shared, -⟩ := allocateFrames_spec allocated
  refine ⟨⟨fun idx member => ?_, shared ▸ guarded.uncounted⟩, fun i inside member => ?_⟩
  · rw [bits, guarded.used idx member, Bool.or_true]
  · exact absurd ((clear i inside).symm.trans (guarded.used _ member)) (by decide)

end

end FramesGuarded

/-! ## Guarded memory -/

/-- Device memory and shared pages that are not guarded; domains without binding may be
reset and destroyed. -/
def guardRules (P bound : Nat → Prop) : Rules where
  device := fun a => ¬ P (a / FRAME_SIZE)
  share := fun m current vaddr _ => ∀ paddr,
    resolveUserPage m current vaddr = some (some paddr) → ¬ P (paddr / FRAME_SIZE)
  release := fun id => ¬ bound id

theorem frame_index (paddr : Nat) : paddr / FRAME_SIZE * FRAME_SIZE / FRAME_SIZE = paddr / FRAME_SIZE :=
  Nat.mul_div_cancel _ (by decide)

/-- Frames that are not guarded may be used in every way; those that are may be mapped in
domains with a binding.  They have no count that could drop. -/
def guarding (P bound : Nat → Prop) : Custody (guardRules P bound) where
  sound := FramesGuarded P
  spare := fun a => ¬ P (a / FRAME_SIZE)
  page := fun id a => ¬ bound id → ¬ P (a / FRAME_SIZE)
  counted := fun _ => True
  allocate := FramesGuarded.allocateFrame
  allocateBlock := fun guarded allocated => by
    obtain ⟨frames, apart⟩ := guarded.allocateFrames allocated
    refine ⟨frames, fun b member => ?_⟩
    obtain ⟨i, inside, rfl⟩ := List.mem_map.mp member
    rw [Nat.add_mul_div_right _ _ (by decide)]
    exact apart i (List.mem_range.mp inside)
  free := FramesGuarded.freeFrame
  drop := fun guarded _ => guarded.dropFrame _
  count := fun guarded apart => guarded.incRef (frame_index _ ▸ apart)
  base := fun apart => (frame_index _).symm ▸ apart
  spare_counted := fun _ => trivial
  page_counted := fun _ => trivial
  spare_page := fun apart _ => apart
  device := fun apart _ => apart
  share := fun apart _ resolved => (frame_index _).symm ▸ apart _ resolved
  release := fun free page => page free

/-- The guarded frames are in use and not counted, no page table is one of them, only
domains of `bound` have them mapped, and the kernel holds none of them for another use. -/
abbrev Guarded (P bound : Nat → Prop) : Machine × List Nat → Prop := (guarding P bound).Holds

end Guarded

/-! ## A grant -/

/-- No free frame is in use: as a page table, with a count, or as a page of a domain
outside `bound`. -/
structure Fresh (bound : Nat → Prop) (m : Machine) : Prop where
  tables : ∀ a ∈ m.tables, m.frames.bitmap (a / FRAME_SIZE) = true
  counted : ∀ slot ∈ m.frames.shared, 0 < slot.count → m.frames.bitmap (slot.addr / FRAME_SIZE) = true
  pages : ∀ id d, m.domain id = some d → ¬ bound id → ∀ a ∈ d.user.frames,
    m.frames.bitmap (a / FRAME_SIZE) = true

theorem AllocChain.bits {f f' : Frames} {taken : List Nat} (chain : AllocChain f taken f') :
    (∀ idx, f.bitmap idx = true → f'.bitmap idx = true) ∧
      ∀ a ∈ taken, f'.bitmap (a / FRAME_SIZE) = true := by
  induction chain with
  | nil => exact ⟨fun _ set => set, fun _ member => nomatch member⟩
  | cons allocated _ ih =>
    obtain ⟨-, -, -, bits, -, -⟩ := allocateFrame_spec allocated
    refine ⟨fun idx set => ih.1 idx ?_, fun a member => ?_⟩
    · rw [bits, update_apply]
      split
      · rfl
      · exact set
    · rcases mem_cons.mp member with rfl | later
      · exact ih.1 _ (by rw [bits, update_self])
      · exact ih.2 a later

variable {mp : Mapper} {m m' : Machine} {b : DeviceBinding}

variable {id paddr vaddr : Nat}

/-- A page for a domain of `bound`. -/
theorem Fresh.mapUserPage (fresh : Fresh bound m) {perm : UserPagePerm}
    (mapped : Kernel.mapUserPage mp m id vaddr paddr perm = some m') (isBound : bound id) :
    Fresh bound m' := by
  obtain ⟨-, -, taken, chain, tables⟩ := mapUserPage_spec mapped
  obtain ⟨d, d', live, -, domains⟩ := mapUserPage_domain mapped
  obtain ⟨kept, new⟩ := chain.bits
  refine ⟨fun a member => ?_, fun slot member live => ?_, fun other e found free a member => ?_⟩
  · rcases List.mem_append.mp (tables.mem_iff.mp member) with here | old
    · exact new a here
    · exact kept _ (fresh.tables a old)
  · rw [chain.shared] at member
    exact kept _ (fresh.counted slot member live)
  · rw [domains, if_neg fun same : other = id => free (same ▸ isBound)] at found
    exact kept _ (fresh.pages other e found free a member)

theorem mapPages_keeps {map : Machine → Nat → Nat → Option Machine} {I : Machine → Prop}
    (keeps : ∀ {m m' vaddr paddr}, I m → map m vaddr paddr = some m' → I m') {pages : Nat}
    (start : I m) (mapped : mapPages map pages vaddr paddr m = some m') : I m' := by
  induction pages generalizing m vaddr paddr with
  | zero =>
    cases mapped
    exact start
  | succ pages ih =>
    obtain ⟨m₁, first, rest⟩ := bind_eq_some_iff.mp mapped
    exact ih (keeps start first) rest

theorem mapMmio_mapped (mapped : mapMmio mp id m vaddr paddr = some m') :
    mapUserPage mp m id vaddr paddr .readWrite = some m' := by
  unfold mapMmio at mapped
  split at mapped
  · exact mapped
  · cases mapped

namespace DeviceState

/-- The frame belongs to a device with a binding. -/
def Protected (s : DeviceState) (idx : Nat) : Prop := ∃ b ∈ s.bindings, b.Holds idx

/-- The domain has a binding. -/
def Bound (s : DeviceState) (id : Nat) : Prop := ∃ b ∈ s.bindings, b.domain = id

/-- The memory of all granted devices is guarded. -/
def Sound (s : DeviceState) : Prop := Guarded s.Protected s.Bound (s.machine, [])

end DeviceState

theorem Guarded.weaken {P Q : Nat → Prop} {s : Machine × List Nat} {held : List Nat}
    (guarded : Guarded P bound s) (fewer : ∀ idx, Q idx → P idx) (holds : ∀ a ∈ held, a ∈ s.2) :
    Guarded Q bound (s.1, held) where
  frames := ⟨fun idx member => guarded.frames.used idx (fewer idx member),
    fun slot member live isIn => guarded.frames.uncounted slot member live (fewer _ isIn)⟩
  tables := fun a member isIn => guarded.tables a member (fewer _ isIn)
  kernel := fun _ _ _ => trivial
  pages := fun id d live a member free isIn => guarded.pages id d live a member free (fewer _ isIn)
  alive := guarded.alive
  held := fun a member isIn => guarded.held a (holds a member) (fewer _ isIn)

theorem bound_bindDevice (bindings : List DeviceBinding) (b : DeviceBinding) (id : Nat) :
    (∃ e ∈ bindDevice bindings b, e.domain = id) ↔
      (∃ e ∈ bindings, e.domain = id) ∨ id = b.domain := by
  unfold bindDevice
  split
  next i found =>
    obtain ⟨inside, same, -⟩ := List.findIdx?_eq_some_iff_getElem.mp found
    rw [decide_eq_true_eq] at same
    constructor
    · rintro ⟨e, member, rfl⟩
      rcases mem_or_eq_of_mem_set member with old | rfl
      · exact .inl ⟨e, old, rfl⟩
      · exact .inr rfl
    · rintro (⟨e, member, rfl⟩ | rfl)
      · obtain ⟨j, bound, rfl⟩ := mem_iff_getElem.mp member
        by_cases here : i = j
        · subst here
          exact ⟨b, mem_set inside b, same.symm⟩
        · refine ⟨bindings[j], mem_iff_getElem.mpr ⟨j, by simpa using bound, ?_⟩, rfl⟩
          rw [getElem_set_ne here]
      · exact ⟨b, mem_set inside b, rfl⟩
  · simp [eq_comm]

variable {bindings : List DeviceBinding}

theorem mem_bindDevice {e : DeviceBinding}
    (member : e ∈ bindDevice bindings b) : e ∈ bindings ∨ e = b := by
  unfold bindDevice at member
  split at member
  · exact mem_or_eq_of_mem_set member
  · simpa using member

/-- The table with the new binding guards no more than the old one and the new device. -/
theorem Guarded.recorded
    (guarded : Guarded (fun idx => (∃ e ∈ bindings, e.Holds idx) ∨ b.Holds idx)
      (fun id => (∃ e ∈ bindings, e.domain = id) ∨ id = b.domain) (m, [])) (multi : Bool) :
    DeviceState.Sound ⟨m, if multi then bindPush bindings b else bindDevice bindings b⟩ := by
  have bound : (fun id => (∃ e ∈ bindings, e.domain = id) ∨ id = b.domain) =
      DeviceState.Bound ⟨m, if multi then bindPush bindings b else bindDevice bindings b⟩ := by
    funext id
    cases multi with
    | false => exact propext (bound_bindDevice bindings b id).symm
    | true => simp [DeviceState.Bound, bindPush, eq_comm]
  rw [DeviceState.Sound, ← bound]
  refine guarded.weaken (fun idx => ?_) fun _ member => nomatch member
  rintro ⟨e, member, holds⟩
  have cases_ : e ∈ bindings ∨ e = b := by
    cases multi with
    | false => exact mem_bindDevice member
    | true => simpa [bindPush] using member
  rcases cases_ with old | rfl
  · exact .inl ⟨e, old, holds⟩
  · exact .inr holds

/-- The frames that a grant takes were free and are in use afterwards. -/
theorem granted_bits {f f₁ f₂ : Frames} (block : f.allocateFrames count = some (b.dmaPaddr, f₁))
    (pages : b.dmaPages = count) (page : f₁.allocateFrame = some (b.cfgPaddr, f₂)) {idx : Nat}
    (holds : b.Holds idx) : f.bitmap idx = false ∧ f₂.bitmap idx = true := by
  obtain ⟨-, -, clear, bits, -, -⟩ := allocateFrames_spec block
  obtain ⟨-, -, clear', bits', -, -⟩ := allocateFrame_spec page
  rw [bits', update_apply]
  rcases holds with rfl | ⟨lower, upper⟩
  · rw [bits, Bool.or_eq_false_iff] at clear'
    exact ⟨clear'.2, if_pos rfl⟩
  · refine ⟨?_, ?_⟩
    · have here := clear (idx - b.dmaPaddr / FRAME_SIZE) (by omega)
      rwa [Nat.add_sub_cancel' lower] at here
    · split
      · rfl
      · rw [bits, decide_eq_true ⟨lower, by omega⟩, Bool.true_or]

/-- The new block and the new description page are guarded as soon as they are
allocated. -/
theorem Guarded.allocate {P : Nat → Prop} {f₁ f₂ : Frames} (guarded : Guarded P bound (m, []))
    (fresh : Fresh (fun id => bound id ∨ id = b.domain) m)
    (block : m.frames.allocateFrames count = some (b.dmaPaddr, f₁)) (pages : b.dmaPages = count)
    (page : f₁.allocateFrame = some (b.cfgPaddr, f₂)) (live : m.domain b.domain ≠ none) :
    Guarded (fun idx => P idx ∨ b.Holds idx) (fun id => bound id ∨ id = b.domain)
      ({ m with frames := f₂ }, []) := by
  have bits : ∀ idx, b.Holds idx → m.frames.bitmap idx = false ∧ f₂.bitmap idx = true :=
    fun _ => granted_bits block pages page
  have inUse : ∀ idx, m.frames.bitmap idx = true → ¬ b.Holds idx := fun idx set holds =>
    absurd ((bits idx holds).1.symm.trans set) (by decide)
  have frames := ((guarded.frames.allocateFrames block).1.allocateFrame page).1
  have shared : f₂.shared = m.frames.shared :=
    (allocateFrame_spec page).2.2.2.2.1.trans (allocateFrames_spec block).2.2.2.2.1
  refine ⟨⟨fun idx isIn => ?_, fun slot member counted isIn => ?_⟩, fun a member isIn => ?_,
    fun _ _ _ => trivial, fun id d found a member free isIn => ?_, fun id fixed => ?_,
    fun _ member => nomatch member⟩
  · exact isIn.elim (frames.used idx) fun holds => (bits idx holds).2
  · rcases isIn with old | new
    · exact frames.uncounted slot member counted old
    · exact inUse _ (fresh.counted slot (shared ▸ member) counted) new
  · exact isIn.elim (guarded.tables a member) (inUse _ (fresh.tables a member))
  · rcases isIn with old | new
    · exact guarded.pages id d found a member (fun isBound => free (.inl isBound)) old
    · exact inUse _ (fresh.pages id d found free a member) new
  · exact (not_not.mp fixed).elim (fun old => guarded.alive id (not_not.mpr old)) fun same => same ▸ live

/-- The pages of a request that are mapped before anything is allocated are not
protected, and no free frame is in use. -/
structure DeviceState.Grantable (s : DeviceState) (req : GrantRequest) : Prop where
  fresh : Fresh (fun id => s.Bound id ∨ id = req.domain) s.machine
  msix : ∀ table pages, req.msix = some (table, pages) → ∀ i < pages,
    ¬ s.Protected ((table + i * FRAME_SIZE) / FRAME_SIZE)

/-- **A grant guards its memory.** -/
theorem DeviceState.Sound.grant {s : DeviceState} {req : GrantRequest} {multi granted : Bool}
    {bus dev func : UInt8} (sound : s.Sound) (grantable : s.Grantable req)
    (ran : grantBound mp s req multi bus dev func = some (granted, s')) : s'.Sound := by
  obtain ⟨m, table, ran⟩ := bind_eq_some_iff.mp ran
  have first : Guarded s.Protected s.Bound (m, []) ∧
      Fresh (fun id => s.Bound id ∨ id = req.domain) m := by
    unfold setupMsix at table
    split at table
    · cases table
      exact ⟨sound, grantable.fresh⟩
    next address pages asked =>
      have allowed : (guardRules s.Protected s.Bound).Devices address pages := fun i inside => by
        simpa [guardRules, frame_index] using grantable.msix address pages asked i inside
      exact ⟨(Moves.mapMmioPages allowed table []).invariant sound Custody.Holds.move,
        mapPages_keeps (fun fresh mapped => fresh.mapUserPage (mapMmio_mapped mapped) (.inr rfl))
          grantable.fresh table⟩
  obtain ⟨guarded, fresh⟩ := first
  split at ran
  · cases ran
    exact guarded
  next dma f block =>
    split at ran
    · cases ran
      exact { guarded with frames := (guarded.frames.allocateFrames block).1 }
    next cfg f' page =>
      obtain ⟨m₁, cfgMapped, ran⟩ := bind_eq_some_iff.mp ran
      obtain ⟨m₂, barMapped, ran⟩ := bind_eq_some_iff.mp ran
      obtain ⟨m₃, dmaMapped, ran⟩ := bind_eq_some_iff.mp ran
      cases ran
      obtain ⟨d, -, live, -, -⟩ := mapUserPage_domain cfgMapped
      have live : m.domain req.domain ≠ none := by
        rw [show m.domain req.domain = some d from live]
        exact some_ne_none _
      have start := guarded.allocate (b := ⟨req.domain, bus, dev, func,
        req.barPaddr / FRAME_SIZE * FRAME_SIZE, cfg, dma, max req.dmaPages 1⟩)
        fresh block rfl page live
      have described := start.mapUserPage cfgMapped (absurd (.inr rfl))
      have windowed := mapPages_keeps (I := fun m => Guarded _ _ (m, []))
        (fun guarded mapped => guarded.mapUserPage (mapMmio_mapped mapped)
          (absurd (.inr rfl))) described barMapped
      have complete := mapPages_keeps (I := fun m => Guarded _ _ (m, []))
        (fun guarded mapped => guarded.mapUserPage mapped
          (absurd (.inr rfl))) windowed dmaMapped
      exact complete.recorded multi

/-! ## Runs -/

namespace DeviceState

/-- The operations that leave the memory of granted devices alone: no domain with a
binding is reset or destroyed, and no page of a granted block is shared or mapped as
device memory. -/
def Careful (info : BootInfo) (s : DeviceState) : BoundOp → Prop
  | .grant req _ _ _ _ => s.Grantable req
  | .dev (.mem (.destroy id)) | .dev (.mem (.restartInPlace _ _ _ id)) => ¬ s.Bound id
  | .dev (.mem (.sharePage hasMapInto current vaddr _)) =>
    hasMapInto = true → isUserAddress vaddr = true → ∀ paddr,
      resolveUserPage s.machine current vaddr = some (some paddr) → ¬ s.Protected (paddr / FRAME_SIZE)
  | .dev (.mapMmio hasMmio _ paddr vaddr) => hasMmio = true → isUserAddress vaddr = true →
      ¬ s.Protected (paddr / FRAME_SIZE)
  | .dev (.fbMap hasFb _ _) => hasFb = true →
      ∀ i < (info.fbBytes + (FRAME_SIZE - 1)) / FRAME_SIZE,
        ¬ s.Protected ((info.fbAddr + i * FRAME_SIZE) / FRAME_SIZE)
  | _ => True

variable {info : BootInfo} {s : DeviceState}

theorem Careful.meets {op : DevOp} (careful : s.Careful info (.dev op))
    (sound : s.Sound) (other : ∀ req, op ≠ .grantAt req) :
    (guardRules s.Protected s.Bound).Meets info s.machine op := by
  cases op with
  | mem op =>
    cases op with
    | spawnElf segments started => exact fun id free isBound => sound.alive id (not_not.mpr isBound) free
    | _ => trivial
  | mapMmio hasMmio current paddr vaddr =>
    intro allowed user
    simpa [guardRules, frame_index] using careful allowed user
  | fbMap hasFb current vaddr =>
    intro allowed i inside
    simpa [guardRules, frame_index] using careful allowed i inside
  | grantAt req => exact absurd rfl (other req)
  | _ => trivial

/-- **One operation.** -/
theorem Sound.step {op : BoundOp} (sound : s.Sound) (careful : s.Careful info op)
    (ran : stepBound mp info s op = some s') : s'.Sound := by
  cases op with
  | grant req multi bus dev func =>
    obtain ⟨⟨granted, _⟩, call, rfl⟩ := map_eq_some_iff.mp ran
    exact sound.grant careful call
  | dev op =>
    have other : ∀ req, op ≠ .grantAt req := by
      rintro req rfl
      cases ran
    obtain ⟨m, stepped, rfl⟩ : ∃ m, stepDev mp info s.machine op = some m ∧
        { s with machine := m } = s' := by
      cases op with
      | grantAt req => cases ran
      | _ => exact map_eq_some_iff.mp ran
    obtain ⟨held, moves⟩ := stepDev_moves (careful.meets sound other) stepped []
    have guarded := moves.invariant sound Custody.Holds.move
    exact guarded.weaken (fun _ isIn => isIn) fun _ member => nomatch member

/-- A run of careful operations. -/
inductive CarefulRun (mp : Mapper) (info : BootInfo) (start : DeviceState) : DeviceState → Prop where
  | nil : CarefulRun mp info start start
  | step {s s' : DeviceState} {op : BoundOp} (before : CarefulRun mp info start s)
      (careful : s.Careful info op) (ran : stepBound mp info s op = some s') :
      CarefulRun mp info start s'

theorem CarefulRun.sound (run : CarefulRun mp info ⟨m, []⟩ s) : s.Sound := by
  induction run with
  | nil =>
    have nothing : ∀ idx, ¬ Protected ⟨m, []⟩ idx := fun idx isIn => by
      obtain ⟨b, member, -⟩ := isIn
      cases member
    refine ⟨⟨fun idx isIn => absurd isIn (nothing idx), fun _ _ _ => nothing _⟩,
      fun _ _ => nothing _, fun _ _ _ => trivial, fun _ _ _ _ _ _ => nothing _, fun id fixed => ?_,
      fun _ member => nomatch member⟩
    obtain ⟨b, member, -⟩ := not_not.mp fixed
    cases member
  | step _ careful ran sound => exact sound.step careful ran

/-- The allocator returns no frame of a granted device. -/
def Retained (s : DeviceState) : Prop :=
  ∀ b ∈ s.bindings, ∀ idx, b.Holds idx →
    (∀ a f, s.machine.frames.allocateFrame = some (a, f) → a / FRAME_SIZE ≠ idx) ∧
      ∀ count a f, s.machine.frames.allocateFrames count = some (a, f) →
        ∀ i < count, a / FRAME_SIZE + i ≠ idx

theorem Sound.retained (sound : s.Sound) : s.Retained := by
  intro b member idx holds
  have isIn : s.Protected idx := ⟨b, member, holds⟩
  refine ⟨fun a f allocated same => ?_, fun count a f allocated i inside same => ?_⟩
  · exact (sound.frames.allocateFrame allocated).2 (same ▸ isIn)
  · exact (sound.frames.allocateFrames allocated).2 i inside (same ▸ isIn)

end DeviceState

/-- **Granted memory is not recycled** along every run of careful operations from a machine
without bindings: no frame of a granted block or description page is returned by
`allocate_frame` or `allocate_frames`. -/
theorem granted_memory_is_not_recycled (mp : Mapper) (info : BootInfo) {m : Machine}
    {s : DeviceState} (run : DeviceState.CarefulRun mp info ⟨m, []⟩ s) : s.Retained :=
  run.sound.retained

/-! ## Two restarts -/

/-- Run a list of operations. -/
def runBound (mp : Mapper) (info : BootInfo) (s : DeviceState) (ops : List BoundOp) :
    Option DeviceState :=
  ops.foldlM (stepBound mp info) s

/-- Every page, table and count belongs to a frame in use. -/
def Machine.isFresh (m : Machine) : Bool :=
  (m.pages ++ m.tables).all (fun a => m.frames.bitmap (a / FRAME_SIZE)) &&
    m.frames.shared.all fun slot => slot.count == 0 || m.frames.bitmap (slot.addr / FRAME_SIZE)

theorem Machine.fresh_of_isFresh (checked : m.isFresh = true) (bound : Nat → Prop) : Fresh bound m := by
  simp only [Machine.isFresh, Bool.and_eq_true, List.all_eq_true, List.mem_append] at checked
  refine ⟨fun a member => checked.1 a (.inr member), fun slot member live => ?_,
    fun id d found _ a member => ?_⟩
  · have here := checked.2 slot member
    rw [Bool.or_eq_true, beq_iff_eq] at here
    exact here.resolve_left (Nat.ne_of_gt live)
  · obtain ⟨P, T, pages, -, -⟩ := Machine.focus found
    exact checked.1 a (.inl (pages.mem_iff.mpr (List.mem_append_left _ member)))

/-- Domain 0 gets a device with a block of this many pages. -/
def demoGrant (dmaPages : Nat) : BoundOp :=
  .grant
    { domain := 0, barPaddr := 0x800000000, barPages := 1, dmaPages
      cfgVaddr := USER_SPACE_BASE + 0x810000
      barVaddr := USER_SPACE_BASE + 0x820000
      dmaVaddr := USER_SPACE_BASE + 0x830000
      msix := none }
    false 0 3 0

/-- Domain `id` is restarted in place with a program of one page. -/
def demoRestart (id : Nat) : BoundOp := .dev (.mem (.restartInPlace [demoSegment] false true id))

def demoDomain : BoundOp := .dev (.mem .createDomain)

/-- The state after these operations on the fresh machine. -/
def demoBound (ops : List BoundOp) : Option DeviceState :=
  runBound Mapper.fourLevel demoInfo ⟨demoInit, []⟩ ops

theorem demoBound_step {ops : List BoundOp} {op : BoundOp} {s : DeviceState}
    (run : DeviceState.CarefulRun Mapper.fourLevel demoInfo ⟨demoInit, []⟩ s)
    (before : demoBound ops = some s) (careful : s.Careful demoInfo op)
    (after : demoBound (ops ++ [op]) = some s') :
    DeviceState.CarefulRun Mapper.fourLevel demoInfo ⟨demoInit, []⟩ s' := by
  refine .step run careful ?_
  rw [demoBound, runBound] at before after
  rw [foldlM_append, before] at after
  simpa using after

/-- The driver keeps its memory when another domain is restarted. -/
theorem demoRestart_retains : ∃ s,
    demoBound [demoDomain, demoDomain, demoGrant 1, demoRestart 1] = some s ∧
      s.bindings.length = 1 ∧ s.Retained := by
  obtain ⟨s₁, ran₁, -⟩ : ∃ s ∈ demoBound [demoDomain], True := by decide +kernel
  obtain ⟨s₂, ran₂, fresh⟩ : ∃ s ∈ demoBound [demoDomain, demoDomain], s.machine.isFresh = true := by
    decide +kernel
  obtain ⟨s₃, ran₃, apart⟩ : ∃ s ∈ demoBound [demoDomain, demoDomain, demoGrant 1],
      ∀ b ∈ s.bindings, b.domain = 0 := by decide +kernel
  obtain ⟨s₄, ran₄, one⟩ : ∃ s ∈ demoBound [demoDomain, demoDomain, demoGrant 1, demoRestart 1],
      s.bindings.length = 1 := by decide +kernel
  have creates : ∀ s : DeviceState, s.Careful demoInfo demoDomain := fun _ => trivial
  have run₁ := demoBound_step .nil (rfl : demoBound [] = _) (creates _) ran₁
  have run₂ := demoBound_step run₁ ran₁ (creates _) ran₂
  have grantable : s₂.Careful demoInfo (demoGrant 1) :=
    ⟨Machine.fresh_of_isFresh fresh _, fun table pages asked => nomatch asked⟩
  have run₃ := demoBound_step run₂ ran₂ grantable ran₃
  have unbound : s₃.Careful demoInfo (demoRestart 1) := by
    rintro ⟨b, member, one⟩
    cases one.symm.trans (apart b member)
  have run₄ := demoBound_step run₃ ran₃ unbound ran₄
  exact ⟨s₄, ran₄, one,
    granted_memory_is_not_recycled Mapper.fourLevel demoInfo run₄⟩

/-- The next frame that the allocator returns belongs to the block of the device. -/
def recyclesBlock (s : DeviceState) : Bool :=
  match s.bindings, s.machine.frames.allocateFrame with
  | [b], some (a, _) => decide (b.dmaPaddr / FRAME_SIZE ≤ a / FRAME_SIZE) &&
      decide (a / FRAME_SIZE < b.dmaPaddr / FRAME_SIZE + b.dmaPages)
  | _, _ => false

/-- **A driver that is restarted in place loses its memory**: its binding is there, and
the allocator hands out a frame of its block. -/
theorem restarted_driver_loses_dma : ∃ s,
    demoBound [demoDomain, demoGrant 16, demoRestart 0] = some s ∧ s.bindings.length = 1 ∧
      ¬ s.Retained := by
  obtain ⟨s, ran, recycles⟩ : ∃ s ∈ demoBound [demoDomain, demoGrant 16, demoRestart 0],
      recyclesBlock s = true := by decide +kernel
  unfold recyclesBlock at recycles
  split at recycles
  next b a f only allocated =>
    rw [Bool.and_eq_true, decide_eq_true_eq, decide_eq_true_eq] at recycles
    refine ⟨s, ran, by rw [only]; rfl, fun retained => ?_⟩
    exact (retained b (by rw [only]; exact mem_singleton_self b) _ (.inr recycles)).1 a f
      allocated rfl
  · cases recycles

end MorionOS.Kernel
