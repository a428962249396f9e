import MorionOS.Kernel.Paging

/-!
# Domains and the memory system calls

The kernel's view of memory: the frame allocator, the table of protection
domains (`domain.rs`), each with its PML4 frame and the user half of its page
table, and the 4 KiB pages of the kernel half that all domains share.

The functions follow `syscall.rs` (`SYS_ALLOC_PAGE`, `SYS_SHARE_PAGE`,
`SYS_UNMAP`, `SYS_MAP_ANON`, `restart_in_place`), `exec.rs` (`spawn_elf`,
`spawn_elf_at`, `map_image`) and `domain.rs` (`create`, `destroy`, `reset`).
A kernel panic, such as `map_user_page` on a page that is already mapped, is
the result `none`: there is no next state.

What other parts of the kernel decide is an argument of the operation: the
running domain, the answer of the capability check, whether a task could be
started and whether the target still has live tasks.  `MemOp` lists the
operations and `step` runs one of them.
-/

namespace MorionOS.Kernel

open Option

/-- `Domain`: the frame of its PML4 and the user half below it. -/
structure Domain where
  pml4 : Nat
  user : UserHalf

/-- The memory state of the kernel. -/
structure Machine where
  frames : Frames
  /-- `DOMAINS`, indexed by domain id; `none` is a slot that can be reused. -/
  domains : List (Option Domain)
  /-- 4 KiB pages of the shared kernel half (the kernel heap), by page number. -/
  kernelPages : Nat → Option Nat

/-- The live domain with this id, if there is one. -/
def Machine.domain (m : Machine) (id : Nat) : Option Domain := m.domains[id]?.join

/-- Replace a domain and the allocator state. -/
def Machine.withDomain (m : Machine) (id : Nat) (d : Domain) (f : Frames) : Machine :=
  { m with frames := f, domains := m.domains.set id (some d) }

/-! ## Paging on a domain -/

/-- `resolve_user_page`; `none` is the panic of `pml4_of` on a dead domain. -/
def resolveUserPage (m : Machine) (id vaddr : Nat) : Option (Option Nat) :=
  (m.domain id).map fun d => d.user.resolve vaddr

/-- `map_user_page`: panics on a dead domain, on an address that is not
canonical, and on every error of the mapper. -/
def mapUserPage (mp : Mapper) (m : Machine) (id vaddr paddr : Nat) (perm : UserPagePerm) :
    Option Machine := do
  let d ← m.domain id
  if isCanonical vaddr then
    let (f, t) ← mp.mapTo m.frames d.user (pageOf vaddr) (paddr / FRAME_SIZE * FRAME_SIZE) perm
    some (m.withDomain id { d with user := t } f)
  else none

/-- `unmap_user_page`; the address may also lie in the kernel half, since
`SYS_UNMAP` does not check it. -/
def unmapUserPage (mp : Mapper) (m : Machine) (id vaddr : Nat) : Option (Option Nat × Machine) := do
  let d ← m.domain id
  if isCanonical vaddr then
    if isUserAddress vaddr then
      match mp.unmap d.user (pageOf vaddr) with
      | none => some (none, m)
      | some (frame, t) => some (some frame, m.withDomain id { d with user := t } m.frames)
    else
      match m.kernelPages (vaddr / FRAME_SIZE) with
      | none => some (none, m)
      | some frame =>
        some (some frame,
          { m with kernelPages := Function.update m.kernelPages (vaddr / FRAME_SIZE) none })
  else none

/-! ## System calls -/

/-- Allocate a frame and map it read-write, then count it: the common body of
`SYS_ALLOC_PAGE` and `SYS_MAP_ANON`. -/
def mapFreshPage (mp : Mapper) (m : Machine) (id vaddr : Nat) : Option (Nat × Machine) :=
  match m.frames.allocateFrame with
  | none => some (0, m)
  | some (paddr, f) => do
      let m ← mapUserPage mp { m with frames := f } id vaddr paddr .readWrite
      some (1, { m with frames := m.frames.incRef paddr })

def sysAllocPage (mp : Mapper) (m : Machine) (current vaddr : Nat) : Option (Nat × Machine) :=
  if isUserAddress vaddr then mapFreshPage mp m current vaddr else some (0, m)

def sysMapAnon (mp : Mapper) (m : Machine) (hasMapInto : Bool) (target vaddr : Nat) :
    Option (Nat × Machine) :=
  if !hasMapInto then some (0, m)
  else if isUserAddress vaddr then mapFreshPage mp m target vaddr
  else some (0, m)

/-- Release of the frame that `unmap_user_page` returned. -/
def dropUnmapped (m : Machine) : Option Nat → Machine
  | none => m
  | some frame => { m with frames := m.frames.dropFrame frame }

/-- In `SYS_SHARE_PAGE`: a different page that the target has at the address is
unmapped first. -/
def clearTarget (mp : Mapper) (m : Machine) (target vaddr : Nat) : Option Nat → Option Machine
  | none => some m
  | some _ => do
      let (frame, m) ← unmapUserPage mp m target vaddr
      some (dropUnmapped m frame)

def sysSharePage (mp : Mapper) (m : Machine) (hasMapInto : Bool) (current vaddr target : Nat) :
    Option (Nat × Machine) :=
  if !hasMapInto then some (0, m)
  else if !isUserAddress vaddr then some (0, m)
  else do
    match ← resolveUserPage m current vaddr with
    | none => some (0, m)
    | some paddr =>
      let old ← resolveUserPage m target vaddr
      if old = some paddr then some (1, m)
      else
        let m ← clearTarget mp m target vaddr old
        let m ← mapUserPage mp m target vaddr paddr .readWrite
        some (1, { m with frames := m.frames.incRef paddr })

def sysUnmap (mp : Mapper) (m : Machine) (current vaddr : Nat) : Option (Nat × Machine) := do
  let (frame, m) ← unmapUserPage mp m current vaddr
  some (if frame.isSome then 1 else 0, dropUnmapped m frame)

/-! ## Creating, destroying and resetting domains -/

/-- `slot_for`: the first empty slot, or the end of the table. -/
def slotFor (domains : List (Option Domain)) : Nat := domains.findIdx Option.isNone

/-- `create`; panics when no frame is left for the PML4. -/
def createDomain (m : Machine) : Option (Nat × Machine) :=
  match m.frames.allocateFrame with
  | none => none
  | some (pml4, f) =>
    let id := slotFor m.domains
    some (id, { m with
      frames := f
      domains := if id < m.domains.length then m.domains.set id (some ⟨pml4, none⟩)
        else m.domains ++ [some ⟨pml4, none⟩] })

/-- `destroy`: the slot is emptied, the user half and the PML4 frame are released. -/
def destroyDomain (m : Machine) (id : Nat) : Bool × Machine :=
  match m.domain id with
  | none => (false, m)
  | some d =>
    (true, { m with
      frames := (freeUserSpace m.frames d.user).freeFrame d.pml4
      domains := m.domains.set id none })

/-- `reset`: the user half is released, the domain stays. -/
def resetDomain (m : Machine) (id : Nat) : Bool × Machine :=
  match m.domain id with
  | none => (false, m)
  | some d => (true, m.withDomain id { d with user := none } (freeUserSpace m.frames d.user))

/-! ## Loading a program -/

def PF_X : Nat := 1
def PF_W : Nat := 2
def MAX_IMAGE_PAGES : Nat := 4096

/-- A loadable segment as `elf::parse` accepts it: inside the user space. -/
structure Segment where
  vaddr : Nat
  memsz : Nat
  flags : Nat
  base_le : USER_SPACE_BASE ≤ vaddr
  end_le : vaddr + memsz ≤ USER_SPACE_END

/-- The page addresses that a segment touches, in the order of the loader's loop. -/
def Segment.pages (seg : Segment) : List Nat :=
  let first := seg.vaddr / FRAME_SIZE * FRAME_SIZE
  (List.range ((seg.vaddr + seg.memsz - first + (FRAME_SIZE - 1)) / FRAME_SIZE)).map
    fun i => first + i * FRAME_SIZE

/-- Does the segment cover the page? -/
def Segment.covers (seg : Segment) (page : Nat) : Bool :=
  decide (seg.vaddr / FRAME_SIZE * FRAME_SIZE ≤ page) && decide (page < seg.vaddr + seg.memsz)

/-- `page_perm`: the union over the covering segments; `none` when it is both
writable and executable. -/
def pagePerm (segments : List Segment) (page : Nat) : Option UserPagePerm :=
  let covering := segments.filter (·.covers page)
  let writable := covering.any fun seg => seg.flags &&& PF_W != 0
  let executable := covering.any fun seg => seg.flags &&& PF_X != 0
  match writable, executable with
  | true, true => none
  | _, true => some .readExecute
  | true, false => some .readWrite
  | false, false => some .readOnly

/-- First pass of `map_image`: a zeroed frame for every page not yet mapped.
The flag is `false` when the loader gives up. -/
def mapSegmentPages (mp : Mapper) (segments : List Segment) (id : Nat) :
    List Nat → Machine → Option (Bool × Machine)
  | [], m => some (true, m)
  | page :: pages, m => do
      match ← resolveUserPage m id page with
      | some _ => mapSegmentPages mp segments id pages m
      | none =>
        match pagePerm segments page, m.frames.allocateFrame with
        | some perm, some (paddr, f) =>
          let m ← mapUserPage mp { m with frames := f } id page paddr perm
          mapSegmentPages mp segments id pages m
        | _, _ => some (false, m)

/-- Third pass of `map_image`: the stack pages. -/
def mapStackPages (mp : Mapper) (id : Nat) : List Nat → Machine → Option (Bool × Machine)
  | [], m => some (true, m)
  | page :: pages, m =>
    match m.frames.allocateFrame with
    | none => some (false, m)
    | some (paddr, f) => do
        let m ← mapUserPage mp { m with frames := f } id page paddr .readWrite
        mapStackPages mp id pages m

/-- The addresses of the stack pages. -/
def stackPages : List Nat :=
  (List.range USER_STACK_PAGES).map fun i =>
    USER_STACK_TOP - USER_STACK_PAGES * FRAME_SIZE + i * FRAME_SIZE

/-- `map_image`.  The second pass copies the file contents into frames the first
pass has mapped; it looks every page up again and changes no mapping. -/
def mapImage (mp : Mapper) (segments : List Segment) (id : Nat) (m : Machine) :
    Option (Bool × Machine) := do
  let (mapped, m) ← mapSegmentPages mp segments id (segments.flatMap Segment.pages) m
  if mapped then
    match m.domain id with
    | none => none
    | some d =>
      if (segments.flatMap Segment.pages).all fun page => (d.user.resolve page).isSome then
        mapStackPages mp id stackPages m
      else some (false, m)
  else some (false, m)

/-- The page budget of an image: its segments and the stack. -/
def imagePages (segments : List Segment) : Nat :=
  (segments.map fun seg => seg.memsz / FRAME_SIZE + 1).sum + USER_STACK_PAGES

/-- `spawn_elf` for a parsed image; `started` is the answer of `try_spawn_user`.
A domain that could not be completed is destroyed again. -/
def spawnElf (mp : Mapper) (segments : List Segment) (started : Bool) (m : Machine) :
    Option (Option Nat × Machine) :=
  if imagePages segments > MAX_IMAGE_PAGES then some (none, m)
  else do
    let (id, m) ← createDomain m
    let (mapped, m) ← mapImage mp segments id m
    if mapped && started then some (some id, m)
    else some (none, (destroyDomain m id).2)

/-- `spawn_elf_at` for a parsed image: a failure leaves what was mapped so far. -/
def spawnElfAt (mp : Mapper) (segments : List Segment) (started : Bool) (id : Nat) (m : Machine) :
    Option (Bool × Machine) :=
  if imagePages segments > MAX_IMAGE_PAGES then some (false, m)
  else do
    let (mapped, m) ← mapImage mp segments id m
    some (mapped && started, m)

/-- `restart_in_place` for a parsed image. -/
def restartInPlace (mp : Mapper) (segments : List Segment) (liveTasks started : Bool) (id : Nat)
    (m : Machine) : Option (Bool × Machine) :=
  if (m.domain id).isNone || liveTasks then some (false, m)
  else spawnElfAt mp segments started id (resetDomain m id).2

/-! ## The machine -/

/-- The operations on memory, with the answers of the rest of the kernel. -/
inductive MemOp where
  | allocPage (current vaddr : Nat)
  | mapAnon (hasMapInto : Bool) (target vaddr : Nat)
  | sharePage (hasMapInto : Bool) (current vaddr target : Nat)
  | unmap (current vaddr : Nat)
  | createDomain
  | spawnElf (segments : List Segment) (started : Bool)
  | spawnElfAt (segments : List Segment) (started : Bool) (id : Nat)
  | restartInPlace (segments : List Segment) (liveTasks started : Bool) (id : Nat)
  | destroy (id : Nat)

/-- The state after one operation; `none` when the kernel panics. -/
def step (mp : Mapper) (m : Machine) : MemOp → Option Machine
  | .allocPage current vaddr => (sysAllocPage mp m current vaddr).map (·.2)
  | .mapAnon hasMapInto target vaddr => (sysMapAnon mp m hasMapInto target vaddr).map (·.2)
  | .sharePage hasMapInto current vaddr target =>
    (sysSharePage mp m hasMapInto current vaddr target).map (·.2)
  | .unmap current vaddr => (sysUnmap mp m current vaddr).map (·.2)
  | .createDomain => (createDomain m).map (·.2)
  | .spawnElf segments started => (spawnElf mp segments started m).map (·.2)
  | .spawnElfAt segments started id => (spawnElfAt mp segments started id m).map (·.2)
  | .restartInPlace segments liveTasks started id =>
    (restartInPlace mp segments liveTasks started id m).map (·.2)
  | .destroy id => some (destroyDomain m id).2

/-! ## The domains after a change -/

variable {mp : Mapper} {m m' : Machine} {id vaddr : Nat}

theorem mapUserPage_cases {paddr : Nat} {perm : UserPagePerm}
    (mapped : mapUserPage mp m id vaddr paddr perm = some m') : ∃ d f t, m.domain id = some d ∧
      mp.mapTo m.frames d.user (pageOf vaddr) (paddr / FRAME_SIZE * FRAME_SIZE) perm = some (f, t) ∧
      m' = m.withDomain id { d with user := t } f := by
  obtain ⟨d, live, mapped⟩ := bind_eq_some_iff.mp mapped
  split at mapped
  · obtain ⟨⟨f, t⟩, mapTo, result⟩ := bind_eq_some_iff.mp mapped
    cases result
    exact ⟨d, f, t, live, mapTo, rfl⟩
  · cases mapped

/-- Nothing is unmapped, a page of the domain, or a page of the kernel half. -/
theorem unmapUserPage_cases {result : Option Nat}
    (unmapped : unmapUserPage mp m id vaddr = some (result, m')) : ∃ d, m.domain id = some d ∧
      (result = none ∧ m' = m ∨
        (∃ frame t, mp.unmap d.user (pageOf vaddr) = some (frame, t) ∧ result = some frame ∧
          m' = m.withDomain id { d with user := t } m.frames) ∨
        ∃ frame, isUserAddress vaddr = false ∧ m.kernelPages (vaddr / FRAME_SIZE) = some frame ∧
          result = some frame ∧ m' = { m with
            kernelPages := Function.update m.kernelPages (vaddr / FRAME_SIZE) none }) := by
  obtain ⟨d, live, unmapped⟩ := bind_eq_some_iff.mp unmapped
  refine ⟨d, live, ?_⟩
  split at unmapped
  · split at unmapped
    · split at unmapped
      · cases unmapped
        exact .inl ⟨rfl, rfl⟩
      next frame t unmap =>
        cases unmapped
        exact .inr (.inl ⟨frame, t, unmap, rfl, rfl⟩)
    next notUser =>
      split at unmapped
      · cases unmapped
        exact .inl ⟨rfl, rfl⟩
      next frame atPage =>
        cases unmapped
        exact .inr (.inr ⟨frame, by simpa using notUser, atPage, rfl, rfl⟩)
  · cases unmapped

/-- A relation between the machines before and after that every page of a program keeps: a
frame is taken and mapped. -/
structure LoadRule (mp : Mapper) (id : Nat) (R : Machine → Machine → Prop) : Prop where
  refl : ∀ m, R m m
  trans : ∀ {m₁ m₂ m₃}, R m₁ m₂ → R m₂ m₃ → R m₁ m₃
  fresh : ∀ {m m' vaddr paddr f perm}, m.frames.allocateFrame = some (paddr, f) →
    mapUserPage mp { m with frames := f } id vaddr paddr perm = some m' → R m m'

namespace LoadRule

variable {R : Machine → Machine → Prop} {segments : List Segment} {mapped : Bool}

theorem mapSegmentPages (rule : LoadRule mp id R) {pages : List Nat}
    (ran : Kernel.mapSegmentPages mp segments id pages m = some (mapped, m')) : R m m' := by
  induction pages generalizing m with
  | nil =>
    cases ran
    exact rule.refl _
  | cons page pages ih =>
    obtain ⟨found, -, ran⟩ := bind_eq_some_iff.mp ran
    cases found with
    | some _ => exact ih ran
    | none =>
      simp only at ran
      split at ran
      · next perm paddr f _ allocated =>
          obtain ⟨m₁, mappedPage, ran⟩ := bind_eq_some_iff.mp ran
          exact rule.trans (rule.fresh allocated mappedPage) (ih ran)
      · cases ran
        exact rule.refl _

theorem mapStackPages (rule : LoadRule mp id R) {pages : List Nat}
    (ran : Kernel.mapStackPages mp id pages m = some (mapped, m')) : R m m' := by
  induction pages generalizing m with
  | nil =>
    cases ran
    exact rule.refl _
  | cons page pages ih =>
    unfold Kernel.mapStackPages at ran
    split at ran
    · cases ran
      exact rule.refl _
    · next paddr f allocated =>
        obtain ⟨m₁, mappedPage, ran⟩ := bind_eq_some_iff.mp ran
        exact rule.trans (rule.fresh allocated mappedPage) (ih ran)

theorem mapImage (rule : LoadRule mp id R)
    (ran : Kernel.mapImage mp segments id m = some (mapped, m')) : R m m' := by
  obtain ⟨⟨done, m₁⟩, first, ran⟩ := bind_eq_some_iff.mp ran
  have pages := rule.mapSegmentPages first
  simp only at ran
  split at ran
  · split at ran
    · cases ran
    · split at ran
      · exact rule.trans pages (rule.mapStackPages ran)
      · cases ran
        exact pages
  · cases ran
    exact pages

end LoadRule

theorem domain_set {d : Domain} (live : m.domain id = some d)
    (slot : Option Domain) (f : Frames) (kernelPages : Nat → Option Nat) (other : Nat) :
    Machine.domain ⟨f, m.domains.set id slot, kernelPages⟩ other =
      if other = id then slot else m.domain other := by
  have inside : id < m.domains.length := (List.getElem?_eq_some_iff.mp (join_eq_some_iff.mp live)).1
  unfold Machine.domain
  by_cases here : other = id
  · simp [here, inside]
  · simp [here, Ne.symm here]

theorem slotFor_empty {domains : List (Option Domain)} (inside : slotFor domains < domains.length) :
    domains[slotFor domains]? = some none := by
  have isNone : (domains[slotFor domains]).isNone = true := List.findIdx_getElem
  rw [List.getElem?_eq_getElem inside, isNone_iff_eq_none.mp isNone]

theorem createDomain_domain (created : createDomain m = some (id, m')) :
    m.domain id = none ∧ ∃ pml4, ∀ other, m'.domain other =
      if other = id then some ⟨pml4, none⟩ else m.domain other := by
  unfold createDomain at created
  split at created
  · cases created
  next pml4 f allocated =>
    obtain ⟨rfl, rfl⟩ := created
    rcases Nat.lt_or_ge (slotFor m.domains) m.domains.length with inside | beyond
    · refine ⟨by rw [Machine.domain, slotFor_empty inside, join_some], pml4, fun other => ?_⟩
      simp only [inside, Machine.domain]
      by_cases here : other = slotFor m.domains
      · simp [here, inside]
      · simp [here, Ne.symm here]
    · have atEnd : slotFor m.domains = m.domains.length :=
        Nat.le_antisymm List.findIdx_le_length beyond
      refine ⟨by simp [Machine.domain, atEnd], pml4, fun other => ?_⟩
      simp only [atEnd, Nat.lt_irrefl, if_false, Machine.domain]
      rcases Nat.lt_trichotomy other m.domains.length with before | rfl | after
      · rw [List.getElem?_append_left before, if_neg (by omega)]
      · simp
      · rw [List.getElem?_eq_none (by simp; omega), List.getElem?_eq_none (by omega),
          if_neg (by omega)]

end MorionOS.Kernel
