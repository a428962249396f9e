import MorionOS.Kernel.AddressSpace

/-!
# Who owns a physical frame

Frames are owned in three ways: by the mappings of user pages, by the tables of
a domain (PML4 and the levels below it), and by the kernel half.  `Owned` states
the bookkeeping that makes releasing safe: every owned frame is marked used, a
counted frame has at most as many mappings as its count, a frame without a
count has at most one mapping, and table frames and kernel frames are apart
from all mapped frames.

This is a statement about each frame by itself (`owned_iff`), and each primitive of
the allocator moves one frame between the three roles (`Owned.alloc`, `Owned.map`,
`Owned.release`, ...).  The last part says what the operations on the machine do to
the mapped frames and the tables.
-/

namespace MorionOS.Kernel

open Function List Option Frames

/-- The bookkeeping of frames: `pages` lists the frame of every user mapping,
`tables` the frames of all page tables, `kernel` the frames of the kernel half. -/
structure Owned (kernel : Nat → Prop) (f : Frames) (pages tables : List Nat) : Prop where
  unique : SlotsUnique f.shared
  page_used : ∀ a ∈ pages, a % FRAME_SIZE = 0 ∧ f.bitmap (a / FRAME_SIZE) = true
  table_used : ∀ a ∈ tables, a % FRAME_SIZE = 0 ∧ f.bitmap (a / FRAME_SIZE) = true
  counted_used : ∀ a, 0 < f.refCount a → a % FRAME_SIZE = 0 ∧ f.bitmap (a / FRAME_SIZE) = true
  kernel_used : ∀ a, kernel a → a % FRAME_SIZE = 0 ∧ f.bitmap (a / FRAME_SIZE) = true
  /-- Mappings never outnumber the count; an uncounted frame has one mapping. -/
  mappings_le : ∀ a, pages.count a ≤ max 1 (f.refCount a)
  tables_nodup : tables.Nodup
  table_private : ∀ a ∈ tables, f.refCount a = 0 ∧ a ∉ pages
  kernel_private : ∀ a, kernel a → f.refCount a = 0 ∧ a ∉ pages ∧ a ∉ tables

/-- The bookkeeping at one frame: whether it is the kernel's and whether it is marked used,
its count, and how often it is mapped and is a table. -/
structure Role (isKernel used : Prop) (count pages tables : Nat) : Prop where
  used : isKernel ∨ 0 < count ∨ 0 < pages ∨ 0 < tables → used
  mappings : pages ≤ max 1 count
  table : 0 < tables → tables = 1 ∧ count = 0 ∧ pages = 0
  kernel : isKernel → count = 0 ∧ pages = 0 ∧ tables = 0

/-- The frame at the address is aligned and marked used. -/
abbrev Frames.Used (f : Frames) (a : Nat) : Prop :=
  a % FRAME_SIZE = 0 ∧ f.bitmap (a / FRAME_SIZE) = true

/-- The bookkeeping is a statement about each frame by itself. -/
theorem owned_iff {kernel : Nat → Prop} {f : Frames} {pages tables : List Nat} :
    Owned kernel f pages tables ↔ SlotsUnique f.shared ∧
      ∀ a, Role (kernel a) (f.Used a) (f.refCount a) (pages.count a) (tables.count a) := by
  constructor
  · intro owned
    refine ⟨owned.unique, fun a => ⟨?_, owned.mappings_le a, fun table => ?_, fun isKernel => ?_⟩⟩
    · rintro (isKernel | counted | page | table)
      · exact owned.kernel_used a isKernel
      · exact owned.counted_used a counted
      · exact owned.page_used a (count_pos_iff.mp page)
      · exact owned.table_used a (count_pos_iff.mp table)
    · have ⟨uncounted, apart⟩ := owned.table_private a (count_pos_iff.mp table)
      have single := nodup_iff_count_le_one.mp owned.tables_nodup a
      exact ⟨by omega, uncounted, count_eq_zero.mpr apart⟩
    · have ⟨uncounted, notPage, notTable⟩ := owned.kernel_private a isKernel
      exact ⟨uncounted, count_eq_zero.mpr notPage, count_eq_zero.mpr notTable⟩
  · rintro ⟨unique, roles⟩
    constructor
    case unique => exact unique
    case page_used => exact fun a page => (roles a).used (by simp [page])
    case table_used => exact fun a table => (roles a).used (by simp [table])
    case counted_used => exact fun a counted => (roles a).used (by simp [counted])
    case kernel_used => exact fun a isKernel => (roles a).used (.inl isKernel)
    case mappings_le => exact fun a => (roles a).mappings
    case tables_nodup =>
      refine nodup_iff_count_le_one.mpr fun a => ?_
      have := (roles a).table
      omega
    case table_private =>
      intro a table
      have ⟨_, uncounted, apart⟩ := (roles a).table (count_pos_iff.mpr table)
      exact ⟨uncounted, count_eq_zero.mp apart⟩
    case kernel_private =>
      intro a isKernel
      have ⟨uncounted, notPage, notTable⟩ := (roles a).kernel isKernel
      exact ⟨uncounted, count_eq_zero.mp notPage, count_eq_zero.mp notTable⟩

namespace Owned

variable {kernel kernel' : Nat → Prop} {f f' : Frames} {pages pages' tables tables' : List Nat}
  {a : Nat}

section

variable (owned : Owned kernel f pages tables)
include owned

/-- What holds at every frame after a change of the bookkeeping. -/
theorem change (unique : SlotsUnique f'.shared)
    (roles : ∀ b, Role (kernel b) (f.Used b) (f.refCount b) (pages.count b) (tables.count b) →
      Role (kernel' b) (f'.Used b) (f'.refCount b) (pages'.count b) (tables'.count b)) :
    Owned kernel' f' pages' tables' :=
  owned_iff.mpr ⟨unique, fun b => roles b ((owned_iff.mp owned).2 b)⟩

/-- A change that concerns the frame `a` only. -/
theorem changeAt (unique : SlotsUnique f'.shared)
    (others : ∀ b, b ≠ a → (kernel' b ↔ kernel b) ∧ (f.Used b → f'.Used b) ∧
      f'.refCount b = f.refCount b ∧ pages'.count b = pages.count b ∧
        tables'.count b = tables.count b)
    (here : Role (kernel a) (f.Used a) (f.refCount a) (pages.count a) (tables.count a) →
      Role (kernel' a) (f'.Used a) (f'.refCount a) (pages'.count a) (tables'.count a)) :
    Owned kernel' f' pages' tables' := by
  refine owned.change unique fun b role => ?_
  by_cases same : b = a
  · exact same ▸ here (same ▸ role)
  · obtain ⟨isKernel, used, counts, inPages, inTables⟩ := others b same
    rw [isKernel, counts, inPages, inTables]
    exact ⟨fun owner => used (role.used owner), role.mappings, role.table, role.kernel⟩

theorem perm (samePages : pages'.Perm pages)
    (sameTables : tables'.Perm tables) : Owned kernel f pages' tables' :=
  owned.change owned.unique fun b role => by
    rwa [samePages.count_eq, sameTables.count_eq]

end

theorem used_freeFrame {b : Nat} (aligned : a % FRAME_SIZE = 0) (differs : b ≠ a)
    (used : f.Used b) : (f.freeFrame a).Used b := by
  refine ⟨used.1, (f.freeFrame_bitmap_of_ne ?_).trans used.2⟩
  have := used.1
  unfold FRAME_SIZE at *
  omega

theorem free_unowned (owned : Owned kernel f pages tables) (aligned : a % FRAME_SIZE = 0)
    (uncounted : f.refCount a = 0) (notPage : a ∉ pages) (notTable : a ∉ tables)
    (notKernel : ¬ kernel a) : Owned kernel (f.freeFrame a) pages tables := by
  refine owned.changeAt (a := a) (by simpa using owned.unique) (fun b differs =>
    ⟨.rfl, used_freeFrame aligned differs, refCount_freeFrame f a b, rfl, rfl⟩) fun role => ?_
  rw [refCount_freeFrame]
  refine ⟨?_, role.mappings, role.table, role.kernel⟩
  simp [uncounted, notKernel, count_eq_zero.mpr notPage, count_eq_zero.mpr notTable]

section

variable (owned : Owned kernel f (a :: pages) tables)
include owned

theorem forget : Owned kernel f pages tables :=
  owned.change owned.unique fun b role => by
    grind [Role]

/-- The mapping of one frame goes, and its count with it if it has one. -/
theorem decRef : Owned kernel (f.decRef a).2 pages tables := by
  have count := refCount_decRef owned.unique a
  refine owned.changeAt (a := a) (dropSlot_unique a owned.unique) (fun b differs => ⟨.rfl, id,
    (count b).trans (if_neg differs), (count_cons_of_ne (Ne.symm differs)).symm, rfl⟩) fun role => ?_
  rw [count, if_pos rfl, Frames.Used, decRef_bitmap]
  grind [Role]

/-- The last mapping of a frame is gone: no one else owns the frame. -/
theorem unowned (last : f.refCount a ≤ 1) :
    a % FRAME_SIZE = 0 ∧ a ∉ pages ∧ a ∉ tables ∧ ¬ kernel a := by
  have single := owned.mappings_le a
  rw [count_cons_self] at single
  exact ⟨(owned.page_used a mem_cons_self).1, count_eq_zero.mp (by omega),
    fun inTables => (owned.table_private a inTables).2 mem_cons_self,
    fun isKernel => (owned.kernel_private a isKernel).2.1 mem_cons_self⟩

/-- `if dec_ref(p) { free_frame(p) }` after the mapping of `p` is gone. -/
theorem drop : Owned kernel (f.dropFrame a) pages tables := by
  unfold dropFrame
  split
  · next last =>
      have one : f.refCount a = 1 := (decRef_fst_iff owned.unique a).mp last
      obtain ⟨aligned, notPage, notTable, notKernel⟩ := owned.unowned one.le
      refine owned.decRef.free_unowned aligned ?_ notPage notTable notKernel
      rw [refCount_decRef owned.unique, if_pos rfl, one]
  · exact owned.decRef

/-- `release_user_frame` on a mapped frame. -/
theorem release : Owned kernel (f.releaseUserFrame a) pages tables := by
  unfold releaseUserFrame
  split
  · exact owned.drop
  · next untracked =>
      have uncounted : f.refCount a = 0 := by
        have := mt (f.isTracked_iff a).mpr untracked
        omega
      obtain ⟨aligned, notPage, notTable, notKernel⟩ := owned.unowned (by omega)
      exact owned.forget.free_unowned aligned uncounted notPage notTable notKernel

end

/-- `if dec_ref(p) { free_frame(p) }` on a frame without a count does nothing. -/
theorem drop_uncounted (owned : Owned kernel f pages tables) (uncounted : f.refCount a = 0) :
    Owned kernel (f.dropFrame a) pages tables := by
  have flag : ¬ (f.decRef a).1 = true := by
    rw [decRef_fst_iff owned.unique]
    omega
  rw [dropFrame, if_neg flag]
  refine owned.change (dropSlot_unique a owned.unique) fun b role => ?_
  rw [refCount_decRef owned.unique]
  split
  · next same =>
      rw [same, uncounted] at role
      rwa [same, uncounted]
  · exact role

/-- `free_frame` on a table that is no longer in use. -/
theorem freeTable (owned : Owned kernel f pages (a :: tables)) :
    Owned kernel (f.freeFrame a) pages tables := by
  have aligned := (owned.table_used a mem_cons_self).1
  refine owned.changeAt (a := a) (by simpa using owned.unique) (fun b differs =>
    ⟨.rfl, used_freeFrame aligned differs, refCount_freeFrame f a b, rfl,
      (count_cons_of_ne (Ne.symm differs)).symm⟩) fun role => ?_
  rw [refCount_freeFrame]
  grind [Role]

/-- Frames whose bits were clear become private table frames when their bits are
set. -/
theorem take {new : List Nat} (owned : Owned kernel f pages tables) (nodup : new.Nodup)
    (clear : ∀ a ∈ new, a % FRAME_SIZE = 0 ∧ f.bitmap (a / FRAME_SIZE) = false)
    (set : ∀ a ∈ new, f'.bitmap (a / FRAME_SIZE) = true)
    (mono : ∀ idx, f.bitmap idx = true → f'.bitmap idx = true) (shared : f'.shared = f.shared) :
    Owned kernel f' pages (new ++ tables) := by
  refine owned.change (shared ▸ owned.unique) fun b role => ?_
  have count : f'.refCount b = f.refCount b := by simp [refCount, shared]
  by_cases fresh : b ∈ new
  · -- the bit was clear, so nobody owned the frame
    have unused : ¬ f.Used b := fun used => absurd ((clear b fresh).2.symm.trans used.2) (by simp)
    have used : f'.Used b := ⟨(clear b fresh).1, set b fresh⟩
    grind [Role]
  · have kept : f.Used b → f'.Used b := fun used => ⟨used.1, mono _ used.2⟩
    grind [Role]

theorem alloc (owned : Owned kernel f pages tables) (allocated : f.allocateFrame = some (a, f')) :
    Owned kernel f' pages (a :: tables) := by
  obtain ⟨aligned, -, clear, bits, shared, -⟩ := allocateFrame_spec allocated
  refine owned.take (nodup_singleton a) ?_ ?_ ?_ shared
  · intro b member
    exact mem_singleton.mp member ▸ ⟨aligned, clear⟩
  · intro b member
    rw [mem_singleton.mp member, bits, update_self]
  · intro idx used
    rw [bits]
    by_cases same : idx = a / FRAME_SIZE
    · rw [same, update_self]
    · rw [update_of_ne same, used]

theorem map (owned : Owned kernel f pages (a :: tables)) : Owned kernel f (a :: pages) tables := by
  refine owned.changeAt (a := a) owned.unique (fun b differs => ⟨.rfl, id, rfl,
    count_cons_of_ne (Ne.symm differs), (count_cons_of_ne (Ne.symm differs)).symm⟩) fun role => ?_
  grind [Role]

/-- A private frame goes to the kernel half. -/
theorem toKernel (owned : Owned kernel f pages (a :: tables)) :
    Owned (fun b => kernel b ∨ b = a) f pages tables := by
  refine owned.changeAt (a := a) owned.unique (fun b differs => ⟨or_iff_left differs, id, rfl, rfl,
    (count_cons_of_ne (Ne.symm differs)).symm⟩) fun role => ?_
  grind [Role]

theorem used_incRef {b : Nat} : (f.incRef a).Used b ↔ f.Used b := by
  rw [Frames.Used, incRef_bitmap]

/-- Counting a frame that has just got its only mapping. -/
theorem incRef_fresh (owned : Owned kernel f (a :: pages) tables) (uncounted : f.refCount a = 0) :
    Owned kernel (f.incRef a) (a :: pages) tables := by
  obtain ⟨own, others⟩ := refCount_incRef_of_zero uncounted
  refine owned.changeAt (a := a) (incRef_unique a owned.unique) (fun b differs => ⟨.rfl,
    used_incRef.mpr, others b differs, rfl, rfl⟩) fun role => ?_
  rw [used_incRef]
  grind [Role]

/-- One more mapping of a counted frame, together with one more count. -/
theorem share (owned : Owned kernel f pages tables) (counted : 0 < f.refCount a)
    (small : f.refCount a < 255) : Owned kernel (f.incRef a) (a :: pages) tables := by
  have count := refCount_incRef_of_pos counted small
  refine owned.changeAt (a := a) (incRef_unique a owned.unique) (fun b differs => ⟨.rfl,
    used_incRef.mpr, (count b).trans (if_neg differs), count_cons_of_ne (Ne.symm differs), rfl⟩) fun role => ?_
  rw [used_incRef, count, if_pos rfl, count_cons_self]
  grind [Role]

end Owned

/-! ## The machine -/

/-- The frames of all user mappings of the live domains. -/
def Machine.pages (m : Machine) : List Nat :=
  m.domains.flatMap fun slot => slot.elim [] fun d => d.user.frames

/-- The frames of all page tables of the live domains. -/
def Machine.tables (m : Machine) : List Nat :=
  m.domains.flatMap fun slot => slot.elim [] fun d => d.user.tables ++ [d.pml4]

/-- What an entry of a list contributes to a gathered list, and what remains. -/
theorem flatMap_set_perm {α γ : Type} (gather : α → List γ) {l : List α} {i : Nat} {x : α}
    (atI : l[i]? = some x) :
    ∃ rest, (l.flatMap gather).Perm (gather x ++ rest) ∧
      ∀ y, ((l.set i y).flatMap gather).Perm (gather y ++ rest) := by
  induction l generalizing i with
  | nil => simp at atI
  | cons head tail ih =>
    cases i with
    | zero =>
      simp only [List.getElem?_cons_zero, some.injEq] at atI
      subst atI
      exact ⟨tail.flatMap gather, by simp, fun y => by simp⟩
    | succ i =>
      obtain ⟨rest, now, later⟩ := ih (by simpa using atI)
      have move : ∀ middle : List γ,
          (gather head ++ (middle ++ rest)).Perm (middle ++ (gather head ++ rest)) := by
        intro middle
        rw [← append_assoc, ← append_assoc]
        exact List.Perm.append_right _ perm_append_comm
      refine ⟨gather head ++ rest, ?_, fun y => ?_⟩
      · rw [flatMap_cons]
        exact (List.Perm.append_left _ now).trans (move _)
      · rw [set_cons_succ, flatMap_cons]
        exact (List.Perm.append_left _ (later y)).trans (move _)

variable {m m' : Machine} {id vaddr : Nat} {mp : Mapper}

/-- A live domain's share of the bookkeeping, for the machine as it is and for
the machine with that slot replaced. -/
theorem Machine.focus {d : Domain} (live : m.domain id = some d) :
    ∃ P T, m.pages.Perm (d.user.frames ++ P) ∧ m.tables.Perm (d.user.tables ++ d.pml4 :: T) ∧
      ∀ slot f kernelPages,
        (Machine.pages ⟨f, m.domains.set id slot, kernelPages⟩).Perm
          ((slot.elim [] fun d' => d'.user.frames) ++ P) ∧
        (Machine.tables ⟨f, m.domains.set id slot, kernelPages⟩).Perm
          ((slot.elim [] fun d' => d'.user.tables ++ [d'.pml4]) ++ T) := by
  have atId : m.domains[id]? = some (some d) := join_eq_some_iff.mp live
  obtain ⟨P, pagesNow, pagesThen⟩ :=
    flatMap_set_perm (fun slot => slot.elim [] fun d => d.user.frames) atId
  obtain ⟨T, tablesNow, tablesThen⟩ :=
    flatMap_set_perm (fun slot => slot.elim [] fun d => d.user.tables ++ [d.pml4]) atId
  refine ⟨P, T, pagesNow, ?_, fun slot f kernelPages => ⟨pagesThen slot, tablesThen slot⟩⟩
  simpa [Machine.tables] using tablesNow

/-- `map_user_page` adds one mapping and the tables it had to allocate. -/
theorem mapUserPage_spec {paddr : Nat}
    {perm : UserPagePerm} (mapped : mapUserPage mp m id vaddr paddr perm = some m') :
    m'.kernelPages = m.kernelPages ∧
      m'.pages.Perm (paddr / FRAME_SIZE * FRAME_SIZE :: m.pages) ∧
      ∃ taken, AllocChain m.frames taken m'.frames ∧ m'.tables.Perm (taken ++ m.tables) := by
  obtain ⟨d, f, t, live, mapTo, rfl⟩ := mapUserPage_cases mapped
  obtain ⟨P, T, pages, tables, focused⟩ := Machine.focus live
  obtain ⟨bound3, bound2, bound1⟩ := pageOf_lt vaddr
  obtain ⟨gain, taken, chain, newTables⟩ := mp.mapTo_spec bound3 bound2 bound1 mapTo
  obtain ⟨pages', tables'⟩ := focused (some { d with user := t }) f m.kernelPages
  refine ⟨rfl, ?_, taken, chain, ?_⟩
  · exact pages'.trans ((gain.append_right P).trans (pages.symm.cons _))
  · refine tables'.trans ?_
    simp only [elim_some, append_assoc]
    refine (newTables.append_right _).trans ?_
    rw [append_assoc]
    exact tables.symm.append_left taken

/-- `unmap_user_page` touches no frame; what it returns was the frame of the
removed mapping, or of a kernel page. -/
theorem unmapUserPage_spec {result : Option Nat} (unmapped : unmapUserPage mp m id vaddr = some (result, m')) :
    m'.frames = m.frames ∧ m'.tables.Perm m.tables ∧
      (∀ page frame, m'.kernelPages page = some frame → m.kernelPages page = some frame) ∧
      ((result = none ∧ m'.pages.Perm m.pages) ∨
        (∃ frame, result = some frame ∧ m.pages.Perm (frame :: m'.pages) ∧
          resolveUserPage m id vaddr = some (some (frame + vaddr % FRAME_SIZE))) ∨
        ∃ page frame, result = some frame ∧ m.kernelPages page = some frame ∧
          isUserAddress vaddr = false ∧ m'.pages.Perm m.pages) := by
  obtain ⟨d, live, ⟨rfl, rfl⟩ | ⟨frame, t, unmap, rfl, rfl⟩ | ⟨frame, notUser, atPage, rfl, rfl⟩⟩ :=
    unmapUserPage_cases unmapped
  · exact ⟨rfl, .refl _, fun _ _ same => same, .inl ⟨rfl, .refl _⟩⟩
  · obtain ⟨P, T, pages, tables, focused⟩ := Machine.focus live
    obtain ⟨bound3, bound2, bound1⟩ := pageOf_lt vaddr
    obtain ⟨loss, sameTables⟩ := mp.unmap_spec bound3 bound2 bound1 unmap
    obtain ⟨pages', tables'⟩ := focused (some { d with user := t }) m.frames m.kernelPages
    refine ⟨rfl, ?_, fun _ _ same => same, .inr (.inl ⟨frame, rfl, ?_, ?_⟩)⟩
    · refine tables'.trans ?_
      simp only [elim_some, append_assoc]
      exact (sameTables.append_right _).trans tables.symm
    · exact pages.trans ((loss.append_right P).trans (pages'.symm.cons _))
    · simp [resolveUserPage, live, mp.unmap_frame unmap]
  · refine ⟨rfl, .refl _, fun page other same => ?_,
      .inr (.inr ⟨_, frame, rfl, atPage, notUser, .refl _⟩)⟩
    by_cases here : page = vaddr / FRAME_SIZE
    · simp [here] at same
    · simpa [update_of_ne here] using same

/-- What `SYS_SHARE_PAGE` does: nothing, or it clears the target's address, maps the
page there and counts it. -/
theorem sysSharePage_cases {hasMapInto : Bool} {current target code : Nat}
    (ran : sysSharePage mp m hasMapInto current vaddr target = some (code, m')) :
    m' = m ∨ ∃ paddr m₁ m₂, hasMapInto = true ∧ isUserAddress vaddr = true ∧
      resolveUserPage m current vaddr = some (some paddr) ∧
      resolveUserPage m target vaddr ≠ some (some paddr) ∧
      (m₁ = m ∨ ∃ frame m₀, unmapUserPage mp m target vaddr = some (frame, m₀) ∧
        m₁ = dropUnmapped m₀ frame) ∧
      mapUserPage mp m₁ target vaddr paddr .readWrite = some m₂ ∧
      m' = { m₂ with frames := m₂.frames.incRef paddr } := by
  unfold sysSharePage at ran
  split at ran
  · cases ran
    exact .inl rfl
  split at ran
  · cases ran
    exact .inl rfl
  next capability user =>
  obtain ⟨found, resolved, ran⟩ := bind_eq_some_iff.mp ran
  cases found with
  | none =>
    cases ran
    exact .inl rfl
  | some paddr =>
    obtain ⟨old, resolvedOld, ran⟩ := bind_eq_some_iff.mp ran
    split at ran
    · cases ran
      exact .inl rfl
    next differs =>
    obtain ⟨m₁, cleared, ran⟩ := bind_eq_some_iff.mp ran
    obtain ⟨m₂, mapped, pair⟩ := bind_eq_some_iff.mp ran
    cases pair
    refine .inr ⟨paddr, m₁, m₂, by simpa using capability, by simpa using user, resolved,
      by simpa [resolvedOld] using differs, ?_, mapped, rfl⟩
    cases old with
    | none =>
      cases cleared
      exact .inl rfl
    | some _ =>
      obtain ⟨⟨frame, m₀⟩, unmapped, pair⟩ := bind_eq_some_iff.mp cleared
      cases pair
      exact .inr ⟨frame, m₀, unmapped, rfl⟩

/-- In `SYS_SHARE_PAGE` the frame that is dropped is not the one being shared. -/
theorem refCount_dropUnmapped {target paddr : Nat} {result : Option Nat} (unique : SlotsUnique m.frames.shared)
    (unmapped : unmapUserPage mp m target vaddr = some (result, m'))
    (user : isUserAddress vaddr = true) (aligned : vaddr % FRAME_SIZE = 0)
    (differs : resolveUserPage m target vaddr ≠ some (some paddr)) :
    (dropUnmapped m' result).frames.refCount paddr = m.frames.refCount paddr := by
  obtain ⟨frames, -, -, cases⟩ := unmapUserPage_spec unmapped
  rcases cases with ⟨rfl, -⟩ | ⟨frame, rfl, -, atOld⟩ | ⟨_, _, _, _, notUser, _⟩
  · simp [dropUnmapped, frames]
  · rw [aligned] at atOld
    have apart : paddr ≠ frame := by
      rintro rfl
      exact differs (by simpa using atOld)
    simp only [dropUnmapped, frames]
    exact refCount_dropFrame_of_ne unique apart
  · rw [user] at notUser
    cases notUser

/-- `create` takes a frame for the PML4 and adds an empty user half. -/
theorem createDomain_spec (ran : createDomain m = some (id, m')) :
    ∃ pml4, m.frames.allocateFrame = some (pml4, m'.frames) ∧ m'.kernelPages = m.kernelPages ∧
      m'.pages.Perm m.pages ∧ m'.tables.Perm (pml4 :: m.tables) := by
  unfold createDomain at ran
  split at ran
  · cases ran
  · next pml4 f allocated =>
      cases ran
      refine ⟨pml4, allocated, rfl, ?_⟩
      split
      · next inTable =>
          -- the reused slot was empty, so it contributed nothing
          have empty := slotFor_empty inTable
          obtain ⟨P, pagesNow, pagesThen⟩ :=
            flatMap_set_perm (fun slot => slot.elim [] fun d => d.user.frames) empty
          obtain ⟨T, tablesNow, tablesThen⟩ :=
            flatMap_set_perm (fun slot => slot.elim [] fun d => d.user.tables ++ [d.pml4]) empty
          exact ⟨(pagesThen (some ⟨pml4, none⟩)).trans pagesNow.symm,
            (tablesThen (some ⟨pml4, none⟩)).trans (tablesNow.symm.cons pml4)⟩
      · constructor
        · simp [Machine.pages, UserHalf.frames]
        · simp only [Machine.tables, flatMap_append]
          exact perm_append_comm

end MorionOS.Kernel
