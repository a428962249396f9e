import MorionOS.Kernel.DeviceMemory

/-!
# Frames in custody

Two properties of the allocator rest on the same bookkeeping: a frame goes back only if it
may go back.  A `Custody` says what is kept of the allocator, which frames may be given back
and which may be mapped in a domain, such that the primitives of the allocator agree with it;
`Custody.Holds` is the statement about the whole machine, and every move keeps it
(`Custody.Holds.move`).
-/

namespace MorionOS.Kernel

open List Option

variable {mp : Mapper} {m m' : Machine} {id vaddr paddr : Nat} {perm : UserPagePerm}

/-- `map_user_page` changes one domain: it gets one more frame. -/
theorem mapUserPage_domain (mapped : mapUserPage mp m id vaddr paddr perm = some m') :
    ∃ d d', m.domain id = some d ∧ d'.user.frames.Perm (paddr / FRAME_SIZE * FRAME_SIZE :: d.user.frames) ∧
      ∀ other, m'.domain other = if other = id then some d' else m.domain other := by
  obtain ⟨d, f, t, live, mapTo, rfl⟩ := mapUserPage_cases mapped
  obtain ⟨bound3, bound2, bound1⟩ := pageOf_lt vaddr
  exact ⟨d, { d with user := t }, live, (mp.mapTo_spec bound3 bound2 bound1 mapTo).1,
    domain_set live _ f m.kernelPages⟩

/-- `unmap_user_page` leaves every domain with frames that it had. -/
theorem unmapUserPage_domain {result : Option Nat}
    (unmapped : unmapUserPage mp m id vaddr = some (result, m')) (other : Nat) :
    m'.domain other = m.domain other ∨ ∃ d d', m.domain other = some d ∧ m'.domain other = some d' ∧
      ∀ a ∈ d'.user.frames, a ∈ d.user.frames := by
  obtain ⟨d, live, ⟨-, rfl⟩ | ⟨frame, t, found, -, rfl⟩ | ⟨frame, -, -, -, rfl⟩⟩ :=
    unmapUserPage_cases unmapped
  · exact .inl rfl
  · obtain ⟨bound3, bound2, bound1⟩ := pageOf_lt vaddr
    have frames := (mp.unmap_spec bound3 bound2 bound1 found).1
    rw [Machine.withDomain, domain_set live]
    split
    next here =>
      exact .inr ⟨d, _, here ▸ live, rfl,
        fun a member => frames.mem_iff.mpr (mem_cons_of_mem _ member)⟩
    · exact .inl rfl
  · exact .inl rfl

/-- What is kept of the allocator, and how frames may be used. -/
structure Custody (rules : Rules) where
  /-- The allocator is as it should be. -/
  sound : Frames → Prop
  /-- The frame may be given back. -/
  spare : Nat → Prop
  /-- The frame may be mapped in the domain. -/
  page : Nat → Nat → Prop
  /-- The count of the frame may drop. -/
  counted : Nat → Prop
  allocate : ∀ {f f' a}, sound f → f.allocateFrame = some (a, f') → sound f' ∧ spare a
  allocateBlock : ∀ {f f' a count}, sound f → f.allocateFrames count = some (a, f') →
    sound f' ∧ ∀ b ∈ blockFrames a count, spare b
  free : ∀ {f a}, sound f → spare a → sound (f.freeFrame a)
  drop : ∀ {f a}, sound f → counted a → sound (f.dropFrame a)
  count : ∀ {f a}, sound f → spare (a / FRAME_SIZE * FRAME_SIZE) → sound (f.incRef a)
  base : ∀ {a}, spare a → spare (a / FRAME_SIZE * FRAME_SIZE)
  spare_counted : ∀ {a}, spare a → counted a
  page_counted : ∀ {id a}, page id a → counted a
  spare_page : ∀ {id a}, spare a → page id a
  device : ∀ {id paddr}, rules.device (paddr / FRAME_SIZE * FRAME_SIZE) →
    page id (paddr / FRAME_SIZE * FRAME_SIZE)
  share : ∀ {m current vaddr target paddr}, rules.share m current vaddr target →
    (∀ d, m.domain current = some d → ∀ a ∈ d.user.frames, page current a) →
    resolveUserPage m current vaddr = some (some paddr) → spare (paddr / FRAME_SIZE * FRAME_SIZE)
  release : ∀ {id a}, rules.release id → page id a → spare a

namespace Custody

variable {rules : Rules} (c : Custody rules) {f f' : Frames} {a : Nat} {held : List Nat}

theorem allocChain {taken : List Nat} (chain : AllocChain f taken f') (sound : c.sound f) :
    c.sound f' ∧ ∀ a ∈ taken, c.spare a := by
  induction chain with
  | nil => exact ⟨sound, fun _ member => nomatch member⟩
  | cons allocated _ ih =>
    obtain ⟨next, spare⟩ := c.allocate sound allocated
    obtain ⟨last, others⟩ := ih next
    exact ⟨last, forall_mem_cons.mpr ⟨spare, others⟩⟩

theorem freeUserSpace {t : UserHalf} (sound : c.sound f) (frames : ∀ a ∈ t.frames, c.spare a)
    (tables : ∀ a ∈ t.tables, c.spare a) : c.sound (Kernel.freeUserSpace f t) := by
  have all : c.sound f ∧ (∀ a ∈ t.frames ++ [], c.spare a) ∧ ∀ a ∈ t.tables ++ [], c.spare a :=
    ⟨sound, by simpa using frames, by simpa using tables⟩
  refine (freeUserSpace_release (Q := fun f pages tables => c.sound f ∧
    (∀ a ∈ pages, c.spare a) ∧ ∀ a ∈ tables, c.spare a) ?_ ?_ all).1
  · rintro f a pages tables ⟨sound, frames, below⟩
    obtain ⟨here, frames⟩ := forall_mem_cons.mp frames
    refine ⟨?_, frames, below⟩
    unfold Frames.releaseUserFrame
    split
    · exact c.drop sound (c.spare_counted here)
    · exact c.free sound here
  · rintro f a pages tables ⟨sound, frames, below⟩
    obtain ⟨here, below⟩ := forall_mem_cons.mp below
    exact ⟨c.free sound here, frames, below⟩

/-- The allocator is sound, every frame in use is used as it may be, and the domains that may
not be released are there. -/
structure Holds (s : Machine × List Nat) : Prop where
  frames : c.sound s.1.frames
  tables : ∀ a ∈ s.1.tables, c.spare a
  kernel : ∀ page a, s.1.kernelPages page = some a → c.counted a
  pages : ∀ id d, s.1.domain id = some d → ∀ a ∈ d.user.frames, c.page id a
  alive : ∀ id, ¬ rules.release id → s.1.domain id ≠ none
  held : ∀ a ∈ s.2, c.spare a

namespace Holds

variable {c}

theorem mapUserPage (holds : c.Holds (m, held))
    (mapped : Kernel.mapUserPage mp m id vaddr paddr perm = some m')
    (allowed : c.page id (paddr / FRAME_SIZE * FRAME_SIZE)) : c.Holds (m', held) := by
  obtain ⟨kernelPages, -, taken, chain, tables⟩ := mapUserPage_spec mapped
  obtain ⟨d, d', live, gain, domains⟩ := mapUserPage_domain mapped
  obtain ⟨frames, new⟩ := c.allocChain chain holds.frames
  refine ⟨frames, fun a member => ?_, kernelPages ▸ holds.kernel, fun other e found a member => ?_,
    fun other fixed => ?_, holds.held⟩
  · exact (mem_append.mp (tables.mem_iff.mp member)).elim (new a) (holds.tables a)
  · rw [domains] at found
    split at found
    next here =>
      subst here
      cases found
      rcases mem_cons.mp (gain.mem_iff.mp member) with rfl | old
      · exact allowed
      · exact holds.pages other d live a old
    · exact holds.pages other e found a member
  · rw [domains]
    split
    · exact some_ne_none _
    · exact holds.alive other fixed

theorem incRef (holds : c.Holds (m, held)) (spare : c.spare (a / FRAME_SIZE * FRAME_SIZE)) :
    c.Holds ({ m with frames := m.frames.incRef a }, held) :=
  ⟨c.count holds.frames spare, holds.tables, holds.kernel, holds.pages, holds.alive, holds.held⟩

/-- A frame that the kernel no longer holds. -/
theorem hand (holds : c.Holds (m, a :: held)) : c.spare a ∧ c.Holds (m, held) :=
  have ⟨spare, others⟩ := forall_mem_cons.mp holds.held
  ⟨spare, { holds with held := others }⟩

section

variable (holds : c.Holds (m, held))
include holds

theorem unmap {result : Option Nat} (unmapped : unmapUserPage mp m id vaddr = some (result, m')) :
    c.Holds (dropUnmapped m' result, held) := by
  obtain ⟨frames, tables, kernelPages, cases⟩ := unmapUserPage_spec unmapped
  have before : c.Holds (m', held) := by
    refine ⟨frames ▸ holds.frames, fun a member => holds.tables a (tables.mem_iff.mp member),
      fun page a atPage => holds.kernel page a (kernelPages page a atPage),
      fun other d' found a member => ?_, fun other fixed => ?_, holds.held⟩
    · rcases unmapUserPage_domain unmapped other with same | ⟨d, e, live, now, sub⟩
      · exact holds.pages other d' (same ▸ found) a member
      · obtain rfl : e = d' := some.inj (now.symm.trans found)
        exact holds.pages other d live a (sub a member)
    · rcases unmapUserPage_domain unmapped other with same | ⟨d, e, live, now, -⟩
      · exact same ▸ holds.alive other fixed
      · exact now ▸ some_ne_none _
  rcases cases with ⟨rfl, -⟩ | ⟨frame, rfl, -, resolved⟩ | ⟨page, frame, rfl, atPage, -, -⟩
  · exact before
  · obtain ⟨d, live, walk⟩ := map_eq_some_iff.mp resolved
    obtain ⟨found, member, same⟩ := UserHalf.resolve_mem_frames walk
    obtain rfl : frame = found := by omega
    exact { before with frames := c.drop before.frames (c.page_counted (holds.pages id d live _ member)) }
  · exact { before with frames := c.drop before.frames (holds.kernel page frame atPage) }

/-- The user space of a domain is given back, and the domain is replaced by one without user
pages or by nothing. -/
theorem released {d : Domain} (live : m.domain id = some d)
    (allowed : rules.release id) (slot : Option Domain) {f : Frames}
    (empty : ∀ e, slot = some e → e.user = none ∧ e.pml4 = d.pml4)
    (frames : c.sound (Kernel.freeUserSpace m.frames d.user) → c.spare d.pml4 → c.sound f) :
    c.Holds ({ m with frames := f, domains := m.domains.set id slot }, held) := by
  obtain ⟨_, T, -, tablesNow, focused⟩ := Machine.focus live
  have pml4 := holds.tables d.pml4 (tablesNow.mem_iff.mpr (by simp))
  have freed := c.freeUserSpace holds.frames
    (fun a member => c.release allowed (holds.pages id d live a member))
    (fun a member => holds.tables a (tablesNow.mem_iff.mpr (mem_append_left _ member)))
  refine ⟨frames freed pml4, fun a member => ?_, holds.kernel, fun other e found a member => ?_,
    fun other fixed => ?_, holds.held⟩
  · rcases mem_append.mp ((focused slot f m.kernelPages).2.mem_iff.mp member) with own | rest
    · cases slot with
      | none => cases own
      | some e =>
        obtain ⟨none_, same⟩ := empty e rfl
        simp only [elim_some, none_, UserHalf.tables, elim_none, nil_append, mem_singleton] at own
        exact own ▸ same ▸ pml4
    · exact holds.tables a (tablesNow.mem_iff.mpr (by simp [rest]))
  · rw [domain_set live] at found
    split at found
    · rw [(empty e found).1] at member
      cases member
    · exact holds.pages other e found a member
  · rw [domain_set live, if_neg fun same : other = id => fixed (same ▸ allowed)]
    exact holds.alive other fixed

theorem create (created : createDomain m = some (id, m')) : c.Holds (m', held) := by
  obtain ⟨pml4, allocated, kernelPages, -, tables⟩ := createDomain_spec created
  obtain ⟨-, pml4', domains⟩ := createDomain_domain created
  obtain ⟨frames, spare⟩ := c.allocate holds.frames allocated
  refine ⟨frames, fun a member => ?_, kernelPages ▸ holds.kernel, fun other e found a member => ?_,
    fun other fixed => ?_, holds.held⟩
  · rcases mem_cons.mp (tables.mem_iff.mp member) with rfl | old
    · exact spare
    · exact holds.tables a old
  · rw [domains] at found
    split at found
    · cases found
      cases member
    · exact holds.pages other e found a member
  · rw [domains]
    split
    · exact some_ne_none _
    · exact holds.alive other fixed

theorem share {hasMapInto : Bool} {current target code : Nat}
    (allowed : hasMapInto = true → isUserAddress vaddr = true → rules.share m current vaddr target)
    (shared : sysSharePage mp m hasMapInto current vaddr target = some (code, m')) :
    c.Holds (m', held) := by
  rcases sysSharePage_cases shared with
    rfl | ⟨paddr, m₁, m₂, capability, user, resolved, -, cleared, mapped, rfl⟩
  · exact holds
  have spare := c.share (allowed capability user) (holds.pages current) resolved
  have cleared : c.Holds (m₁, held) := by
    rcases cleared with rfl | ⟨frame, m₀, unmapped, rfl⟩
    · exact holds
    · exact holds.unmap unmapped
  exact (cleared.mapUserPage mapped (c.spare_page spare)).incRef spare

end

/-- **Every move keeps it.** -/
theorem move {s s' : Machine × List Nat} (holds : c.Holds s) (move : Move mp rules s s') : c.Holds s' := by
  cases move with
  | take allocated =>
    obtain ⟨frames, spare⟩ := c.allocate holds.frames allocated
    exact { holds with frames, held := forall_mem_cons.mpr ⟨spare, holds.held⟩ }
  | takeBlock allocated =>
    obtain ⟨frames, spare⟩ := c.allocateBlock holds.frames allocated
    exact { holds with frames, held := forall_mem_append.mpr ⟨spare, holds.held⟩ }
  | reorder same => exact { holds with held := fun a member => holds.held a (same.mem_iff.mp member) }
  | giveBack =>
    obtain ⟨spare, rest⟩ := holds.hand
    exact { rest with frames := c.free rest.frames spare }
  | heapPage =>
    rename_i m held a page
    obtain ⟨spare, rest⟩ := holds.hand
    refine ⟨rest.frames, rest.tables, fun other b atPage => ?_, rest.pages, rest.alive, rest.held⟩
    by_cases here : other = page
    · simp only [here, Function.update_self, some.injEq] at atPage
      exact atPage ▸ c.spare_counted spare
    · exact rest.kernel other b (by simpa [Function.update_of_ne here] using atPage)
  | map mapped => exact holds.hand.2.mapUserPage mapped (c.spare_page (c.base holds.hand.1))
  | mapCounted mapped =>
    obtain ⟨spare, rest⟩ := holds.hand
    exact (rest.mapUserPage mapped (c.spare_page (c.base spare))).incRef (c.base spare)
  | device allowed mapped => exact holds.mapUserPage mapped (c.device allowed)
  | share allowed shared => exact holds.share allowed shared
  | unmap unmapped => exact holds.unmap unmapped
  | create created => exact holds.create created
  | reset id allowed =>
    unfold resetDomain
    split
    · exact holds
    next d live =>
      exact holds.released live allowed (some { d with user := none })
        (fun e same => some.inj same ▸ ⟨rfl, rfl⟩) fun freed _ => freed
  | destroy id allowed =>
    unfold destroyDomain
    split
    · exact holds
    next d live =>
      exact holds.released live allowed none (fun e same => nomatch same)
        c.free

end Holds

end Custody

end MorionOS.Kernel
