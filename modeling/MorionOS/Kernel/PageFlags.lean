import MorionOS.Kernel.FrameOwnership

/-!
# Permissions of mapped pages

The leaves of a user half with their permissions, and the entry that an address
leads to.  `FlagMapper` is the `x86_64` crate's mapper with what it documents about
flags: `map_to` enters the flags it is given at the page it is given and leaves every
other page alone, and neither `map_to` nor `unmap` on 4 KiB pages makes a 2 MiB page.
`FlagMapper.fourLevel` has that behaviour.

The lemmas at the end say what the functions on a domain do to the leaves of the
whole machine.
-/

namespace MorionOS.Kernel

open List Option UserHalf

/-! ## Leaves and lookups -/

def PageTab.leaves (pt : PageTab) : List Pte :=
  (List.range TABLE_ENTRIES).flatMap fun p1 => (pt.entries p1).elim [] fun pte => [pte]

/-- The 4 KiB leaves below a directory entry. -/
def Pde.leaves : Pde → List Pte
  | .table pt => pt.leaves
  | .huge _ => []

def PageDir.leaves (pd : PageDir) : List Pte :=
  (List.range TABLE_ENTRIES).flatMap fun p2 => (pd.entries p2).elim [] Pde.leaves

def Pdpt.leaves (pdpt : Pdpt) : List Pte :=
  (List.range TABLE_ENTRIES).flatMap fun p3 => (pdpt.entries p3).elim [] PageDir.leaves

/-- The 4 KiB leaves of a user half, in the order of the walk. -/
def UserHalf.leaves (t : UserHalf) : List Pte := t.elim [] Pdpt.leaves

/-- The leaf entry at some indices below a directory entry. -/
def Pde.entry (pde : Pde) (p1 : Nat) : Option Pte :=
  match pde with
  | .table pt => pt.entries p1
  | .huge _ => none

def PageDir.entry (pd : PageDir) (p2 p1 : Nat) : Option Pte :=
  (pd.entries p2).bind fun pde => pde.entry p1

def Pdpt.entry (pdpt : Pdpt) (page : PageIdx) : Option Pte :=
  (pdpt.entries page.p3).bind fun pd => pd.entry page.p2 page.p1

/-- The leaf entry of a page. -/
def UserHalf.entry (t : UserHalf) (page : PageIdx) : Option Pte := t.bind fun pdpt => pdpt.entry page

/-- The leaf entry of an address. -/
def UserHalf.lookup (t : UserHalf) (vaddr : Nat) : Option Pte := t.entry (pageOf vaddr)

/-- No 2 MiB page anywhere. -/
def UserHalf.NoHuge (t : UserHalf) : Prop :=
  ∀ pdpt, t = some pdpt → ∀ i pd, pdpt.entries i = some pd → ∀ j base,
    pd.entries j ≠ some (.huge base)

theorem UserHalf.noHuge_none : UserHalf.NoHuge none := fun _ eq => nomatch eq

theorem PageTab.map_leaves (pt : PageTab) : pt.leaves.map Pte.frame = pt.frames := by
  unfold PageTab.leaves PageTab.frames
  rw [map_flatMap]
  refine flatMap_congr fun i _ => ?_
  cases pt.entries i <;> rfl

variable {t t' : UserHalf} {vaddr frame id : Nat} {f f' : Frames} {pt : PageTab} {page : PageIdx}
  {perm : UserPagePerm} {m m' : Machine}

/-- Without 2 MiB pages the frames are those of the leaves. -/
theorem UserHalf.NoHuge.map_leaves (small : t.NoHuge) : t.leaves.map Pte.frame = t.frames := by
  cases t with
  | none => rfl
  | some pdpt =>
    simp only [leaves, elim_some, Pdpt.leaves]
    rw [map_flatMap]
    refine flatMap_congr fun i _ => ?_
    cases atP3 : pdpt.entries i with
    | none => rfl
    | some pd =>
      simp only [elim_some, PageDir.leaves]
      rw [map_flatMap]
      refine flatMap_congr fun j _ => ?_
      cases atP2 : pd.entries j with
      | none => rfl
      | some pde =>
        cases pde with
        | huge base => exact absurd atP2 (small pdpt rfl i pd atP3 j base)
        | table pt => exact pt.map_leaves

/-- Without 2 MiB pages an address resolves through its leaf entry. -/
theorem UserHalf.NoHuge.resolve (small : t.NoHuge) (vaddr : Nat) :
    t.resolve vaddr = (t.lookup vaddr).map fun pte => pte.frame + vaddr % FRAME_SIZE := by
  cases t with
  | none => rfl
  | some pdpt =>
    simp only [resolve, lookup, entry, Pdpt.entry, bind_some]
    cases atP3 : pdpt.entries (pageOf vaddr).p3 with
    | none => rfl
    | some pd =>
      simp only [bind_some, PageDir.entry]
      cases atP2 : pd.entries (pageOf vaddr).p2 with
      | none => rfl
      | some pde =>
        cases pde with
        | huge base => exact absurd atP2 (small pdpt rfl _ pd atP3 _ base)
        | table pt =>
          simp only [bind_some, Pde.entry]
          cases pt.entries (pageOf vaddr).p1 <;> rfl

theorem UserHalf.lookup_mem_leaves {pte : Pte} (found : t.lookup vaddr = some pte) : pte ∈ t.leaves := by
  obtain ⟨bound3, bound2, bound1⟩ := pageOf_lt vaddr
  obtain ⟨pdpt, rfl, found⟩ := bind_eq_some_iff.mp found
  obtain ⟨pd, atP3, found⟩ := bind_eq_some_iff.mp found
  obtain ⟨pde, atP2, found⟩ := bind_eq_some_iff.mp found
  refine mem_flatMap.mpr ⟨_, mem_range.mpr bound3, ?_⟩
  rw [atP3]
  refine mem_flatMap.mpr ⟨_, mem_range.mpr bound2, ?_⟩
  rw [atP2]
  cases pde with
  | huge base => cases found
  | table pt =>
    change pt.entries (pageOf vaddr).p1 = some pte at found
    refine mem_flatMap.mpr ⟨_, mem_range.mpr bound1, ?_⟩
    rw [found]
    exact mem_singleton_self pte

/-! ## The mapper -/

/-- The documented behaviour of the mapper on flags. -/
structure FlagMapper extends Mapper where
  /-- A successful `map_to` adds one leaf with the given flags. -/
  mapTo_leaves : ∀ {f t page frame perm f' t'},
    page.p3 < TABLE_ENTRIES → page.p2 < TABLE_ENTRIES → page.p1 < TABLE_ENTRIES →
    mapTo f t page frame perm = some (f', t') → t'.leaves.Perm (⟨frame, perm⟩ :: t.leaves)
  /-- It enters the leaf at the page and leaves the other pages alone. -/
  mapTo_lookup : ∀ {f t page frame perm f' t'}, mapTo f t page frame perm = some (f', t') →
    ∀ vaddr, t'.lookup vaddr = if pageOf vaddr = page then some ⟨frame, perm⟩ else t.lookup vaddr
  mapTo_small : ∀ {f t page frame perm f' t'}, mapTo f t page frame perm = some (f', t') →
    UserHalf.NoHuge t → UserHalf.NoHuge t'
  /-- A successful `unmap` removes a leaf with the frame it returns. -/
  unmap_leaves : ∀ {t page frame t'},
    page.p3 < TABLE_ENTRIES → page.p2 < TABLE_ENTRIES → page.p1 < TABLE_ENTRIES →
    unmap t page = some (frame, t') → ∃ perm, t.leaves.Perm (⟨frame, perm⟩ :: t'.leaves)
  unmap_lookup : ∀ {t page frame t'}, unmap t page = some (frame, t') →
    ∀ vaddr, t'.lookup vaddr = if pageOf vaddr = page then none else t.lookup vaddr
  unmap_small : ∀ {t page frame t'}, unmap t page = some (frame, t') →
    UserHalf.NoHuge t → UserHalf.NoHuge t'

/-! ## A mapper with the documented behaviour -/

/-- The table that `map_to` writes to is there already, or it is new and empty. -/
theorem getOrAlloc_cases {τ : Type} {entry : Option τ} {fresh : Nat → τ} {table : τ}
    (found : getOrAlloc f entry fresh = some (f', table)) :
    entry = some table ∨ entry = none ∧ ∃ addr, table = fresh addr := by
  cases entry with
  | some old =>
    cases found
    exact .inl rfl
  | none =>
    obtain ⟨taken, -, pair⟩ := map_eq_some_iff.mp found
    cases pair
    exact .inr ⟨rfl, _, rfl⟩

theorem Pde.getTable_cases {entry : Option Pde} (found : Pde.getTable f entry = some (f', pt)) :
    entry = some (.table pt) ∨ entry = none ∧ ∀ i, pt.entries i = none := by
  match entry with
  | some (.table old) =>
    cases found
    exact .inl rfl
  | none =>
    obtain ⟨taken, -, pair⟩ := map_eq_some_iff.mp found
    cases pair
    exact .inr ⟨rfl, fun _ => rfl⟩

/-- What `map_to` does: on the way down every table is there or new and empty, and the
leaf is entered where none was. -/
theorem fourLevelMapTo_cases (mapped : fourLevelMapTo f t page frame perm = some (f', t')) :
    ∃ (pdpt : Pdpt) (pd : PageDir) (pt : PageTab),
      (t = some pdpt ∨ t = none ∧ ∀ i, pdpt.entries i = none) ∧
      (pdpt.entries page.p3 = some pd ∨ pdpt.entries page.p3 = none ∧ ∀ i, pd.entries i = none) ∧
      (pd.entries page.p2 = some (.table pt) ∨
        pd.entries page.p2 = none ∧ ∀ i, pt.entries i = none) ∧
      pt.entries page.p1 = none ∧
      t' = some (pdpt.setEntry page.p3 (pd.setEntry page.p2
        (.table (pt.setEntry page.p1 (some ⟨frame, perm⟩))))) := by
  simp only [fourLevelMapTo, bind_eq_bind, bind_eq_some_iff] at mapped
  obtain ⟨⟨f₁, pdpt⟩, getPdpt, ⟨f₂, pd⟩, getPd, ⟨f₃, pt⟩, getPt, leaf⟩ := mapped
  refine ⟨pdpt, pd, pt, ?_, ?_, Pde.getTable_cases getPt, ?_⟩
  · rcases getOrAlloc_cases getPdpt with old | ⟨new, addr, rfl⟩
    · exact .inl old
    · exact .inr ⟨new, fun _ => rfl⟩
  · rcases getOrAlloc_cases getPd with old | ⟨new, addr, rfl⟩
    · exact .inl old
    · exact .inr ⟨new, fun _ => rfl⟩
  · cases atP1 : pt.entries page.p1 with
    | some old => simp [atP1] at leaf
    | none =>
      simp only [atP1, some.injEq, Prod.mk.injEq] at leaf
      exact ⟨rfl, leaf.2.symm⟩

def Gather.leaves : Gather Pte := ⟨fun pte => [pte], fun _ => [], fun _ => []⟩

theorem UserHalf.leaves_eq (t : UserHalf) : t.leaves = Gather.leaves.half t := by
  have pde : Pde.leaves = Gather.leaves.pde := funext fun pde => by
    cases pde <;> simp [Pde.leaves, PageTab.leaves, Gather.pde, Gather.tab, Gather.entries, Gather.leaves]
  have dir : PageDir.leaves = Gather.leaves.dir := funext fun pd => by
    simp [PageDir.leaves, Gather.dir, Gather.entries, pde, Gather.leaves]
  have top : Pdpt.leaves = Gather.leaves.top := funext fun pdpt => by
    simp [Pdpt.leaves, Gather.top, Gather.entries, dir, Gather.leaves]
  rw [leaves, top, Gather.half]

theorem fourLevelMapTo_leaves (bound3 : page.p3 < TABLE_ENTRIES) (bound2 : page.p2 < TABLE_ENTRIES)
    (bound1 : page.p1 < TABLE_ENTRIES)
    (mapped : fourLevelMapTo f t page frame perm = some (f', t')) :
    t'.leaves.Perm (⟨frame, perm⟩ :: t.leaves) := by
  obtain ⟨taken, -, gathers⟩ := fourLevelMapTo_gathers bound3 bound2 bound1 mapped
  have leaves := gathers _ Gather.leaves
  rw [show taken.flatMap Gather.leaves.own = [] from flatMap_eq_nil_iff.mpr fun _ _ => rfl] at leaves
  simp only [leaves_eq]
  exact leaves

theorem PageDir.entry_setEntry (pd : PageDir) (i : Nat) (pde : Pde) (p2 p1 : Nat) :
    (pd.setEntry i pde).entry p2 p1 = if p2 = i then pde.entry p1 else pd.entry p2 p1 := by
  unfold PageDir.entry
  split
  next same => rw [same, PageDir.setEntry_self, bind_some]
  next differs => rw [PageDir.setEntry_ne _ _ _ differs]

theorem Pdpt.entry_setEntry (pdpt : Pdpt) (i : Nat) (pd : PageDir) (page : PageIdx) :
    (pdpt.setEntry i pd).entry page =
      if page.p3 = i then pd.entry page.p2 page.p1 else pdpt.entry page := by
  unfold Pdpt.entry
  split
  next same => rw [same, Pdpt.setEntry_self, bind_some]
  next differs => rw [Pdpt.setEntry_ne _ _ _ differs]

/-- Replacing one leaf entry changes what that page leads to and nothing else, also
when the tables on the way are new. -/
theorem UserHalf.entry_replace {pdpt : Pdpt} {pd : PageDir}
    (pte : Option Pte) (atTop : t = some pdpt ∨ t = none ∧ ∀ i, pdpt.entries i = none)
    (atP3 : pdpt.entries page.p3 = some pd ∨ pdpt.entries page.p3 = none ∧ ∀ i, pd.entries i = none)
    (atP2 : pd.entries page.p2 = some (.table pt) ∨
      pd.entries page.p2 = none ∧ ∀ i, pt.entries i = none) (other : PageIdx) :
    entry (some (pdpt.setEntry page.p3 (pd.setEntry page.p2
      (.table (pt.setEntry page.p1 pte))))) other = if other = page then pte else t.entry other := by
  have top : t.entry other = pdpt.entry other := by
    rcases atTop with rfl | ⟨rfl, empty⟩
    · rfl
    · simp [entry, Pdpt.entry, empty]
  have middle : ∀ q2 q1, ((pdpt.entries page.p3).bind fun pd => pd.entry q2 q1) = pd.entry q2 q1 := by
    intro q2 q1
    rcases atP3 with old | ⟨new, empty⟩
    · rw [old, bind_some]
    · simp [new, PageDir.entry, empty]
  have bottom : ∀ q1, ((pd.entries page.p2).bind fun pde => pde.entry q1) = pt.entries q1 := by
    intro q1
    rcases atP2 with old | ⟨new, empty⟩
    · rw [old, bind_some, Pde.entry]
    · simp [new, empty]
  change (pdpt.setEntry page.p3 _).entry other = _
  rw [Pdpt.entry_setEntry, top]
  split
  next same3 =>
    rw [PageDir.entry_setEntry]
    split
    next same2 =>
      change (pt.setEntry page.p1 pte).entries other.p1 = _
      by_cases same1 : other.p1 = page.p1
      · have same : other = page := by
          cases other
          simp only at same1 same2 same3
          rw [same1, same2, same3]
        rw [if_pos same, same, PageTab.setEntry_self]
      · have differs : other ≠ page := fun eq => same1 (congrArg PageIdx.p1 eq)
        rw [PageTab.setEntry_ne _ _ _ same1, if_neg differs, Pdpt.entry, same3, same2, middle,
          PageDir.entry, bottom]
    next other2 =>
      have differs : other ≠ page := fun eq => other2 (congrArg PageIdx.p2 eq)
      rw [if_neg differs, Pdpt.entry, same3, middle]
  next other3 =>
    have differs : other ≠ page := fun eq => other3 (congrArg PageIdx.p3 eq)
    rw [if_neg differs]

theorem UserHalf.noHuge_replace {pdpt : Pdpt} {pd : PageDir}
    (pte : Option Pte) (atTop : t = some pdpt ∨ t = none ∧ ∀ i, pdpt.entries i = none)
    (atP3 : pdpt.entries page.p3 = some pd ∨ pdpt.entries page.p3 = none ∧ ∀ i, pd.entries i = none)
    (small : t.NoHuge) :
    UserHalf.NoHuge (some (pdpt.setEntry page.p3 (pd.setEntry page.p2
      (.table (pt.setEntry page.p1 pte))))) := by
  have before : ∀ i pd, pdpt.entries i = some pd → ∀ j base, pd.entries j ≠ some (.huge base) := by
    rcases atTop with rfl | ⟨rfl, empty⟩
    · exact small pdpt rfl
    · intro i pd found
      rw [empty] at found
      cases found
  rintro _ ⟨⟩ i pd' found j base
  by_cases here : i = page.p3
  · rw [here, Pdpt.setEntry_self] at found
    cases found
    by_cases at2 : j = page.p2
    · rw [at2, PageDir.setEntry_self]
      simp
    · rw [PageDir.setEntry_ne _ _ _ at2]
      rcases atP3 with old | ⟨new, empty⟩
      · exact before _ pd old j base
      · simp [empty]
  · rw [Pdpt.setEntry_ne _ _ _ here] at found
    exact before i pd' found j base

section

variable (mapped : fourLevelMapTo f t page frame perm = some (f', t'))
include mapped

theorem fourLevelMapTo_lookup (vaddr : Nat) :
    t'.lookup vaddr = if pageOf vaddr = page then some ⟨frame, perm⟩ else t.lookup vaddr := by
  obtain ⟨pdpt, pd, pt, atTop, atP3, atP2, -, rfl⟩ := fourLevelMapTo_cases mapped
  exact entry_replace _ atTop atP3 atP2 (pageOf vaddr)

theorem fourLevelMapTo_small (small : t.NoHuge) : t'.NoHuge := by
  obtain ⟨pdpt, pd, pt, atTop, atP3, -, -, rfl⟩ := fourLevelMapTo_cases mapped
  exact noHuge_replace _ atTop atP3 small

end

theorem fourLevelUnmap_leaves (bound3 : page.p3 < TABLE_ENTRIES) (bound2 : page.p2 < TABLE_ENTRIES)
    (bound1 : page.p1 < TABLE_ENTRIES) (unmapped : fourLevelUnmap t page = some (frame, t')) :
    ∃ perm, t.leaves.Perm (⟨frame, perm⟩ :: t'.leaves) := by
  obtain ⟨perm, gathers⟩ := fourLevelUnmap_gathers bound3 bound2 bound1 unmapped
  simp only [leaves_eq]
  exact ⟨perm, gathers _ Gather.leaves⟩

theorem fourLevelUnmap_lookup (unmapped : fourLevelUnmap t page = some (frame, t')) (vaddr : Nat) :
    t'.lookup vaddr = if pageOf vaddr = page then none else t.lookup vaddr := by
  obtain ⟨pdpt, pd, pt, perm, rfl, atP3, atP2, -, rfl⟩ := fourLevelUnmap_cases unmapped
  exact entry_replace _ (.inl rfl) (.inl atP3) (.inl atP2) (pageOf vaddr)

theorem fourLevelUnmap_small
    (unmapped : fourLevelUnmap t page = some (frame, t')) (small : t.NoHuge) : t'.NoHuge := by
  obtain ⟨pdpt, pd, pt, perm, rfl, atP3, -, -, rfl⟩ := fourLevelUnmap_cases unmapped
  exact noHuge_replace _ (.inl rfl) (.inl atP3) small

/-- The four-level walk treats flags as documented. -/
def FlagMapper.fourLevel : FlagMapper where
  toMapper := Mapper.fourLevel
  mapTo_leaves := fourLevelMapTo_leaves
  mapTo_lookup := fourLevelMapTo_lookup
  mapTo_small := fourLevelMapTo_small
  unmap_leaves := fourLevelUnmap_leaves
  unmap_lookup := fourLevelUnmap_lookup
  unmap_small := fourLevelUnmap_small

/-! ## The machine -/

/-- The leaf entry at an address of a domain. -/
def pageAt (m : Machine) (id vaddr : Nat) : Option Pte :=
  (m.domain id).bind fun d => d.user.lookup vaddr

/-- The leaves of all live domains. -/
def Machine.leaves (m : Machine) : List Pte :=
  m.domains.flatMap fun slot => slot.elim [] fun d => d.user.leaves

/-- No domain has a 2 MiB page. -/
def Machine.NoHuge (m : Machine) : Prop := ∀ id d, m.domain id = some d → d.user.NoHuge

theorem Machine.NoHuge.map_leaves (small : m.NoHuge) : m.leaves.map Pte.frame = m.pages := by
  rw [Machine.leaves, map_flatMap, Machine.pages]
  refine flatMap_congr fun slot member => ?_
  obtain ⟨id, bound, rfl⟩ := getElem_of_mem member
  cases found : m.domains[id] with
  | none => rfl
  | some d => exact (small id d (by simp [Machine.domain, bound, found])).map_leaves

/-- A live domain's leaves, for the machine as it is and for the machine with that
slot replaced. -/
theorem Machine.focus_leaves {d : Domain} (live : m.domain id = some d) :
    ∃ L, m.leaves.Perm (d.user.leaves ++ L) ∧ ∀ slot f kernelPages,
      (Machine.leaves ⟨f, m.domains.set id slot, kernelPages⟩).Perm
        ((slot.elim [] fun d' => d'.user.leaves) ++ L) := by
  obtain ⟨L, now, later⟩ := flatMap_set_perm (fun slot => slot.elim [] fun d => d.user.leaves)
    (join_eq_some_iff.mp live)
  exact ⟨L, now, fun slot f kernelPages => later slot⟩

theorem mem_leaves_of_pageAt {pte : Pte} (found : pageAt m id vaddr = some pte) : pte ∈ m.leaves := by
  obtain ⟨d, live, found⟩ := bind_eq_some_iff.mp found
  obtain ⟨L, leaves, -⟩ := Machine.focus_leaves live
  exact leaves.mem_iff.mpr (mem_append_left _ (lookup_mem_leaves found))

theorem noHuge_set (small : m.NoHuge) {d : Domain} (live : m.domain id = some d)
    {slot : Option Domain} (smallSlot : ∀ d', slot = some d' → d'.user.NoHuge) (f : Frames) :
    Machine.NoHuge ⟨f, m.domains.set id slot, m.kernelPages⟩ := by
  intro other d' found
  rw [domain_set live] at found
  split at found
  · exact smallSlot d' found
  · exact small other d' found

/-- `map_user_page` adds one leaf, at its address. -/
theorem mapUserPage_leaves {mp : FlagMapper} {paddr : Nat}
    (mapped : mapUserPage mp.toMapper m id vaddr paddr perm = some m') :
    m'.leaves.Perm (⟨paddr / FRAME_SIZE * FRAME_SIZE, perm⟩ :: m.leaves) ∧
      (m.NoHuge → m'.NoHuge) ∧ ∀ other v, pageAt m' other v =
        if other = id ∧ pageOf v = pageOf vaddr then some ⟨paddr / FRAME_SIZE * FRAME_SIZE, perm⟩
        else pageAt m other v := by
  obtain ⟨d, f, t, live, mapTo, rfl⟩ := mapUserPage_cases mapped
  obtain ⟨L, now, later⟩ := Machine.focus_leaves live
  obtain ⟨bound3, bound2, bound1⟩ := pageOf_lt vaddr
  have gain := mp.mapTo_leaves bound3 bound2 bound1 mapTo
  have domains := domain_set live (some { d with user := t }) f m.kernelPages
  refine ⟨?_, fun small => noHuge_set small live (fun _ new => some.inj new ▸
    mp.mapTo_small mapTo (small id d live)) f, fun other v => ?_⟩
  · exact (later (some { d with user := t }) f m.kernelPages).trans
      ((gain.append_right L).trans (now.symm.cons _))
  · rw [pageAt, Machine.withDomain, domains]
    by_cases here : other = id
    · rw [if_pos here, bind_some]
      simp only [here, true_and, pageAt, live]
      exact mp.mapTo_lookup mapTo v
    · rw [if_neg here, if_neg fun both => here both.1, pageAt]

theorem createDomain_leaves (ran : createDomain m = some (id, m')) :
    m'.leaves.Perm m.leaves ∧ (m.NoHuge → m'.NoHuge) := by
  obtain ⟨-, pml4, domains⟩ := createDomain_domain ran
  refine ⟨?_, fun small other d found => ?_⟩
  rotate_left
  · rw [domains] at found
    split at found
    · exact some.inj found ▸ noHuge_none
    · exact small other d found
  unfold createDomain at ran
  split at ran
  · cases ran
  next pml4 f allocated =>
    cases ran
    split
    next inTable =>
      obtain ⟨L, now, later⟩ :=
        flatMap_set_perm (fun slot => slot.elim [] fun d => d.user.leaves) (slotFor_empty inTable)
      exact (later (some ⟨pml4, none⟩)).trans now.symm
    · simp [Machine.leaves, leaves]

/-- `unmap_user_page` removes one leaf with the frame it returns, or none. -/
theorem unmapUserPage_leaves {mp : FlagMapper}
    {result : Option Nat} (unmapped : unmapUserPage mp.toMapper m id vaddr = some (result, m')) :
    ((∃ frame perm, result = some frame ∧ m.leaves.Perm (⟨frame, perm⟩ :: m'.leaves)) ∨
      m'.leaves = m.leaves ∧
        ∀ frame, result = some frame → ∃ page, m.kernelPages page = some frame) ∧
      (m.NoHuge → m'.NoHuge) ∧ ∀ other v, pageAt m' other v = pageAt m other v ∨
        other = id ∧ pageOf v = pageOf vaddr ∧ pageAt m' other v = none := by
  obtain ⟨d, live, ⟨rfl, rfl⟩ | ⟨frame, t, unmap, rfl, rfl⟩ | ⟨frame, -, atPage, rfl, rfl⟩⟩ :=
    unmapUserPage_cases unmapped
  · exact ⟨.inr ⟨rfl, fun _ eq => nomatch eq⟩, fun small => small, fun _ _ => .inl rfl⟩
  · obtain ⟨L, now, later⟩ := Machine.focus_leaves live
    obtain ⟨bound3, bound2, bound1⟩ := pageOf_lt vaddr
    obtain ⟨perm, loss⟩ := mp.unmap_leaves bound3 bound2 bound1 unmap
    have domains := domain_set live (some { d with user := t }) m.frames m.kernelPages
    refine ⟨.inl ⟨frame, perm, rfl, ?_⟩, fun small => noHuge_set small live (fun _ new =>
      some.inj new ▸ mp.unmap_small unmap (small id d live)) m.frames, fun other v => ?_⟩
    · exact now.trans ((loss.append_right L).trans
        ((later (some { d with user := t }) m.frames m.kernelPages).symm.cons _))
    · rw [pageAt, Machine.withDomain, domains]
      by_cases here : other = id
      · rw [if_pos here, bind_some]
        have entry := mp.unmap_lookup unmap v
        by_cases samePage : pageOf v = pageOf vaddr
        · rw [if_pos samePage] at entry
          exact .inr ⟨here, samePage, entry⟩
        · rw [if_neg samePage] at entry
          simp only [here, pageAt, live]
          exact .inl entry
      · rw [if_neg here]
        exact .inl rfl
  · exact ⟨.inr ⟨rfl, fun _ found => some.inj found ▸ ⟨_, atPage⟩⟩, fun small => small,
      fun _ _ => .inl rfl⟩

end MorionOS.Kernel
