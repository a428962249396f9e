import MorionOS.Kernel.FrameAllocator
import Mathlib.Data.List.Perm.Basic

/-!
# The user half of a domain's page table

A domain's user space hangs below the single entry `P4[1]` of its PML4
(`memory/paging.rs`).  The model keeps the tree as the hardware sees it: PDPT,
page directories, page tables, each with the physical frame it lives in, and
4 KiB or 2 MiB leaves.

`map_to` and `unmap` belong to the `x86_64` crate.  They are a parameter of the
development, `Mapper`, whose fields say what the crate documents: a successful
`map_to` adds one mapping and takes the tables it is missing from the frame
allocator, a successful `unmap` removes the mapping it returns.
`Mapper.fourLevel` is a mapper with that behaviour.

`freeUserSpace` walks the whole tree and gives every mapped frame and every
table frame back.
-/

namespace MorionOS.Kernel

open Function List Option List.Perm

inductive UserPagePerm where
  | readOnly
  | readWrite
  | readExecute
deriving DecidableEq

/-- Entries of one table at every level. -/
@[irreducible] def TABLE_ENTRIES : Nat := 512

/-- A 4 KiB leaf entry. -/
structure Pte where
  frame : Nat
  perm : UserPagePerm
deriving DecidableEq

/-- A page table and the frame it occupies. -/
structure PageTab where
  frame : Nat
  entries : Nat → Option Pte

/-- An entry of a page directory: a page table, or a 2 MiB page. -/
inductive Pde where
  | table (pt : PageTab)
  | huge (base : Nat)

/-- A page directory and the frame it occupies. -/
structure PageDir where
  frame : Nat
  entries : Nat → Option Pde

/-- The page-directory-pointer table below `P4[1]`. -/
structure Pdpt where
  frame : Nat
  entries : Nat → Option PageDir

/-- The entry `P4[1]`: empty, or the user half of the address space. -/
abbrev UserHalf := Option Pdpt

/-! ## Addresses -/

def USER_SPACE_BASE : Nat := 0x0000008000000000
def USER_SPACE_END : Nat := USER_SPACE_BASE + 0x0000008000000000
def USER_STACK_TOP : Nat := USER_SPACE_BASE + 0x401000
def USER_STACK_PAGES : Nat := 8

/-- `is_user_address`: the PML4 index of the address is `1`. -/
def isUserAddress (vaddr : Nat) : Bool := vaddr / 2 ^ 39 % 512 == 1

/-- The addresses that `VirtAddr::new` accepts: bits 47 to 63 are all equal. -/
def isCanonical (vaddr : Nat) : Bool := vaddr / 2 ^ 47 == 0 || vaddr / 2 ^ 47 == 2 ^ 17 - 1

/-- The three table indices of an address below its PML4 entry. -/
structure PageIdx where
  p3 : Nat
  p2 : Nat
  p1 : Nat
deriving DecidableEq

def pageOf (vaddr : Nat) : PageIdx where
  p3 := vaddr / 2 ^ 30 % TABLE_ENTRIES
  p2 := vaddr / 2 ^ 21 % TABLE_ENTRIES
  p1 := vaddr / 2 ^ 12 % TABLE_ENTRIES

/-- The walk of `resolve_user_page` below `P4[1]`: the physical address, page
offset included. -/
def UserHalf.resolve (t : UserHalf) (vaddr : Nat) : Option Nat :=
  match t with
  | none => none
  | some pdpt =>
    match pdpt.entries (pageOf vaddr).p3 with
    | none => none
    | some pd =>
      match pd.entries (pageOf vaddr).p2 with
      | none => none
      | some (.huge base) => some (base + vaddr % 2 ^ 21)
      | some (.table pt) =>
        match pt.entries (pageOf vaddr).p1 with
        | none => none
        | some pte => some (pte.frame + vaddr % 2 ^ 12)

/-! ## The frames a tree holds -/

def PageTab.frames (pt : PageTab) : List Nat :=
  (List.range TABLE_ENTRIES).flatMap fun p1 => (pt.entries p1).elim [] fun pte => [pte.frame]

/-- The 4 KiB frames below a directory entry. -/
def Pde.frames : Pde → List Nat
  | .table pt => pt.frames
  | .huge base => (List.range TABLE_ENTRIES).map fun i => base + i * FRAME_SIZE

/-- The table frames below a directory entry. -/
def Pde.tables : Pde → List Nat
  | .table pt => [pt.frame]
  | .huge _ => []

def PageDir.frames (pd : PageDir) : List Nat :=
  (List.range TABLE_ENTRIES).flatMap fun p2 => (pd.entries p2).elim [] Pde.frames

def PageDir.tables (pd : PageDir) : List Nat :=
  ((List.range TABLE_ENTRIES).flatMap fun p2 => (pd.entries p2).elim [] Pde.tables) ++ [pd.frame]

def Pdpt.frames (pdpt : Pdpt) : List Nat :=
  (List.range TABLE_ENTRIES).flatMap fun p3 => (pdpt.entries p3).elim [] PageDir.frames

def Pdpt.tables (pdpt : Pdpt) : List Nat :=
  ((List.range TABLE_ENTRIES).flatMap fun p3 => (pdpt.entries p3).elim [] PageDir.tables) ++
    [pdpt.frame]

/-- The frames mapped in the user half, in the order of the walk. -/
def UserHalf.frames (t : UserHalf) : List Nat := t.elim [] Pdpt.frames

/-- The frames of the tables that make up the user half. -/
def UserHalf.tables (t : UserHalf) : List Nat := t.elim [] Pdpt.tables

theorem pageOf_lt (vaddr : Nat) :
    (pageOf vaddr).p3 < TABLE_ENTRIES ∧ (pageOf vaddr).p2 < TABLE_ENTRIES ∧
      (pageOf vaddr).p1 < TABLE_ENTRIES := by
  have positive : 0 < TABLE_ENTRIES := by unfold TABLE_ENTRIES; omega
  exact ⟨Nat.mod_lt _ positive, Nat.mod_lt _ positive, Nat.mod_lt _ positive⟩

variable {t t' : UserHalf} {f f' : Frames} {i frame : Nat} {page : PageIdx}

theorem UserHalf.resolve_mem_frames {vaddr paddr : Nat} (resolved : t.resolve vaddr = some paddr) :
    ∃ frame ∈ t.frames, paddr = frame + vaddr % FRAME_SIZE := by
  obtain ⟨bound3, bound2, bound1⟩ := pageOf_lt vaddr
  unfold UserHalf.resolve at resolved
  split at resolved
  · cases resolved
  · next pdpt =>
    split at resolved
    · cases resolved
    · next pd atP3 =>
      -- a frame below the entries met on the way is a frame of the whole tree
      have lift : ∀ pde, pd.entries (pageOf vaddr).p2 = some pde → ∀ frame ∈ pde.frames,
          frame ∈ UserHalf.frames (some pdpt) := by
        intro pde atP2 frame member
        simp only [UserHalf.frames, elim_some, Pdpt.frames, mem_flatMap, List.mem_range]
        refine ⟨_, bound3, ?_⟩
        simp only [atP3, elim_some, PageDir.frames, mem_flatMap, List.mem_range]
        exact ⟨_, bound2, by simpa [atP2] using member⟩
      split at resolved
      · cases resolved
      · next base atP2 =>
        obtain rfl := some.inj resolved
        refine ⟨base + vaddr % 2 ^ 21 / FRAME_SIZE * FRAME_SIZE, lift _ atP2 _ ?_, ?_⟩
        · simp only [Pde.frames, List.mem_map, List.mem_range]
          refine ⟨vaddr % 2 ^ 21 / FRAME_SIZE, ?_, rfl⟩
          unfold FRAME_SIZE TABLE_ENTRIES
          omega
        · unfold FRAME_SIZE
          omega
      · next pt atP2 =>
        split at resolved
        · cases resolved
        · next pte atP1 =>
          obtain rfl := some.inj resolved
          refine ⟨pte.frame, lift _ atP2 _ ?_, rfl⟩
          simp only [Pde.frames, PageTab.frames, mem_flatMap, List.mem_range]
          exact ⟨_, bound1, by simp [atP1]⟩

/-! ## The mapper -/

/-- `AllocChain f taken f'`: the frames `taken` were allocated one after the other. -/
inductive AllocChain : Frames → List Nat → Frames → Prop
  | nil (f : Frames) : AllocChain f [] f
  | cons {f f₁ f' : Frames} {addr : Nat} {taken : List Nat} :
      f.allocateFrame = some (addr, f₁) → AllocChain f₁ taken f' → AllocChain f (addr :: taken) f'

/-- The documented behaviour of the `x86_64` crate's `Mapper` on 4 KiB user
pages.  `none` stands for the error results. -/
structure Mapper where
  mapTo : Frames → UserHalf → PageIdx → Nat → UserPagePerm → Option (Frames × UserHalf)
  unmap : UserHalf → PageIdx → Option (Nat × UserHalf)
  /-- A successful `map_to` adds the mapping of `frame` and the tables it allocated. -/
  mapTo_spec : ∀ {f t page frame perm f' t'},
    page.p3 < TABLE_ENTRIES → page.p2 < TABLE_ENTRIES → page.p1 < TABLE_ENTRIES →
    mapTo f t page frame perm = some (f', t') →
      t'.frames.Perm (frame :: t.frames) ∧
        ∃ taken, AllocChain f taken f' ∧ t'.tables.Perm (taken ++ t.tables)
  /-- A successful `unmap` removes the mapping of the frame it returns. -/
  unmap_spec : ∀ {t page frame t'},
    page.p3 < TABLE_ENTRIES → page.p2 < TABLE_ENTRIES → page.p1 < TABLE_ENTRIES →
    unmap t page = some (frame, t') →
      t.frames.Perm (frame :: t'.frames) ∧ t'.tables.Perm t.tables
  /-- The frame `unmap` returns is the one the page was mapped to. -/
  unmap_frame : ∀ {t vaddr frame t'}, unmap t (pageOf vaddr) = some (frame, t') →
    UserHalf.resolve t vaddr = some (frame + vaddr % FRAME_SIZE)

theorem AllocChain.append {f₁ : Frames} {first second : List Nat}
    (left : AllocChain f first f₁) (right : AllocChain f₁ second f') :
    AllocChain f (first ++ second) f' := by
  induction left with
  | nil => exact right
  | cons allocated _ ih => exact .cons allocated (ih right)

theorem AllocChain.shared {taken : List Nat} (chain : AllocChain f taken f') : f'.shared = f.shared := by
  induction chain with
  | nil => rfl
  | cons allocated _ ih => exact ih.trans (Frames.allocateFrame_spec allocated).2.2.2.2.1

/-! ## A mapper with the documented behaviour -/

/-- Changing the entry `i` of a table adds to the list gathered from all entries
what the new entry adds to the old one. -/
theorem flatMap_entries_perm {β γ : Type} {n : Nat} (bound : i < n) {gather : β → List γ}
    {entries entries' : Nat → Option β} {extra : List γ}
    (same : ∀ j, j ≠ i → entries' j = entries j)
    (here : ((entries' i).elim [] gather).Perm (extra ++ (entries i).elim [] gather)) :
    ((List.range n).flatMap fun j => (entries' j).elim [] gather).Perm
      (extra ++ (List.range n).flatMap fun j => (entries j).elim [] gather) := by
  induction n with
  | zero => omega
  | succ n ih =>
    rw [range_succ, flatMap_append, flatMap_append, flatMap_singleton, flatMap_singleton]
    by_cases last : i = n
    · subst last
      have before : ((List.range i).flatMap fun j => (entries' j).elim [] gather) =
          (List.range i).flatMap fun j => (entries j).elim [] gather :=
        flatMap_congr fun j member => by rw [same j (by
          have := List.mem_range.mp member
          omega)]
      rw [before]
      refine (append_left _ here).trans ?_
      rw [← append_assoc, ← append_assoc]
      exact append_right _ perm_append_comm
    · rw [same n (Ne.symm last), ← append_assoc]
      exact append_right _ (ih (by omega))

/-- The table an entry leads to, or a fresh empty one in a newly allocated frame. -/
def getOrAlloc {τ : Type} (f : Frames) (entry : Option τ) (fresh : Nat → τ) :
    Option (Frames × τ) :=
  match entry with
  | some table => some (f, table)
  | none => f.allocateFrame.map fun taken => (taken.2, fresh taken.1)

/-- The page table below a directory entry; a 2 MiB page has none. -/
def Pde.getTable (f : Frames) (entry : Option Pde) : Option (Frames × PageTab) :=
  match entry with
  | some (.huge _) => none
  | some (.table pt) => some (f, pt)
  | none => f.allocateFrame.map fun taken => (taken.2, ⟨taken.1, fun _ => none⟩)

def PageTab.setEntry (pt : PageTab) (p1 : Nat) (pte : Option Pte) : PageTab :=
  { pt with entries := update pt.entries p1 pte }

def PageDir.setEntry (pd : PageDir) (p2 : Nat) (pde : Pde) : PageDir :=
  { pd with entries := update pd.entries p2 (some pde) }

def Pdpt.setEntry (pdpt : Pdpt) (p3 : Nat) (pd : PageDir) : Pdpt :=
  { pdpt with entries := update pdpt.entries p3 (some pd) }

/-- `map_to`: walk down, creating missing tables; a page that is already mapped
and a 2 MiB page on the way are errors. -/
def fourLevelMapTo (f : Frames) (t : UserHalf) (page : PageIdx) (frame : Nat)
    (perm : UserPagePerm) : Option (Frames × UserHalf) := do
  let (f₁, pdpt) ← getOrAlloc f t fun addr => ⟨addr, fun _ => none⟩
  let (f₂, pd) ← getOrAlloc f₁ (pdpt.entries page.p3) fun addr => ⟨addr, fun _ => none⟩
  let (f₃, pt) ← Pde.getTable f₂ (pd.entries page.p2)
  match pt.entries page.p1 with
  | some _ => none
  | none =>
    some (f₃, some (pdpt.setEntry page.p3 (pd.setEntry page.p2
      (.table (pt.setEntry page.p1 (some ⟨frame, perm⟩))))))

/-- `unmap`: the tables stay, only the leaf entry goes. -/
def fourLevelUnmap (t : UserHalf) (page : PageIdx) : Option (Nat × UserHalf) := do
  let pdpt ← t
  let pd ← pdpt.entries page.p3
  match pd.entries page.p2 with
  | some (.table pt) =>
    let pte ← pt.entries page.p1
    some (pte.frame, some (pdpt.setEntry page.p3 (pd.setEntry page.p2
      (.table (pt.setEntry page.p1 none)))))
  | _ => none

theorem PageTab.setEntry_self (pt : PageTab) (i : Nat) (pte : Option Pte) :
    (pt.setEntry i pte).entries i = pte := update_self _ _ _

theorem PageTab.setEntry_ne (pt : PageTab) (pte : Option Pte) (j : Nat) (differs : j ≠ i) :
    (pt.setEntry i pte).entries j = pt.entries j := update_of_ne differs _ _

theorem PageDir.setEntry_self (pd : PageDir) (i : Nat) (pde : Pde) :
    (pd.setEntry i pde).entries i = some pde := update_self _ _ _

theorem PageDir.setEntry_ne (pd : PageDir) (pde : Pde) (j : Nat) (differs : j ≠ i) :
    (pd.setEntry i pde).entries j = pd.entries j := update_of_ne differs _ _

theorem Pdpt.setEntry_self (pdpt : Pdpt) (i : Nat) (pd : PageDir) :
    (pdpt.setEntry i pd).entries i = some pd := update_self _ _ _

theorem Pdpt.setEntry_ne (pdpt : Pdpt) (pd : PageDir) (j : Nat) (differs : j ≠ i) :
    (pdpt.setEntry i pd).entries j = pdpt.entries j := update_of_ne differs _ _

/-- What `unmap` does: it empties the leaf entry of the page. -/
theorem fourLevelUnmap_cases (unmapped : fourLevelUnmap t page = some (frame, t')) :
    ∃ (pdpt : Pdpt) (pd : PageDir) (pt : PageTab) (perm : UserPagePerm), t = some pdpt ∧
      pdpt.entries page.p3 = some pd ∧ pd.entries page.p2 = some (.table pt) ∧
      pt.entries page.p1 = some ⟨frame, perm⟩ ∧
      t' = some (pdpt.setEntry page.p3 (pd.setEntry page.p2
        (.table (pt.setEntry page.p1 none)))) := by
  simp only [fourLevelUnmap, bind_eq_bind, bind_eq_some_iff] at unmapped
  obtain ⟨pdpt, rfl, pd, atP3, leaf⟩ := unmapped
  cases atP2 : pd.entries page.p2 with
  | none => simp [atP2] at leaf
  | some pde =>
    cases pde with
    | huge base => simp [atP2] at leaf
    | table pt =>
      simp only [atP2, bind_eq_some_iff] at leaf
      obtain ⟨pte, atP1, rfl, rfl⟩ := leaf
      exact ⟨pdpt, pd, pt, pte.perm, rfl, atP3, atP2, atP1, rfl⟩

theorem fourLevelUnmap_frame {vaddr : Nat} (unmapped : fourLevelUnmap t (pageOf vaddr) = some (frame, t')) :
    t.resolve vaddr = some (frame + vaddr % FRAME_SIZE) := by
  obtain ⟨pdpt, pd, pt, perm, rfl, atP3, atP2, atP1, rfl⟩ := fourLevelUnmap_cases unmapped
  simp [UserHalf.resolve, atP3, atP2, atP1, FRAME_SIZE]

/-! ### Gathering

The frames, the tables and the leaves of a user half are gathered in the same way, and
`map_to` and `unmap` change whatever is gathered by what one leaf and the new tables
contribute. -/

/-- What each leaf, each 2 MiB page and each table contributes. -/
structure Gather (γ : Type) where
  leaf : Pte → List γ
  huge : Nat → List γ
  own : Nat → List γ

namespace Gather

variable {γ : Type} (g : Gather γ)

def entries {β : Type} (below : β → List γ) (table : Nat → Option β) (frame : Nat) : List γ :=
  ((List.range TABLE_ENTRIES).flatMap fun i => (table i).elim [] below) ++ g.own frame

def tab (pt : PageTab) : List γ := g.entries g.leaf pt.entries pt.frame

def pde : Pde → List γ
  | .table pt => g.tab pt
  | .huge base => g.huge base

def dir (pd : PageDir) : List γ := g.entries g.pde pd.entries pd.frame

def top (pdpt : Pdpt) : List γ := g.entries g.dir pdpt.entries pdpt.frame

def half (t : UserHalf) : List γ := t.elim [] g.top

/-- Two tables that agree outside one entry differ by what the two entries differ in. -/
theorem entries_perm {β : Type} {below : β → List γ} {table table' : Nat → Option β} {frame i : Nat}
    {extra : List γ} (bound : i < TABLE_ENTRIES) (same : ∀ j, j ≠ i → table' j = table j)
    (here : ((table' i).elim [] below).Perm (extra ++ (table i).elim [] below)) :
    (g.entries below table' frame).Perm (extra ++ g.entries below table frame) := by
  rw [entries, entries, ← append_assoc]
  exact append_right _ (flatMap_entries_perm bound same here)

theorem entries_empty {β : Type} (below : β → List γ) (frame : Nat) :
    g.entries below (fun _ => none) frame = g.own frame := by
  simp [entries]

end Gather

theorem getOrAlloc_gathers {τ : Type} {entry : Option τ} {fresh : Nat → τ} {table : τ}
    (found : getOrAlloc f entry fresh = some (f', table)) :
    ∃ taken, AllocChain f taken f' ∧ ∀ (γ : Type) (g : Gather γ) (all : τ → List γ),
      (∀ addr, all (fresh addr) = g.own addr) → all table = taken.flatMap g.own ++ entry.elim [] all := by
  cases entry with
  | some old =>
    cases found
    exact ⟨[], .nil _, fun _ _ _ _ => rfl⟩
  | none =>
    obtain ⟨⟨addr, f₁⟩, allocated, pair⟩ := map_eq_some_iff.mp found
    cases pair
    exact ⟨[addr], .cons allocated (.nil _), fun _ _ _ new => by simp [new]⟩

theorem Pde.getTable_gathers {entry : Option Pde} {pt : PageTab}
    (found : Pde.getTable f entry = some (f', pt)) :
    ∃ taken, AllocChain f taken f' ∧ ∀ (γ : Type) (g : Gather γ),
      g.tab pt = taken.flatMap g.own ++ entry.elim [] g.pde := by
  match entry with
  | some (.table old) =>
    cases found
    exact ⟨[], .nil _, fun _ _ => rfl⟩
  | none =>
    obtain ⟨⟨addr, f₁⟩, allocated, pair⟩ := map_eq_some_iff.mp found
    cases pair
    exact ⟨[addr], .cons allocated (.nil _), fun _ g => by simp [Gather.tab, g.entries_empty]⟩

section

variable (bound3 : page.p3 < TABLE_ENTRIES) (bound2 : page.p2 < TABLE_ENTRIES) (bound1 : page.p1 < TABLE_ENTRIES)
include bound3 bound2 bound1

/-- `map_to` adds one leaf and the tables that it took. -/
theorem fourLevelMapTo_gathers {perm : UserPagePerm}
    (mapped : fourLevelMapTo f t page frame perm = some (f', t')) :
    ∃ taken, AllocChain f taken f' ∧ ∀ (γ : Type) (g : Gather γ),
      (g.half t').Perm (g.leaf ⟨frame, perm⟩ ++ (taken.flatMap g.own ++ g.half t)) := by
  simp only [fourLevelMapTo, bind_eq_bind, bind_eq_some_iff] at mapped
  obtain ⟨⟨f₁, pdpt⟩, getPdpt, ⟨f₂, pd⟩, getPd, ⟨f₃, pt⟩, getPt, leaf⟩ := mapped
  obtain ⟨taken₁, chain₁, atTop⟩ := getOrAlloc_gathers getPdpt
  obtain ⟨taken₂, chain₂, atP3⟩ := getOrAlloc_gathers getPd
  obtain ⟨taken₃, chain₃, atP2⟩ := Pde.getTable_gathers getPt
  cases atP1 : pt.entries page.p1 with
  | some old => simp [atP1] at leaf
  | none =>
    simp only [atP1] at leaf
    obtain ⟨rfl, rfl⟩ := leaf
    refine ⟨taken₁ ++ (taken₂ ++ taken₃), chain₁.append (chain₂.append chain₃), fun γ g => ?_⟩
    have atTop := atTop γ g g.top fun addr => g.entries_empty _ addr
    have atP3 := atP3 γ g g.dir fun addr => g.entries_empty _ addr
    -- the gain at each of the three levels
    have inTab : (g.tab (pt.setEntry page.p1 (some ⟨frame, perm⟩))).Perm
        (g.leaf ⟨frame, perm⟩ ++ g.tab pt) :=
      g.entries_perm bound1 (pt.setEntry_ne _) (by simp [PageTab.setEntry_self, atP1])
    have inDir : (g.dir (pd.setEntry page.p2 (.table (pt.setEntry page.p1 (some ⟨frame, perm⟩))))).Perm
        ((g.leaf ⟨frame, perm⟩ ++ taken₃.flatMap g.own) ++ g.dir pd) := by
      refine g.entries_perm bound2 (pd.setEntry_ne _) ?_
      rw [PageDir.setEntry_self, append_assoc, ← atP2]
      exact inTab
    have inTop : (g.top (pdpt.setEntry page.p3 (pd.setEntry page.p2
        (.table (pt.setEntry page.p1 (some ⟨frame, perm⟩)))))).Perm
          ((g.leaf ⟨frame, perm⟩ ++ taken₃.flatMap g.own ++ taken₂.flatMap g.own) ++ g.top pdpt) := by
      refine g.entries_perm bound3 (pdpt.setEntry_ne _) ?_
      rw [Pdpt.setEntry_self, append_assoc, ← atP3]
      exact inDir
    refine inTop.trans ?_
    rw [atTop]
    simp only [flatMap_append, append_assoc]
    refine append_left _ ?_
    rw [← append_assoc, ← append_assoc, ← append_assoc, ← append_assoc]
    refine append_right _ (perm_append_comm.trans ?_)
    rw [append_assoc]
    exact append_left _ perm_append_comm

theorem fourLevelUnmap_gathers (unmapped : fourLevelUnmap t page = some (frame, t')) :
    ∃ perm, ∀ (γ : Type) (g : Gather γ), (g.half t).Perm (g.leaf ⟨frame, perm⟩ ++ g.half t') := by
  obtain ⟨pdpt, pd, pt, perm, rfl, atP3, atP2, atP1, rfl⟩ := fourLevelUnmap_cases unmapped
  refine ⟨perm, fun γ g => ?_⟩
  refine g.entries_perm bound3 (fun j differs => (pdpt.setEntry_ne _ j differs).symm) ?_
  rw [Pdpt.setEntry_self, atP3]
  refine g.entries_perm bound2 (fun j differs => (pd.setEntry_ne _ j differs).symm) ?_
  rw [PageDir.setEntry_self, atP2]
  exact g.entries_perm bound1 (fun j differs => (pt.setEntry_ne _ j differs).symm)
    (by simp [PageTab.setEntry_self, atP1])

end

def Gather.frames : Gather Nat where
  leaf pte := [pte.frame]
  huge base := (List.range TABLE_ENTRIES).map fun i => base + i * FRAME_SIZE
  own _ := []

def Gather.tables : Gather Nat := ⟨fun _ => [], fun _ => [], fun frame => [frame]⟩

theorem UserHalf.frames_eq (t : UserHalf) : t.frames = Gather.frames.half t := by
  have pde : Pde.frames = Gather.frames.pde := funext fun pde => by
    cases pde <;> simp [Pde.frames, PageTab.frames, Gather.pde, Gather.tab, Gather.entries, Gather.frames]
  have dir : PageDir.frames = Gather.frames.dir := funext fun pd => by
    simp [PageDir.frames, Gather.dir, Gather.entries, pde, Gather.frames]
  have top : Pdpt.frames = Gather.frames.top := funext fun pdpt => by
    simp [Pdpt.frames, Gather.top, Gather.entries, dir, Gather.frames]
  rw [UserHalf.frames, top, Gather.half]

theorem PageTab.none_below (pt : PageTab) :
    ((List.range TABLE_ENTRIES).flatMap fun i =>
      (pt.entries i).elim ([] : List Nat) fun _ => []) = [] :=
  flatMap_eq_nil_iff.mpr fun i _ => by cases pt.entries i <;> rfl

theorem UserHalf.tables_eq (t : UserHalf) : t.tables = Gather.tables.half t := by
  have pde : Pde.tables = Gather.tables.pde := funext fun pde => by
    cases pde with
    | huge base => rfl
    | table pt =>
      simp only [Pde.tables, Gather.pde, Gather.tab, Gather.entries, Gather.tables]
      rw [pt.none_below, nil_append]
  have dir : PageDir.tables = Gather.tables.dir := funext fun pd => by
    rw [PageDir.tables, pde]
    rfl
  have top : Pdpt.tables = Gather.tables.top := funext fun pdpt => by
    rw [Pdpt.tables, dir]
    rfl
  rw [UserHalf.tables, top, Gather.half]

theorem fourLevelMapTo_spec
    {perm : UserPagePerm} (bound3 : page.p3 < TABLE_ENTRIES) (bound2 : page.p2 < TABLE_ENTRIES)
    (bound1 : page.p1 < TABLE_ENTRIES)
    (mapped : fourLevelMapTo f t page frame perm = some (f', t')) :
    t'.frames.Perm (frame :: t.frames) ∧
      ∃ taken, AllocChain f taken f' ∧ t'.tables.Perm (taken ++ t.tables) := by
  obtain ⟨taken, chain, gathers⟩ := fourLevelMapTo_gathers bound3 bound2 bound1 mapped
  have frames := gathers _ Gather.frames
  have tables := gathers _ Gather.tables
  rw [show taken.flatMap Gather.frames.own = [] from flatMap_eq_nil_iff.mpr fun _ _ => rfl] at frames
  rw [show taken.flatMap Gather.tables.own = taken from flatMap_singleton' taken] at tables
  simp only [UserHalf.frames_eq, UserHalf.tables_eq]
  exact ⟨frames, taken, chain, tables⟩

theorem fourLevelUnmap_spec (bound3 : page.p3 < TABLE_ENTRIES) (bound2 : page.p2 < TABLE_ENTRIES)
    (bound1 : page.p1 < TABLE_ENTRIES) (unmapped : fourLevelUnmap t page = some (frame, t')) :
    t.frames.Perm (frame :: t'.frames) ∧ t'.tables.Perm t.tables := by
  obtain ⟨perm, gathers⟩ := fourLevelUnmap_gathers bound3 bound2 bound1 unmapped
  simp only [UserHalf.frames_eq, UserHalf.tables_eq]
  exact ⟨gathers _ Gather.frames, (gathers _ Gather.tables).symm⟩

/-- A mapper with the documented behaviour: the four-level walk. -/
def Mapper.fourLevel : Mapper where
  mapTo := fourLevelMapTo
  unmap := fourLevelUnmap
  mapTo_spec := fourLevelMapTo_spec
  unmap_spec := fourLevelUnmap_spec
  unmap_frame := fourLevelUnmap_frame

/-! ## Releasing a user half -/

/-- One level of the release loops: `step` for every entry in use, in index order. -/
def forEntries {β : Type} (entries : Nat → Option β) (step : Frames → β → Frames)
    (f : Frames) : Frames :=
  (List.range TABLE_ENTRIES).foldl (fun f i => (entries i).elim f (step f)) f

/-- Release of what lies below a directory entry: the mapped frames, then the page table. -/
def freePde (f : Frames) : Pde → Frames
  | .huge base =>
    (List.range TABLE_ENTRIES).foldl (fun f i => f.releaseUserFrame (base + i * FRAME_SIZE)) f
  | .table pt =>
    (forEntries pt.entries (fun f pte => f.releaseUserFrame pte.frame) f).freeFrame pt.frame

/-- Release of what lies below a PDPT entry. -/
def freePageDir (f : Frames) (pd : PageDir) : Frames :=
  (forEntries pd.entries freePde f).freeFrame pd.frame

/-- `free_user_space`; the caller's PML4 entry is empty afterwards. -/
def freeUserSpace (f : Frames) : UserHalf → Frames
  | none => f
  | some pdpt => (forEntries pdpt.entries freePageDir f).freeFrame pdpt.frame

/-! The walk releases every mapped frame and every table once: what is said of the
allocator together with the frames and tables that are still to be released carries
over from the whole user half to nothing. -/

section Release

variable {Q : Frames → List Nat → List Nat → Prop}

variable {f : Frames} {pages tables : List Nat}

/-- A loop over table entries releases what the entries hold when its body releases
what one entry holds. -/
theorem forEntries_release {β : Type} (frames below : β → List Nat) {step : Frames → β → Frames}
    {entries : Nat → Option β}
    (body : ∀ {f P T b}, Q f (frames b ++ P) (below b ++ T) → Q (step f b) P T)
    (all : Q f (((List.range TABLE_ENTRIES).flatMap fun i => (entries i).elim [] frames) ++ pages)
      (((List.range TABLE_ENTRIES).flatMap fun i => (entries i).elim [] below) ++ tables)) :
    Q (forEntries entries step f) pages tables := by
  unfold forEntries
  generalize List.range TABLE_ENTRIES = l at all ⊢
  induction l generalizing f with
  | nil => exact all
  | cons i rest ih =>
    rw [flatMap_cons, flatMap_cons, append_assoc, append_assoc] at all
    rw [foldl_cons]
    refine ih ?_
    cases atI : entries i with
    | none => simpa [atI] using all
    | some b => exact body (by simpa [atI] using all)

variable (release : ∀ {f a P T}, Q f (a :: P) T → Q (f.releaseUserFrame a) P T)
  (freeTable : ∀ {f a P T}, Q f P (a :: T) → Q (f.freeFrame a) P T)
include release freeTable

theorem freePde_release {pde : Pde}
    (all : Q f (pde.frames ++ pages) (pde.tables ++ tables)) : Q (freePde f pde) pages tables := by
  cases pde with
  | huge base =>
    have loop : ∀ (l : List Nat) {f : Frames}, Q f (l ++ pages) tables →
        Q (l.foldl Frames.releaseUserFrame f) pages tables := by
      intro l
      induction l with
      | nil => exact fun all => all
      | cons frame rest ih => exact fun all => ih (release all)
    simpa [Pde.frames, foldl_map, freePde] using loop _ all
  | table pt =>
    have loop : Q (forEntries pt.entries (fun f pte => f.releaseUserFrame pte.frame) f) pages
        (pt.frame :: tables) := by
      refine forEntries_release (fun pte => [pte.frame]) (fun _ => []) release ?_
      rw [pt.none_below]
      simpa [Pde.frames, PageTab.frames, Pde.tables] using all
    exact freeTable loop

theorem freePageDir_release {pd : PageDir} (all : Q f (pd.frames ++ pages) (pd.tables ++ tables)) :
    Q (freePageDir f pd) pages tables := by
  refine freeTable (forEntries_release Pde.frames Pde.tables (freePde_release release freeTable) ?_)
  simpa [PageDir.frames, PageDir.tables] using all

/-- **`free_user_space` gives back every frame and every table of the user half.** -/
theorem freeUserSpace_release {t : UserHalf}
    (all : Q f (t.frames ++ pages) (t.tables ++ tables)) : Q (freeUserSpace f t) pages tables := by
  cases t with
  | none => exact all
  | some pdpt =>
    refine freeTable (forEntries_release PageDir.frames PageDir.tables
      (freePageDir_release release freeTable) ?_)
    simpa [UserHalf.frames, UserHalf.tables, Pdpt.frames, Pdpt.tables] using all

end Release

end MorionOS.Kernel
