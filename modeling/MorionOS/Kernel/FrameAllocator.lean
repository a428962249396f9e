import Mathlib.Tactic
import Mathlib.Logic.Function.Basic

/-!
# The physical frame allocator

The kernel keeps one bit per 4 KiB frame (`1` = used), a short list of pinned
physical ranges that are never released, and a bounded side table that counts
the mappings of frames handed out by `SYS_ALLOC_PAGE` and `SYS_SHARE_PAGE`
(`memory/frame_allocator.rs`).

* `allocateFrame` takes the first clear bit.
* `incRef` bumps the entry of an address or claims the first empty entry; when
  the table is full it silently does nothing, and the counter is a `u8` that
  wraps around in a release build.
* `releaseUserFrame` decrements a counted frame and frees it at zero; a frame
  without a counter is freed at once.

The lemmas at the end say what each operation does to the bitmap and to the
count of an address (`refCount`).

Names are those of the source, in camel case.
-/

namespace MorionOS.Kernel

open Function List

/-- Frame size in bytes. -/
def FRAME_SIZE : Nat := 4096

theorem frame_start {a : Nat} (aligned : a % FRAME_SIZE = 0) : a / FRAME_SIZE * FRAME_SIZE = a :=
  Nat.div_mul_cancel (Nat.dvd_of_mod_eq_zero aligned)

/-- Number of frames the bitmap can describe (1 MiB of bits, 32 GiB of memory). -/
def MAX_MANAGED_FRAMES : Nat := 1024 * 1024 * 8

/-- Number of entries of the shared-frame table. -/
def MAX_SHARED_FRAMES : Nat := 1024

/-- One entry of `SHARED_FRAMES`: an address and its `u8` count; count `0` marks
an empty entry. -/
structure SharedSlot where
  addr : Nat
  count : Nat
deriving DecidableEq

/-- The allocator's static data. -/
structure Frames where
  /-- `true` = used, indexed by frame number. -/
  bitmap : Nat → Bool
  /-- `FREE_FRAMES`. -/
  freeFrames : Nat
  /-- Pinned byte ranges `[start, end)`. -/
  pinned : List (Nat × Nat)
  /-- `SHARED_FRAMES`. -/
  shared : List SharedSlot

/-- `is_pinned`: does the address lie in a pinned range? -/
def Frames.isPinned (f : Frames) (addr : Nat) : Bool :=
  f.pinned.any fun range => decide (range.1 ≤ addr) && decide (addr < range.2)

/-- The first clear bit at or after `idx`, looking at `fuel` frames. -/
def firstClear (bitmap : Nat → Bool) : Nat → Nat → Option Nat
  | 0, _ => none
  | fuel + 1, idx => if bitmap idx then firstClear bitmap fuel (idx + 1) else some idx

/-- `allocate_frame`: the first clear bit is set and its frame address returned. -/
def Frames.allocateFrame (f : Frames) : Option (Nat × Frames) :=
  match firstClear f.bitmap MAX_MANAGED_FRAMES 0 with
  | none => none
  | some idx =>
    some (idx * FRAME_SIZE,
      { f with bitmap := update f.bitmap idx true, freeFrames := f.freeFrames - 1 })

/-- `free_frame`: pinned frames and frames that are already clear are left alone. -/
def Frames.freeFrame (f : Frames) (addr : Nat) : Frames :=
  if f.isPinned addr then f
  else if addr / FRAME_SIZE < MAX_MANAGED_FRAMES ∧ f.bitmap (addr / FRAME_SIZE) = true then
    { f with
      bitmap := update f.bitmap (addr / FRAME_SIZE) false
      freeFrames := f.freeFrames + 1 }
  else f

/-- First loop of `inc_ref`: bump the entry of a counted address (`u8` arithmetic). -/
def bumpSlot (addr : Nat) : List SharedSlot → Option (List SharedSlot)
  | [] => none
  | slot :: rest =>
    if slot.addr = addr ∧ 0 < slot.count then
      some ({ slot with count := (slot.count + 1) % 256 } :: rest)
    else (bumpSlot addr rest).map (slot :: ·)

/-- Second loop of `inc_ref`: claim the first empty entry. -/
def claimSlot (addr : Nat) : List SharedSlot → Option (List SharedSlot)
  | [] => none
  | slot :: rest =>
    if slot.count = 0 then some (⟨addr, 1⟩ :: rest)
    else (claimSlot addr rest).map (slot :: ·)

/-- `inc_ref`; a full table leaves the frame unrecorded. -/
def Frames.incRef (f : Frames) (addr : Nat) : Frames :=
  match bumpSlot addr f.shared with
  | some table => { f with shared := table }
  | none =>
    match claimSlot addr f.shared with
    | some table => { f with shared := table }
    | none => f

/-- The loop of `dec_ref`: the flag says that the count reached zero. -/
def dropSlot (addr : Nat) : List SharedSlot → Bool × List SharedSlot
  | [] => (false, [])
  | slot :: rest =>
    if slot.addr = addr ∧ 0 < slot.count then
      if slot.count - 1 = 0 then (true, ⟨0, 0⟩ :: rest)
      else (false, { slot with count := slot.count - 1 } :: rest)
    else ((dropSlot addr rest).1, slot :: (dropSlot addr rest).2)

def Frames.decRef (f : Frames) (addr : Nat) : Bool × Frames :=
  ((dropSlot addr f.shared).1, { f with shared := (dropSlot addr f.shared).2 })

def Frames.isTracked (f : Frames) (addr : Nat) : Bool :=
  f.shared.any fun slot => decide (slot.addr = addr) && decide (0 < slot.count)

/-- The pair of statements `if dec_ref(p) { free_frame(p) }`. -/
def Frames.dropFrame (f : Frames) (addr : Nat) : Frames :=
  if (f.decRef addr).1 then (f.decRef addr).2.freeFrame addr else (f.decRef addr).2

def Frames.releaseUserFrame (f : Frames) (addr : Nat) : Frames :=
  if f.isTracked addr then f.dropFrame addr else f.freeFrame addr

/-! ## The count of an address -/

/-- The count recorded for an address, `0` when it has no entry. -/
def countOf (addr : Nat) : List SharedSlot → Nat
  | [] => 0
  | slot :: rest => if slot.addr = addr ∧ 0 < slot.count then slot.count else countOf addr rest

/-- The count recorded for an address in the allocator's table. -/
def Frames.refCount (f : Frames) (addr : Nat) : Nat := countOf addr f.shared

/-- No address has two live entries. -/
def SlotsUnique (table : List SharedSlot) : Prop :=
  table.Pairwise fun x y => 0 < x.count → 0 < y.count → x.addr ≠ y.addr

variable {addr : Nat} {table table' : List SharedSlot} {f : Frames}

theorem countOf_pos_iff : 0 < countOf addr table ↔ ∃ slot ∈ table, slot.addr = addr ∧ 0 < slot.count := by
  induction table with
  | nil => simp [countOf]
  | cons slot rest ih =>
    rw [countOf, exists_mem_cons_iff, ← ih]
    split <;> simp [*]

theorem countOf_eq_zero_of_forall
    (absent : ∀ slot ∈ table, 0 < slot.count → slot.addr ≠ addr) : countOf addr table = 0 := by
  by_contra counted
  obtain ⟨slot, member, same, live⟩ := countOf_pos_iff.mp (Nat.pos_of_ne_zero counted)
  exact absent slot member live same

/-- The first live entry counts. -/
theorem countOf_append (addr : Nat) (table rest : List SharedSlot) :
    countOf addr (table ++ rest) = if countOf addr table = 0 then countOf addr rest else countOf addr table := by
  induction table with
  | nil => rfl
  | cons slot table ih =>
    by_cases here : slot.addr = addr ∧ 0 < slot.count
    · simp [countOf, here, here.2.ne']
    · simp [countOf, here, ih]

theorem Frames.isTracked_iff (f : Frames) (addr : Nat) :
    f.isTracked addr = true ↔ 0 < f.refCount addr := by
  simp [Frames.isTracked, Frames.refCount, countOf_pos_iff]

theorem mem_of_mem_replaced {before after : List SharedSlot} {slot slot' x : SharedSlot}
    (member : x ∈ before ++ slot' :: after) : x = slot' ∨ x ∈ before ++ slot :: after := by
  simp only [mem_append, mem_cons] at member ⊢
  tauto

theorem slotsUnique_middle {before after : List SharedSlot} {slot : SharedSlot} :
    SlotsUnique (before ++ slot :: after) ↔
      (∀ x ∈ before ++ after, 0 < slot.count → 0 < x.count → slot.addr ≠ x.addr) ∧ SlotsUnique (before ++ after) := by
  have symm : ∀ {x y : SharedSlot}, (0 < x.count → 0 < y.count → x.addr ≠ y.addr) →
      0 < y.count → 0 < x.count → y.addr ≠ x.addr := fun apart hy hx => (apart hx hy).symm
  rw [SlotsUnique, pairwise_middle symm, pairwise_cons]
  rfl

/-! ## What `inc_ref` does to the counts -/

theorem bumpSlot_eq_none_iff : bumpSlot addr table = none ↔ countOf addr table = 0 := by
  induction table with
  | nil => simp [bumpSlot, countOf]
  | cons slot rest ih =>
    by_cases here : slot.addr = addr ∧ 0 < slot.count
    · simp [bumpSlot, countOf, here]
      omega
    · simp [bumpSlot, countOf, here, ih]

theorem bumpSlot_eq_some (bumped : bumpSlot addr table = some table') :
    ∃ before slot after, table = before ++ slot :: after ∧
      table' = before ++ { slot with count := (slot.count + 1) % 256 } :: after ∧
      slot.addr = addr ∧ 0 < slot.count ∧ countOf addr before = 0 := by
  induction table generalizing table' with
  | nil => cases bumped
  | cons slot rest ih =>
    rw [bumpSlot] at bumped
    split at bumped
    next here =>
      cases bumped
      exact ⟨[], slot, rest, rfl, rfl, here.1, here.2, rfl⟩
    next here =>
      obtain ⟨rest', restBumped, rfl⟩ := Option.map_eq_some_iff.mp bumped
      obtain ⟨before, found, after, rfl, rfl, same, live, none⟩ := ih restBumped
      exact ⟨slot :: before, found, after, rfl, rfl, same, live, by rw [countOf, if_neg here, none]⟩

theorem claimSlot_eq_some (claimed : claimSlot addr table = some table') :
    ∃ before slot after, table = before ++ slot :: after ∧ table' = before ++ ⟨addr, 1⟩ :: after ∧
      slot.count = 0 := by
  induction table generalizing table' with
  | nil => cases claimed
  | cons slot rest ih =>
    rw [claimSlot] at claimed
    split at claimed
    next empty =>
      cases claimed
      exact ⟨[], slot, rest, rfl, rfl, empty⟩
    · obtain ⟨rest', restClaimed, rfl⟩ := Option.map_eq_some_iff.mp claimed
      obtain ⟨before, found, after, rfl, rfl, empty⟩ := ih restClaimed
      exact ⟨slot :: before, found, after, rfl, rfl, empty⟩

theorem bumpSlot_countOf
    (bumped : bumpSlot addr table = some table') (small : countOf addr table < 255) (other : Nat) :
    countOf other table' = if other = addr then countOf addr table + 1 else countOf other table := by
  obtain ⟨before, slot, after, rfl, rfl, rfl, live, none⟩ := bumpSlot_eq_some bumped
  have here : countOf slot.addr (before ++ slot :: after) = slot.count := by
    simp [countOf_append, countOf, none, live]
  rw [here] at small ⊢
  have noWrap : (slot.count + 1) % 256 = slot.count + 1 := Nat.mod_eq_of_lt (by omega)
  by_cases same : other = slot.addr
  · simp [countOf_append, countOf, same, none, noWrap]
  · simp [countOf_append, countOf, same, Ne.symm same]

theorem claimSlot_countOf
    (claimed : claimSlot addr table = some table') (absent : countOf addr table = 0) (other : Nat) :
    countOf other table' = if other = addr then 1 else countOf other table := by
  obtain ⟨before, slot, after, rfl, rfl, empty⟩ := claimSlot_eq_some claimed
  by_cases same : other = addr
  · rw [countOf_append] at absent
    have none : countOf addr before = 0 := by
      split at absent
      · assumption
      · exact absent
    simp [countOf_append, countOf, same, none]
  · simp [countOf_append, countOf, empty, same, Ne.symm same]

/-- Bumping a counted frame below the `u8` limit adds one to its count only. -/
theorem Frames.refCount_incRef_of_pos (tracked : 0 < f.refCount addr)
    (small : f.refCount addr < 255) (other : Nat) :
    (f.incRef addr).refCount other =
      if other = addr then f.refCount addr + 1 else f.refCount other := by
  unfold Frames.incRef
  cases bumped : bumpSlot addr f.shared with
  | none =>
    have := bumpSlot_eq_none_iff.mp bumped
    exact absurd tracked (by simp [Frames.refCount, this])
  | some table => exact bumpSlot_countOf bumped small other

/-- Recording an uncounted frame gives it at most the count one and changes no
other count. -/
theorem Frames.refCount_incRef_of_zero (untracked : f.refCount addr = 0) :
    ((f.incRef addr).refCount addr = 1 ∨ (f.incRef addr).refCount addr = 0) ∧
      ∀ other, other ≠ addr → (f.incRef addr).refCount other = f.refCount other := by
  unfold Frames.incRef
  rw [bumpSlot_eq_none_iff.mpr untracked]
  cases claimed : claimSlot addr f.shared with
  | none => exact ⟨Or.inr untracked, fun _ _ => rfl⟩
  | some table =>
    refine ⟨Or.inl ?_, fun other differs => ?_⟩
    · simpa [Frames.refCount] using claimSlot_countOf claimed untracked addr
    · simpa [Frames.refCount, differs] using claimSlot_countOf claimed untracked other

@[simp] theorem Frames.incRef_bitmap (f : Frames) (addr : Nat) :
    (f.incRef addr).bitmap = f.bitmap := by
  unfold Frames.incRef
  split
  · rfl
  · split <;> rfl

theorem Frames.incRef_unique (addr : Nat) (unique : SlotsUnique f.shared) :
    SlotsUnique (f.incRef addr).shared := by
  unfold Frames.incRef
  cases bumped : bumpSlot addr f.shared with
  | some table =>
    obtain ⟨before, slot, after, shared, rfl, -, live, -⟩ := bumpSlot_eq_some bumped
    rw [shared, slotsUnique_middle] at unique
    exact slotsUnique_middle.mpr ⟨fun x member _ => unique.1 x member live, unique.2⟩
  | none =>
    cases claimed : claimSlot addr f.shared with
    | none => exact unique
    | some table =>
      obtain ⟨before, slot, after, shared, rfl, -⟩ := claimSlot_eq_some claimed
      have absent := bumpSlot_eq_none_iff.mp bumped
      rw [shared] at unique absent
      refine slotsUnique_middle.mpr ⟨fun x member _ liveX same => ?_, (slotsUnique_middle.mp unique).2⟩
      have found : x ∈ before ++ slot :: after := by
        simp only [mem_append] at member ⊢
        tauto
      have counted : 0 < countOf addr (before ++ slot :: after) :=
        countOf_pos_iff.mpr ⟨x, found, same.symm, liveX⟩
      omega

/-! ## What `dec_ref` does to the counts -/

theorem dropSlot_cases (addr : Nat) (table : List SharedSlot) :
    (dropSlot addr table = (false, table) ∧ countOf addr table = 0) ∨
      ∃ before slot after, table = before ++ slot :: after ∧ slot.addr = addr ∧ 0 < slot.count ∧
        countOf addr before = 0 ∧ dropSlot addr table = (decide (slot.count = 1),
          before ++ (if slot.count = 1 then ⟨0, 0⟩ else { slot with count := slot.count - 1 }) :: after) := by
  induction table with
  | nil => exact .inl ⟨rfl, rfl⟩
  | cons slot rest ih =>
    rw [dropSlot, countOf]
    split
    next here =>
      refine .inr ⟨[], slot, rest, rfl, here.1, here.2, rfl, ?_⟩
      have last : slot.count - 1 = 0 ↔ slot.count = 1 := by omega
      simp only [last]
      split <;> simp [*]
    next here =>
      rcases ih with ⟨kept, none⟩ | ⟨before, found, after, rfl, same, live, none, dropped⟩
      · exact .inl ⟨by rw [kept], none⟩
      · exact .inr ⟨slot :: before, found, after, rfl, same, live, by rw [countOf, if_neg here, none], by rw [dropped]; rfl⟩

/-- In a table with unique entries `dec_ref` takes one from the count of its
address, and its result says whether that count became zero. -/
theorem dropSlot_countOf (unique : SlotsUnique table) :
    (∀ other, countOf other (dropSlot addr table).2 =
      if other = addr then countOf addr table - 1 else countOf other table) ∧
    ((dropSlot addr table).1 = true ↔ countOf addr table = 1) := by
  rcases dropSlot_cases addr table with ⟨kept, none⟩ | ⟨before, slot, after, rfl, rfl, live, none, dropped⟩
  · rw [kept, none]
    refine ⟨fun other => ?_, by simp⟩
    split
    · simp [*]
    · rfl
  · have here : countOf slot.addr (before ++ slot :: after) = slot.count := by
      simp [countOf_append, countOf, none, live]
    rw [dropped, here]
    refine ⟨fun other => ?_, by simp⟩
    have gone : countOf slot.addr after = 0 := countOf_eq_zero_of_forall fun x member liveX =>
      ((slotsUnique_middle.mp unique).1 x (mem_append_right _ member) live liveX).symm
    by_cases same : other = slot.addr
    · by_cases last : slot.count = 1
      · simp [countOf_append, countOf, same, none, last, gone]
      · have more : 1 < slot.count := by omega
        simp [countOf_append, countOf, same, none, last, more]
    · by_cases last : slot.count = 1 <;> simp [countOf_append, countOf, same, Ne.symm same, last]

theorem dropSlot_unique (addr : Nat) (unique : SlotsUnique table) : SlotsUnique (dropSlot addr table).2 := by
  rcases dropSlot_cases addr table with ⟨kept, -⟩ | ⟨before, slot, after, rfl, -, live, -, dropped⟩
  · rw [kept]
    exact unique
  · rw [dropped]
    obtain ⟨apart, others⟩ := slotsUnique_middle.mp unique
    refine slotsUnique_middle.mpr ⟨fun x member => ?_, others⟩
    split
    · nofun
    · exact fun _ => apart x member live

@[simp] theorem Frames.decRef_bitmap (f : Frames) (addr : Nat) :
    (f.decRef addr).2.bitmap = f.bitmap := rfl

theorem Frames.refCount_decRef (unique : SlotsUnique f.shared) (addr other : Nat) :
    (f.decRef addr).2.refCount other =
      if other = addr then f.refCount addr - 1 else f.refCount other :=
  (dropSlot_countOf unique).1 other

theorem Frames.decRef_fst_iff (unique : SlotsUnique f.shared) (addr : Nat) :
    (f.decRef addr).1 = true ↔ f.refCount addr = 1 :=
  (dropSlot_countOf unique).2

/-! ## What allocation and release do to the bitmap -/

theorem firstClear_spec {bitmap : Nat → Bool} {fuel start idx : Nat}
    (found : firstClear bitmap fuel start = some idx) :
    bitmap idx = false ∧ start ≤ idx ∧ idx < start + fuel := by
  induction fuel generalizing start with
  | zero => cases found
  | succ fuel ih =>
    rw [firstClear] at found
    split at found
    · obtain ⟨clear, lower, upper⟩ := ih found
      exact ⟨clear, by omega, by omega⟩
    · next clear =>
        cases found
        exact ⟨by simpa using clear, by omega, by omega⟩

/-- `allocate_frame` returns an aligned frame whose bit was clear, sets that bit
and touches nothing else. -/
theorem Frames.allocateFrame_spec {f' : Frames} (allocated : f.allocateFrame = some (addr, f')) :
    addr % FRAME_SIZE = 0 ∧ addr / FRAME_SIZE < MAX_MANAGED_FRAMES ∧
      f.bitmap (addr / FRAME_SIZE) = false ∧
      f'.bitmap = update f.bitmap (addr / FRAME_SIZE) true ∧
      f'.shared = f.shared ∧ f'.pinned = f.pinned := by
  unfold Frames.allocateFrame at allocated
  split at allocated
  · cases allocated
  · next idx found =>
      obtain ⟨clear, -, upper⟩ := firstClear_spec found
      cases allocated
      have index : idx * FRAME_SIZE / FRAME_SIZE = idx := Nat.mul_div_cancel _ (by decide)
      rw [index]
      exact ⟨Nat.mul_mod_left _ _, by omega, clear, rfl, rfl, rfl⟩

@[simp] theorem Frames.freeFrame_shared (f : Frames) (addr : Nat) :
    (f.freeFrame addr).shared = f.shared := by
  unfold Frames.freeFrame
  split
  · rfl
  · split <;> rfl

@[simp] theorem Frames.refCount_freeFrame (f : Frames) (addr other : Nat) :
    (f.freeFrame addr).refCount other = f.refCount other := by
  simp [Frames.refCount]

theorem Frames.refCount_dropFrame_of_ne (unique : SlotsUnique f.shared) {other : Nat} (differs : other ≠ addr) :
    (f.dropFrame addr).refCount other = f.refCount other := by
  unfold Frames.dropFrame
  split
  · rw [Frames.refCount_freeFrame, Frames.refCount_decRef unique, if_neg differs]
  · rw [Frames.refCount_decRef unique, if_neg differs]

theorem Frames.freeFrame_bitmap_of_ne (f : Frames) {idx : Nat}
    (differs : idx ≠ addr / FRAME_SIZE) : (f.freeFrame addr).bitmap idx = f.bitmap idx := by
  unfold Frames.freeFrame
  split
  · rfl
  · split
    · exact update_of_ne differs _ _
    · rfl

end MorionOS.Kernel
