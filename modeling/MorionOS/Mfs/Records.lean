import MorionOS.Mfs.Reach
import MorionOS.Mfs.Directory

/-!
# The records of one directory block

The records of a block hold a list of entries; free records and the spare room
behind a name are not part of it.  The lemmas say what the operations on records
do to that list: `place` puts an entry somewhere into it, `removeSlot` takes one
out, a scan finds the first entry with a name, and filling an index in memory
copies an initial part of it.
-/

namespace MorionOS.Mfs

open StateAct Layered List DirSlot DirBlock

/-! ## Entries -/

/-- A directory entry without its place in a block. -/
structure Entry where
  name : Name
  ino : Nat
  typ : EntType
deriving DecidableEq

def DirSlot.entry (e : DirSlot) : Entry := ⟨e.name, e.ino, e.typ⟩

/-- The entries that a list of records holds. -/
def slotEntries (slots : List DirSlot) : List Entry := (liveSlots slots).map DirSlot.entry

/-- The entries of one block. -/
def DirBlock.entries (d : DirBlock) : List Entry := slotEntries d.slots

/-- The records of a directory block tile its area, each as long as the walk over them asks for and
with room for what it holds. -/
structure DirBlock.Ok (d : DirBlock) : Prop where
  whole : d.broken = false
  least : ∀ e ∈ d.slots, MFS_DIR_ENT_MIN ≤ e.recLen
  fits : ∀ e ∈ d.slots, e.usedLen ≤ e.recLen
  area : (d.slots.map DirSlot.recLen).sum = MFS_DIR_AREA

@[simp] theorem slotEntries_append (xs ys : List DirSlot) :
    slotEntries (xs ++ ys) = slotEntries xs ++ slotEntries ys := by
  simp [slotEntries, liveSlots]

variable {e : DirSlot} {slots : List DirSlot} {comp : Name}

theorem slotEntries_free (free : e.name = []) (rest : List DirSlot) :
    slotEntries (e :: rest) = slotEntries rest := by
  simp [slotEntries, liveSlots, free]

theorem slotEntries_live (live : e.name ≠ []) (rest : List DirSlot) :
    slotEntries (e :: rest) = e.entry :: slotEntries rest := by
  simp [slotEntries, liveSlots, live]

/-- A change of the length alone does not show. -/
theorem slotEntries_recLen (e : DirSlot) (n : Nat) (rest : List DirSlot) :
    slotEntries ({ e with recLen := n } :: rest) = slotEntries (e :: rest) := by
  by_cases free : e.name = []
  · rw [slotEntries_free (by exact free), slotEntries_free free]
  · rw [slotEntries_live (by exact free), slotEntries_live free]
    rfl

/-! ## Places of entries -/

/-- The entries of a list of records by block and number, the first record having number `i`. -/
def placesFrom (blk : Nat) : List DirSlot → Nat → List DirIdxEnt
  | [], _ => []
  | e :: rest, i =>
    if e.name = [] then placesFrom blk rest (i + 1)
    else ⟨blk, i, e.name⟩ :: placesFrom blk rest (i + 1)

theorem placesFrom_names (blk : Nat) (slots : List DirSlot) (i : Nat) :
    (placesFrom blk slots i).map DirIdxEnt.name = (slotEntries slots).map Entry.name := by
  induction slots generalizing i with
  | nil => rfl
  | cons e rest ih =>
    by_cases free : e.name = []
    · rw [placesFrom, if_pos free, slotEntries_free free, ih]
    · rw [placesFrom, if_neg free, slotEntries_live free, map_cons, map_cons, ih]
      rfl

/-- The record behind a place. -/
theorem placesFrom_split {blk : Nat} {i : Nat} {ps qs : List DirIdxEnt}
    {p : DirIdxEnt} (h : placesFrom blk slots i = ps ++ p :: qs) :
    ∃ before e after, slots = before ++ e :: after ∧ e.name ≠ [] ∧
      p = ⟨blk, i + before.length, e.name⟩ ∧
      ps.map DirIdxEnt.name = (slotEntries before).map Entry.name := by
  induction slots generalizing i ps p with
  | nil => simp [placesFrom] at h
  | cons e rest ih =>
    by_cases free : e.name = []
    · rw [placesFrom, if_pos free] at h
      obtain ⟨before, e', after, rfl, live, place, names⟩ := ih h
      refine ⟨e :: before, e', after, rfl, live, ?_, ?_⟩
      · simp [place, Nat.add_comm, Nat.add_left_comm]
      · rw [slotEntries_free free, names]
    · rw [placesFrom, if_neg free] at h
      rcases ps with _ | ⟨p₀, ps⟩
      · obtain ⟨rfl, -⟩ : _ = p ∧ _ = qs := by simpa using h
        exact ⟨[], e, rest, rfl, free, by simp, rfl⟩
      · obtain ⟨rfl, later⟩ : ⟨blk, i, e.name⟩ = p₀ ∧ placesFrom blk rest (i + 1) = ps ++ p :: qs := by
          simpa using h
        obtain ⟨before, e', after, rfl, live, place, names⟩ := ih later
        refine ⟨e :: before, e', after, rfl, live, ?_, ?_⟩
        · simp [place, Nat.add_comm, Nat.add_left_comm]
        · rw [slotEntries_live free, map_cons, map_cons, names]
          rfl

/-- A scan of a block finds the first place with the name. -/
theorem scan_eq (d : DirBlock) (blk : Nat) (named : comp ≠ []) :
    d.scan comp = ((placesFrom blk d.slots 0).find? fun p => p.name == comp).map DirIdxEnt.idx := by
  have shifted : ∀ (slots : List DirSlot) (i : Nat),
      (slots.findIdx? fun e => e.name != [] && e.name == comp).map (· + i) =
        ((placesFrom blk slots i).find? fun p => p.name == comp).map DirIdxEnt.idx := by
    intro slots
    induction slots with
    | nil => intro i; rfl
    | cons e rest ih =>
      intro i
      have later := ih (i + 1)
      rw [List.findIdx?_cons]
      by_cases free : e.name = []
      · have other : (e.name == comp) = false := by simpa [free] using named
        rw [placesFrom, if_pos free, ← later, other, Bool.and_false]
        simp [Function.comp_def, Nat.add_comm, Nat.add_left_comm]
      · rw [placesFrom, if_neg free]
        by_cases here : e.name = comp
        · simp [here, named]
        · have other : (e.name == comp) = false := by simpa using here
          rw [List.find?_cons_of_neg (by simpa using here), ← later, other, Bool.and_false]
          simp [Function.comp_def, Nat.add_comm, Nat.add_left_comm]
  have start := shifted d.slots 0
  simpa [scan] using start

/-! ## Filling an index -/

theorem entNeed_ge (n : Nat) : 8 + n ≤ entNeed n := by
  simp only [entNeed, MFS_DIR_ENT_HDR]
  omega

theorem arenaLen_append (xs ys : List DirIdxEnt) : arenaLen (xs ++ ys) = arenaLen xs + arenaLen ys := by
  simp [arenaLen]

/-- The entries of records that have room for them take no more of the arena than of the block. -/
theorem arenaLen_placesFrom (blk : Nat) (i : Nat) (fits : ∀ e ∈ slots, e.usedLen ≤ e.recLen) :
    arenaLen (placesFrom blk slots i) ≤ (slots.map DirSlot.recLen).sum := by
  induction slots generalizing i with
  | nil => exact Nat.le_refl _
  | cons e rest ih =>
    have later := ih (i + 1) fun x mem => fits x (mem_cons_of_mem _ mem)
    by_cases free : e.name = []
    · rw [placesFrom, if_pos free, map_cons, sum_cons]
      omega
    · have here := fits e mem_cons_self
      rw [usedLen, if_neg free] at here
      have need := entNeed_ge e.name.length
      rw [placesFrom, if_neg free, map_cons, sum_cons]
      simp only [arenaLen, map_cons, sum_cons] at later ⊢
      omega

/-- Filling an index from a list of records adds their places, or an initial part of them when the
arena is too small. -/
theorem fillSlots_spec (blk : Nat) (i : Nat) (x : DirIdx) (fits : ∀ e ∈ slots, e.usedLen ≤ e.recLen) :
    ∃ qs full, DirIdx.fillSlots blk slots i x =
        { x with ents := x.ents ++ qs, complete := x.complete && full } ∧
      qs <+: placesFrom blk slots i ∧ (full = true → qs = placesFrom blk slots i) ∧
      (full = false → MFS_DIDX_ARENA < arenaLen (x.ents ++ placesFrom blk slots i)) := by
  induction slots generalizing i x with
  | nil => exact ⟨[], true, by simp [DirIdx.fillSlots], by simp, by simp [placesFrom], by simp⟩
  | cons e rest ih =>
    have fits' : ∀ x ∈ rest, x.usedLen ≤ x.recLen := fun x mem => fits x (mem_cons_of_mem _ mem)
    by_cases free : e.name = []
    · simp only [DirIdx.fillSlots, placesFrom, if_pos free]
      exact ih (i + 1) x fits'
    · have here := fits e mem_cons_self
      rw [usedLen, if_neg free] at here
      simp only [DirIdx.fillSlots, placesFrom, if_neg free, if_neg (Nat.not_lt.mpr here)]
      by_cases full : MFS_DIDX_ARENA < arenaLen x.ents + 7 + e.name.length
      · rw [if_pos full]
        refine ⟨[], false, by simp, by simp, by simp, fun _ => ?_⟩
        rw [arenaLen_append]
        simp only [arenaLen, map_cons, sum_cons] at full ⊢
        omega
      · rw [if_neg full]
        obtain ⟨qs, all, eq, part, whole, cut⟩ :=
          ih (i + 1) { x with ents := x.ents ++ [⟨blk, i, e.name⟩] } fits'
        refine ⟨⟨blk, i, e.name⟩ :: qs, all, by simp [eq], ?_, fun done => by rw [whole done], ?_⟩
        · exact cons_prefix_cons.mpr ⟨rfl, part⟩
        · simpa using cut

/-! ## Putting an entry into a block -/

/-- A record with a name is as long as the walk asks for. -/
theorem entNeed_least (named : comp ≠ []) : MFS_DIR_ENT_MIN ≤ entNeed comp.length := by
  have := length_pos_iff.mpr named
  simp only [entNeed, MFS_DIR_ENT_HDR, MFS_DIR_ENT_MIN]
  omega

theorem usedLen_pos_iff (e : DirSlot) : 0 < e.usedLen ↔ e.name ≠ [] := by
  have := entNeed_ge e.name.length
  by_cases free : e.name = []
  · simp [usedLen, free]
  · rw [usedLen, if_neg free]
    exact iff_of_true (by omega) free

section Placing

variable {comp : Name} (named : comp ≠ []) (child : Nat) (typ : EntType)
include named

/-- The records that replace one with enough room hold one more entry on the same bytes. -/
theorem split_spec {e : DirSlot} (room : e.usedLen + entNeed comp.length ≤ e.recLen) :
    slotEntries (e.split comp child typ) = slotEntries [e] ++ [⟨comp, child, typ⟩] ∧
    (∀ x ∈ e.split comp child typ, MFS_DIR_ENT_MIN ≤ x.recLen ∧ x.usedLen ≤ x.recLen) ∧
    ((e.split comp child typ).map DirSlot.recLen).sum = e.recLen := by
  -- the new record takes what it needs, or all there is when the rest would be too small
  have parts : ∃ take, entNeed comp.length ≤ take ∧ take ≤ e.recLen - e.usedLen ∧
      (take < e.recLen - e.usedLen → MFS_DIR_ENT_MIN ≤ e.recLen - e.usedLen - take) ∧
      e.split comp child typ = (if 0 < e.usedLen then [{ e with recLen := e.usedLen }] else []) ++
        ⟨child, typ, comp, take⟩ ::
          (if take < e.recLen - e.usedLen then [.free (e.recLen - e.usedLen - take)] else []) := by
    refine ⟨_, ?_, ?_, ?_, rfl⟩ <;> split <;> omega
  obtain ⟨take, enough, most, rest, eq⟩ := parts
  have least := entNeed_least named
  have front : slotEntries (if 0 < e.usedLen then [{ e with recLen := e.usedLen }] else []) =
      slotEntries [e] := by
    split
    · exact slotEntries_recLen e _ []
    next free =>
      rw [usedLen_pos_iff, not_not] at free
      rw [slotEntries_free free]
  have back : slotEntries (if take < e.recLen - e.usedLen
      then [free (e.recLen - e.usedLen - take)] else []) = [] := by
    split
    · exact slotEntries_free rfl []
    · rfl
  rw [eq]
  refine ⟨?_, ?_, ?_⟩
  · rw [slotEntries_append, front, slotEntries_live (e := ⟨child, typ, comp, take⟩) named, back]
    rfl
  · intro x mem
    rcases mem_append.mp mem with mem | mem
    · split at mem
      next live =>
        obtain rfl := mem_singleton.mp mem
        rw [usedLen_pos_iff] at live
        refine ⟨?_, Nat.le_refl _⟩
        rw [usedLen, if_neg live]
        exact entNeed_least live
      · simp at mem
    · rcases mem_cons.mp mem with rfl | mem
      · rw [usedLen, if_neg (by exact named)]
        exact ⟨least.trans enough, enough⟩
      · split at mem
        next short =>
          obtain rfl := mem_singleton.mp mem
          exact ⟨rest short, Nat.zero_le _⟩
        · simp at mem
  · rw [map_append, sum_append, map_cons, sum_cons]
    split <;> split <;> simp [free] <;> omega

/-- Placing an entry where there is room for it adds it to the entries of the block. -/
theorem place_spec {d : DirBlock} (ok : d.Ok) {j : Nat} (room : d.slotFor (entNeed comp.length) = some j) :
    (d.place j comp child typ).Ok ∧ ∃ l₁ l₂, d.entries = l₁ ++ l₂ ∧
      (d.place j comp child typ).entries = l₁ ++ ⟨comp, child, typ⟩ :: l₂ := by
  rw [slotFor, ok.whole, if_neg (by simp), List.findIdx?_eq_some_iff_getElem] at room
  obtain ⟨inside, enough, -⟩ := room
  have enough := of_decide_eq_true enough
  obtain ⟨entries, fits, sum⟩ := split_spec named child typ enough
  have parts : d.slots = d.slots.take j ++ d.slots[j] :: d.slots.drop (j + 1) := by simp
  have slots : (d.place j comp child typ).slots =
      d.slots.take j ++ d.slots[j].split comp child typ ++ d.slots.drop (j + 1) := by
    simp [place, inside]
  have every : ∀ x ∈ (d.place j comp child typ).slots, MFS_DIR_ENT_MIN ≤ x.recLen ∧ x.usedLen ≤ x.recLen := by
    intro x mem
    have kept : x ∈ d.slots → MFS_DIR_ENT_MIN ≤ x.recLen ∧ x.usedLen ≤ x.recLen :=
      fun old => ⟨ok.least x old, ok.fits x old⟩
    rw [slots, mem_append, mem_append] at mem
    rcases mem with (mem | mem) | mem
    · exact kept (mem_of_mem_take mem)
    · exact fits x mem
    · exact kept (mem_of_mem_drop mem)
  refine ⟨⟨ok.whole, fun x mem => (every x mem).1, fun x mem => (every x mem).2, ?_⟩,
    slotEntries (d.slots.take j) ++ slotEntries [d.slots[j]], slotEntries (d.slots.drop (j + 1)), ?_, ?_⟩
  · have before := ok.area
    rw [parts] at before
    rw [slots]
    simp only [map_append, sum_append, map_cons, sum_cons] at before ⊢
    omega
  · rw [DirBlock.entries, ← slotEntries_append, ← slotEntries_append, append_assoc,
      singleton_append, ← parts]
  · rw [DirBlock.entries, slots, slotEntries_append, slotEntries_append, entries]
    simp

end Placing

/-- An empty block has room for every name. -/
theorem slotFor_empty (short : comp.length ≤ MFS_NAME_MAX) (md : Meta) :
    (DirBlock.empty md).slotFor (entNeed comp.length) = some 0 := by
  have need : entNeed comp.length ≤ MFS_DIR_AREA := by
    simp only [entNeed, MFS_DIR_ENT_HDR, MFS_DIR_AREA, MFS_PAYLOAD, MFS_BLOCK, MFS_HDR, MFS_DIR_HDR,
      MFS_META_LEN, MFS_NAME_MAX] at short ⊢
    omega
  simp [slotFor, empty, free, usedLen, need]

theorem DirBlock.empty_ok (md : Meta) : (DirBlock.empty md).Ok :=
  ⟨rfl, by simp [empty]; decide,
    by simp [empty, free, usedLen], by simp [empty, free]⟩

@[simp] theorem DirBlock.entries_empty (md : Meta) : (DirBlock.empty md).entries = [] := rfl

/-! ## Taking an entry out of a block -/

/-- What removing a record does to the entries, to the lengths and to the room. -/
theorem removeSlot_spec (before after : List DirSlot) (e : DirSlot)
    (fits : ∀ x ∈ before ++ e :: after, MFS_DIR_ENT_MIN ≤ x.recLen ∧ x.usedLen ≤ x.recLen) :
    slotEntries (removeSlot (before ++ e :: after) before.length) =
      slotEntries before ++ slotEntries after ∧
    (∀ x ∈ removeSlot (before ++ e :: after) before.length,
      MFS_DIR_ENT_MIN ≤ x.recLen ∧ x.usedLen ≤ x.recLen) ∧
    ((removeSlot (before ++ e :: after) before.length).map DirSlot.recLen).sum =
      ((before ++ e :: after).map DirSlot.recLen).sum := by
  induction before with
  | nil =>
    refine ⟨slotEntries_free rfl _, ?_, by simp [removeSlot, free]⟩
    intro x mem
    rcases mem_cons.mp mem with rfl | mem
    · exact ⟨(fits e (by simp)).1, Nat.zero_le _⟩
    · exact fits x (by simp [mem])
  | cons b before ih =>
    rcases before with _ | ⟨b', before⟩
    · -- the record before takes over the room
      have bFits := fits b (by simp)
      refine ⟨?_, ?_, by simp [removeSlot, Nat.add_assoc]⟩
      · change slotEntries ({ b with recLen := b.recLen + e.recLen } :: after) = slotEntries [b] ++ _
        rw [slotEntries_recLen, ← slotEntries_append]
        rfl
      · intro x mem
        rcases mem_cons.mp mem with rfl | mem
        · exact ⟨bFits.1.trans (Nat.le_add_right _ _), bFits.2.trans (Nat.le_add_right _ _)⟩
        · exact fits x (by simp [mem])
    · have step : removeSlot (b :: b' :: before ++ e :: after) (b :: b' :: before).length =
          b :: removeSlot (b' :: before ++ e :: after) (b' :: before).length := rfl
      obtain ⟨entries, fits', sum⟩ := ih fun x mem => fits x (by simp at mem ⊢; tauto)
      rw [step]
      refine ⟨?_, ?_, ?_⟩
      · change slotEntries ([b] ++ _) = slotEntries ([b] ++ _) ++ _
        rw [slotEntries_append, slotEntries_append, entries, append_assoc]
      · intro x mem
        rcases mem_cons.mp mem with rfl | mem
        · exact fits x (by simp)
        · exact fits' x mem
      · simp only [map_cons, cons_append, sum_cons] at sum ⊢
        omega

/-- The block without one of its records. -/
theorem remove_spec {d : DirBlock} (ok : d.Ok) {before after : List DirSlot}
    (parts : d.slots = before ++ e :: after) :
    ({ d with slots := removeSlot d.slots before.length } : DirBlock).Ok ∧
    ({ d with slots := removeSlot d.slots before.length } : DirBlock).entries =
      slotEntries before ++ slotEntries after := by
  obtain ⟨entries, fits, sum⟩ := removeSlot_spec before after e (by
    rw [← parts]
    exact fun x mem => ⟨ok.least x mem, ok.fits x mem⟩)
  rw [← parts] at entries fits sum
  exact ⟨⟨ok.whole, fun x mem => (fits x mem).1, fun x mem => (fits x mem).2, by rw [sum]; exact ok.area⟩,
    entries⟩

end MorionOS.Mfs
