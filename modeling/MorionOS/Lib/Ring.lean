import Mathlib.Data.Nat.ModEq
import Mathlib.Logic.Function.Basic

/-!
# Rings of slots

A ring is an array of `size` slots that is written and read round and round.
`SlotRing.Holds` says which items stand in the slots from a position on.  A position
is counted without wrapping; its slot is the remainder modulo `size`.

A `PhaseRing` is a ring in which the writer marks each slot with the parity of the
round it is in, so that the reader sees from the slot alone whether the entry is
new.  `PhaseRing.Holds` ties it to the queue of the entries written and not read.
-/

namespace SlotRing

variable {α : Type} {size start : Nat} {cells : Nat → α}

/-- The slots from position `start` on hold these items. -/
def Holds (size : Nat) (cells : Nat → α) (start : Nat) (items : List α) : Prop :=
  ∀ i item, items[i]? = some item → cells ((start + i) % size) = item

theorem slot_ne {i j : Nat} (less : i < j) (near : j < i + size) : i % size ≠ j % size := by
  intro same
  obtain ⟨step, rfl⟩ := Nat.exists_eq_add_of_lt less
  have divides : size ∣ step + 1 := by
    have congr : i ≡ i + (step + 1) [MOD size] := same
    simpa using (Nat.modEq_iff_dvd' (by omega)).mp congr
  have := Nat.le_of_dvd (by omega) divides
  omega

theorem succ_mod_mod (position : Nat) : (position % size + 1) % size = (position + 1) % size :=
  Nat.mod_add_mod position size 1

theorem holds_nil : Holds size cells start [] := by
  intro i item found
  cases found

variable {items : List α}

theorem Holds.first {item : α} (holds : Holds size cells start (item :: items)) : cells (start % size) = item :=
  holds 0 item rfl

theorem Holds.rest {item : α} (holds : Holds size cells start (item :: items)) :
    Holds size cells (start + 1) items := by
  intro i other found
  have := holds (i + 1) other (by simpa using found)
  rwa [Nat.add_comm i 1, ← Nat.add_assoc] at this

/-- Writing the slot after the last item appends, as long as the ring is not full. -/
theorem Holds.write (holds : Holds size cells start items) (room : items.length < size) (item : α) :
    Holds size (Function.update cells ((start + items.length) % size) item) start
      (items ++ [item]) := by
  intro i other found
  rcases Nat.lt_trichotomy i items.length with before | here | beyond
  · rw [List.getElem?_append_left before] at found
    rw [Function.update_of_ne (slot_ne (by omega) (by omega))]
    exact holds i other found
  · subst here
    simpa using found
  · rw [List.getElem?_eq_none (by simp; omega)] at found
    cases found

end SlotRing

/-- A ring whose entries carry a phase bit: the reader has `head` and the phase it
expects, the writer has `tail` and the phase it writes. -/
structure PhaseRing (α : Type) where
  cells : Nat → Bool × α
  head : Nat
  phase : Bool
  tail : Nat
  tailPhase : Bool

namespace PhaseRing

variable {α : Type} {size : Nat}

/-- The next entry, if its phase says that it is new. -/
def take (size : Nat) (ring : PhaseRing α) : Option (α × PhaseRing α) :=
  let cell := ring.cells (ring.head % size)
  if cell.1 = ring.phase then
    let head := (ring.head + 1) % size
    some (cell.2, { ring with
      head := head
      phase := if head = 0 then !ring.phase else ring.phase })
  else
    none

/-- Write an entry. -/
def post (size : Nat) (ring : PhaseRing α) (item : α) : PhaseRing α :=
  let tail := (ring.tail + 1) % size
  { ring with
    cells := Function.update ring.cells ring.tail (ring.tailPhase, item)
    tail := tail
    tailPhase := if tail = 0 then !ring.tailPhase else ring.tailPhase }

/-- The writer would catch up with the reader. -/
def full (size : Nat) (ring : PhaseRing α) : Bool := (ring.tail + 1) % size == ring.head

/-- The phase of a position: even rounds are written with a set bit. -/
def phaseAt (size position : Nat) : Bool := position / size % 2 == 0

theorem phaseAt_succ (position : Nat) :
    phaseAt size (position + 1) =
      if (position + 1) % size = 0 then !phaseAt size position else phaseAt size position := by
  unfold phaseAt
  rw [Nat.succ_div]
  by_cases wraps : (position + 1) % size = 0
  · rw [if_pos (Nat.dvd_of_mod_eq_zero wraps), if_pos wraps]
    rcases Nat.mod_two_eq_zero_or_one (position / size) with even | odd
    · simp [even, Nat.add_mod]
    · simp [odd, Nat.add_mod]
  · rw [if_neg fun divides => wraps (Nat.mod_eq_zero_of_dvd divides), if_neg wraps, Nat.add_zero]

theorem phaseAt_add_size (positive : 0 < size) (position : Nat) :
    phaseAt size (position + size) = !phaseAt size position := by
  unfold phaseAt
  rw [Nat.add_div_right _ positive]
  rcases Nat.mod_two_eq_zero_or_one (position / size) with even | odd
  · simp [even, Nat.add_mod]
  · simp [odd, Nat.add_mod]

/-- The ring holds these entries, oldest first; the reader stands at `position`. -/
structure HoldsAt (size : Nat) (ring : PhaseRing α) (position : Nat) (items : List α) : Prop where
  head : ring.head = position % size
  phase : ring.phase = phaseAt size position
  tail : ring.tail = (position + items.length) % size
  tailPhase : ring.tailPhase = phaseAt size (position + items.length)
  entries : ∀ i item, items[i]? = some item →
    ring.cells ((position + i) % size) = (phaseAt size (position + i), item)
  blank : ∀ other, position + items.length ≤ other → other < position + size →
    (ring.cells (other % size)).1 ≠ phaseAt size other

/-- The ring holds these entries, written and not read, oldest first. -/
def Holds (size : Nat) (ring : PhaseRing α) (items : List α) : Prop :=
  ∃ position, HoldsAt size ring position items

variable {ring : PhaseRing α} {items : List α}

theorem Holds.take_nil (holds : ring.Holds size []) (positive : 0 < size) : ring.take size = none := by
  obtain ⟨position, at_⟩ := holds
  have stale := at_.blank position (by simp) (by omega)
  unfold take
  rw [at_.head, Nat.mod_mod, at_.phase]
  exact if_neg stale

/-- A reader gets the oldest entry and leaves the others. -/
theorem Holds.take_cons {item : α} (holds : ring.Holds size (item :: items)) (positive : 0 < size) :
    ∃ rest, ring.take size = some (item, rest) ∧ rest.Holds size items := by
  obtain ⟨position, at_⟩ := holds
  have first := at_.entries 0 item rfl
  rw [Nat.add_zero] at first
  refine ⟨_, by unfold take; rw [at_.head, Nat.mod_mod, first, at_.phase]; exact if_pos rfl, ?_⟩
  refine ⟨position + 1, ?_, ?_, ?_, ?_, ?_, ?_⟩
  · exact SlotRing.succ_mod_mod position
  · rw [phaseAt_succ, ← SlotRing.succ_mod_mod position]
  · rw [Nat.add_assoc, Nat.add_comm 1]
    exact at_.tail
  · rw [Nat.add_assoc, Nat.add_comm 1]
    exact at_.tailPhase
  · intro i other found
    rw [Nat.add_assoc, Nat.add_comm 1]
    exact at_.entries (i + 1) other (by simpa using found)
  · intro other low high
    rcases Nat.lt_or_ge other (position + size) with inside | last
    · exact at_.blank other (by simp; omega) inside
    · -- the slot just read becomes the last blank one, a round later
      obtain rfl : other = position + size := by omega
      rw [Nat.add_mod_right, first, phaseAt_add_size positive]
      simp

/-- A writer appends, as long as the ring is not full. -/
theorem Holds.post (holds : ring.Holds size items)
    (room : items.length < size) (item : α) : (ring.post size item).Holds size (items ++ [item]) := by
  obtain ⟨position, at_⟩ := holds
  refine ⟨position, at_.head, at_.phase, ?_, ?_, ?_, ?_⟩
  · rw [List.length_append, List.length_singleton, ← Nat.add_assoc, ← SlotRing.succ_mod_mod, ← at_.tail]
    rfl
  · rw [List.length_append, List.length_singleton, ← Nat.add_assoc, phaseAt_succ,
      ← at_.tailPhase, ← SlotRing.succ_mod_mod, ← at_.tail]
    rfl
  · intro i other found
    change Function.update ring.cells ring.tail (ring.tailPhase, item) _ = _
    rw [at_.tail, at_.tailPhase]
    rcases Nat.lt_trichotomy i items.length with before | here | beyond
    · rw [List.getElem?_append_left before] at found
      rw [Function.update_of_ne (SlotRing.slot_ne (by omega) (by omega))]
      exact at_.entries i other found
    · subst here
      simpa using found
    · rw [List.getElem?_eq_none (by simp; omega)] at found
      cases found
  · intro other low high
    rw [List.length_append, List.length_singleton] at low
    change (Function.update ring.cells ring.tail (ring.tailPhase, item) _).1 ≠ _
    rw [at_.tail, Function.update_of_ne (SlotRing.slot_ne (by omega) (by omega)).symm]
    exact at_.blank other (by omega) high

/-- The writer's own test says "full" only when all slots but one are taken. -/
theorem Holds.not_full (holds : ring.Holds size items)
    (room : items.length + 1 < size) : ring.full size = false := by
  obtain ⟨position, at_⟩ := holds
  rw [full, at_.tail, at_.head, SlotRing.succ_mod_mod, beq_eq_false_iff_ne]
  exact (SlotRing.slot_ne (by omega) (by omega)).symm

end PhaseRing
