import MorionOS.Kernel.Capability
import Mathlib.Logic.Function.Basic

/-!
# Handles are neither copied nor lost

A table of handles is a finite map from domains and handles to objects.
`handle_issue` adds one entry, `handle_drop` removes one, and `handle_move` does both,
possibly in two rows, with a way back when the receiver has no room.

`handles_conserve_objects` says that after any sequence of calls the next one changes
the entries that its answer names and no others, that a new entry goes to the first free
slot, and that a failure has its reason and leaves the table as it was.  A move within one
row does not fail (`move_within_row_succeeds`): the slot is empty when the search for room
begins.
-/

namespace MorionOS.Kernel

open Function List

variable {handles : List HandleRow} {slots : HandleRow} {domain handle obj : Nat}

/-! ## One slot -/

/-- The domain has no free slot. -/
def Full (handles : List HandleRow) (domain : Nat) : Prop := ∀ slots, handles[domain]? = some slots → none ∉ slots

/-- `handle_issue` fails and changes nothing, or fills the first empty slot of the row. -/
theorem handleIssue_cases (domain obj : Nat) (rows : ∀ row ∈ handles, row.length ≤ HANDLE_SLOTS) :
    (Full handles domain ∧ handleIssue handles domain obj = (U64_MAX, handles)) ∨
      ∃ handle slots, handles[domain]? = some slots ∧ slots[handle]? = some none ∧
        none ∉ slots.take handle ∧ handle < HANDLE_SLOTS ∧ handleIssue handles domain obj =
          (handle, handles.set domain (slots.set handle (some obj))) := by
  unfold handleIssue Full
  rcases row : handles[domain]? with _ | slots
  · exact .inl ⟨nofun, rfl⟩
  rcases filled : Table.fill slots obj with _ | ⟨handle, slots'⟩
  · left
    simpa [filled] using Table.fill_eq_none filled
  · obtain ⟨empty, rfl⟩ := Table.fill_eq_set filled
    have inside : handle < slots.length := (List.getElem?_eq_some_iff.mp empty).1
    have short := rows slots (mem_of_getElem? row)
    exact .inr ⟨handle, slots, rfl, empty, Table.fill_first filled, by omega, by simp [filled]⟩

/-- `handle_drop` fails and changes nothing, or empties a slot of the row. -/
theorem handleDrop_cases (handles : List HandleRow) (domain handle : Nat) :
    (handleLookup handles domain handle = none ∧ handleDrop handles domain handle = (false, handles)) ∨
      ∃ slots obj, handles[domain]? = some slots ∧ slots[handle]? = some (some obj) ∧
        handleLookup handles domain handle = some obj ∧
        handleDrop handles domain handle = (true, handles.set domain (slots.set handle none)) := by
  unfold handleDrop
  rcases found : handleLookup handles domain handle with _ | obj
  · left
    cases handles[domain]? <;> exact ⟨rfl, rfl⟩
  · obtain ⟨slots, row, slot⟩ := Option.bind_eq_some_iff.mp (Option.join_eq_some_iff.mp found)
    exact .inr ⟨slots, obj, row, slot, rfl, by rw [row]⟩

theorem handleLookup_set (row : handles[domain]? = some slots) (inside : handle < slots.length)
    (entry : Option Nat) (d h : Nat) :
    handleLookup (handles.set domain (slots.set handle entry)) d h =
      if d = domain ∧ h = handle then entry else handleLookup handles d h := by
  have there : domain < handles.length := (List.getElem?_eq_some_iff.mp row).1
  unfold handleLookup
  by_cases here : d = domain
  · subst here
    rw [List.getElem?_set_self there, row]
    by_cases slot : h = handle
    · subst slot
      simp [inside]
    · simp [slot, List.getElem?_set_ne (Ne.symm slot)]
  · rw [List.getElem?_set_ne (Ne.symm here)]
    simp [here]

theorem handleLookup_handleDrop (handles : List HandleRow) (domain handle d h : Nat) :
    handleLookup (handleDrop handles domain handle).2 d h =
      if d = domain ∧ h = handle then none else handleLookup handles d h := by
  rcases handleDrop_cases handles domain handle with ⟨none, eq⟩ | ⟨slots, obj, row, slot, -, eq⟩ <;> rw [eq]
  · split_ifs with here
    · rw [here.1, here.2, none]
    · rfl
  · exact handleLookup_set row (List.getElem?_eq_some_iff.mp slot).1 _ d h

theorem rows_set (rows : ∀ row ∈ handles, row.length ≤ HANDLE_SLOTS) (row : handles[domain]? = some slots)
    (handle : Nat) (entry : Option Nat) :
    ∀ row ∈ handles.set domain (slots.set handle entry), row.length ≤ HANDLE_SLOTS := by
  intro other member
  rcases mem_or_eq_of_mem_set member with old | rfl
  · exact rows other old
  · rw [length_set]
    exact rows slots (mem_of_getElem? row)

theorem rows_handleDrop (rows : ∀ row ∈ handles, row.length ≤ HANDLE_SLOTS) (domain handle : Nat) :
    ∀ row ∈ (handleDrop handles domain handle).2, row.length ≤ HANDLE_SLOTS := by
  rcases handleDrop_cases handles domain handle with ⟨-, eq⟩ | ⟨slots, obj, row, -, -, eq⟩ <;> rw [eq]
  · exact rows
  · exact rows_set rows row _ _

/-! ## Calls -/

/-- The object behind every handle. -/
def objects (handles : List HandleRow) (entry : Nat × Nat) : Option Nat := handleLookup handles entry.1 entry.2

/-- `u64::MAX` is no handle. -/
def validHandle (out : Nat) : Option Nat := if out = U64_MAX then none else some out

inductive HandleCall where
  | lookup (domain handle : Nat)
  | issue (domain obj : Nat)
  | drop (domain handle : Nat)
  | move (giver receiver handle : Nat)

/-- The answer of a call, `none` for a failure, and the table after it. -/
def HandleCall.run (handles : List HandleRow) : HandleCall → Option Nat × List HandleRow
  | .lookup domain handle => (handleLookup handles domain handle, handles)
  | .issue domain obj => (handleIssue handles domain obj).map validHandle id
  | .drop domain handle => (handleDrop handles domain handle).map (fun done => if done then some handle else none) id
  | .move giver receiver handle => (handleMove handles giver receiver handle).map validHandle id

/-- The table after a sequence of calls. -/
def runCalls (handles : List HandleRow) (calls : List HandleCall) : List HandleRow :=
  calls.foldl (fun t call => (call.run t).2) handles

/-- Why a call fails. -/
def HandleCall.Refused (t : List HandleRow) : HandleCall → Prop
  | .issue domain _ => Full t domain
  | .lookup domain handle | .drop domain handle => objects t (domain, handle) = none
  | .move giver receiver handle => objects t (giver, handle) = none ∨ giver ≠ receiver ∧ Full t receiver

/-- The first free slot of the domain. -/
def FirstFree (held : Nat × Nat → Option Nat) (domain out : Nat) : Prop :=
  held (domain, out) = none ∧ ∀ h < out, held (domain, h) ≠ none

/-- What a call with this answer does to a table. -/
inductive Conserves (t : List HandleRow) : HandleCall → Option Nat × List HandleRow → Prop
  | fails {call : HandleCall} (refused : call.Refused t) : Conserves t call (none, t)
  | lookup {domain handle obj : Nat} (held : objects t (domain, handle) = some obj) :
      Conserves t (.lookup domain handle) (some obj, t)
  | issue {t' : List HandleRow} {domain obj out : Nat} (free : FirstFree (objects t) domain out)
      (eq : objects t' = update (objects t) (domain, out) (some obj)) :
      Conserves t (.issue domain obj) (some out, t')
  | drop {t' : List HandleRow} {domain handle obj : Nat} (held : objects t (domain, handle) = some obj)
      (eq : objects t' = update (objects t) (domain, handle) none) :
      Conserves t (.drop domain handle) (some handle, t')
  | move {t' : List HandleRow} {giver receiver handle out obj : Nat}
      (held : objects t (giver, handle) = some obj)
      (free : FirstFree (update (objects t) (giver, handle) none) receiver out)
      (eq : objects t' = update (update (objects t) (giver, handle) none) (receiver, out) (some obj)) :
      Conserves t (.move giver receiver handle) (some out, t')

theorem objects_set (row : handles[domain]? = some slots) {old : Option Nat} (slot : slots[handle]? = some old)
    (entry : Option Nat) : objects handles (domain, handle) = old ∧
    objects (handles.set domain (slots.set handle entry)) = update (objects handles) (domain, handle) entry := by
  refine ⟨by simp [objects, handleLookup, row, slot], funext fun ⟨d, h⟩ => ?_⟩
  simp only [update_apply, Prod.mk.injEq]
  exact handleLookup_set row (List.getElem?_eq_some_iff.mp slot).1 _ d h

theorem firstFree_of_take (row : handles[domain]? = some slots) (empty : slots[handle]? = some none)
    (first : none ∉ slots.take handle) : FirstFree (objects handles) domain handle := by
  have inside := (List.getElem?_eq_some_iff.mp empty).1
  refine ⟨(objects_set row empty none).1, fun h before free => first ?_⟩
  have here : slots[h]? = some slots[h] := getElem?_eq_getElem (by omega)
  rw [(objects_set row here none).1] at free
  exact mem_of_getElem? ((getElem?_take_of_lt before).trans (here.trans (congrArg some free)))

/-- One call conserves the objects, and the rows keep their width. -/
theorem HandleCall.run_conserves (rows : ∀ row ∈ handles, row.length ≤ HANDLE_SLOTS) (call : HandleCall) :
    Conserves handles call (call.run handles) ∧ ∀ row ∈ (call.run handles).2, row.length ≤ HANDLE_SLOTS := by
  have valid : ∀ {out : Nat}, out < HANDLE_SLOTS → out ≠ U64_MAX := by
    intro out small
    rw [HANDLE_SLOTS] at small
    rw [U64_MAX]
    omega
  cases call with
  | lookup domain handle =>
    rw [run]
    rcases held : handleLookup handles domain handle with _ | obj
    · exact ⟨.fails held, rows⟩
    · exact ⟨.lookup held, rows⟩
  | issue domain obj =>
    rcases handleIssue_cases domain obj rows with ⟨full, eq⟩ | ⟨handle, slots, row, empty, first, small, eq⟩ <;>
      rw [run, eq]
    · exact ⟨.fails full, rows⟩
    · rw [Prod.map_apply, validHandle, if_neg (valid small)]
      exact ⟨.issue (firstFree_of_take row empty first) (objects_set row empty (some obj)).2,
        rows_set rows row _ _⟩
  | drop domain handle =>
    rcases handleDrop_cases handles domain handle with ⟨none, eq⟩ | ⟨slots, obj, row, full, held, eq⟩ <;>
      rw [run, eq]
    · exact ⟨.fails none, rows⟩
    · exact ⟨.drop held (objects_set row full none).2, rows_set rows row _ _⟩
  | move giver receiver handle =>
    rw [run, handleMove]
    rcases handleDrop_cases handles giver handle with ⟨none, -⟩ | ⟨slots, obj, row, full, held, eq⟩
    · rw [none]
      exact ⟨.fails (.inl none), rows⟩
    · have rows₁ := rows_set rows row handle none
      have taken := (objects_set row full none).2
      rw [held, eq]
      rcases handleIssue_cases receiver obj rows₁ with ⟨noRoom, eq₁⟩ | ⟨out, slots₁, row₁, empty, first, small, eq₁⟩ <;>
        simp only [eq₁]
      · -- the object goes back to the slot it was taken from
        have back : (handles.set giver (slots.set handle none)).modify giver (·.set handle (some obj)) = handles := by
          obtain ⟨there, rfl⟩ := List.getElem?_eq_some_iff.mp row
          obtain ⟨inside, here⟩ := List.getElem?_eq_some_iff.mp full
          simp [modify_eq_set, there, ← here]
        rw [if_true, back]
        refine ⟨.fails (.inr ?_), rows⟩
        obtain ⟨there, -⟩ := List.getElem?_eq_some_iff.mp row
        obtain ⟨inside, -⟩ := List.getElem?_eq_some_iff.mp full
        have other : giver ≠ receiver := by
          rintro rfl
          exact noRoom _ (getElem?_set_self there) (mem_set inside _)
        exact ⟨other, fun slots found => noRoom slots ((getElem?_set_ne other).trans found)⟩
      · simp only [if_neg (valid small), Prod.map_apply, validHandle]
        have free := firstFree_of_take row₁ empty first
        have put := (objects_set row₁ empty (some obj)).2
        rw [taken] at free put
        exact ⟨.move held free put, rows_set rows₁ row₁ _ _⟩

/-- **Handles are neither copied nor lost**: after any sequence of calls, the next one changes the
entries that its answer names, and it fails only for its reason, with the table as it was. -/
theorem handles_conserve_objects (rows : ∀ row ∈ handles, row.length ≤ HANDLE_SLOTS) (calls : List HandleCall)
    (call : HandleCall) : Conserves (runCalls handles calls) call (call.run (runCalls handles calls)) := by
  induction calls generalizing handles with
  | nil => exact (call.run_conserves rows).1
  | cons first calls ih => exact ih (first.run_conserves rows).2

theorem first_object_moves :
    objects [emptyHandleRow, emptyHandleRow.set 0 (some 7)] (1, 0) = some 7 ∧
      Conserves [emptyHandleRow.set 0 (some 7), emptyHandleRow] (.move 0 1 0)
        (some 0, [emptyHandleRow, emptyHandleRow.set 0 (some 7)]) :=
  ⟨by decide, handles_conserve_objects (by decide : ∀ row ∈ [emptyHandleRow, emptyHandleRow], _)
    [.issue 0 7] (.move 0 1 0)⟩

/-- The receiver is the giver, and the object moves to the first slot of its row. -/
theorem move_within_row_succeeds :
    handleMove [emptyHandleRow.set 1 (some 7)] 0 0 1 = (0, [emptyHandleRow.set 0 (some 7)]) := by
  decide

end MorionOS.Kernel
