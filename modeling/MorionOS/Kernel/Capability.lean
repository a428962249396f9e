import MorionOS.Lib.Table
import Mathlib.Tactic.Ring

/-!
# Capabilities and handles

The capability table of `cap.rs`: every domain has a row of `CAP_SLOTS` slots, and
the kernel lets a domain do something only when a slot of its row says so.  Rows
are addressed by domain number and are kept when a domain goes away, so adding
and removing a domain both set the row to empty.  The handle table has the same
shape; its slots hold opaque object numbers.

`table[domain as usize]` panics when the row does not exist: the functions that
index in this way return `none` there.
-/

namespace MorionOS.Kernel

/-- `u64::MAX`, the error value of the handle calls. -/
def U64_MAX : Nat := 2 ^ 64 - 1

inductive Capability where
  | sendTo (domain : Nat)
  | mapInto (domain : Nat)
  | irq (line : UInt8)
  | mmio (base : Nat)
  /-- The I/O ports of `[base, base + len)`. -/
  | ioPort (base len : UInt16)
  /-- The network ports of `[lo, hi]`. -/
  | net (lo hi : UInt16)
  | fb
  | spawn
deriving DecidableEq

def CAP_SLOTS : Nat := 32
def HANDLE_SLOTS : Nat := 32

def CAP_KIND_SEND_TO : Nat := 0
def CAP_KIND_MAP_INTO : Nat := 1
def CAP_KIND_IRQ : Nat := 2
def CAP_KIND_MMIO : Nat := 3
def CAP_KIND_SPAWN : Nat := 4
def CAP_KIND_FB : Nat := 5
def CAP_KIND_IO_PORT : Nat := 6
def CAP_KIND_NET : Nat := 7

/-- `decode`: the capability that `SYS_CAP_SEND` names by kind and argument. -/
def decode (kind arg : Nat) : Option Capability :=
  if kind = CAP_KIND_SEND_TO then some (.sendTo arg)
  else if kind = CAP_KIND_MAP_INTO then some (.mapInto arg)
  else if kind = CAP_KIND_IRQ ∧ arg ≤ 255 then some (.irq (UInt8.ofNat arg))
  else if kind = CAP_KIND_MMIO ∧ arg &&& 0xFFF = 0 then some (.mmio arg)
  else if kind = CAP_KIND_SPAWN then some .spawn
  else if kind = CAP_KIND_FB then some .fb
  else if kind = CAP_KIND_IO_PORT ∧ arg >>> 32 = 0 ∧ arg &&& 0xFFFF ≠ 0 then
    let base := UInt16.ofNat (arg >>> 16)
    let len := UInt16.ofNat (arg &&& 0xFFFF)
    if base.toNat + len.toNat ≤ 0x10000 then some (.ioPort base len) else none
  else if kind = CAP_KIND_NET ∧ arg >>> 32 = 0 then
    let lo := UInt16.ofNat (arg >>> 16)
    let hi := UInt16.ofNat (arg &&& 0xFFFF)
    if lo ≤ hi then some (.net lo hi) else none
  else none

/-- A row of capability slots. -/
abbrev CapRow := List (Option Capability)

/-- A row of handle slots. -/
abbrev HandleRow := List (Option Nat)

def emptyCapRow : CapRow := List.replicate CAP_SLOTS none
def emptyHandleRow : HandleRow := List.replicate HANDLE_SLOTS none

/-- `set_row`: a table that is too short grows by copies of the new row. -/
def setRow {α : Type} (table : List α) (id : Nat) (row : α) : List α := Table.put row table id row

/-! ## Checks -/

def has (caps : List CapRow) (domain : Nat) (cap : Capability) : Option Bool :=
  caps[domain]?.map fun slots => slots.contains (some cap)

/-- `port_in_range`; the bounds are compared as 32-bit numbers. -/
def portInRange (base len port : UInt16) : Bool :=
  decide (base ≤ port) && decide (port.toUInt32 < base.toUInt32 + len.toUInt32)

def netPortInRange (lo hi port : UInt16) : Bool := decide (lo ≤ port) && decide (port ≤ hi)

/-- Does a slot of the domain's row cover the port?  The shape that `has_port`
and `has_net_port` share. -/
def anySlot (caps : List CapRow) (domain : Nat) (covers : Capability → Bool) : Bool :=
  match caps[domain]? with
  | none => false
  | some slots => slots.any fun slot => slot.any covers

def hasPort (caps : List CapRow) (domain : Nat) (port : UInt16) : Bool :=
  anySlot caps domain fun
    | .ioPort base len => portInRange base len port
    | _ => false

def hasNetPort (caps : List CapRow) (domain : Nat) (port : UInt16) : Bool :=
  anySlot caps domain fun
    | .net lo hi => netPortInRange lo hi port
    | _ => false

/-! ## Changes -/

/-- `grant`: the first empty slot takes the capability. -/
def grant (caps : List CapRow) (domain : Nat) (cap : Capability) : Option (Bool × List CapRow) :=
  caps[domain]?.map fun slots =>
    match Table.fill slots cap with
    | some (_, slots) => (true, caps.set domain slots)
    | none => (false, caps)

/-- `delegate`: the giver must hold the capability; a receiver that already
holds it keeps its row. -/
def delegate (caps : List CapRow) (giver receiver : Nat) (cap : Capability) : Bool × List CapRow :=
  if (has caps giver cap).getD false then
    match caps[receiver]? with
    | none => (false, caps)
    | some slots =>
      if slots.contains (some cap) then (true, caps)
      else match Table.fill slots cap with
        | some (_, slots) => (true, caps.set receiver slots)
        | none => (false, caps)
  else (false, caps)

def handleIssue (handles : List HandleRow) (domain obj : Nat) : Nat × List HandleRow :=
  match handles[domain]?.bind fun slots => Table.fill slots obj with
  | some (handle, slots) => (handle, handles.set domain slots)
  | none => (U64_MAX, handles)

def handleLookup (handles : List HandleRow) (domain handle : Nat) : Option Nat :=
  (handles[domain]?.bind fun slots => slots[handle]?).join

def handleDrop (handles : List HandleRow) (domain handle : Nat) : Bool × List HandleRow :=
  match handles[domain]?, handleLookup handles domain handle with
  | some slots, some _ => (true, handles.set domain (slots.set handle none))
  | _, _ => (false, handles)

/-- `handle_move`: the object leaves its slot before a slot is searched, so a
domain can move a handle within its own row; without a free slot it goes back. -/
def handleMove (handles : List HandleRow) (giver receiver handle : Nat) : Nat × List HandleRow :=
  match handleLookup handles giver handle with
  | none => (U64_MAX, handles)
  | some obj =>
    let (out, moved) := handleIssue (handleDrop handles giver handle).2 receiver obj
    if out = U64_MAX then (U64_MAX, moved.modify giver (·.set handle (some obj))) else (out, moved)

/-! ## What a table grants -/

/-- The row of a domain; a domain beyond the end of the table has an empty one. -/
def capRow (caps : List CapRow) (domain : Nat) : CapRow := Table.row emptyCapRow caps domain

/-- The domain holds the capability in one of its slots. -/
def Holds (caps : List CapRow) (domain : Nat) (cap : Capability) : Prop :=
  some cap ∈ capRow caps domain

theorem not_mem_emptyCapRow (cap : Capability) : some cap ∉ emptyCapRow := by
  simp [emptyCapRow]

variable {caps : List CapRow} {domain : Nat} {port : UInt16}

theorem holds_of_getElem? {slots : CapRow} {cap : Capability}
    (found : caps[domain]? = some slots) : Holds caps domain cap ↔ some cap ∈ slots := by
  rw [Holds, capRow, Table.row_of_getElem? found]

theorem has_eq_some {cap : Capability} (held : has caps domain cap = some true) : Holds caps domain cap := by
  obtain ⟨slots, found, contains⟩ := Option.map_eq_some_iff.mp held
  rw [holds_of_getElem? found]
  simpa using contains

theorem anySlot_eq_true {covers : Capability → Bool} (covered : anySlot caps domain covers = true) :
    ∃ cap, Holds caps domain cap ∧ covers cap = true := by
  unfold anySlot at covered
  split at covered
  · cases covered
  next slots found =>
    obtain ⟨slot, member, any⟩ := List.any_eq_true.mp covered
    cases slot with
    | none => cases any
    | some cap => exact ⟨cap, (holds_of_getElem? found).mpr member, by simpa using any⟩

/-- The 32-bit comparison does not wrap: the port lies in the half-open range. -/
theorem portInRange_eq_true {base len : UInt16} (inside : portInRange base len port = true) :
    base.toNat ≤ port.toNat ∧ port.toNat < base.toNat + len.toNat := by
  simp only [portInRange, Bool.and_eq_true, decide_eq_true_eq, UInt16.le_iff_toNat_le,
    UInt32.lt_iff_toNat_lt, UInt32.toNat_add, UInt16.toNat_toUInt32] at inside
  omega

theorem netPortInRange_eq_true {lo hi : UInt16} (inside : netPortInRange lo hi port = true) :
    lo.toNat ≤ port.toNat ∧ port.toNat ≤ hi.toNat := by
  simpa [netPortInRange, UInt16.le_iff_toNat_le]
    using inside

theorem hasPort_eq_true (allowed : hasPort caps domain port = true) :
    ∃ base len, Holds caps domain (.ioPort base len) ∧
      base.toNat ≤ port.toNat ∧ port.toNat < base.toNat + len.toNat := by
  obtain ⟨cap, held, covers⟩ := anySlot_eq_true allowed
  cases cap with
  | ioPort base len => exact ⟨base, len, held, portInRange_eq_true covers⟩
  | _ => cases covers

theorem hasNetPort_eq_true (allowed : hasNetPort caps domain port = true) :
    ∃ lo hi, Holds caps domain (.net lo hi) ∧
      lo.toNat ≤ port.toNat ∧ port.toNat ≤ hi.toNat := by
  obtain ⟨cap, held, covers⟩ := anySlot_eq_true allowed
  cases cap with
  | net lo hi => exact ⟨lo, hi, held, netPortInRange_eq_true covers⟩
  | _ => cases covers

theorem capRow_set {slots slots' : CapRow} (found : caps[domain]? = some slots) (d : Nat) :
    capRow (caps.set domain slots') d = if d = domain then slots' else capRow caps d :=
  Table.row_set (List.getElem?_eq_some_iff.mp found).1 d

/-- Adding and removing a domain empty its row and no other. -/
theorem capRow_setRow (caps : List CapRow) (domain d : Nat) :
    capRow (setRow caps domain emptyCapRow) d = if d = domain then emptyCapRow else capRow caps d :=
  Table.row_put emptyCapRow caps domain emptyCapRow d

/-- What `delegate` does to the rows: at most the receiver gets the capability,
and only when the giver holds it. -/
theorem delegate_spec (caps : List CapRow) (giver receiver : Nat) (cap : Capability) (d : Nat)
    (c : Capability) : Holds (delegate caps giver receiver cap).2 d c →
      Holds caps d c ∨ d = receiver ∧ c = cap ∧ Holds caps giver cap := by
  intro held
  unfold delegate at held
  split at held
  next holds =>
    have giverHolds : Holds caps giver cap := by
      rcases eq : has caps giver cap with _ | b
      · simp [eq] at holds
      · rw [eq, Option.getD_some] at holds
        exact has_eq_some (holds ▸ eq)
    split at held
    · exact .inl held
    next slots found =>
      split at held
      · exact .inl held
      split at held
      next i slots' filled =>
        rw [Holds, capRow_set found] at held
        by_cases here : d = receiver
        · rw [if_pos here, Table.mem_fill filled] at held
          rcases held with same | member
          · exact .inr ⟨here, same, giverHolds⟩
          · exact .inl (here ▸ (holds_of_getElem? found).mpr member)
        · rw [if_neg here] at held
          exact .inl held
      next => exact .inl held
  next => exact .inl held

end MorionOS.Kernel
