import MorionOS.Blk.Partitions
import MorionOS.Lib.Invariant
import MorionOS.Lib.Table

/-!
# Services for several volumes

The exFAT, ext2 and ISO9660 services keep the layout of one volume in global variables and
serve requests for any volume: the volume of a request is named by its tag, or is the one
that its descriptor was opened on.

What the services read of the disks is an input (`Env`), a new one at each step.  A global
variable that was filled from a disk is kept with the volume it was read from, and reading
it leaves a record of the volume that the service works on and of that source; no function
looks at either.

Names are those of the source, in camel case and without the name of the service.
-/

namespace MorionOS.Geometry

open Blk (Bytes)

/-- What the disks and the kernel answer. -/
structure Env where
  /-- a sector of a volume; `none` when the read fails -/
  read : Nat → Nat → Option Bytes
  /-- does a write of a sector succeed? -/
  write : Nat → Nat → Bool
  /-- do `sys_alloc_page` and `sys_share_page` succeed for this page of the buffer? -/
  page : Nat → Bool

/-- `block_read_dev`: sectors in a row. -/
def Env.readSectors (env : Env) (vol lba count : Nat) : Option Bytes :=
  if (List.range count).all fun k => (env.read vol (lba + k)).isSome then
    some fun i => ((env.read vol (lba + i / 512)).getD fun _ => 0) (i % 512)
  else none

/-- A value, and the volume that it was read from. -/
structure Sourced (α : Type) where
  value : α
  source : Option Nat

/-- A value was used while the service worked on a volume. -/
structure Use where
  vol : Nat
  source : Option Nat
deriving DecidableEq

/-- The value belongs to the volume that it was used for. -/
def Use.Own (u : Use) : Prop := u.source = some u.vol

instance (u : Use) : Decidable u.Own := inferInstanceAs (Decidable (_ = _))

theorem uses_append {uses : List Use} {new : Use} (own : ∀ u ∈ uses, u.Own) (owns : new.Own) :
    ∀ u ∈ uses ++ [new], u.Own :=
  List.forall_mem_append.mpr ⟨own, List.forall_mem_singleton.mpr owns⟩

def volFromEnc (enc default : Nat) : Nat := if enc = 0 then default else enc - 1

/-- A table of descriptors: the volume that each was opened on. -/
abbrev FdTable := List (Option Nat)

def fdGet (fds : FdTable) (fd : Nat) : Option Nat := (fds[fd]?).join

/-- The requests of a service. -/
inductive Kind where
  /-- A request with a path; does it end with a new descriptor? -/
  | path (opens : Bool)
  /-- A request that works on the volume of a descriptor. -/
  | descriptor (fd : Nat)
  | close (fd : Nat)
  /-- A tag that the service does not know. -/
  | other

/-- A request, with what the disks answer while the volume is switched, and what its handler
then does. -/
structure Request (β : Type) where
  kind : Kind
  enc : Nat
  env : Env
  body : List (Env × β)

/-- The descriptors after a request. -/
def fdAfter (fds : FdTable) (vol : Nat) : Kind → FdTable
  | .path true => ((Table.fill fds vol).map Prod.snd).getD fds
  | .close fd => fds.set fd none
  | _ => fds

/-- What each careful request keeps, a run of them keeps. -/
theorem run_keeps {σ ρ : Type} {careful : σ → ρ → Prop} {serve : σ → ρ → σ} {P : σ → Prop} {g g' : σ}
    (kept : ∀ {g}, P g → ∀ {r}, careful g r → P (serve g r)) (holds : P g)
    (run : Relation.ReflTransGen (fun g g' => ∃ r, careful g r ∧ serve g r = g') g g') : P g' := by
  induction run with
  | refl => exact holds
  | tail _ step ih =>
    obtain ⟨r, careful, rfl⟩ := step
    exact kept ih careful

end MorionOS.Geometry
