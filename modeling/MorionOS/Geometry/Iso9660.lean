import MorionOS.Geometry.Volumes

/-!
# The volume that the ISO9660 service works on

`iso_mount` and the loop of `run` of `iso9660_srv.rs`.  The service mounts once, when it
starts.  A request that names another volume, or a descriptor of one, only changes `ISO_VOL`;
the size of a logical block and the root directory stay those of the first volume, and the new
volume becomes the one that requests without a number are for.
-/

namespace MorionOS.Geometry.Iso9660

open Blk (Bytes readLe readU32)
open StateAct

/-- What `iso_mount` takes from the primary volume descriptor. -/
structure Layout where
  blk : Nat
  rootExtent : Nat
  rootLen : Nat

/-- The global variables. -/
structure Globals where
  vol : Nat
  layout : Sourced Layout
  fds : FdTable
  uses : List Use

/-- Programs of the service. -/
abbrev Prog (α : Type) : Type := Act Globals Unit α

/-- Read the layout. -/
def useLayout : Prog Layout := fun g =>
  (.ok g.layout.value, { g with uses := g.uses ++ [⟨g.vol, g.layout.source⟩] })

variable (env : Env)

def readBlock (blk : Nat) : Prog Bytes := do
  let layout ← useLayout
  let secs := layout.blk / 512
  Act.ensure (secs ≠ 0 ∧ secs < 2 ^ 16) ()
  let vol ← Act.reads Globals.vol
  Act.ofOption (env.readSectors vol (blk * secs % 2 ^ 32) secs) ()

/-- The bytes of "CD001". -/
def IDENTIFIER : List Nat := [0x43, 0x44, 0x30, 0x30, 0x31]

/-- A primary volume descriptor. -/
def isPrimary (buf : Bytes) : Bool :=
  (List.range 5).map (fun i => (buf (1 + i)).toNat) = IDENTIFIER ∧ (buf 0).toNat = 1

/-- The loop of `iso_mount` over the volume descriptors. -/
def findPrimary (env : Env) (vol : Nat) : (left lba : Nat) → Option Bytes
  | 0, _ => none
  | left + 1, lba => do
      let buf ← env.readSectors vol lba 1
      if isPrimary buf then some buf else findPrimary env vol left (lba + 4)

def parsePrimary (buf : Bytes) : Option Layout :=
  let blk := readLe buf 128 2
  if blk ≠ 512 ∧ blk ≠ 1024 ∧ blk ≠ 2048 then none
  else some { blk := blk, rootExtent := readU32 buf 158, rootLen := readU32 buf 166 }

def mount : Prog Unit := do
  let vol ← Act.reads Globals.vol
  let layout ← Act.ofOption ((findPrimary env vol 8 64).bind parsePrimary) ()
  Act.modify fun g => { g with layout := ⟨layout, some g.vol⟩ }

/-! ## Requests -/

/-- What the handlers reach the disk through. -/
inductive Access where
  /-- `iso_read_block` -/
  | block (blk : Nat)
  /-- `iso_resolve` starts at the root directory, `iso_read_file` computes with the size of a
  block. -/
  | layout

def Access.run : Access → Globals → Globals
  | .block blk, g => (readBlock env blk g).2
  | .layout, g => (useLayout g).2

variable (g : Globals)

/-- The volume that a request is for: `iso_fd_get` switches to the one of the descriptor. -/
def requestVol (r : Request Access) : Nat :=
  match r.kind with
  | .descriptor fd => (fdGet g.fds fd).getD (volFromEnc r.enc g.vol)
  | _ => volFromEnc r.enc g.vol

/-- One round of the loop of `run`. -/
def serve (r : Request Access) : Globals :=
  let vol := requestVol g r
  let g := r.body.foldl (fun g step => step.2.run step.1 g) { g with vol := vol }
  { g with fds := fdAfter g.fds vol r.kind }

/-- The globals when the program starts, with the volume that it claims. -/
def fresh (vol : Nat) : Globals :=
  { vol := vol, layout := ⟨⟨2048, 0, 0⟩, none⟩, fds := List.replicate 16 none, uses := [] }

/-- The program reached its loop: the mount succeeded. -/
def Booted : Prop :=
  ∃ env vol, (mount env (fresh vol)).1 = .ok () ∧ g = (mount env (fresh vol)).2

/-- A request for the volume that the service is on. -/
def Careful (r : Request Access) : Prop := requestVol g r = g.vol

instance (g : Globals) (r : Request Access) : Decidable (Careful g r) :=
  inferInstanceAs (Decidable (_ = _))

/-! ## Runs -/

/-- The layout is that of the volume the service is on. -/
structure Settled (g : Globals) : Prop where
  layout : g.layout.source = some g.vol
  uses : ∀ u ∈ g.uses, u.Own

theorem keeps_useLayout : Act.Preserves Settled useLayout :=
  fun _ settled => ⟨settled.layout, uses_append settled.uses settled.layout⟩

theorem keeps_readBlock (blk : Nat) : Act.Preserves Settled (readBlock env blk) :=
  .bind keeps_useLayout fun _ => .bind (.ensure _ _) fun _ => .bind (.reads _) fun _ => .ofOption _ _

theorem Settled.access {g : Globals} (settled : Settled g) (env : Env) (a : Access) :
    Settled (a.run env g) := by
  cases a with
  | block blk => exact keeps_readBlock env blk g settled
  | layout => exact keeps_useLayout g settled

theorem Booted.settled {g : Globals} (booted : Booted g) : Settled g := by
  obtain ⟨env, vol, ok, rfl⟩ := booted
  have mounted : Ends (mount env (fresh vol)) (fun _ g' => Settled g') fun _ => True :=
    Act.ends_ofOption (fun _ => trivial) fun layout _ => ⟨rfl, nofun⟩
  exact mounted.of_ok (Act.eq_of_fst ok)

theorem Settled.serve {g : Globals} (settled : Settled g) {r : Request Access} (careful : Careful g r) :
    Settled (serve g r) := by
  have after : Settled (r.body.foldl (fun g step => step.2.run step.1 g) g) :=
    List.foldlRecOn r.body _ settled fun _ settled step _ => settled.access step.1 step.2
  rw [Iso9660.serve, careful]
  exact { after with }

/-- A step of the service on a careful request. -/
def Step (g g' : Globals) : Prop := ∃ r, Careful g r ∧ serve g r = g'

end MorionOS.Geometry.Iso9660
