import MorionOS.Geometry.Exfat
import MorionOS.Geometry.Ext2
import MorionOS.Geometry.Iso9660

/-!
# Geometry belongs to the volume that is accessed

In the runs of each service whose requests are careful, everything that was read from a disk
and is used on a volume was read from that volume.  What a careful request is differs: ext2
stands every switch to a complete volume, exFAT no switch that gets past the boot sector, since
the windows on the bitmap and the up-case table stay, and ISO9660 no switch at all.
This is `geometry_belongs_to_accessed_volume`; `layout_of_another_volume` has a run of each
service with a request that is not careful.
-/

namespace MorionOS.Geometry

open Blk (Bytes readU32)
open StateAct Relation

/-- Whatever a service uses on a volume was read from that volume, as long as exFAT requests are
for the mounted volume or for one whose boot sector is refused, ext2 requests for the mounted
volume or for one whose superblock is refused or that is complete, and ISO9660 requests for the
volume that the service is on. -/
theorem geometry_belongs_to_accessed_volume (exfat₀ exfat : Exfat.Globals) (ext2₀ ext2 : Ext2.Globals)
    (iso₀ iso : Iso9660.Globals) :
    (Exfat.Booted exfat₀ → ReflTransGen Exfat.Step exfat₀ exfat → ∀ u ∈ exfat.uses, u.Own) ∧
    (Ext2.Booted ext2₀ → ReflTransGen Ext2.Step ext2₀ ext2 → ∀ u ∈ ext2.uses, u.Own) ∧
    (Iso9660.Booted iso₀ → ReflTransGen Iso9660.Step iso₀ iso → ∀ u ∈ iso.uses, u.Own) :=
  ⟨fun booted run => (run_keeps Exfat.Settled.serve booted.settled run).uses,
    fun booted run => (run_keeps Ext2.Settled.serve booted.settled run).uses,
    fun booted run => (run_keeps Iso9660.Settled.serve booted.settled run).uses⟩

/-! ## Small media -/

/-- A sector that is zero but for some bytes. -/
def sector (bytes : List (Nat × UInt8)) : Bytes := fun i => (bytes.lookup i).getD 0

/-- Disks on which every access succeeds. -/
def reliable (sectors : Nat → Nat → Bytes) : Env :=
  ⟨fun vol lba => some (sectors vol lba), fun _ _ => true, fun _ => true⟩

namespace Exfat

/-- The bitmap in cluster 2, the up-case table in cluster 3, the root directory in cluster 4. -/
def demoSector : Nat → Bytes
  | 0 => sector [(3, 0x45), (4, 0x58), (5, 0x46), (6, 0x41), (7, 0x54), (8, 0x20), (9, 0x20), (10, 0x20),
      (80, 24), (84, 1), (88, 32), (92, 8), (96, 4), (108, 9), (109, 1), (110, 1), (510, 0x55), (511, 0xAA)]
  | 11 => sector [(0, 0x9E), (1, 0x6B), (2, 0x96), (3, 0x82)]
  | 32 => sector [(0, 7)]
  | 36 => sector [(0, 0x81), (20, 2), (24, 1), (32, 0x82), (52, 3), (56, 1)]
  | _ => fun _ => 0

/-- The same medium on every volume. -/
def demoEnv : Env := reliable fun _ lba => demoSector lba

def demoRead (sec : Nat) : Bytes := fun i => demoSector (sec + i / 512) (i % 512)

theorem readSectors_demo (sec : Nat) : readSectors demoEnv sec 1 = pure (demoRead sec) := rfl

theorem checksumFrom_demo (left sec : Nat) (sum : UInt32) :
    checksumFrom demoEnv left sec sum =
      pure ((List.range' sec left).foldl (fun sum sec => checksumSector sec (demoRead sec) sum) sum) := by
  induction left generalizing sec sum with
  | zero => rfl
  | succ left ih =>
    rw [checksumFrom, readSectors_demo, List.range'_succ, List.foldl_cons, ← ih]
    rfl

set_option maxRecDepth 100000 in
theorem verifyBootChecksum_demo : verifyBootChecksum demoEnv = pure () := by
  have agree : readU32 (demoRead 11) 0 =
      ((List.range' 0 11).foldl (fun sum sec => checksumSector sec (demoRead sec) sum) 0).toNat := by
    decide +kernel
  rw [verifyBootChecksum, checksumFrom_demo, Act.pure_then, readSectors_demo, Act.pure_then, ← agree]
  exact congrArg (Act.ensure · ()) (decide_eq_true rfl)

def demoLayout : Layout := ⟨2, 1024, 24, 1, 32, 8, 4, 1⟩

theorem bootSector_demo (vol : Nat) : bootSector demoEnv vol = .ok demoLayout := by
  have boot : parseBoot (demoRead 0) = .ok demoLayout := by decide +kernel
  exact boot

/-- The mount of the medium after its boot sector: the checksum is right. -/
def installDemo : Prog Nat Unit := do
  Act.modify (setLayout demoLayout)
  (bufsInit demoEnv (max 1 ((demoLayout.clusterBytes + PAGE_SIZE - 1) / PAGE_SIZE))).orErr 13
  Act.orErr (pure () : Prog Unit Unit) 8
  (scanSystemEntries demoEnv).orErr 9
  let rootUsed ← (bitmapGet demoEnv demoLayout.rootCluster).orErr 12
  Act.ensure rootUsed 12
  Act.modify fun g => { g with geoVol := some g.curVol }

theorem mount_demo (g : Globals) : mount demoEnv g = installDemo g := by
  rw [mount_accepted (bootSector_demo _), install, verifyBootChecksum_demo, installDemo]

/-- The service mounted the medium as volume 5. -/
def demoBooted : Globals := (installDemo (fresh 5)).2

theorem booted_demo : Booted demoBooted := by
  refine ⟨demoEnv, 5, ?_, by rw [mount_demo]; rfl⟩
  rw [mount_demo]
  decide +kernel

/-- The volume is switched to 6. -/
def demoSwitched : Globals := (installDemo { demoBooted with curVol := 6 }).2

/-- A request for volume 6. -/
def demoRequest : Request Access := ⟨.path false, 7, demoEnv, []⟩

theorem serve_demo : (serve demoBooted demoRequest).uses = demoSwitched.uses := by
  have asked : requestVol demoBooted demoRequest = 6 := by decide +kernel
  have other : demoBooted.geoVol ≠ some (requestVol demoBooted demoRequest) := by
    decide +kernel
  have mounted : mount demoRequest.env { demoBooted with curVol := requestVol demoBooted demoRequest } =
      (.ok (), demoSwitched) := by
    rw [asked, demoRequest, mount_demo]
    exact Act.eq_of_fst (by decide +kernel)
  rw [serve_switched other mounted, handle, demoRequest, List.foldl_nil]

end Exfat

namespace Ext2

/-- One group, its descriptor in block 2 and its inodes in block 3; the root inode is a directory
on every volume but 3. -/
def demoSector (vol lba : Nat) : Bytes :=
  match lba with
  | 2 => sector [(0x00, 8), (0x04, 8), (0x14, 1), (0x20, 8), (0x28, 8), (0x38, 0x53), (0x39, 0xEF)]
  | 4 => sector [(8, 3)]
  | 6 => if vol = 3 then fun _ => 0 else sector [(129, 0x40)]
  | _ => fun _ => 0

def demoEnv : Env := reliable demoSector

/-- The service mounted volume 2. -/
def demoBooted : Globals := (mount demoEnv (fresh 2)).2

theorem booted_demo : Booted demoBooted := ⟨demoEnv, 2, by decide +kernel, rfl⟩

/-- A request for volume 2 after a request for volume 3, which is refused late. -/
def demoRefused : Globals :=
  serve (serve demoBooted ⟨.path false, 4, demoEnv, []⟩) ⟨.path false, 3, demoEnv, [(demoEnv, .inode 2)]⟩

end Ext2

namespace Iso9660

/-- The primary volume descriptor comes first. -/
def demoSector : Nat → Bytes
  | 64 => sector [(0, 1), (1, 0x43), (2, 0x44), (3, 0x30), (4, 0x30), (5, 0x31), (129, 8), (158, 20), (167, 8)]
  | _ => fun _ => 0

def demoEnv : Env := reliable fun _ lba => demoSector lba

/-- The service mounted volume 8. -/
def demoBooted : Globals := (mount demoEnv (fresh 8)).2

theorem booted_demo : Booted demoBooted := ⟨demoEnv, 8, by decide +kernel, rfl⟩

end Iso9660

/-- After a switch of the exFAT service to a volume that mounts, after a late refusal by the ext2
service, and at any request for another volume to the ISO9660 service, the layout or the bitmap of
another volume is used. -/
theorem layout_of_another_volume :
    (Exfat.Booted Exfat.demoBooted ∧
      ¬ ∀ u ∈ (Exfat.serve Exfat.demoBooted Exfat.demoRequest).uses, u.Own) ∧
    (Ext2.Booted Ext2.demoBooted ∧ ¬ ∀ u ∈ Ext2.demoRefused.uses, u.Own) ∧
    (Iso9660.Booted Iso9660.demoBooted ∧
      ¬ ∀ u ∈ (Iso9660.serve Iso9660.demoBooted
        ⟨.path false, 10, Iso9660.demoEnv, [(Iso9660.demoEnv, .layout)]⟩).uses, u.Own) := by
  refine ⟨⟨Exfat.booted_demo, ?_⟩, ⟨Ext2.booted_demo, ?_⟩, ⟨Iso9660.booted_demo, ?_⟩⟩
  · rw [Exfat.serve_demo]
    decide +kernel
  · decide +kernel
  · decide +kernel

/-- The exFAT service serves a request for its volume. -/
def Exfat.demoServed : Exfat.Globals :=
  Exfat.serve Exfat.demoBooted ⟨.path false, 0, Exfat.demoEnv, [(Exfat.demoEnv, .bitmapPut 5 true)]⟩

/-- The ext2 service switches to volume 4. -/
def Ext2.demoServed : Ext2.Globals :=
  Ext2.serve Ext2.demoBooted ⟨.path true, 5, Ext2.demoEnv, [(Ext2.demoEnv, .inode 2)]⟩

/-- The ISO9660 service serves a request for its volume. -/
def Iso9660.demoServed : Iso9660.Globals :=
  Iso9660.serve Iso9660.demoBooted ⟨.path false, 0, Iso9660.demoEnv, [(Iso9660.demoEnv, .layout)]⟩

theorem careful_requests_own :
    (∀ u ∈ Exfat.demoServed.uses, u.Own) ∧ (∀ u ∈ Ext2.demoServed.uses, u.Own) ∧
      ∀ u ∈ Iso9660.demoServed.uses, u.Own := by
  obtain ⟨exfat, ext2, iso⟩ := geometry_belongs_to_accessed_volume Exfat.demoBooted Exfat.demoServed
    Ext2.demoBooted Ext2.demoServed Iso9660.demoBooted Iso9660.demoServed
  exact ⟨exfat Exfat.booted_demo (.single ⟨_, by decide +kernel, rfl⟩),
    ext2 Ext2.booted_demo (.single ⟨_, by decide +kernel, rfl⟩),
    iso Iso9660.booted_demo (.single ⟨_, by decide +kernel, rfl⟩)⟩

end MorionOS.Geometry
