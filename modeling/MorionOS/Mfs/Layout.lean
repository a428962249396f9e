import Mathlib.Tactic
import Mathlib.Logic.Function.Basic

/-!
# The on-disk layout of MorionFS

A volume is an array of 4 KiB blocks.  Every structured block starts with a
magic number and the CRC of its payload; the model keeps such a block as the
value it encodes, one constructor of `Block` per magic, so that `mfs_ok(buf, m)`
becomes a test of the constructor.  A block whose magic is unknown or whose CRC
does not match is `Block.raw`, of which only the first word is kept.  Bitmap
blocks carry no header and are arrays of bits.

The records of a directory block are kept as the list that following `rec_len`
visits.  `DirBlock.broken` marks a chain whose last record has an impossible
length.

Numbers and names are those of `mfs_srv.rs`, names in camel case and
some of them without `mfs_`.
-/

namespace MorionOS.Mfs

/-! ## Sizes -/

def MFS_BLOCK : Nat := 4096
def MFS_HDR : Nat := 8
def MFS_PAYLOAD : Nat := MFS_BLOCK - MFS_HDR
def MFS_SECTORS_PER_BLOCK : Nat := 8
def MFS_SB_COPIES : Nat := 2
def MFS_MAX_SNAP : Nat := 8
def MFS_VERSION : Nat := 8
def MFS_DEFAULT_TOTAL_BLOCKS : Nat := 4096
def MFS_MIN_TOTAL_BLOCKS : Nat := 64
/-- Blocks covered by one bitmap block. -/
def MFS_BMP_BLOCK_SPAN : Nat := MFS_BLOCK * 8
def MFS_MAX_BMP_DATA_BLOCKS : Nat := 1018
def MFS_MAX_BLOCKS : Nat := MFS_MAX_BMP_DATA_BLOCKS * MFS_BMP_BLOCK_SPAN
/-- Pointers in a block that holds nothing but pointers. -/
def MFS_SLOTS : Nat := MFS_PAYLOAD / 4
def MFS_DIR_SLOTS : Nat := MFS_SLOTS
def MFS_IND_CAP : Nat := MFS_SLOTS
def MFS_ITAB_SLOTS : Nat := MFS_SLOTS
def MFS_INO_MAX : Nat := MFS_ITAB_SLOTS * MFS_ITAB_SLOTS
def MFS_ROOT_INO : Nat := 1
def MFS_META_LEN : Nat := 40
def MFS_DIR_HDR : Nat := 8 + MFS_META_LEN
def MFS_DIR_AREA : Nat := MFS_PAYLOAD - MFS_DIR_HDR
def MFS_DIR_ENT_HDR : Nat := 8
def MFS_DIR_ENT_MIN : Nat := 12
def MFS_NAME_MAX : Nat := 255
def MFS_FILE_DIRECT : Nat := 1005
def MFS_DATA_CAP : Nat := MFS_PAYLOAD
def MFS_FILE_MAX_BLOCKS : Nat :=
  MFS_FILE_DIRECT + MFS_IND_CAP + MFS_IND_CAP * MFS_IND_CAP +
    MFS_IND_CAP * MFS_IND_CAP * MFS_IND_CAP
def MFS_LINK_MAX : Nat := 4056 - 16
def MFS_GC_LOW_WATER_DIV : Nat := 16
def MFS_GC_STACK_MAX : Nat := 4096
def MFS_WB_PAGES : Nat := 16
def MFS_PATH_MAX : Nat := 96
def MFS_SYMLINK_MAX_DEPTH : Nat := 16
def MFS_MAX_FD : Nat := 16
def MFS_DIDX_CACHE_DIRS : Nat := 8
def MFS_DIDX_ARENA : Nat := 8 * 1024
/-- Pages of the inode bitmap that `mfs_fsck` allocates. -/
def MFS_FSCK_PAGES : Nat := ((MFS_INO_MAX + 7) / 8 + (MFS_BLOCK - 1)) / MFS_BLOCK

/-! ## Magic numbers -/

def MFS_MAGIC_SUPER : Nat := 0x4D465338
def MFS_MAGIC_BMPHDR : Nat := 0x4D464248
def MFS_MAGIC_DIR : Nat := 0x4D464449
def MFS_MAGIC_DIDX : Nat := 0x4D465849
def MFS_MAGIC_FILE : Nat := 0x4D46464C
def MFS_MAGIC_LINK : Nat := 0x4D46534C
def MFS_MAGIC_DATA : Nat := 0x4D464441
def MFS_MAGIC_IND : Nat := 0x4D46494E
def MFS_MAGIC_IND2 : Nat := 0x4D464932
def MFS_MAGIC_IND3 : Nat := 0x4D464933
def MFS_MAGIC_ITAB : Nat := 0x4D464954
def MFS_MAGIC_ITABX : Nat := 0x4D464958

/-- The magic numbers of the MorionFS family: `MFS0` to `MFS9`. -/
def isFamilyMagic (m : Nat) : Bool :=
  m / 256 == 0x4D4653 && decide (0x30 ≤ m % 256) && decide (m % 256 ≤ 0x39)

/-! ## Node metadata -/

/-- The bytes of one path component. -/
abbrev Name := List UInt8

/-- `Cred`: the identity of a requester. -/
structure Cred where
  uid : Nat
  gid : Nat
deriving DecidableEq

/-- The 40 bytes of metadata in a directory, file or link node. -/
structure Meta where
  mode : Nat
  owner : Nat
  nlink : Nat
  mtime : Nat
  ctime : Nat
  atime : Nat
  uid : Nat
  gid : Nat
deriving DecidableEq

/-- Metadata of a zeroed block. -/
def Meta.zero : Meta := ⟨0, 0, 0, 0, 0, 0, 0, 0⟩

def MFS_UID_ROOT : Nat := 0
def MFS_GID_ROOT : Nat := 0
def MFS_MODE_DIR : Nat := 0o755
def MFS_MODE_FILE : Nat := 0o644
def MFS_MODE_LINK : Nat := 0o777
def MFS_MODE_MASK : Nat := 0o7777
def MFS_FTYPE_MASK : Nat := 0xF000
def MFS_FTYPE_FILE : Nat := 0x8000
def MFS_FTYPE_DIR : Nat := 0x4000
def MFS_FTYPE_LINK : Nat := 0xA000

/-- `mfs_init_meta`: the metadata of a new node. -/
def initMeta (ftype owner : Nat) (cred : Cred) (mode now : Nat) : Meta where
  mode := (ftype &&& MFS_FTYPE_MASK) ||| (mode &&& MFS_MODE_MASK)
  owner := owner
  nlink := 1
  mtime := now
  ctime := now
  atime := now
  uid := cred.uid
  gid := cred.gid

/-- `mfs_set_mode`: the permission bits change, the node type stays. -/
def Meta.setMode (m : Meta) (mode : Nat) : Meta :=
  { m with mode := (m.mode &&& MFS_FTYPE_MASK) ||| (mode &&& MFS_MODE_MASK) }

def Meta.touch (m : Meta) (now : Nat) : Meta := { m with mtime := now, ctime := now }

def Meta.touchCtime (m : Meta) (now : Nat) : Meta := { m with ctime := now }

/-! ## Blocks -/

/-- The type byte of a directory record. -/
inductive EntType where
  | file
  | dir
  | link
  /-- Any other byte, as in an empty record. -/
  | other
deriving DecidableEq

/-- One record of a directory block; an empty name marks a free record. -/
structure DirSlot where
  ino : Nat
  typ : EntType
  name : Name
  recLen : Nat
deriving DecidableEq

/-- A directory node or one of its extension blocks. -/
structure DirBlock where
  /-- Block of the extension index, `0` = none. -/
  ext : Nat
  md : Meta
  slots : List DirSlot
  broken : Bool
deriving DecidableEq

/-- A free record. -/
def DirSlot.free (recLen : Nat) : DirSlot := ⟨0, .other, [], recLen⟩

/-- `mfs_dir_init_empty`: one free record over the whole area. -/
def DirBlock.empty (md : Meta) : DirBlock := ⟨0, md, [.free MFS_DIR_AREA], false⟩

/-- A file node. -/
structure FileBlock where
  size : Nat
  nblocks : Nat
  direct : Nat → Nat
  ind1 : Nat
  ind2 : Nat
  ind3 : Nat
  md : Meta

/-- A symbolic link node with the target stored inline. -/
structure LinkBlock where
  size : Nat
  target : List UInt8
  md : Meta
deriving DecidableEq

structure MfsSnap where
  gen : Nat
  itab : Nat
  inoHint : Nat
  allocNext : Nat
deriving DecidableEq

def MfsSnap.empty : MfsSnap := ⟨0, 0, 0, 0⟩

/-- The payload of a superblock. -/
structure Super where
  version : Nat
  total : Nat
  inoCount : Nat
  allocHint : Nat
  snapCount : Nat
  gen : Nat
  itab : Nat
  inoHint : Nat
  snaps : Nat → MfsSnap
  primary : Nat

/-- The payload of a bitmap header. -/
structure BmpHeader where
  gen : Nat
  total : Nat
  dataBlocks : Nat
  crc : Nat → UInt32

/-- The content of a block. -/
inductive Block where
  | super (sb : Super)
  | bmpHeader (h : BmpHeader)
  /-- A bitmap block: bit `i` is bit `i % 8` of byte `i / 8`. -/
  | bitmap (bits : Nat → Bool)
  | dir (d : DirBlock)
  | didx (slots : Nat → Nat)
  | file (f : FileBlock)
  | link (l : LinkBlock)
  | data (bytes : Nat → UInt8)
  | ind (slots : Nat → Nat)
  | ind2 (slots : Nat → Nat)
  | ind3 (slots : Nat → Nat)
  | itab (slots : Nat → Nat)
  | itabx (slots : Nat → Nat)
  /-- No valid structured block; only the first word is kept. -/
  | raw (magic : Nat)

/-- The value of the first `n` bits of a bit array, low bit first. -/
def bitsValue (bits : Nat → Bool) : Nat → Nat
  | 0 => 0
  | n + 1 => bitsValue bits n + if bits n then 2 ^ n else 0

/-- The first word of a block as `read_u32` sees it. -/
def Block.magic : Block → Nat
  | .super _ => MFS_MAGIC_SUPER
  | .bmpHeader _ => MFS_MAGIC_BMPHDR
  | .bitmap bits => bitsValue bits 32
  | .dir _ => MFS_MAGIC_DIR
  | .didx _ => MFS_MAGIC_DIDX
  | .file _ => MFS_MAGIC_FILE
  | .link _ => MFS_MAGIC_LINK
  | .data _ => MFS_MAGIC_DATA
  | .ind _ => MFS_MAGIC_IND
  | .ind2 _ => MFS_MAGIC_IND2
  | .ind3 _ => MFS_MAGIC_IND3
  | .itab _ => MFS_MAGIC_ITAB
  | .itabx _ => MFS_MAGIC_ITABX
  | .raw magic => magic

/-! ## Checksums of bitmap blocks -/

/-- One byte of `crc32_update`: eight shifts of the reflected polynomial. -/
def crc32Byte (crc : UInt32) (byte : UInt8) : UInt32 :=
  (List.range 8).foldl
    (fun crc _ => if crc &&& 1 != 0 then (crc >>> 1) ^^^ 0xEDB88320 else crc >>> 1)
    (crc ^^^ byte.toUInt32)

def mfsCrc32 (data : List UInt8) : UInt32 :=
  (data.foldl crc32Byte 0xFFFFFFFF) ^^^ 0xFFFFFFFF

/-- The bytes of a bitmap block. -/
def bitmapBytes (bits : Nat → Bool) : List UInt8 :=
  (List.range MFS_BLOCK).map fun i => UInt8.ofNat (bitsValue (fun j => bits (8 * i + j)) 8)

/-- The checksum of a bitmap block. -/
def bitmapCrc (bits : Nat → Bool) : UInt32 := mfsCrc32 (bitmapBytes bits)

end MorionOS.Mfs
