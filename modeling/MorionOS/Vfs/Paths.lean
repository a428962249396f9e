import MorionOS.Kernel.Capability
import Mathlib.Data.List.TakeWhile

/-!
# How a path travels from the file library to a file service

The calls of `vfs.rs` that name a file by its path ask the mount service first, which
answers with the service and the length of the mount point, and send what is left of the
path to the service.  The path is carried in one of three ways: in the payload of the
message, in a page that the client shares with the service (`PathReq`), or together with
a second path in such a page (`TwoPathReq`).

`Call.send` is the client's side, `Request.receive` the service's; between them a message
of the kernel carries its payload as it is.  Paths are byte strings.  The mount table can
change between calls, so it is a parameter of a call.
-/

namespace MorionOS.Vfs

open Kernel (U64_MAX)

def PAYLOAD_LEN : Nat := 96

abbrev Path := List UInt8

def SLASH : UInt8 := 0x2F

/-! ## The mount service -/

def MOUNT_PREFIX_MAX : Nat := 24

/-- `MountEntry` in use; what `mount_add` checks before it takes a mount point is part of it. -/
structure MountEntry where
  volEnc : Nat
  domain : Nat
  /-- the first `plen` bytes of the prefix -/
  point : Path
  clean : 0 ∉ point
  absolute : point.head? = some SLASH
  short : point.length < MOUNT_PREFIX_MAX
  real : domain ≠ 0

abbrev MountTable := List (Option MountEntry)

def mountPrefixMatch (path point : Path) : Option Nat :=
  if path.head? ≠ some SLASH then none
  else if point = [SLASH] then some 1
  else if path.length < point.length ∨ path.take point.length ≠ point then none
  else if path.length = point.length ∨ path[point.length]? = some SLASH then some point.length
  else none

variable (table : MountTable)

/-- The service, the code of the volume and the length of the mount point. -/
structure Route where
  domain : Nat
  volEnc : Nat
  len : Nat
deriving DecidableEq

/-- One round of the loop of `mount_resolve`: a longer mount point wins. -/
def longer (path : Path) (best : Option Route) (entry : Option MountEntry) : Option Route :=
  match entry with
  | none => best
  | some e =>
    match mountPrefixMatch path e.point with
    | none => best
    | some len => if best.all fun b => b.len < len then some ⟨e.domain, e.volEnc, len⟩ else best

def mountResolve (path : Path) : Option Route :=
  table.foldl (longer path) none

/-- The reply to `MNTQ`. -/
def mountReply : Option Route → Nat
  | none => U64_MAX
  | some r => (r.volEnc <<< 40) % 2 ^ 64 ||| (r.domain <<< 32) % 2 ^ 64 ||| r.len

/-! ## Paths in messages and pages -/

/-- `path_payload`: `encode_path` into a payload of zeros. -/
def pathPayload (path : Path) : List UInt8 :=
  let n := min path.length (PAYLOAD_LEN - 1)
  path.take n ++ List.replicate (PAYLOAD_LEN - n) 0

/-- The path in a payload, as all services and the mount service take it out. -/
def payloadPath (payload : List UInt8) : Path :=
  payload.take ((payload.findIdx? (· == 0)).getD PAYLOAD_LEN)

/-- `write_cstr` into a page with this content. -/
def writeCstr (s : Path) (page : List UInt8) : List UInt8 :=
  let n := min s.length (PAYLOAD_LEN - 1)
  s.take n ++ 0 :: page.drop (n + 1)

def pagePath (page : List UInt8) : Path := (page.take (PAYLOAD_LEN - 1)).takeWhile (· != 0)

def writeTwoPaths (a b : Path) (page : List UInt8) : List UInt8 :=
  a ++ 0 :: b ++ 0 :: page.drop (a.length + b.length + 2)

/-- `with_two_paths`: the paths that the service's function is called with. -/
def withTwoPaths (aLen bLen buf : Nat) (page : List UInt8) : Option (Path × Path) :=
  if aLen + 1 + bLen > PAYLOAD_LEN ∨ buf = 0 then none
  else some (page.take aLen, (page.drop (aLen + 1)).take bLen)

/-! ## The library -/

/-- `sys_call_payload` of `vfs.rs`: the error codes of a service become `u64::MAX`. -/
def normalizeReply (v : Nat) : Nat := if v >>> 48 = 0xFFFF then U64_MAX else v

def mountLookup (path : Path) : Option Route :=
  let r := normalizeReply (mountReply (mountResolve table (payloadPath (pathPayload path))))
  if r = U64_MAX then none
  else
    let domain := (r >>> 32) &&& 0xFF
    let len := r &&& 0xFFFFFFFF
    if domain = 0 ∨ len = 0 ∨ len > path.length then none
    else some ⟨domain, (r >>> 40) &&& 0xFF, len⟩

/-- What is left of a path below a mount point: the path itself at the root, and the
root of the service at the mount point. -/
def below (len : Nat) (path : Path) : Path :=
  if len = 1 then path else if path.drop len = [] then [SLASH] else path.drop len

def route (path : Path) : Option (Route × Path) :=
  match mountLookup table path with
  | none => none
  | some r => if r.len > path.length then none else some (r, below r.len path)

def withVol (tag volEnc : Nat) : Nat := tag ||| ((volEnc &&& 0xFF) <<< 32)

def tagBody (tag : Nat) : Nat := tag &&& 0xFFFFFFFF

def tagVol (tag : Nat) : Nat := (tag >>> 32) &&& 0xFF

/-- The calls with a path in the payload. -/
inductive PayloadOp where
  | open_
  | creat
  | mkdir
  | unlink
  | rmdir

def PayloadOp.tag : PayloadOp → Nat
  | open_ => 0x4F50454E
  | creat => 0x43524541
  | mkdir => 0x4D4B4449
  | unlink => 0x554E4C4B
  | rmdir => 0x524D4449

/-- The calls with a path in a page, with what they put into `aux`. -/
inductive PageOp where
  | stat
  | lstat
  | readlink
  | chmod (mode : UInt32)
  | chown (uid gid : UInt16)

def PageOp.tag : PageOp → Nat
  | stat => 0x53544154
  | lstat => 0x4C535441
  | readlink => 0x52444C4B
  | chmod _ => 0x43484D44
  | chown _ _ => 0x43484F57

def PageOp.aux : PageOp → UInt32
  | stat | lstat | readlink => 0
  | chmod mode => mode
  | chown uid gid => (uid.toUInt32 <<< 16) ||| gid.toUInt32

/-- The calls with two paths in a page. -/
inductive PairOp where
  | rename
  | link

def PairOp.tag : PairOp → Nat
  | rename => 0x52454E4D
  | link => 0x4C494E4B

inductive Call where
  | payload (op : PayloadOp) (path : Path)
  | page (op : PageOp) (path : Path) (buf : Nat)
  | pair (op : PairOp) (src dst : Path) (buf : Nat)

inductive Payload where
  | path (bytes : List UInt8)
  | pathReq (aux : UInt32) (buf : Nat)
  | twoPathReq (aLen bLen buf : Nat)

/-- A message to a service, with the content of the page at `buf`. -/
structure Request where
  domain : Nat
  tag : Nat
  payload : Payload
  page : List UInt8

/-- The calls up to their request: `open`, `creat`, `mkdir`, `unlink`, `rmdir`;
`stat_into`, `lstat_into`, `readlink_into`, `chmod_into`, `chown_into`; `rename_into` and
`link_into`. -/
def Call.send (page : List UInt8) : Call → Option Request
  | .payload op path => do
      let (r, sub) ← route table path
      some ⟨r.domain, withVol op.tag r.volEnc, .path (pathPayload sub), page⟩
  | .page op path buf => do
      let (r, sub) ← route table path
      some ⟨r.domain, withVol op.tag r.volEnc, .pathReq op.aux buf, writeCstr sub page⟩
  | .pair op src dst buf => do
      let (s, ssub) ← route table src
      let (d, dsub) ← route table dst
      if s.domain ≠ d.domain ∨ s.volEnc ≠ d.volEnc then none
      else
        some ⟨s.domain, withVol op.tag s.volEnc,
          .twoPathReq (ssub.length % 2 ^ 32) (dsub.length % 2 ^ 32) buf, writeTwoPaths ssub dsub page⟩

/-- What a service does: which operation, on which volume, with which paths. -/
structure Operation where
  domain : Nat
  volEnc : Nat
  tag : Nat
  paths : List Path
deriving DecidableEq

/-- How a service takes a request apart. -/
def Request.receive (r : Request) : Option Operation :=
  match r.payload with
  | .path bytes => some ⟨r.domain, tagVol r.tag, tagBody r.tag, [payloadPath bytes]⟩
  | .pathReq _ _ => some ⟨r.domain, tagVol r.tag, tagBody r.tag, [pagePath r.page]⟩
  | .twoPathReq aLen bLen buf =>
    (withTwoPaths aLen bLen buf r.page).map fun (a, b) =>
      ⟨r.domain, tagVol r.tag, tagBody r.tag, [a, b]⟩

/-- What the service of a call comes to do; `none` when the call fails before. -/
def Call.operation (page : List UInt8) (call : Call) : Option Operation :=
  (call.send table page).bind Request.receive

end MorionOS.Vfs
