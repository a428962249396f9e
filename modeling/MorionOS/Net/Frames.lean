import MorionOS.Lib.OnesComplement
import MorionOS.Net.Sockets

/-!
# Frames that the network stack receives

`handle_frame` of `netstack_srv.rs` with the parsers behind it: ARP, IPv4 with UDP and TCP,
IPv6 with UDP, TCP and ICMPv6.  A frame stands at the start of the link's shared page; its
length comes from the driver, and a parser may read behind the end.

A frame that is sent back is a `Reply` with the values it is built from.  A segment that the
stack answers with has the sender of the segment it answers as its destination, so it goes
round inside the stack exactly when that is the stack's own IPv4 address.
-/

namespace MorionOS.Net

def GW_IP : UInt32 := 0x0a000202
def ETH_IPV4 : Nat := 0x0800
def ETH_ARP : Nat := 0x0806
def ETH_IPV6 : Nat := 0x86DD
def IP_PROTO_ICMP : Nat := 1
def IP_PROTO_TCP : Nat := 6
def IP_PROTO_UDP : Nat := 17
def IP6_PROTO_ICMPV6 : Nat := 58
def ICMPV6_RA : Nat := 134
def ICMPV6_NS : Nat := 135
def ICMPV6_NA : Nat := 136
def ICMPV6_ECHO_REQ : Nat := 128

/-! ## Bytes -/

/-- The shared page of a link. -/
abbrev Page := Nat → UInt8

variable (p : Page)

def rd8 (a : Nat) : Nat := (p a).toNat

def rd16be (a : Nat) : Nat := rd8 p a * 256 + rd8 p (a + 1)

def rd32be (a : Nat) : Nat := rd16be p a * 65536 + rd16be p (a + 2)

/-- Bytes in a row. -/
def bytesAt (a len : Nat) : List UInt8 := (List.range len).map fun i => p (a + i)

/-- Bytes as a number, the first one highest. -/
def bigEndian (bytes : List UInt8) : Nat := bytes.foldl (fun v b => v * 256 + b.toNat) 0

def addr4 (bytes : List UInt8) : UInt32 := UInt32.ofNat (bigEndian bytes)

def addr6 (bytes : List UInt8) : BitVec 128 := BitVec.ofNat 128 (bigEndian bytes)

def macAt (a : Nat) : BitVec 48 := BitVec.ofNat 48 (bigEndian (bytesAt p a 6))

/-! ## Checksums -/

/-- `csum_acc`, and the loop of `csum`. -/
def csumAcc : List UInt8 → Nat → Nat
  | hi :: lo :: rest, sum => csumAcc rest (sum + (hi.toNat * 256 + lo.toNat))
  | [hi], sum => sum + hi.toNat * 256
  | [], sum => sum

/-- `csum_fold` with the complement. -/
def csumDone (sum : Nat) : Nat := 0xFFFF - OnesComplement.fold sum

def csum (base len : Nat) : Nat := csumDone (csumAcc (bytesAt p base len) 0)

/-- The pseudo header of `tcp_csum`. -/
def pseudo4 (src dst : List UInt8) (len : Nat) : List UInt8 :=
  src ++ dst ++ [0, UInt8.ofNat IP_PROTO_TCP, UInt8.ofNat (len / 256), UInt8.ofNat len]

def tcpCsum (src dst : List UInt8) (seg len : Nat) : Nat :=
  csumDone (csumAcc (bytesAt p seg len) (csumAcc (pseudo4 src dst len) 0))

/-- The pseudo header of `csum_v6`. -/
def pseudo6 (src dst : List UInt8) (next len : Nat) : List UInt8 :=
  src ++ dst ++ [UInt8.ofNat (len / 2 ^ 24), UInt8.ofNat (len / 2 ^ 16), UInt8.ofNat (len / 256),
    UInt8.ofNat len, 0, 0, 0, UInt8.ofNat next]

/-- `csum_v6`, and `udp6_csum` with the protocol of UDP. -/
def csumV6 (src dst : List UInt8) (next seg len : Nat) : Nat :=
  csumDone (csumAcc (bytesAt p seg len) (csumAcc (pseudo6 src dst next len) 0))

/-! ## IPv4 -/

structure Ipv4Info where
  src : List UInt8
  dst : List UInt8
  proto : Nat
  payloadOff : Nat
  payloadLen : Nat

def ipv4Parse (n : Nat) : Option Ipv4Info :=
  let ihl := rd8 p 14 % 16 * 4
  let total := rd16be p 16
  let frag := rd16be p 20
  if n < 14 + 20 ∨ rd16be p 12 ≠ ETH_IPV4 then none
  else if rd8 p 14 / 16 ≠ 4 then none
  else if ihl < 20 ∨ ihl > n - 14 then none
  else if total < ihl ∨ total > n - 14 then none
  else if frag &&& 0x2000 ≠ 0 ∨ frag &&& 0x1fff ≠ 0 then none
  else if csum p 14 ihl ≠ 0 then none
  else some
    { src := bytesAt p 26 4, dst := bytesAt p 30 4, proto := rd8 p 23
      payloadOff := 14 + ihl, payloadLen := total - ihl }

/-- The segment that the parsers read at `tcp`, with its data at `doff`. -/
def segmentAt (tcp doff len : Nat) : TcpSeg :=
  { sport := UInt16.ofNat (rd16be p tcp), dport := UInt16.ofNat (rd16be p (tcp + 2))
    seq := UInt32.ofNat (rd32be p (tcp + 4)), ack := UInt32.ofNat (rd32be p (tcp + 8))
    flags := p (tcp + 13), payload := bytesAt p (tcp + doff) (len - doff) }

def tcpParse (info : Ipv4Info) : Option TcpSeg :=
  let tcp := info.payloadOff
  let doff := rd8 p (tcp + 12) / 16 * 4
  if info.proto ≠ IP_PROTO_TCP ∨ info.payloadLen < 20 then none
  else if doff < 20 ∨ doff > info.payloadLen then none
  else if tcpCsum p info.src info.dst tcp info.payloadLen ≠ 0 then none
  else some (segmentAt p tcp doff info.payloadLen)

/-! ## IPv6 -/

structure Ipv6Info where
  src : List UInt8
  dst : List UInt8
  next : Nat
  payloadOff : Nat
  payloadLen : Nat

def ipv6Parse (n : Nat) : Option Ipv6Info :=
  let plen := rd16be p 18
  if n < 14 + 40 ∨ rd16be p 12 ≠ ETH_IPV6 then none
  else if rd8 p 14 / 16 ≠ 6 then none
  else if 14 + 40 + plen > n then none
  else some
    { src := bytesAt p 22 16, dst := bytesAt p 38 16, next := rd8 p 20
      payloadOff := 54, payloadLen := plen }

def tcpParse6 (info : Ipv6Info) : Option TcpSeg :=
  let tcp := info.payloadOff
  let doff := rd8 p (tcp + 12) / 16 * 4
  if info.next ≠ IP_PROTO_TCP ∨ info.payloadLen < 20 then none
  else if doff < 20 ∨ doff > info.payloadLen then none
  else if csumV6 p info.src info.dst IP_PROTO_TCP tcp info.payloadLen ≠ 0 then none
  else some (segmentAt p tcp doff info.payloadLen)

/-! ## Links -/

/-- What the stack keeps of a card: its address and what it learned on the link. -/
structure Link where
  mac : BitVec 48
  gwMac : Option (BitVec 48)
  v6Global : BitVec 128
  v6Gw : BitVec 128
  gw6Mac : Option (BitVec 48)
  v6Up : Bool
deriving DecidableEq

def Link.down : Link := ⟨0, none, 0, 0, none, false⟩

def eui64Iid (mac : BitVec 48) : BitVec 64 :=
  (mac.extractLsb' 24 24 ^^^ 0x020000#24) ++ 0xfffe#16 ++ mac.extractLsb' 0 24

def linkLocalFromMac (mac : BitVec 48) : BitVec 128 := 0xfe80000000000000#64 ++ eui64Iid mac

def globalFromPrefix (net : BitVec 128) (mac : BitVec 48) : BitVec 128 :=
  net.extractLsb' 64 64 ++ eui64Iid mac

variable (l : Link)

/-- The addresses that the link answers to. -/
def Link.hasAddr (a : BitVec 128) : Bool :=
  a = linkLocalFromMac l.mac ∨ a = l.v6Global

/-- A frame that is sent back. -/
inductive Reply where
  /-- `build_na` -/
  | neighbourAdvert (target dst : BitVec 128) (dstMac : BitVec 48)
  /-- `echo6_reply` -/
  | echo6 (plen : Nat)
  /-- `icmpv6_port_unreach` -/
  | portUnreach (src dst : BitVec 128)
  /-- `tcp_seg` -/
  | segment (dst : SrcId) (seg : TcpSeg)

/-! ## ICMPv6 -/

/-- `first_opt`: the first option of a type from `o` on, and its length. -/
def firstOpt (p : Page) (want stop o : Nat) : Option (Nat × Nat) :=
  if o + 8 ≤ stop then
    if rd8 p (o + 1) * 8 < 8 then none
    else if rd8 p o = want then some (o, rd8 p (o + 1) * 8)
    else firstOpt p want stop (o + rd8 p (o + 1) * 8)
  else none
termination_by stop - o

/-- The prefix that a router advertisement announces, zero when it has none. -/
def announced (plen : Nat) : BitVec 128 :=
  match firstOpt p 3 (54 + plen) (54 + 16) with
  | some (o, ol) => if ol ≥ 32 then addr6 (bytesAt p (o + 16) 16) else 0
  | none => 0

/-- `first_opt` with `opt_mac`. -/
def optMac (plen want : Nat) : Option (BitVec 48) :=
  (firstOpt p want (54 + plen) (54 + 16)).map fun r => macAt p (r.1 + 2)

/-- What a router advertisement configures. -/
def configure (p : Page) (plen : Nat) : Link :=
  if announced p plen ≠ 0 then
    { l with
      v6Global := globalFromPrefix (announced p plen) l.mac
      v6Gw := addr6 (bytesAt p 22 16)
      gw6Mac := optMac p plen 1
      v6Up := true }
  else l

/-- The answer to a neighbour solicitation for one of the link's addresses. -/
def solicited (p : Page) (plen : Nat) : Option Reply :=
  let target := addr6 (bytesAt p (54 + 8) 16)
  if l.hasAddr target then
    some (.neighbourAdvert target (addr6 (bytesAt p 22 16)) ((optMac p plen 1).getD l.mac))
  else none

/-- What a neighbour advertisement of the router tells. -/
def advertised (p : Page) (plen : Nat) : Link :=
  if addr6 (bytesAt p 22 16) = l.v6Gw then
    match optMac p plen 2 with
    | some mac => { l with gw6Mac := some mac }
    | none => l
  else l

def icmpv6Input (p : Page) (n : Nat) : Option Reply × Link :=
  let plen := rd16be p 18
  let type := rd8 p 54
  if n < 14 + 40 then (none, l)
  else if rd8 p 14 / 16 ≠ 6 ∨ rd8 p 20 ≠ IP6_PROTO_ICMPV6 then (none, l)
  else if plen < 4 ∨ n < 14 + 40 + plen then (none, l)
  else if type = ICMPV6_RA then (none, configure l p plen)
  else if type = ICMPV6_NS then (solicited l p plen, l)
  else if type = ICMPV6_NA then (none, advertised l p plen)
  else if type = ICMPV6_ECHO_REQ then
    if l.hasAddr (addr6 (bytesAt p 38 16)) then (some (.echo6 plen), l) else (none, l)
  else (none, l)

/-! ## The stack -/

/-- `Stack`: links, sockets and connections. -/
structure Host where
  links : List Link
  socks : SockTable
  tcp : Stack

namespace Host

/-- `st.links[nic]`. -/
def link (h : Host) (nic : Nat) : Link := (h.links[nic]?).getD Link.down

def setLink (h : Host) (nic : Nat) (l : Link) : Host := { h with links := h.links.set nic l }

end Host

def udp6Input (h : Host) (nic : Nat) (p : Page) (info : Ipv6Info) : Option Reply × Host :=
  let udp := info.payloadOff
  let ulen := rd16be p (udp + 4)
  if info.payloadLen < 8 then (none, h)
  else if ulen < 8 ∨ ulen > info.payloadLen then (none, h)
  else if csumV6 p info.src info.dst IP_PROTO_UDP udp ulen ≠ 0 then (none, h)
  else if ¬ (h.link nic).hasAddr (addr6 info.dst) then (none, h)
  else
    match deliver h.socks nic (UInt16.ofNat (rd16be p (udp + 2))) (bytesAt p (udp + 8) (ulen - 8)) with
    | (true, socks) => (none, { h with socks := socks })
    | (false, _) => (some (.portUnreach (addr6 info.dst) (addr6 info.src)), h)

/-- `lo_pump`: the stack receives its own segment, and the answers to it. -/
def loPump (nic : Nat) (now : UInt64) : (guard : Nat) → Stack → Option TcpSeg → Stack
  | guard + 1, st, some seg =>
    let o := tcpInput st nic (.v4 OUR_IP) seg now
    loPump nic now guard o.st o.out
  | _, st, _ => st

/-- `tcp_input` with `tcp_emit_deliver`. -/
def tcpArrives (h : Host) (nic : Nat) (src : SrcId) (seg : TcpSeg) (now : UInt64) :
    Option Reply × Host :=
  let o := tcpInput h.tcp nic src seg now
  if src = .v4 OUR_IP then (none, { h with tcp := loPump nic now 32 o.st o.out })
  else (o.out.map (.segment src), { h with tcp := o.st })

def ipv6Input (h : Host) (nic : Nat) (p : Page) (n : Nat) (now : UInt64) : Option Reply × Host :=
  match ipv6Parse p n with
  | none => (none, h)
  | some info =>
    if info.next = IP6_PROTO_ICMPV6 then
      let (reply, l) := icmpv6Input (h.link nic) p n
      (reply, h.setLink nic l)
    else if info.next = IP_PROTO_UDP then udp6Input h nic p info
    else if info.next = IP_PROTO_TCP then
      match tcpParse6 p info with
      | some seg => tcpArrives h nic (.v6 (addr6 info.src)) seg now
      | none => (none, h)
    else (none, h)

/-- The ARP part of `handle_frame`. -/
def arpInput (h : Host) (nic : Nat) (p : Page) (n : Nat) : Host :=
  if n ≥ 42 ∧ rd16be p 20 = 2 ∧ addr4 (bytesAt p 28 4) = GW_IP then
    h.setLink nic { h.link nic with gwMac := some (macAt p 22) }
  else h

/-- The IPv4 part of `handle_frame`. -/
def ipv4Input (h : Host) (nic : Nat) (p : Page) (n : Nat) (now : UInt64) : Option Reply × Host :=
  let ihl := rd8 p 14 % 16 * 4
  let proto := rd8 p 23
  let udp := 14 + ihl
  let ulen := rd16be p (udp + 4)
  if rd8 p 14 / 16 ≠ 4 then (none, h)
  else if ihl < 20 ∨ n < 14 + ihl then (none, h)
  else if proto = IP_PROTO_TCP then
    match ipv4Parse p n with
    | none => (none, h)
    | some info =>
      match tcpParse p info with
      | none => (none, h)
      | some seg => tcpArrives h nic (.v4 (addr4 info.src)) seg now
  else if proto = IP_PROTO_ICMP then (none, h)
  else if proto = IP_PROTO_UDP ∧ addr4 (bytesAt p 30 4) = OUR_IP ∧ ulen ≥ 8 ∧ n ≥ 14 + ihl + ulen then
    let payload := bytesAt p (udp + 8) (ulen - 8)
    (none, { h with socks := (deliver h.socks nic (UInt16.ofNat (rd16be p (udp + 2))) payload).2 })
  else (none, h)

/-- A received frame: the answer and the state after it. -/
def handleFrame (h : Host) (nic : Nat) (p : Page) (n : Nat) (now : UInt64) : Option Reply × Host :=
  let et := rd16be p 12
  if n < 14 then (none, h)
  else if et = ETH_ARP then (none, arpInput h nic p n)
  else if et = ETH_IPV6 then ipv6Input h nic p n now
  else if et ≠ ETH_IPV4 ∨ n < 34 then (none, h)
  else ipv4Input h nic p n now

end MorionOS.Net
