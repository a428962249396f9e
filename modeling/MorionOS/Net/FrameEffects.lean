import MorionOS.Net.Frames

/-!
# What a received frame must be to have an effect

For each part of the stack that a frame can change, the frames that change it: which packet
they carry and which checks it passed.  The checks are stated on the bytes of the frame, with
checksums as sums in one's complement.

The parsers of TCP and of UDP over IPv6 check the checksum, that of IPv4 under TCP also
fragments; UDP over IPv4 does not go through it, no path of TCP compares the destination, and
the messages of neighbour discovery and ARP are taken as they come.  `frame_changes_checked`
is what holds, `links_change_unchecked` what does not.
-/

namespace MorionOS.Net

open OnesComplement Option

/-! ## Packets -/

/-- The length of the IPv4 header. -/
def headerLen (p : Page) : Nat := rd8 p 14 % 16 * 4

/-- A complete IPv4 packet that is no fragment, with the right header checksum. -/
structure Ipv4Packet (p : Page) (n : Nat) : Prop where
  etherType : rd16be p 12 = ETH_IPV4
  version : rd8 p 14 / 16 = 4
  header : 20 ≤ headerLen p
  total : headerLen p ≤ rd16be p 16
  complete : 14 + rd16be p 16 ≤ n
  unfragmented : rd16be p 20 % 2 ^ 14 = 0
  checksum : Verifies (bytesAt p 14 (headerLen p))

/-- A TCP segment over IPv4 with the right checksum. -/
structure TcpOver4 (p : Page) (n : Nat) : Prop extends Ipv4Packet p n where
  proto : rd8 p 23 = IP_PROTO_TCP
  segment : Verifies (pseudo4 (bytesAt p 26 4) (bytesAt p 30 4) (rd16be p 16 - headerLen p) ++
    bytesAt p (14 + headerLen p) (rd16be p 16 - headerLen p))

/-- A UDP datagram over IPv4 for the stack's address that ends inside the frame. -/
structure UdpOver4 (p : Page) (n : Nat) : Prop where
  etherType : rd16be p 12 = ETH_IPV4
  version : rd8 p 14 / 16 = 4
  header : 20 ≤ headerLen p
  proto : rd8 p 23 = IP_PROTO_UDP
  dst : addr4 (bytesAt p 30 4) = OUR_IP
  length : 8 ≤ rd16be p (14 + headerLen p + 4)
  inside : 14 + headerLen p + rd16be p (14 + headerLen p + 4) ≤ n

/-- A complete IPv6 packet. -/
structure Ipv6Packet (p : Page) (n next : Nat) : Prop where
  etherType : rd16be p 12 = ETH_IPV6
  version : rd8 p 14 / 16 = 6
  complete : 54 + rd16be p 18 ≤ n
  next : rd8 p 20 = next

/-- A TCP segment over IPv6 with the right checksum. -/
structure TcpOver6 (p : Page) (n : Nat) : Prop extends Ipv6Packet p n IP_PROTO_TCP where
  segment : Verifies (pseudo6 (bytesAt p 22 16) (bytesAt p 38 16) IP_PROTO_TCP (rd16be p 18) ++
    bytesAt p 54 (rd16be p 18))

/-- A UDP datagram over IPv6 for an address of the link, with the right checksum. -/
structure UdpOver6 (l : Link) (p : Page) (n : Nat) : Prop extends Ipv6Packet p n IP_PROTO_UDP where
  length : 8 ≤ rd16be p 58
  inside : rd16be p 58 ≤ rd16be p 18
  datagram : Verifies (pseudo6 (bytesAt p 22 16) (bytesAt p 38 16) IP_PROTO_UDP (rd16be p 58) ++
    bytesAt p 54 (rd16be p 58))
  dst : l.hasAddr (addr6 (bytesAt p 38 16))

/-- A router advertisement with a prefix. -/
structure RouterAdvert (p : Page) (n : Nat) : Prop extends Ipv6Packet p n IP6_PROTO_ICMPV6 where
  type : rd8 p 54 = ICMPV6_RA
  net : announced p (rd16be p 18) ≠ 0

/-- A neighbour advertisement of the link's router. -/
structure RouterAddress (l : Link) (p : Page) (n : Nat) : Prop
    extends Ipv6Packet p n IP6_PROTO_ICMPV6 where
  type : rd8 p 54 = ICMPV6_NA
  src : addr6 (bytesAt p 22 16) = l.v6Gw

/-- An ARP reply of the gateway. -/
structure GatewayAddress (p : Page) (n : Nat) : Prop where
  etherType : rd16be p 12 = ETH_ARP
  complete : 42 ≤ n
  oper : rd16be p 20 = 2
  sender : addr4 (bytesAt p 28 4) = GW_IP

/-! ## Checksums -/

theorem csumAcc_eq (bytes : List UInt8) (sum : Nat) : csumAcc bytes sum = sum + wordSum bytes := by
  fun_induction csumAcc bytes sum with
  | case1 hi lo rest sum ih => rw [ih, wordSum]; omega
  | case2 | case3 => rfl

theorem csumDone_eq_zero (sum : Nat) : csumDone sum = 0 ↔ sum ≠ 0 ∧ sum % (2 ^ 16 - 1) = 0 := by
  have small := fold_lt sum
  rw [← fold_eq_ones, csumDone]
  omega

theorem csum_eq_zero (p : Page) (base len : Nat) : csum p base len = 0 ↔ Verifies (bytesAt p base len) := by
  rw [csum, csumAcc_eq, csumDone_eq_zero, Nat.zero_add, Verifies]

/-- A checksum with a pseudo header is one over both. -/
theorem csumDone_pseudo {pseudo : List UInt8} (even : pseudo.length % 2 = 0) (bytes : List UInt8) :
    csumDone (csumAcc bytes (csumAcc pseudo 0)) = 0 ↔ Verifies (pseudo ++ bytes) := by
  rw [csumAcc_eq, csumAcc_eq, csumDone_eq_zero, Nat.zero_add, Verifies, wordSum_append _ _ even]

theorem length_bytesAt (p : Page) (a len : Nat) : (bytesAt p a len).length = len := by simp [bytesAt]

theorem tcpCsum_eq_zero (p : Page) (src dst seg len : Nat) :
    tcpCsum p (bytesAt p src 4) (bytesAt p dst 4) seg len = 0 ↔
      Verifies (pseudo4 (bytesAt p src 4) (bytesAt p dst 4) len ++ bytesAt p seg len) :=
  csumDone_pseudo (by simp [pseudo4, length_bytesAt]) _

theorem csumV6_eq_zero (p : Page) (src dst next seg len : Nat) :
    csumV6 p (bytesAt p src 16) (bytesAt p dst 16) next seg len = 0 ↔
      Verifies (pseudo6 (bytesAt p src 16) (bytesAt p dst 16) next len ++ bytesAt p seg len) :=
  csumDone_pseudo (by simp [pseudo6, length_bytesAt]) _

/-! ## Parsers -/

/-- Neither the flag for more fragments nor an offset. -/
theorem unfragmented_of_bits {frag : Nat} (more : frag &&& 0x2000 = 0) (offset : frag &&& 0x1fff = 0) :
    frag % 2 ^ 14 = 0 := by
  rw [← Nat.and_two_pow_sub_one_eq_mod]
  have split : 2 ^ 14 - 1 = 0x2000 ||| 0x1fff := by decide
  rw [split, Nat.and_or_distrib_left, more, offset]
  rfl

variable {p : Page} {n : Nat} {info : Ipv6Info}

/-- `ipv4_parse` accepts complete packets only. -/
theorem ipv4Parse_packet {info : Ipv4Info} (parsed : ipv4Parse p n = some info) :
    Ipv4Packet p n ∧ info =
      { src := bytesAt p 26 4, dst := bytesAt p 30 4, proto := rd8 p 23
        payloadOff := 14 + headerLen p, payloadLen := rd16be p 16 - headerLen p } := by
  simp only [ipv4Parse, ite_none_left_eq_some, some.injEq, not_or, not_lt, not_not] at parsed
  obtain ⟨⟨_, etherType⟩, version, ⟨header, _⟩, ⟨total, complete⟩, ⟨more, offset⟩, checksum, rfl⟩ := parsed
  refine ⟨⟨etherType, version, header, total, ?_, unfragmented_of_bits more offset, ?_⟩, rfl⟩
  · omega
  · exact (csum_eq_zero p 14 _).mp checksum

/-- `tcp_parse` behind it accepts segments with the right checksum only. -/
theorem tcpParse_segment {info : Ipv4Info} {seg : TcpSeg} (parsed : ipv4Parse p n = some info)
    (found : tcpParse p info = some seg) : TcpOver4 p n := by
  obtain ⟨packet, rfl⟩ := ipv4Parse_packet parsed
  simp only [tcpParse, ite_none_left_eq_some, not_or, not_not] at found
  obtain ⟨⟨proto, _⟩, _, checksum, _⟩ := found
  exact { packet with proto := proto, segment := (tcpCsum_eq_zero p 26 30 _ _).mp checksum }

theorem ipv6Parse_packet (parsed : ipv6Parse p n = some info) :
    Ipv6Packet p n info.next ∧ info =
      { src := bytesAt p 22 16, dst := bytesAt p 38 16, next := rd8 p 20, payloadOff := 54
        payloadLen := rd16be p 18 } := by
  simp only [ipv6Parse, ite_none_left_eq_some, some.injEq, not_or, not_lt, not_not] at parsed
  obtain ⟨⟨_, etherType⟩, version, complete, rfl⟩ := parsed
  exact ⟨⟨etherType, version, complete, rfl⟩, rfl⟩

theorem tcpParse6_segment {seg : TcpSeg} (parsed : ipv6Parse p n = some info)
    (found : tcpParse6 p info = some seg) : TcpOver6 p n := by
  obtain ⟨packet, rfl⟩ := ipv6Parse_packet parsed
  simp only [tcpParse6, ite_none_left_eq_some, not_or, not_not] at found
  obtain ⟨⟨next, _⟩, _, checksum, _⟩ := found
  exact { packet with next := next, segment := (csumV6_eq_zero p 22 38 _ _ _).mp checksum }

/-! ## Effects -/

/-- The IPv6 configuration of a link. -/
def Link.config (l : Link) : BitVec 128 × BitVec 128 × Bool := (l.v6Global, l.v6Gw, l.v6Up)

/-- Whatever is different after a frame has the reason it needs. -/
structure Effects (h h' : Host) (nic : Nat) (p : Page) (n : Nat) : Prop where
  tcp : h'.tcp = h.tcp ∨ TcpOver4 p n ∨ TcpOver6 p n
  socks : h'.socks = h.socks ∨ UdpOver4 p n ∨ UdpOver6 (h.link nic) p n
  others : ∀ i ≠ nic, h'.link i = h.link i
  config : (h'.link nic).config = (h.link nic).config ∨ RouterAdvert p n
  router : (h'.link nic).gw6Mac = (h.link nic).gw6Mac ∨ RouterAdvert p n ∨
    RouterAddress (h.link nic) p n
  gateway : (h'.link nic).gwMac = (h.link nic).gwMac ∨ GatewayAddress p n

section Effects

variable {h : Host} {nic n : Nat} {p : Page}

theorem Effects.refl : Effects h h nic p n :=
  ⟨.inl rfl, .inl rfl, fun _ _ => rfl, .inl rfl, .inl rfl, .inl rfl⟩

theorem link_setLink_of_ne {i : Nat} (l : Link) (other : i ≠ nic) : (h.setLink nic l).link i = h.link i := by
  rw [Host.link, Host.setLink, List.getElem?_set_ne other.symm, Host.link]

theorem link_setLink (h : Host) (nic : Nat) (l : Link) :
    (h.setLink nic l).link nic = l ∨ (h.setLink nic l).link nic = h.link nic := by
  by_cases inside : nic < h.links.length
  · left
    rw [Host.link, Host.setLink, List.getElem?_set_self inside]
    rfl
  · right
    rw [Host.setLink, List.set_eq_of_length_le (not_lt.mp inside)]

theorem Effects.of_link (l : Link) (config : l.config = (h.link nic).config ∨ RouterAdvert p n)
    (router : l.gw6Mac = (h.link nic).gw6Mac ∨ RouterAdvert p n ∨ RouterAddress (h.link nic) p n)
    (gateway : l.gwMac = (h.link nic).gwMac ∨ GatewayAddress p n) : Effects h (h.setLink nic l) nic p n := by
  rcases link_setLink h nic l with same | same
  · exact ⟨.inl rfl, .inl rfl, fun _ other => link_setLink_of_ne l other, by rwa [same], by rwa [same],
      by rwa [same]⟩
  · exact ⟨.inl rfl, .inl rfl, fun _ other => link_setLink_of_ne l other, .inl (by rw [same]),
      .inl (by rw [same]), .inl (by rw [same])⟩

theorem Effects.of_tcp {tcp : Stack} (valid : TcpOver4 p n ∨ TcpOver6 p n) :
    Effects h { h with tcp := tcp } nic p n :=
  ⟨.inr valid, .inl rfl, fun _ _ => rfl, .inl rfl, .inl rfl, .inl rfl⟩

theorem Effects.of_socks {socks : SockTable} (valid : UdpOver4 p n ∨ UdpOver6 (h.link nic) p n) :
    Effects h { h with socks := socks } nic p n :=
  ⟨.inl rfl, .inr valid, fun _ _ => rfl, .inl rfl, .inl rfl, .inl rfl⟩

theorem tcpArrives_effects (valid : TcpOver4 p n ∨ TcpOver6 p n) (src : SrcId) (seg : TcpSeg) (now : UInt64) :
    Effects h (tcpArrives h nic src seg now).2 nic p n := by
  rw [tcpArrives]
  split <;> exact .of_tcp valid

/-- ICMPv6 changes the link through advertisements only. -/
theorem icmpv6Input_effects (packet : Ipv6Packet p n IP6_PROTO_ICMPV6) :
    Effects h (h.setLink nic (icmpv6Input (h.link nic) p n).2) nic p n := by
  have unchanged : Effects h (h.setLink nic (h.link nic)) nic p n :=
    .of_link _ (.inl rfl) (.inl rfl) (.inl rfl)
  simp only [icmpv6Input]
  split
  · exact unchanged
  split
  · exact unchanged
  split
  · exact unchanged
  split
  next type =>
    rw [configure]
    split
    next net =>
      have advert : RouterAdvert p n := { packet with type := type, net := net }
      exact .of_link _ (.inr advert) (.inr (.inl advert)) (.inl rfl)
    · exact unchanged
  split
  · exact unchanged
  split
  next type =>
    rw [advertised]
    split
    next src =>
      split
      · exact .of_link _ (.inl rfl) (.inr (.inr { packet with type := type, src := src })) (.inl rfl)
      · exact unchanged
    · exact unchanged
  split
  · split <;> exact unchanged
  · exact unchanged

theorem udp6Input_effects (parsed : ipv6Parse p n = some info) (udp : info.next = IP_PROTO_UDP) :
    Effects h (udp6Input h nic p info).2 nic p n := by
  obtain ⟨packet, rfl⟩ := ipv6Parse_packet parsed
  simp only [udp6Input]
  split
  · exact .refl
  split
  · exact .refl
  split
  · exact .refl
  split
  · exact .refl
  rename_i length checksum own
  rw [not_or, not_lt, not_lt] at length
  have datagram : UdpOver6 (h.link nic) p n := { packet with
      next := udp, length := length.1, inside := length.2
      datagram := (csumV6_eq_zero p 22 38 _ _ _).mp (not_not.mp checksum)
      dst := not_not.mp own }
  split
  · exact .of_socks (.inr datagram)
  · exact .refl

theorem ipv6Input_effects (now : UInt64) : Effects h (ipv6Input h nic p n now).2 nic p n := by
  rw [ipv6Input]
  split
  · exact .refl
  next info parsed =>
    have packet := (ipv6Parse_packet parsed).1
    split
    next icmp => exact icmpv6Input_effects (icmp ▸ packet)
    split
    next udp => exact udp6Input_effects parsed udp
    split
    · split
      next seg found => exact tcpArrives_effects (.inr (tcpParse6_segment parsed found)) _ _ _
      · exact .refl
    · exact .refl

theorem ipv4Input_effects (etherType : rd16be p 12 = ETH_IPV4) (now : UInt64) :
    Effects h (ipv4Input h nic p n now).2 nic p n := by
  simp only [ipv4Input]
  split
  · exact .refl
  split
  · exact .refl
  rename_i version header
  rw [not_or, not_lt, not_lt] at header
  split
  · split
    · exact .refl
    split
    · exact .refl
    next parsed _ seg found => exact tcpArrives_effects (.inl (tcpParse_segment parsed found)) _ _ _
  split
  · exact .refl
  split
  next datagram =>
    obtain ⟨proto, dst, length, inside⟩ := datagram
    exact .of_socks (.inl ⟨etherType, not_not.mp version, header.1, proto, dst, length, inside⟩)
  · exact .refl

theorem arpInput_effects (etherType : rd16be p 12 = ETH_ARP) : Effects h (arpInput h nic p n) nic p n := by
  rw [arpInput]
  split
  next reply =>
    obtain ⟨complete, oper, sender⟩ := reply
    exact .of_link _ (.inl rfl) (.inl rfl) (.inr ⟨etherType, complete, oper, sender⟩)
  · exact .refl

theorem handleFrame_effects (now : UInt64) : Effects h (handleFrame h nic p n now).2 nic p n := by
  rw [handleFrame]
  split
  · exact .refl
  split
  next etherType => exact arpInput_effects etherType
  split
  · exact ipv6Input_effects now
  split
  · exact .refl
  next etherType =>
    rw [not_or, not_not] at etherType
    exact ipv4Input_effects etherType.1 now

end Effects

/-- A frame changes the TCP connections only with a complete packet whose checksums are right (and
no IPv4 fragment), the UDP sockets only with a datagram for an address of the link, over IPv6 with
the right checksum, the IPv6 configuration only as a router advertisement, and the addresses of the
routers only as an advertisement or as an ARP reply of the gateway. -/
theorem frame_changes_checked (h : Host) (nic : Nat) (p : Page) (n : Nat) (now : UInt64) :
    ((handleFrame h nic p n now).2.tcp ≠ h.tcp → TcpOver4 p n ∨ TcpOver6 p n) ∧
    ((handleFrame h nic p n now).2.socks ≠ h.socks → UdpOver4 p n ∨ UdpOver6 (h.link nic) p n) ∧
    (∀ i ≠ nic, (handleFrame h nic p n now).2.link i = h.link i) ∧
    (((handleFrame h nic p n now).2.link nic).config ≠ (h.link nic).config → RouterAdvert p n) ∧
    (((handleFrame h nic p n now).2.link nic).gw6Mac ≠ (h.link nic).gw6Mac →
      RouterAdvert p n ∨ RouterAddress (h.link nic) p n) ∧
    (((handleFrame h nic p n now).2.link nic).gwMac ≠ (h.link nic).gwMac → GatewayAddress p n) := by
  have effects : Effects h (handleFrame h nic p n now).2 nic p n := handleFrame_effects now
  exact ⟨effects.tcp.resolve_left, effects.socks.resolve_left, effects.others,
    effects.config.resolve_left, effects.router.resolve_left, effects.gateway.resolve_left⟩

/-- A page that is zero but for some bytes. -/
def pageOf (bytes : List (Nat × UInt8)) : Page := fun i => (bytes.lookup i).getD 0

/-- One card that has not learned anything. -/
def demoHost : Host :=
  { links := [{ Link.down with mac := 0x525400123456 }], socks := [], tcp := Stack.init 1 }

/-- An ARP reply of the gateway. -/
def demoArp : Page := pageOf [(12, 0x08), (13, 0x06), (21, 2), (27, 9), (28, 10), (30, 2), (31, 2)]

/-- A router advertisement with the hop limit 64 and no checksum. -/
def demoAdvert : Page := pageOf [(12, 0x86), (13, 0xDD), (14, 0x60), (19, 48), (20, 58), (21, 64),
  (22, 0xfe), (23, 0x80), (37, 2), (38, 0xff), (39, 0x02), (53, 1), (54, 134), (70, 3), (71, 4),
  (86, 0x20), (87, 0x01)]

/-- The gateway's address is learned from a frame without an IP packet, and the IPv6 configuration
from a packet whose checksum and hop limit are wrong. -/
theorem links_change_unchecked :
    (((handleFrame demoHost 0 demoArp 42 0).2.link 0).gwMac ≠ (demoHost.link 0).gwMac ∧
      ¬ Ipv4Packet demoArp 42 ∧ ∀ next, ¬ Ipv6Packet demoArp 42 next) ∧
    (((handleFrame demoHost 0 demoAdvert 102 0).2.link 0).config ≠ (demoHost.link 0).config ∧
      ¬ Verifies (pseudo6 (bytesAt demoAdvert 22 16) (bytesAt demoAdvert 38 16) IP6_PROTO_ICMPV6
        (rd16be demoAdvert 18) ++ bytesAt demoAdvert 54 (rd16be demoAdvert 18)) ∧
      rd8 demoAdvert 21 ≠ 255) := by
  refine ⟨⟨by decide +kernel, fun packet => ?_, fun _ packet => ?_⟩, by decide +kernel, by decide +kernel, by decide⟩
  · exact absurd packet.etherType (by decide)
  · exact absurd packet.etherType (by decide)

/-- A UDP datagram over IPv4 for port 7. -/
def demoDatagram : Page := pageOf [(12, 0x08), (14, 0x45), (23, 17), (30, 10), (32, 2), (33, 15), (37, 7),
  (39, 9), (42, 0x41)]

/-- It reaches the socket of the port, and is addressed to the stack. -/
theorem datagram_arrives :
    (handleFrame { demoHost with socks := [{ used := true, port := 7 }] } 0 demoDatagram 43 0).2.socks ≠
        [{ used := true, port := 7 }] ∧
      (UdpOver4 demoDatagram 43 ∨
        UdpOver6 (Host.link { demoHost with socks := [{ used := true, port := 7 }] } 0) demoDatagram 43) := by
  have changed : (handleFrame { demoHost with socks := [{ used := true, port := 7 }] } 0 demoDatagram 43 0).2.socks ≠
      [{ used := true, port := 7 }] := by decide +kernel
  exact ⟨changed, (frame_changes_checked _ _ _ _ _).2.1 changed⟩

end MorionOS.Net
