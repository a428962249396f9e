import MorionOS.Net.FrameEffects

/-!
# UDP datagrams over IPv6

The frame that `build_udp6` leaves in the page of a link, and what the stack makes of it when it
receives it.  The checksum is sent as it was computed: where the words add up to a multiple of
`2 ^ 16 - 1` its field is zero, which over IPv6 says that there is none
(`udp6_checksum_sent`).
-/

namespace MorionOS.Net

open OnesComplement List

/-- The bytes that `wr16be` writes. -/
def be16 (v : Nat) : List UInt8 := [UInt8.ofNat (v / 256), UInt8.ofNat v]

/-- The page after bytes were written from `a` on. -/
def Page.put (p : Page) (a : Nat) (bytes : List UInt8) : Page := fun i =>
  if a ≤ i then (bytes[i - a]?).getD (p i) else p i

/-- What `build_udp6` is called with. -/
structure Udp6 where
  srcMac : List UInt8
  dstMac : List UInt8
  src : List UInt8
  dst : List UInt8
  sport : UInt16
  dport : UInt16
  payload : List UInt8
  macs : srcMac.length = 6 ∧ dstMac.length = 6
  addrs : src.length = 16 ∧ dst.length = 16
  short : 8 + payload.length < 2 ^ 16

namespace Udp6

/-- The length of the datagram. -/
def len (d : Udp6) : Nat := 8 + d.payload.length

/-- The fields of the frame, with what that of the checksum holds. -/
def fields (d : Udp6) (sum : Nat) : List (List UInt8) :=
  [d.dstMac, d.srcMac, be16 ETH_IPV6,
    [0x60, 0, 0, 0], be16 d.len, [UInt8.ofNat IP_PROTO_UDP], [64], d.src, d.dst,
    be16 d.sport.toNat, be16 d.dport.toNat, be16 d.len, be16 sum, d.payload]

/-- The page with the frame. -/
def page (d : Udp6) (p : Page) (sum : Nat) : Page := p.put 0 (d.fields sum).flatten

/-- What the checksum is over. -/
def summed (d : Udp6) : List UInt8 :=
  pseudo6 d.src d.dst IP_PROTO_UDP d.len ++ ((d.fields 0).drop 9).flatten

end Udp6

/-- `build_udp6`: the page and the length of the frame. -/
def buildUdp6 (p : Page) (d : Udp6) : Page × Nat :=
  let p := d.page p 0
  (p.put 60 (be16 (csumV6 p d.src d.dst IP_PROTO_UDP 54 d.len)), 14 + 40 + d.len)

/-! ## Rows of bytes in a page -/

/-- Bytes that take the place of as many others. -/
theorem put_put (p : Page) {a x y b : List UInt8} (same : x.length = y.length) :
    (p.put 0 (a ++ (x ++ b))).put a.length y = p.put 0 (a ++ (y ++ b)) := by
  funext i
  simp only [Page.put, Nat.sub_zero]
  split
  next inside =>
    rw [getElem?_append_right inside, getElem?_append_right inside]
    rcases Nat.lt_or_ge (i - a.length) y.length with here | beyond
    · rw [getElem?_append_left here, getElem?_eq_getElem here]
      rfl
    · rw [getElem?_eq_none beyond, getElem?_append_right beyond, getElem?_append_right (same ▸ beyond), same]
      rfl
  next before => rw [getElem?_append_left (by omega), getElem?_append_left (by omega)]

theorem bytesAt_put (p : Page) (a b c : List UInt8) :
    bytesAt (p.put 0 (a ++ (b ++ c))) a.length b.length = b := by
  refine ext_getElem (length_bytesAt ..) fun i _ inside => ?_
  have skip : (a ++ (b ++ c))[a.length + i]? = some b[i] := by
    rw [getElem?_append_right (Nat.le_add_right ..), Nat.add_sub_cancel_left, getElem?_append_left inside,
      getElem?_eq_getElem inside]
  simp [bytesAt, Page.put, skip]

theorem rd16be_eq {p : Page} {a v : Nat} (word : bytesAt p a 2 = be16 v) (small : v < 2 ^ 16) :
    rd16be p a = v := by
  simp only [bytesAt, be16, range_succ, range_zero, nil_append, cons_append, map_cons, cons.injEq,
    Nat.add_zero] at word
  simp only [rd16be, rd8, word, UInt8.toNat_ofNat']
  omega

/-! ## The frame -/

namespace Udp6

variable (d : Udp6) (p : Page) {sum off k v : Nat}

/-- The lengths of the fields. -/
def lengths : List Nat := [6, 6, 2, 4, 2, 1, 1, 16, 16, 2, 2, 2, 2, d.payload.length]

/-- A field is found where the lengths of those before it say. -/
theorem bytesAt_page {field : List UInt8} (here : (d.fields sum)[k]? = some field)
    (start : (d.lengths.take k).sum = off) : bytesAt (d.page p sum) off field.length = field := by
  obtain ⟨inside, rfl⟩ := List.getElem?_eq_some_iff.mp here
  have lengths : (d.fields sum).map length = d.lengths := by simp [fields, lengths, be16, d.macs, d.addrs]
  have split := congrArg flatten (take_append_drop k (d.fields sum))
  rw [drop_eq_getElem_cons inside, flatten_append, flatten_cons] at split
  rw [page, ← split, ← start, ← lengths, ← map_take, ← length_flatten]
  exact bytesAt_put ..

theorem rd16be_page (here : (d.fields sum)[k]? = some (be16 v)) (small : v < 2 ^ 16)
    (start : (d.lengths.take k).sum = off) : rd16be (d.page p sum) off = v :=
  rd16be_eq (d.bytesAt_page p here start) small

/-- `ipv6_parse` finds the packet. -/
theorem ipv6Parse_page :
    ipv6Parse (d.page p sum) (14 + 40 + d.len) = some ⟨d.src, d.dst, IP_PROTO_UDP, 54, d.len⟩ := by
  have etherType : rd16be (d.page p sum) 12 = ETH_IPV6 := d.rd16be_page p (k := 2) rfl (by decide) rfl
  have version : bytesAt (d.page p sum) 14 4 = [0x60, 0, 0, 0] := d.bytesAt_page p (k := 3) rfl rfl
  have len : rd16be (d.page p sum) 18 = d.len := d.rd16be_page p (k := 4) rfl d.short rfl
  have next : bytesAt (d.page p sum) 20 1 = [UInt8.ofNat IP_PROTO_UDP] := d.bytesAt_page p (k := 5) rfl rfl
  have src : bytesAt (d.page p sum) 22 d.src.length = d.src := d.bytesAt_page p (k := 7) rfl rfl
  have dst : bytesAt (d.page p sum) 38 d.dst.length = d.dst := d.bytesAt_page p (k := 8) rfl rfl
  have first : rd8 (d.page p sum) 14 = 0x60 := congrArg UInt8.toNat (cons.inj version).1
  have proto : rd8 (d.page p sum) 20 = IP_PROTO_UDP := congrArg UInt8.toNat (cons.inj next).1
  rw [d.addrs.1] at src
  rw [d.addrs.2] at dst
  simp [ipv6Parse, etherType, first, len, src, dst, proto]

/-- The checksum counts what its field holds. -/
theorem csumV6_page (small : sum < 2 ^ 16) :
    csumV6 (d.page p sum) d.src d.dst IP_PROTO_UDP 54 d.len = csumDone (wordSum d.summed + sum) := by
  have bytes := bytesAt_put p ((d.fields sum).take 9).flatten ((d.fields sum).drop 9).flatten []
  rw [append_nil, ← flatten_append, take_append_drop] at bytes
  have start : ((d.fields sum).take 9).flatten.length = 54 := by simp [fields, be16, d.macs, d.addrs]
  have size : ((d.fields sum).drop 9).flatten.length = d.len := by
    simp [fields, be16, len]
    omega
  have words : wordSum ((d.fields sum).drop 9).flatten = wordSum ((d.fields 0).drop 9).flatten + sum := by
    simp [fields, be16, wordSum]
    omega
  rw [start, size] at bytes
  rw [csumV6, page, bytes, csumAcc_eq, csumAcc_eq, summed, wordSum_append _ _ (by simp [pseudo6, d.addrs]), words,
    Nat.zero_add, Nat.add_assoc]

/-- The number of the protocol alone makes the sum positive. -/
theorem wordSum_summed_pos : 0 < wordSum d.summed := by
  rw [summed, pseudo6, append_assoc, append_assoc, wordSum_append _ _ (by simp [d.addrs]),
    wordSum_append _ _ (by simp [d.addrs])]
  simp [wordSum, IP_PROTO_UDP]

/-- The checksum ends up in its field, where it makes the sum a multiple of `2 ^ 16 - 1`. -/
theorem buildUdp6_page : ∃ sum < 2 ^ 16, (buildUdp6 p d).1 = d.page p sum ∧
    (sum = 0 ↔ wordSum d.summed % (2 ^ 16 - 1) = 0) ∧
      csumV6 (d.page p sum) d.src d.dst IP_PROTO_UDP 54 d.len = 0 := by
  have small : csumDone (wordSum d.summed) < 2 ^ 16 := Nat.lt_succ_of_le (Nat.sub_le ..)
  have pos := d.wordSum_summed_pos
  refine ⟨csumDone (wordSum d.summed), small, ?_, ?_, ?_⟩
  · have split (sum : Nat) : (d.fields sum).flatten = ((d.fields 0).take 12).flatten ++ (be16 sum ++ d.payload) := by
      simp [fields]
    have start : ((d.fields 0).take 12).flatten.length = 60 := by simp [fields, be16, d.macs, d.addrs]
    rw [buildUdp6, d.csumV6_page p (by decide), page, page, split, split, ← start]
    exact put_put p rfl
  · rw [csumDone_eq_zero]
    omega
  · have mod := fold_mod (wordSum d.summed)
    have bound := fold_lt (wordSum d.summed)
    rw [d.csumV6_page p small, csumDone_eq_zero, csumDone]
    omega

end Udp6

/-- A datagram carries a checksum exactly when its words do not add up to a multiple of `2 ^ 16 - 1`;
the receiver delivers it in either case. -/
theorem udp6_checksum_sent (p : Page) (d : Udp6) (h : Host) (nic : Nat) (now : UInt64) :
    (rd16be (buildUdp6 p d).1 60 ≠ 0 ↔ wordSum d.summed % (2 ^ 16 - 1) ≠ 0) ∧
    ipv6Input h nic (buildUdp6 p d).1 (buildUdp6 p d).2 now =
      if (h.link nic).hasAddr (addr6 d.dst) then
        let got := deliver h.socks nic d.dport d.payload
        if got.1 then (none, { h with socks := got.2 }) else (some (.portUnreach (addr6 d.dst) (addr6 d.src)), h)
      else (none, h) := by
  obtain ⟨sum, small, page, zero, checked⟩ := d.buildUdp6_page p
  have field : rd16be (d.page p sum) 60 = sum := d.rd16be_page p (k := 12) rfl small rfl
  have port : rd16be (d.page p sum) 56 = d.dport.toNat := d.rd16be_page p (k := 10) rfl d.dport.toNat_lt rfl
  have len : rd16be (d.page p sum) 58 = d.len := d.rd16be_page p (k := 11) rfl d.short rfl
  have payload : bytesAt (d.page p sum) 62 (d.len - 8) = d.payload := by
    rw [Udp6.len, Nat.add_sub_cancel_left]
    exact d.bytesAt_page p (k := 13) rfl rfl
  have whole : ¬ d.len < 8 := Nat.not_lt.mpr (Nat.le_add_right ..)
  rw [page, field]
  refine ⟨not_congr zero, ?_⟩
  have udp : ipv6Input h nic (d.page p sum) (buildUdp6 p d).2 now =
      udp6Input h nic (d.page p sum) ⟨d.src, d.dst, IP_PROTO_UDP, 54, d.len⟩ := by
    rw [ipv6Input, buildUdp6, d.ipv6Parse_page]
    rfl
  rw [udp, udp6Input]
  cases (h.link nic).hasAddr (addr6 d.dst) with
  | false => simp [len, whole]
  | true =>
    simp only [len, port, payload, checked, whole, UInt16.ofNat_toNat]
    rcases deliver h.socks nic d.dport d.payload with ⟨_ | _, socks⟩ <;> simp

/-- Two bytes that make the sum all ones. -/
def demoUdp6 : Udp6 where
  srcMac := replicate 6 0
  dstMac := replicate 6 0
  src := replicate 16 0
  dst := replicate 16 0
  sport := 0
  dport := 0
  payload := [0xFF, 0xDA]
  macs := by simp
  addrs := by simp
  short := by decide

/-- Their datagram goes out with a zero where the checksum belongs. -/
theorem datagram_without_checksum : rd16be (buildUdp6 (fun _ => 0) demoUdp6).1 60 = 0 := by
  obtain ⟨sum, small, page, zero, -⟩ := demoUdp6.buildUdp6_page fun _ => 0
  have field (p : Page) : rd16be (demoUdp6.page p sum) 60 = sum := demoUdp6.rd16be_page p (k := 12) rfl small rfl
  rw [page, field, zero]
  decide

end MorionOS.Net
