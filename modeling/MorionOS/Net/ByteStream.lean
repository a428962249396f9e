import MorionOS.Net.RemotePeer
import Mathlib.Tactic.Ring

/-!
# The byte stream of a connection

A peer sends a stream of bytes from its initial sequence number on.  The network
loses, repeats and reorders its segments.  For one slot of the connection table,
`Watch` keeps what the connection in it has done so far: the peer it is synchronised
with, the bytes that `tcp_recv_op` has handed to the application, and the segments
that the stack has sent.

The receive buffer holds one segment.  `tcp_handle` copies the payload of the next
segment over what is in the buffer, cuts it at `PAY_MAX`, and acknowledges all of it;
it takes a `FIN` for the next sequence number wherever it stands; and `tcp_connect`
does not empty the buffer of the connection that was in the slot before.  `Fits` and
`Served` exclude this, and `byte_stream_intact` is the result; the bytes of a connection
that is not accepted yet go to the owner of a listener.  `acknowledged_bytes_lost` is a run
of the first kind.
-/

namespace MorionOS.Net

open List Stack

/-! ## The peer -/

/-- A peer: its initial sequence number and all the bytes it sends. -/
structure Peer where
  isn : UInt32
  data : List UInt8
deriving DecidableEq

/-- The sequence numbers of the peer: 0 is its `SYN`, `k + 1` its byte `k`, and the
number after the last byte its `FIN`. -/
def Peer.number (p : Peer) (k : Nat) : UInt32 := p.isn + UInt32.ofNat k

/-- The segment is one that the peer sends, first or again, with the sequence number
`offset`. -/
@[mk_iff]
structure Peer.Sends (p : Peer) (offset : Nat) (seg : TcpSeg) : Prop where
  seq : seg.seq = p.number offset
  syn : seg.has TCP_SYN = true ↔ offset = 0
  payload : seg.payload <+: p.data.drop (offset - 1)
  fin : seg.has TCP_FIN = true → offset - 1 + seg.payload.length = p.data.length

/-- The sequence number behind the segment's payload: that of its `FIN`. -/
def TcpSeg.endNumber (seg : TcpSeg) : UInt32 :=
  seg.seq + UInt32.ofNat ((if seg.has TCP_SYN then 1 else 0) + seg.payload.length)

/-- The segment lies within half of the sequence space of what was received, so that
its sequence number says where it belongs. -/
def Near (received offset length : Nat) : Prop :=
  received < offset + 2 ^ 31 ∧ offset + length < received + 2 ^ 31

namespace Peer

variable {p : Peer} {offset : Nat} {seg : TcpSeg}

theorem number_add (p : Peer) (k n : Nat) : p.number k + UInt32.ofNat n = p.number (k + n) := by
  rw [number, number, UInt32.ofNat_add, UInt32.add_assoc]

theorem number_succ (p : Peer) (k : Nat) : p.number k + 1 = p.number (k + 1) :=
  p.number_add k 1

/-- Near numbers are the same only if they number the same. -/
theorem number_inj {a b : Nat} (same : p.number a = p.number b) (lower : a < b + 2 ^ 32)
    (upper : b < a + 2 ^ 32) : a = b := by
  have offsets : UInt32.ofNat a = UInt32.ofNat b := (UInt32.add_right_inj _).mp same
  have residues := congrArg UInt32.toNat offsets
  rw [UInt32.toNat_ofNat', UInt32.toNat_ofNat'] at residues
  omega

theorem Sends.endNumber (sends : p.Sends offset seg) :
    seg.endNumber = p.number (offset - 1 + seg.payload.length + 1) := by
  rw [TcpSeg.endNumber, sends.seq, number_add]
  by_cases syn : seg.has TCP_SYN = true
  · have first := sends.syn.mp syn
    rw [if_pos syn]
    congr 1
    omega
  · have later : offset ≠ 0 := fun first => syn (sends.syn.mpr first)
    rw [if_neg syn]
    congr 1
    omega

theorem Sends.first (sends : p.Sends offset seg) (syn : seg.has TCP_SYN = true) :
    seg.seq + 1 = p.number (0 + 1) := by
  rw [sends.seq, sends.syn.mp syn, number_succ]

/-- Bytes that continue what was received. -/
theorem Sends.continues {r : Nat} (sends : p.Sends (r + 1) seg) :
    p.data.take r ++ seg.payload = p.data.take (r + seg.payload.length) ∧
      (seg.payload ≠ [] → r + seg.payload.length ≤ p.data.length) := by
  have piece : seg.payload <+: p.data.drop r := sends.payload
  constructor
  · rw [take_add, prefix_iff_eq_take.mp piece, length_take]
    congr 1
    rw [take_eq_take_iff]
    omega
  · intro some
    have length := piece.length_le
    have positive := length_pos_iff.mpr some
    rw [length_drop] at length
    omega

end Peer

/-! ## Watching a slot -/

/-- What the connection in a slot has done so far. -/
structure Watch where
  /-- The peer, once the connection is synchronised. -/
  peer : Option Peer := none
  /-- The bytes handed to the application. -/
  got : List UInt8 := []
  /-- The segments sent since then. -/
  sent : List TcpSeg := []

/-- The connection sends a segment, or none. -/
def Watch.send (w : Watch) (out : Option TcpSeg) : Watch := { w with sent := w.sent ++ out.toList }

/-- The watch of slot `i` after an event; `p` is the peer that sent the segment. -/
def Watch.next (i : Nat) (st : Stack) (ev : Event) (p : Peer) (w : Watch) : Watch :=
  let o := st.step ev
  match ev with
  | .tsocket _ _ | .tlisten _ _ _ _ => if o.reply = i + 1 then {} else w
  | .tconnect id _ _ _ _ _ => if id = i + 1 ∧ o.reply = 1 then {} else w
  | .trecv id _ _ => if id = i + 1 then { w with got := w.got ++ o.bytes } else w
  | .tsend id _ _ _ _ => if id = i + 1 then w.send o.out else w
  | .tclose id _ _ =>
    if id = i + 1 then if (o.st.conn i).used then w.send o.out else {} else w
  | .tbind _ _ _ _ | .taccept _ _ => w
  | .tick j _ => if j = i then w.send o.out else w
  | .segment nic src seg _ =>
    match st.target nic src seg with
    | some j =>
      if j = i then
        if (st.conn i).state = .synSent ∧ (o.st.conn i).state = .established then
          { w with peer := some p, sent := o.out.toList }
        else w.send o.out
      else w
    -- a passive open
    | none => if st.free = some i ∧ o.out.isSome then ⟨some p, [], o.out.toList⟩ else w

/-! ## What is asked of a run -/

/-- The network delivers to the connection in slot `i` segments of its peer only. -/
def Genuine (i : Nat) (st : Stack) (w : Watch) (ev : Event) (p : Peer) (offset : Nat) : Prop :=
  match ev with
  | .segment nic src seg _ =>
    match st.target nic src seg with
    | some j => j = i → p.Sends offset seg ∧ ∀ q ∈ w.peer,
        q = p ∧ Near (w.got ++ (st.conn i).rx).length offset seg.payload.length
    | none => p.Sends offset seg
  | _ => True

/-- The connection can take what the segment brings. -/
@[mk_iff]
structure Fits (c : TcpConn) (seg : TcpSeg) : Prop where
  /-- New data finds the buffer empty and fits into it. -/
  data : c.state = .synRcvd ∨ c.state = .established → seg.has TCP_RST = false →
    seg.payload ≠ [] → seg.seq = c.rcvNxt → c.rx = [] ∧ seg.payload.length ≤ PAY_MAX
  /-- A `FIN` stands at the end of what was received or comes with the next data. -/
  fin : c.state = .established → seg.has TCP_RST = false → seg.has TCP_FIN = true →
    seg.seq = c.rcvNxt ∨ seg.endNumber = c.rcvNxt
  /-- After the application has closed, a `FIN` stands at the end of what was received
  or is one that was received before. -/
  finWait : c.state = .finWait1 ∨ c.state = .finWait2 → seg.has TCP_FIN = true →
    seg.endNumber = c.rcvNxt ∨ seg.endNumber + 1 = c.rcvNxt

/-- Slot `i` can take what the event brings: a segment fits, and a connection is
opened with an empty buffer. -/
def Served (i : Nat) (st : Stack) : Event → Prop
  | .segment nic src seg _ => st.target nic src seg = some i → Fits (st.conn i) seg
  | .tconnect id _ _ _ _ _ => id = i + 1 → (st.conn i).rx = []
  | _ => True

/-- The states that a run reaches, with the watch of slot `i`. -/
inductive Watched (i nics : Nat) (K : Stack → Watch → Event → Peer → Nat → Prop) :
    Stack → Watch → Prop where
  | init : Watched i nics K (Stack.init nics) {}
  | step {st : Stack} {w : Watch} (before : Watched i nics K st w) (ev : Event) (p : Peer)
      (offset : Nat) (condition : K st w ev p offset) :
      Watched i nics K (st.step ev).st (w.next i st ev p)

/-- A domain gets these bytes by a receive: the owner of the slot at once, the owner of a listener after the
accepts that come to the connection. -/
def Stack.Receivable (st : Stack) (i : Nat) (bytes : List UInt8) : Prop :=
  ((st.conn i).owner ≠ 0 ∧ (st.step (.trecv (i + 1) true (st.conn i).owner)).bytes = bytes) ∨
    ∃ l n, (st.conn l).owner ≠ 0 ∧ ((st.afterAccepts l n).accepting l).reply = i + 1 ∧
      (((st.afterAccepts l n).accepting l).st.step (.trecv (i + 1) true (st.conn l).owner)).bytes = bytes

/-- The application has got a prefix of the peer's stream, and every byte that was
acknowledged it has got or gets with its next receive. -/
def Intact (i : Nat) (st : Stack) (w : Watch) (p : Peer) : Prop :=
  w.got <+: p.data ∧ ∃ bytes, st.Receivable i bytes ∧ ∀ seg ∈ w.sent, seg.has TCP_ACK = true →
    ∃ a, seg.ack = p.number (a + 1) ∧ p.data.take a <+: w.got ++ bytes

/-! ## One connection -/

/-- How far the sequence number that is expected next may lie behind the stream: one
further after a `FIN`, and one more when the `FIN` came again. -/
def slack : TcpState → Nat
  | .synRcvd | .established => 0
  | .closeWait | .finWait1 | .finWait2 => 1
  | _ => 2

/-- The connection has taken `r` sequence numbers after the `SYN`; the bytes among
them were handed out or are in the buffer, and no more was acknowledged. -/
structure Received (p : Peer) (c : TcpConn) (w : Watch) (r : Nat) : Prop where
  next : c.rcvNxt = p.number (r + 1)
  bytes : w.got ++ c.rx = p.data.take r
  bound : r ≤ p.data.length + slack c.state
  synchronised : c.state ≠ .listen ∧ c.state ≠ .synSent
  acks : ∀ seg ∈ w.sent, seg.has TCP_ACK = true → ∃ a ≤ r, seg.ack = p.number (a + 1)

variable {offset : Nat} {p : Peer}

theorem answer_some {seg : TcpSeg} {n : UInt32} (ack : seg.ack = n) :
    ∀ answer, some seg = some answer → answer.ack = n :=
  fun _ sent => Option.some.inj sent ▸ ack

namespace Received

variable {p : Peer} {c c' : TcpConn} {w : Watch} {r r' : Nat} {seg : TcpSeg} {out : Option TcpSeg}

section

variable (received : Received p c w r)
include received

/-- The connection takes more numbers and acknowledges what it has taken. -/
theorem advance (more : r ≤ r') (next : c'.rcvNxt = p.number (r' + 1))
    (bytes : w.got ++ c'.rx = p.data.take r') (bound : r' ≤ p.data.length + slack c'.state)
    (synchronised : c'.state ≠ .listen ∧ c'.state ≠ .synSent)
    (answer : ∀ seg, out = some seg → seg.ack = c'.rcvNxt) : Received p c' (w.send out) r' := by
  refine ⟨next, bytes, bound, synchronised, fun seg member isAck => ?_⟩
  rcases mem_append.mp member with old | new
  · obtain ⟨a, le, ack⟩ := received.acks seg old isAck
    exact ⟨a, le.trans more, ack⟩
  · exact ⟨r', le_rfl, (answer seg (Option.mem_toList.mp new)).trans next⟩

theorem keep (next : c'.rcvNxt = c.rcvNxt) (rx : c'.rx = c.rx)
    (state : slack c.state ≤ slack c'.state) (synchronised : c'.state ≠ .listen ∧ c'.state ≠ .synSent)
    (answer : ∀ seg, out = some seg → seg.ack = c'.rcvNxt) : Received p c' (w.send out) r :=
  received.advance le_rfl (next.trans received.next) (rx ▸ received.bytes)
    (received.bound.trans (Nat.add_le_add_left state _)) synchronised answer

/-- A connection with the same buffer that is synchronised too. -/
theorem relabel (next : c'.rcvNxt = c.rcvNxt) (rx : c'.rx = c.rx) (state : slack c.state ≤ slack c'.state)
    (synchronised : c'.state ≠ .listen ∧ c'.state ≠ .synSent) : Received p c' w r :=
  ⟨next.trans received.next, rx ▸ received.bytes, received.bound.trans (Nat.add_le_add_left state _),
    synchronised, received.acks⟩

theorem silent : Received p c (w.send none) r :=
  received.keep rfl rfl le_rfl received.synchronised (by simp)

theorem length : (w.got ++ c.rx).length ≤ r ∧ r ≤ (w.got ++ c.rx).length + slack c.state := by
  rw [received.bytes, length_take]
  have := received.bound
  omega

/-- `tcp_handle` takes the payload that comes next. -/
theorem takePayload (state : c.state = .synRcvd ∨ c.state = .established)
    (sends : p.Sends offset seg) (near : Near (w.got ++ c.rx).length offset seg.payload.length)
    (fits : seg.payload ≠ [] → seg.seq = c.rcvNxt → c.rx = [] ∧ seg.payload.length ≤ PAY_MAX) :
    ∃ r', r ≤ r' ∧ (Net.takePayload c seg).2.rcvNxt = p.number (r' + 1) ∧
      w.got ++ (Net.takePayload c seg).2.rx = p.data.take r' ∧ r' ≤ p.data.length ∧
      (Net.takePayload c seg).2.state = c.state ∧
      (seg.seq = c.rcvNxt → r' = offset - 1 + seg.payload.length) := by
  have zero : slack c.state = 0 := by
    rcases state with state | state <;> rw [state] <;> rfl
  have bound := received.bound
  obtain ⟨lower, upper⟩ := received.length
  rw [zero] at bound upper
  -- the sequence number determines the place in the stream
  have place : seg.seq = c.rcvNxt → offset = r + 1 := by
    intro next
    rw [sends.seq, received.next] at next
    obtain ⟨before, after⟩ := near
    exact Peer.number_inj next (by omega) (by omega)
  unfold Net.takePayload
  split
  next taken =>
    obtain ⟨some, next⟩ := taken
    obtain rfl := place next
    obtain ⟨empty, room⟩ := fits some next
    obtain ⟨joined, inside⟩ := sends.continues
    refine ⟨r + seg.payload.length, by omega, ?_, ?_, inside some, rfl, fun _ => by omega⟩
    · rw [received.next, Peer.number_add, Nat.add_right_comm]
    · have before : w.got = p.data.take r := by
        rw [← received.bytes, empty, append_nil]
      rw [take_of_length_le room, before, joined]
  next skipped =>
    refine ⟨r, le_rfl, received.next, received.bytes, by omega, rfl, fun next => ?_⟩
    have empty : seg.payload = [] := by
      by_contra some
      exact skipped ⟨some, next⟩
    have := place next
    rw [empty, length_nil]
    omega

/-- An acknowledgement may take the connection to another state. -/
theorem acked {d : TcpConn} {q : Prop} [Decidable q] (next : d.rcvNxt = c.rcvNxt) (rx : d.rx = c.rx)
    (state : slack c.state ≤ slack d.state) (synchronised : d.state ≠ .listen ∧ d.state ≠ .synSent) :
    ∃ c', (if q then d else c) = c' ∧ Received p c' w r ∧ c'.rcvNxt = c.rcvNxt ∧ c'.rx = c.rx ∧
      (c'.state = c.state ∨ c'.state = d.state) := by
  split
  · exact ⟨d, rfl, received.relabel next rx state synchronised, next, rx, .inr rfl⟩
  · exact ⟨c, rfl, received, rfl, rfl, .inl rfl⟩

theorem handleSynRcvd (state : c.state = .synRcvd)
    (sends : p.Sends offset seg) (near : Near (w.got ++ c.rx).length offset seg.payload.length)
    (fits : Fits c seg) :
    ∃ r', Received p (Net.handleSynRcvd c seg).2 (w.send (Net.handleSynRcvd c seg).1) r' := by
  unfold Net.handleSynRcvd
  split
  · exact ⟨r, received.keep rfl rfl (by simp [state, slack]) (by simp) (by simp)⟩
  next alive =>
    have quiet : seg.has TCP_RST = false := by simpa using alive
    obtain ⟨c₁, opened, received₁, next, rx, state₁⟩ := received.acked (q := acksNew c seg)
      (d := { c with sndUna := c.sndNxt, state := .established, retx := 0, rtoMs := TCP_RTO_MS })
      rfl rfl (by simp [state, slack]) (by simp)
    rw [opened]
    rw [state] at state₁
    obtain ⟨r', more, next', bytes, bound, state', -⟩ := received₁.takePayload state₁ sends
      (rx ▸ near) (fun some atNext => rx ▸ fits.data (.inl state) quiet some (atNext.trans next))
    refine ⟨r', received₁.advance more next' bytes (by omega) ?_ ?_⟩
    · rw [state']
      exact received₁.synchronised
    · intro answer sent
      simp only at sent
      split at sent
      · cases sent
        rfl
      · cases sent

theorem handleEstablished (state : c.state = .established)
    (sends : p.Sends offset seg) (near : Near (w.got ++ c.rx).length offset seg.payload.length)
    (fits : Fits c seg) :
    ∃ r', Received p (Net.handleEstablished c seg).2 (w.send (Net.handleEstablished c seg).1) r' := by
  unfold Net.handleEstablished
  split
  · exact ⟨r, received.keep rfl rfl (by simp [state, slack]) (by simp) (by simp)⟩
  next alive =>
    have quiet : seg.has TCP_RST = false := by simpa using alive
    obtain ⟨r', more, next', bytes, bound, state', reached⟩ := received.takePayload (.inr state) sends
      near (fits.data (.inr state) quiet)
    generalize Net.takePayload c seg = taken at next' bytes state' ⊢
    obtain ⟨taken, c₁⟩ := taken
    simp only at next' bytes state' ⊢
    generalize opened : (if acksNew c₁ seg then
      { c₁ with sndUna := c₁.sndNxt, tx := [], retx := 0, rtoMs := TCP_RTO_MS } else c₁) = c₂
    have same : c₂.rcvNxt = c₁.rcvNxt ∧ c₂.rx = c₁.rx ∧ c₂.state = c₁.state := by
      rw [← opened]
      split <;> exact ⟨rfl, rfl, rfl⟩
    obtain ⟨next₂, rx₂, state₂⟩ := same
    by_cases fin : seg.has TCP_FIN = true
    · -- the `FIN` has the number behind the whole stream
      have whole : r' = p.data.length := by
        rcases fits.fin state quiet fin with atNext | atEnd
        · rw [reached atNext, sends.fin fin]
        · obtain ⟨lower, upper⟩ := received.length
          obtain ⟨before, after⟩ := near
          have last := sends.fin fin
          rw [sends.endNumber, received.next, last] at atEnd
          have := Peer.number_inj atEnd (by simp only [slack] at upper; omega)
          omega
      rw [if_pos fin]
      refine ⟨r' + 1, received.advance (by omega) ?_ ?_ ?_ (by simp [takeFin]) (answer_some rfl)⟩
      · rw [takeFin, next₂, next', Peer.number_succ]
      · rw [takeFin, rx₂, bytes, take_of_length_le (by omega), take_of_length_le (by omega)]
      · simp only [takeFin, slack]
        omega
    · rw [if_neg fin]
      refine ⟨r', received.advance more (next₂.trans next') (rx₂ ▸ bytes) (by omega) ?_ ?_⟩
      · rw [state₂, state', state]
        simp
      · intro answer sent
        split at sent
        · cases sent
          rfl
        · cases sent

/-- `FIN` after the application has closed. -/
theorem finWait (state : c.state = .finWait1 ∨ c.state = .finWait2)
    (sends : p.Sends offset seg) (near : Near (w.got ++ c.rx).length offset seg.payload.length)
    (fits : seg.has TCP_FIN = true → seg.endNumber = c.rcvNxt ∨ seg.endNumber + 1 = c.rcvNxt) :
    ∃ r', Received p (Net.finWait c seg).2 (w.send (Net.finWait c seg).1) r' := by
  have one : slack c.state = 1 := by
    rcases state with state | state <;> rw [state] <;> rfl
  unfold Net.finWait
  split
  next fin =>
    obtain ⟨lower, upper⟩ := received.length
    obtain ⟨before, after⟩ := near
    have last := sends.fin fin
    have bound := received.bound
    have whole : p.data.length ≤ r := by
      rcases fits fin with atEnd | again
      · rw [sends.endNumber, received.next, last] at atEnd
        have := Peer.number_inj atEnd (by omega) (by omega)
        omega
      · rw [sends.endNumber, received.next, last, Peer.number_succ] at again
        have := Peer.number_inj again (by omega) (by omega)
        omega
    refine ⟨r + 1, received.advance (by omega) ?_ ?_ ?_ (by simp [takeFin]) (answer_some rfl)⟩
    · rw [takeFin, received.next, Peer.number_succ]
    · rw [takeFin, received.bytes, take_of_length_le whole, take_of_length_le (by omega)]
    · simp only [takeFin, slack]
      omega
  · exact ⟨r, received.silent⟩

/-- **`tcp_handle` keeps the stream** if the segment is one of the peer's and fits. -/
theorem tcpHandle (sends : p.Sends offset seg)
    (near : Near (w.got ++ c.rx).length offset seg.payload.length) (fits : Fits c seg) (now : UInt64) :
    ∃ r', Received p (Net.tcpHandle c seg now).2 (w.send (Net.tcpHandle c seg now).1) r' := by
  have nothing : ∃ r', Received p c (w.send none) r' := ⟨r, received.silent⟩
  unfold Net.tcpHandle
  cases state : c.state with
  | synSent => exact absurd state received.synchronised.2
  | synRcvd => exact received.handleSynRcvd state sends near fits
  | established => exact received.handleEstablished state sends near fits
  | closeWait =>
    simp only [Net.handleCloseWait]
    split
    · exact ⟨r, received.keep rfl rfl le_rfl received.synchronised (by simp)⟩
    · exact nothing
  | finWait1 =>
    obtain ⟨c₁, opened, received₁, next, rx, state₁⟩ :=
      received.acked (q := (seg.has TCP_ACK && seg.ack == c.sndNxt) = true)
        (d := { c with sndUna := c.sndNxt, state := .finWait2 }) rfl rfl (by simp [state, slack]) (by simp)
    rw [opened]
    rw [state] at state₁
    exact received₁.finWait state₁ sends (rx ▸ near)
      (fun fin => next ▸ fits.finWait (.inl state) fin)
  | finWait2 => exact received.finWait (.inr state) sends near (fits.finWait (.inr state))
  | closed | listen | timeWait => exact nothing

theorem tcpSend (payload : List UInt8) (now : UInt64) :
    Received p (Net.tcpSend c payload now).2 (w.send (Net.tcpSend c payload now).1) r := by
  unfold Net.tcpSend
  split
  · exact received.silent
  · exact received.keep rfl rfl le_rfl received.synchronised (answer_some rfl)

theorem tcpClose (now : UInt64) :
    Received p (Net.tcpClose c now).2 (w.send (Net.tcpClose c now).1) r := by
  unfold Net.tcpClose
  split
  next state =>
    exact received.keep rfl rfl (by rcases state with state | state <;> simp [state, slack]) (by simp)
      (answer_some rfl)
  · exact received.silent

theorem tcpTick (now : UInt64) :
    Received p (Net.tcpTick c now).2 (w.send (Net.tcpTick c now).1) r := by
  have top : slack c.state ≤ slack .closed := by
    cases c.state <;> simp [slack]
  unfold Net.tcpTick
  split
  · exact received.silent
  split
  · exact received.silent
  dsimp only
  split
  · exact received.keep rfl rfl top (by simp) (by simp)
  split
  next state => exact absurd state received.synchronised.2
  · exact received.keep rfl rfl le_rfl received.synchronised (answer_some rfl)

/-- The application takes what is in the buffer. -/
theorem hand : Received p { c with rx := [] } { w with got := w.got ++ c.rx } r :=
  ⟨received.next, by rw [append_nil, received.bytes], received.bound, received.synchronised,
    received.acks⟩

end

end Received

/-- A connection that is not synchronised yet has an empty buffer. -/
structure Idle (c : TcpConn) : Prop where
  rx : c.rx = []
  state : c.state = .closed ∨ c.state = .listen ∨ c.state = .synSent

/-- The connection in a slot goes with what was watched. -/
def Goes (c : TcpConn) (w : Watch) : Prop :=
  match w.peer with
  | none => w.got = [] ∧ Idle c
  | some p => c.used = true ∧ ∃ r, Received p c w r

namespace Goes

variable {c c' : TcpConn} {w w' : Watch}

theorem fresh (idle : Idle c) : Goes c {} := ⟨rfl, idle⟩

theorem of_peer (known : w.peer = some p) (used : c.used = true) (received : ∃ r, Received p c w r) :
    Goes c w := by
  rw [Goes, known]
  exact ⟨used, received⟩

/-- Sending nothing is not noticed. -/
theorem send_none (w : Watch) : w.send none = w := by
  rw [Watch.send, Option.toList_none, append_nil]

section

variable (goes : Goes c w)
include goes

/-- A change that keeps what is asked before and after the connection is synchronised. -/
theorem change (peer : w'.peer = w.peer) (used : c'.used = c.used)
    (before : w.got = [] → Idle c → w'.got = [] ∧ Idle c')
    (after : ∀ p r, Received p c w r → Received p c' w' r) : Goes c' w' := by
  rw [Goes] at *
  rw [peer]
  split
  next none_ =>
    rw [none_] at goes
    exact before goes.1 goes.2
  next p some_ =>
    rw [some_] at goes
    obtain ⟨isUsed, r, received⟩ := goes
    exact ⟨used.trans isUsed, r, after p r received⟩

/-- The names and the owner of a connection do not matter. -/
theorem relabel (used : c'.used = c.used) (state : c'.state = c.state)
    (next : c'.rcvNxt = c.rcvNxt) (rx : c'.rx = c.rx) : Goes c' w :=
  goes.change rfl used (fun got idle => ⟨got, rx.trans idle.rx, state ▸ idle.state⟩) fun _ _ received =>
    received.relabel next rx (by rw [state]) (state ▸ received.synchronised)

theorem unused (unused : ¬ c.used = true) : Idle c := by
  unfold Goes at goes
  split at goes
  · exact goes.2
  · exact absurd goes.1 unused

theorem hand : Goes { c with rx := [] } { w with got := w.got ++ c.rx } :=
  goes.change rfl rfl (fun got idle => ⟨by rw [got, idle.rx, append_nil], rfl, idle.state⟩)
    fun _ _ received => received.hand

theorem tcpSend (payload : List UInt8) (now : UInt64) :
    Goes (Net.tcpSend c payload now).2 (w.send (Net.tcpSend c payload now).1) := by
  refine goes.change rfl (tcpSend_same c payload now).used (fun got idle => ?_)
    fun _ _ received => received.tcpSend payload now
  have refused : c.state ≠ .established := by
    rcases idle.state with state | state | state <;> simp [state]
  rw [Net.tcpSend, if_pos (.inl refused)]
  exact ⟨got, idle⟩

theorem tcpClose (now : UInt64) :
    Goes (Net.tcpClose c now).2 (if (Net.tcpClose c now).2.used then w.send (Net.tcpClose c now).1
      else {}) := by
  have used := (tcpClose_same c now).used
  cases known : w.peer with
  | some p =>
    rw [Goes, known] at goes
    obtain ⟨isUsed, r, received⟩ := goes
    rw [if_pos (used.trans isUsed)]
    exact of_peer known (used.trans isUsed) ⟨r, received.tcpClose now⟩
  | none =>
    rw [Goes, known] at goes
    have refused : ¬ (c.state = .established ∨ c.state = .closeWait) := by
      rcases goes.2.state with state | state | state <;> simp [state]
    rw [Net.tcpClose, if_neg refused]
    split
    · rw [send_none, Goes, known]
      exact goes
    · exact .fresh goes.2

theorem tcpTick (now : UInt64) : Goes (Net.tcpTick c now).2 (w.send (Net.tcpTick c now).1) := by
  refine goes.change rfl (tcpTick_same c now).used (fun got idle => ⟨got, ?_⟩)
    fun _ _ received => received.tcpTick now
  unfold Net.tcpTick
  split
  · exact idle
  split
  · exact idle
  dsimp only
  split
  · exact ⟨idle.rx, .inl rfl⟩
  split <;> exact ⟨idle.rx, idle.state⟩

end

/-- `SynSent`: a reset, the peer's `SYN` with the right acknowledgement, or nothing. -/
theorem handleSynSent_cases (c : TcpConn) (seg : TcpSeg) (now : UInt64) :
    handleSynSent c seg now = (none, { c with state := .closed }) ∨
      (seg.has TCP_SYN = true ∧
        let c' := { c with
          rcvNxt := seg.seq + 1, sndUna := seg.ack, retx := 0, rtoMs := TCP_RTO_MS, lastTxMs := now
          state := .established }
        handleSynSent c seg now = (some (ackSeg c'), c')) ∨
      handleSynSent c seg now = (none, c) := by
  unfold handleSynSent
  split
  · exact .inl rfl
  split
  next synAck =>
    refine .inr (.inl ⟨?_, rfl⟩)
    -- both bits are set, so the `SYN` bit is
    have bits := congrArg (· &&& TCP_SYN) synAck.1
    simp only [UInt8.and_assoc] at bits
    rw [show (TCP_SYN ||| TCP_ACK) &&& TCP_SYN = TCP_SYN by decide] at bits
    rw [TcpSeg.has, bits]
    decide
  · exact .inr (.inr rfl)

/-- A segment of the peer. -/
theorem tcpHandle (goes : Goes c w) {seg : TcpSeg} (now : UInt64) (isUsed : c.used = true)
    (sends : p.Sends offset seg) (same : ∀ q, w.peer = some q → q = p ∧
      Near (w.got ++ c.rx).length offset seg.payload.length) (fits : Fits c seg) :
    Goes (Net.tcpHandle c seg now).2
      (if c.state = .synSent ∧ (Net.tcpHandle c seg now).2.state = .established then
        { w with peer := some p, sent := (Net.tcpHandle c seg now).1.toList }
      else w.send (Net.tcpHandle c seg now).1) := by
  have used := (tcpHandle_same c seg now).used.trans isUsed
  cases known : w.peer with
  | some q =>
    rw [Goes, known] at goes
    obtain ⟨-, r, received⟩ := goes
    obtain ⟨rfl, near⟩ := same q known
    rw [if_neg fun opens => received.synchronised.2 opens.1]
    exact of_peer known used (received.tcpHandle sends near fits now)
  | none =>
    rw [Goes, known] at goes
    obtain ⟨got, idle⟩ := goes
    -- a connection that is not synchronised keeps its empty buffer
    have still : ∀ c' : TcpConn, Idle c' → ∀ out, Goes c' (w.send out) := by
      intro c' idle' out
      simp only [Watch.send, known]
      exact ⟨got, idle'⟩
    by_cases opening : c.state = .synSent
    · rw [show Net.tcpHandle c seg now = handleSynSent c seg now by rw [Net.tcpHandle, opening]]
      rcases handleSynSent_cases c seg now with reset | ⟨syn, answered⟩ | ignored
      · rw [reset, if_neg (by simp)]
        exact still { c with state := .closed } ⟨idle.rx, .inl rfl⟩ none
      · rw [answered, if_pos ⟨opening, rfl⟩]
        have next := sends.first syn
        refine ⟨isUsed, 0, next, ?_, Nat.zero_le _, by simp, ?_⟩
        · rw [got, idle.rx, take_zero, append_nil]
        · intro answer sent _
          rw [Option.toList_some, mem_singleton] at sent
          exact ⟨0, le_rfl, sent ▸ next⟩
      · rw [ignored, if_neg (by simp [opening])]
        exact still _ idle _
    · rw [if_neg fun opens => opening opens.1]
      have silent : Net.tcpHandle c seg now = (none, c) := by
        unfold Net.tcpHandle
        rcases idle.state with state | state | state
        · rw [state]
        · rw [state]
        · exact absurd state opening
      rw [silent]
      exact still _ idle _

/-- A passive open. -/
theorem accepted {seg : TcpSeg} (sends : p.Sends offset seg) (syn : seg.has TCP_SYN = true)
    (i nic : Nat) (src : SrcId) (now : UInt64) :
    Goes { acceptedConn i nic src seg now with
        sndNxt := (acceptedConn i nic src seg now).sndUna + 1 }
      ⟨some p, [], [tcpSeg (acceptedConn i nic src seg now) (acceptedConn i nic src seg now).sndUna
        (acceptedConn i nic src seg now).rcvNxt (TCP_SYN ||| TCP_ACK) []]⟩ := by
  have next := sends.first syn
  refine ⟨rfl, 0, next, rfl, Nat.zero_le _, by simp [acceptedConn], ?_⟩
  intro answer sent _
  rw [mem_singleton] at sent
  exact ⟨0, le_rfl, sent ▸ next⟩

end Goes

/-! ## Runs -/

/-- The table has its size, and the connection in slot `i` goes with its watch. -/
structure Tracked (i : Nat) (st : Stack) (w : Watch) : Prop where
  size : st.tcons.length = MAX_TCONS
  goes : Goes (st.conn i) w

namespace Tracked

variable {i j : Nat} {st : Stack} {w w' : Watch} {c : TcpConn}

/-- A change in slot `j`: in slot `i` if it is the same, and not noticed otherwise. -/
theorem put (tracked : Tracked i st w) (inside : j < st.tcons.length) (here : j = i → Goes c w')
    (elsewhere : j ≠ i → w' = w) : Tracked i (st.put j c) w' := by
  refine ⟨(length_set ..).trans tracked.size, ?_⟩
  by_cases same : j = i
  · subst same
    rw [conn_put_self inside]
    exact here rfl
  · rw [conn_put_ne same, elsewhere same]
    exact tracked.goes

/-- The watch of slot `i` changes under a condition that says that the slot is this one. -/
theorem putIf {q : Prop} [Decidable q] (tracked : Tracked i st w) (inside : j < st.tcons.length)
    (same : q ↔ j = i) (here : j = i → Goes c w') : Tracked i (st.put j c) (if q then w' else w) := by
  refine tracked.put inside (fun eq => ?_) fun differs => if_neg fun holds => differs (same.mp holds)
  rw [if_pos (same.mpr eq)]
  exact here eq

/-- A new connection takes a free slot. -/
theorem openSlot (tracked : Tracked i st w) (found : st.free = some j) (idle : Idle c) :
    Tracked i (st.put j c) (if j + 1 = i + 1 then {} else w) :=
  tracked.putIf (free_lt found) (by omega) fun _ => .fresh idle

theorem step (tracked : Tracked i st w) (ev : Event) (genuine : Genuine i st w ev p offset)
    (served : Served i st ev) : Tracked i (st.step ev).st (w.next i st ev p) := by
  -- a reply of 0 opens no slot
  have refused : Tracked i st (if 0 = i + 1 then {} else w) := by
    rwa [if_neg (by omega)]
  cases ev with
  | tsocket nic domain =>
    simp only [Watch.next, Stack.step, tcpOpen]
    split
    · exact refused
    split
    · exact refused
    next found => exact tracked.openSlot found ⟨rfl, .inl rfl⟩
  | tlisten nic port domain portOwner =>
    simp only [Watch.next, Stack.step, tcpListenInternal]
    split
    · exact refused
    split
    · exact refused
    next found => exact tracked.openSlot found ⟨rfl, .inr (.inl rfl)⟩
  | tbind id port domain portOwner =>
    simp only [Watch.next, Stack.step, tcpBind]
    split
    · exact tracked
    split
    · exact tracked
    next found =>
      split
      · refine tracked.put (Stack.lt_of_used (Stack.owned_spec found).2.1) ?_ (fun _ => rfl)
        rintro rfl
        exact tracked.goes.relabel rfl rfl rfl rfl
      · exact tracked
  | taccept id domain =>
    simp only [Watch.next, Stack.step, tcpAcceptInternal]
    split
    · exact tracked
    split
    · exact tracked
    split
    · exact tracked
    next found =>
      refine tracked.put (List.findIdx?_eq_some_iff_getElem.mp found).1 ?_ (fun _ => rfl)
      rintro rfl
      exact tracked.goes.relabel rfl rfl rfl rfl
  | tconnect id addr port now domain gateway =>
    have stays : Tracked i st (if id = i + 1 ∧ 0 = 1 then {} else w) := by
      rwa [if_neg (by omega)]
    simp only [Watch.next, Stack.step, tcpConnectOp]
    split
    · exact stays
    next found =>
      obtain ⟨rfl, used, -⟩ := Stack.owned_spec found
      split
      · exact stays
      split
      · exact stays
      · refine tracked.putIf (Stack.lt_of_used used) (by simp) ?_
        rintro rfl
        exact .fresh ⟨served rfl, .inr (.inr rfl)⟩
  | tsend id mapped payload now domain =>
    have stays : Tracked i st (if id = i + 1 then w.send none else w) := by
      rwa [Goes.send_none, ite_self]
    simp only [Watch.next, Stack.step, tcpSendOp]
    split
    · exact stays
    split
    · exact stays
    next found =>
      obtain ⟨rfl, used, -⟩ := Stack.owned_spec found
      refine tracked.putIf (Stack.lt_of_used used) (by omega) ?_
      rintro rfl
      exact tracked.goes.tcpSend payload now
  | trecv id mapped domain =>
    have stays : Tracked i st (if id = i + 1 then { w with got := w.got ++ [] } else w) := by
      rwa [append_nil, ite_self]
    simp only [Watch.next, Stack.step, tcpRecvOp]
    split
    · exact stays
    split
    · exact stays
    next found =>
      obtain ⟨rfl, used, -⟩ := Stack.owned_spec found
      split
      · refine tracked.putIf (Stack.lt_of_used used) (by omega) ?_
        rintro rfl
        exact tracked.goes.hand
      · exact stays
  | tclose id now domain =>
    cases found : st.owned id domain with
    | none =>
      simp only [Watch.next, Stack.step, tcpCloseOp, found]
      refine ⟨tracked.size, ?_⟩
      split
      · split
        · rw [Goes.send_none]
          exact tracked.goes
        next unused => exact .fresh (tracked.goes.unused unused)
      · exact tracked.goes
    | some j =>
      obtain ⟨rfl, used, -⟩ := Stack.owned_spec found
      have inside := Stack.lt_of_used used
      have kept := tracked.goes.tcpClose now
      cases closed : tcpClose (st.conn j) now with
      | mk out c =>
        cases out with
        | some seg =>
          simp only [Watch.next, Stack.step, tcpCloseOp, found, closed]
          refine tracked.putIf inside (by omega) ?_
          rintro rfl
          rw [Stack.conn_put_self inside]
          rw [closed] at kept
          exact kept
        | none =>
          simp only [Watch.next, Stack.step, tcpCloseOp, found, closed]
          refine tracked.putIf inside (by omega) ?_
          rintro rfl
          rw [Stack.conn_put_self inside, if_neg (by simp [TcpConn.new])]
          exact .fresh ⟨rfl, .inl rfl⟩
  | tick j now =>
    have stays : Tracked i st (if j = i then w.send none else w) := by
      rwa [Goes.send_none, ite_self]
    simp only [Watch.next, Stack.step, tcpTickSlot]
    split
    next busy =>
      rw [Bool.and_eq_true] at busy
      refine tracked.putIf (Stack.lt_of_used busy.1) .rfl ?_
      rintro rfl
      exact tracked.goes.tcpTick now
    · exact stays
  | segment nic src seg now =>
    cases found : st.target nic src seg with
    | some j =>
      have used := Stack.target_used found
      have inside := Stack.lt_of_used used
      simp only [Watch.next, Stack.step, tcpInput, found]
      refine tracked.putIf inside .rfl ?_
      rintro rfl
      rw [Stack.conn_put_self inside]
      simp only [Genuine, found] at genuine
      obtain ⟨sends, same⟩ := genuine trivial
      exact tracked.goes.tcpHandle now used sends same (served found)
    | none =>
      simp only [Genuine, found] at genuine
      simp only [Watch.next, Stack.step, tcpInput, found]
      split
      · rw [if_neg (by simp)]
        exact tracked
      next syn =>
      split
      · split
        · rw [if_neg (by simp)]
          exact tracked
        next j free =>
          refine tracked.putIf (Stack.free_lt free) (by simp [free]) ?_
          rintro rfl
          exact .accepted genuine (by simpa using syn) j nic src now
      · rw [if_neg (by simp)]
        exact tracked

theorem init (i nics : Nat) : Tracked i (Stack.init nics) {} := by
  refine ⟨length_replicate, .fresh ?_⟩
  rw [conn_init]
  exact ⟨rfl, .inl rfl⟩

end Tracked

/-- What a receive returns is what is in the buffer. -/
theorem bytes_trecv {st : Stack} {i : Nat} (size : st.tcons.length = MAX_TCONS) (used : (st.conn i).used = true) :
    (st.step (.trecv (i + 1) true (st.conn i).owner)).bytes = (st.conn i).rx := by
  simp only [Stack.step, tcpRecvOp, owned_self size used]
  split
  next absurd_ => cases absurd_
  split
  · rfl
  next empty =>
    rw [gt_iff_lt, length_pos_iff, not_not] at empty
    exact empty.symm

/-- The buffer of a connection that has an owner, or that waits for a listener, is received. -/
theorem Stack.Attributed.receivable {st : Stack} (attributed : st.Attributed) {i : Nat}
    (used : (st.conn i).used = true) (reachable : (st.conn i).Pending → st.Acceptable i) :
    st.Receivable i (st.conn i).rx := by
  by_cases pending : (st.conn i).Pending
  · obtain ⟨l, inUse, listener, waiting⟩ := reachable pending
    have owner : (st.conn l).owner ≠ 0 :=
      (attributed.owner l inUse).not.mpr fun pending => nomatch listener.symm.trans pending.1
    obtain ⟨n, answer, stays, same, size⟩ := @returned_of_waits st i l (i + 1) 0 attributed.size inUse
      listener waiting nofun (by omega)
    refine .inr ⟨l, n, owner, answer, ?_⟩
    generalize st.afterAccepts l n = s at *
    rcases accepting_cases size (same ▸ inUse) (same ▸ listener) with ⟨none, -⟩ | ⟨j, found, -, -, next⟩
    · omega
    · obtain rfl : j = i := by omega
      have inside := lt_of_used (stays ▸ used)
      have here : (s.accepting l).st.conn j = { st.conn j with accepted := true, owner := (st.conn l).owner } := by
        rw [next, acceptedBy, conn_put_self inside, stays, same]
      have received := @bytes_trecv (s.accepting l).st j ((step_length s _).trans size) (by rw [here]; exact used)
      rwa [here] at received
  · exact .inl ⟨(attributed.owner i used).not.mpr pending, bytes_trecv attributed.size used⟩

/-- **The byte stream is intact.**  Along every run in which slot `i` gets segments of
its peer only and can take what they bring, the application gets a prefix of the
peer's stream.  What was acknowledged it has got or gets with its next receive, unless the connection is one
that nobody has accepted and that no accept returns. -/
theorem byte_stream_intact (i nics : Nat) {st : Stack} {w : Watch} (ran : Watched i nics
      (fun st w ev p offset => Genuine i st w ev p offset ∧ Served i st ev ∧ ev.client ≠ some 0) st w)
    (p : Peer) (known : w.peer = some p) :
    w.got <+: p.data ∧ (((st.conn i).Pending → st.Acceptable i) → Intact i st w p) := by
  have both : Tracked i st w ∧ Serving nics st := by
    clear known
    induction ran with
    | init => exact ⟨.init i nics, .init⟩
    | step _ ev q offset condition ih => exact ⟨ih.1.step ev condition.1 condition.2.1, ih.2.step ev condition.2.2⟩
  obtain ⟨tracked, serving⟩ := both
  have goes := tracked.goes
  rw [Goes, known] at goes
  obtain ⟨used, r, received⟩ := goes
  have got : w.got <+: p.data := by
    have taken : w.got <+: p.data.take r := received.bytes ▸ prefix_append _ _
    exact taken.trans ( take_prefix r p.data)
  refine ⟨got, fun reachable => ⟨got, _, serving.attributed.receivable used reachable, ?_⟩⟩
  intro seg sent isAck
  obtain ⟨a, le, ack⟩ := received.acks seg sent isAck
  refine ⟨a, ack, ?_⟩
  rw [received.bytes]
  exact take_prefix_take_left le

/-! ## Two runs -/

instance (p : Peer) (offset : Nat) (seg : TcpSeg) : Decidable (p.Sends offset seg) :=
  decidable_of_iff' _ (p.sends_iff offset seg)

instance (received offset length : Nat) : Decidable (Near received offset length) :=
  inferInstanceAs (Decidable (_ ∧ _))

set_option synthInstance.maxSize 512 in
instance (c : TcpConn) (seg : TcpSeg) : Decidable (Fits c seg) :=
  decidable_of_iff' _ (fits_iff c seg)

instance (i : Nat) (st : Stack) (w : Watch) (ev : Event) (p : Peer) (offset : Nat) :
    Decidable (Genuine i st w ev p offset) := by
  unfold Genuine
  split
  · split <;> infer_instance
  · infer_instance

instance (i : Nat) (st : Stack) (ev : Event) : Decidable (Served i st ev) := by
  unfold Served
  split <;> infer_instance

/-- Run a list of events, each with the place of its segment in the stream of `p`. -/
def runWatch (i : Nat) (p : Peer) (st : Stack) (w : Watch) : List (Event × Nat) → Stack × Watch
  | [] => (st, w)
  | (ev, _) :: events => runWatch i p (st.step ev).st (w.next i st ev p) events

/-- The condition holds at every event of the list. -/
def Along (K : Stack → Watch → Event → Peer → Nat → Bool) (i : Nat) (p : Peer) (st : Stack)
    (w : Watch) : List (Event × Nat) → Bool
  | [] => true
  | (ev, offset) :: events =>
    K st w ev p offset && Along K i p (st.step ev).st (w.next i st ev p) events

theorem Watched.run {i nics : Nat} {K : Stack → Watch → Event → Peer → Nat → Bool}
    {events : List (Event × Nat)} {st : Stack} {w : Watch}
    (before : Watched i nics (fun st w ev p offset => K st w ev p offset = true) st w)
    (along : Along K i p st w events = true) :
    Watched i nics (fun st w ev p offset => K st w ev p offset = true)
      (runWatch i p st w events).1 (runWatch i p st w events).2 := by
  induction events generalizing st w with
  | nil => exact before
  | cons event events ih =>
    rw [Along, Bool.and_eq_true] at along
    exact ih (.step before event.1 p event.2 along.1) along.2

theorem Watched.mono {i nics : Nat} {K L : Stack → Watch → Event → Peer → Nat → Prop} {st : Stack}
    {w : Watch} (ran : Watched i nics K st w)
    (weaker : ∀ st w ev p offset, K st w ev p offset → L st w ev p offset) :
    Watched i nics L st w := by
  induction ran with
  | init => exact .init
  | step _ ev p offset condition ih => exact .step ih ev p offset (weaker _ _ _ _ _ condition)

/-- A peer that sends four bytes. -/
def demoPeer : Peer := ⟨100, [97, 98, 99, 100]⟩

/-- A segment of the peer to port 80. -/
def demoArrival (seq ack : UInt32) (flags : UInt8) (payload : List UInt8) : Event :=
  .segment 0 (.v4 0x0a000202) ⟨1000, 80, seq, ack, flags, payload⟩ 0

/-- A domain listens, the peer connects and sends the first two bytes. -/
def demoOpen : List (Event × Nat) :=
  [(.tlisten 0 80 5 5, 0), (demoArrival 100 0 TCP_SYN [], 0), (demoArrival 101 0 TCP_PSH [97, 98], 1)]

/-- The peer sends the other two bytes. -/
def demoMore : Event × Nat := (demoArrival 103 0 TCP_PSH [99, 100], 3)

/-- The connection is established, and the application accepts it and receives. -/
def demoTake : List (Event × Nat) :=
  [(demoArrival 103 0x4d4f9102 TCP_ACK [], 3), (.taccept 1 5, 0), (.trecv 2 true 5, 0)]

/-- The second segment comes after the application has received the first. -/
theorem demoTake_intact : ∃ st w,
    runWatch 1 demoPeer (Stack.init 1) {} (demoOpen ++ demoTake ++ [demoMore]) = (st, w) ∧
      w.peer = some demoPeer ∧ w.got = [97, 98] ∧ Intact 1 st w demoPeer := by
  have along : Along (fun st w ev p offset => decide (Genuine 1 st w ev p offset ∧ Served 1 st ev ∧
      ev.client ≠ some 0)) 1 demoPeer (init 1) {} (demoOpen ++ demoTake ++ [demoMore]) = true := by decide +kernel
  have known : (runWatch 1 demoPeer (init 1) {} (demoOpen ++ demoTake ++ [demoMore])).2.peer =
      some demoPeer := by decide +kernel
  have got : (runWatch 1 demoPeer (init 1) {} (demoOpen ++ demoTake ++ [demoMore])).2.got =
      [97, 98] := by decide +kernel
  have ran := (Watched.run .init along).mono fun _ _ _ _ _ holds => of_decide_eq_true holds
  have settled : ¬ ((runWatch 1 demoPeer (init 1) {} (demoOpen ++ demoTake ++ [demoMore])).1.conn 1).Pending := by
    decide +kernel
  exact ⟨_, _, rfl, known, got, (byte_stream_intact 1 1 ran demoPeer known).2 fun pending => absurd pending settled⟩

/-- **Acknowledged bytes are lost.**  Both segments come before the application
receives: both are acknowledged, and the application gets the bytes of the second
only. -/
theorem acknowledged_bytes_lost : ∃ st w, Watched 1 1 (Genuine 1) st w ∧
    w.peer = some demoPeer ∧ w.got = [99, 100] ∧ ¬ Intact 1 st w demoPeer := by
  have along : Along (fun st w ev p offset => decide (Genuine 1 st w ev p offset)) 1 demoPeer
      (init 1) {} (demoOpen ++ [demoMore] ++ demoTake) = true := by decide +kernel
  have known : (runWatch 1 demoPeer (init 1) {} (demoOpen ++ [demoMore] ++ demoTake)).2.peer =
      some demoPeer := by decide +kernel
  have got : (runWatch 1 demoPeer (init 1) {} (demoOpen ++ [demoMore] ++ demoTake)).2.got =
      [99, 100] := by decide +kernel
  have ran := (Watched.run .init along).mono fun _ _ _ _ _ holds => of_decide_eq_true holds
  refine ⟨_, _, ran, known, got, fun intact => ?_⟩
  have taken := intact.1
  exact absurd taken (by decide)

end MorionOS.Net
