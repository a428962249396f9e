import Mathlib.Tactic

/-!
# TCP connections of the network stack

The connection state machine of `netstack_srv.rs`: `tcp_handle` and the functions
that connect, send, close and retransmit work on one `TcpConn`, and the socket
operations (`tcp_open`, `tcp_recv_op`, ...) and `tcp_input` work on the table of
connections.

A segment is what `tcp_parse` returns, with the payload as a list of bytes.  The
functions that build a segment into the shared page and return its length (0 when
there is none) return the segment here.  Hardware addresses are left out: they end
up in the frame header only.

Names are those of the source, in camel case.
-/

namespace MorionOS.Net

def MAX_TCONS : Nat := 6
def PAY_MAX : Nat := 1472
def TCP_MSS : Nat := 1400
def TCP_RTO_MS : UInt64 := 300
def TCP_MAX_RETX : Nat := 5
def TCP_FIN : UInt8 := 0x01
def TCP_SYN : UInt8 := 0x02
def TCP_RST : UInt8 := 0x04
def TCP_PSH : UInt8 := 0x08
def TCP_ACK : UInt8 := 0x10

inductive SrcId where
  | v4 (addr : UInt32)
  | v6 (addr : BitVec 128)
deriving DecidableEq

/-- `TcpSeg`; the window is not read. -/
structure TcpSeg where
  sport : UInt16
  dport : UInt16
  seq : UInt32
  ack : UInt32
  flags : UInt8
  payload : List UInt8
deriving DecidableEq

/-- `seg.flags & bit != 0`. -/
def TcpSeg.has (seg : TcpSeg) (bit : UInt8) : Bool := seg.flags &&& bit != 0

inductive TcpState where
  | closed
  | listen
  | synSent
  | synRcvd
  | established
  | finWait1
  | finWait2
  | closeWait
  | timeWait
deriving DecidableEq

inductive TcpRole where
  | client
  | listener
  | server
deriving DecidableEq

/-- `TcpConn`.  `remote` is the family with the peer's address; `tx` and `rx` are the
parts of the buffers that are in use. -/
structure TcpConn where
  used : Bool := false
  owner : Nat := 0
  role : TcpRole := .client
  state : TcpState := .closed
  nic : Nat := 0
  localPort : UInt16 := 0
  remote : SrcId := .v4 0
  remotePort : UInt16 := 0
  sndUna : UInt32 := 0
  sndNxt : UInt32 := 0
  rcvNxt : UInt32 := 0
  retx : Nat := 0
  rtoMs : UInt64 := TCP_RTO_MS
  lastTxMs : UInt64 := 0
  tx : List UInt8 := []
  rx : List UInt8 := []
  accepted : Bool := false
deriving DecidableEq

def TcpConn.new : TcpConn := {}

/-! ## One connection -/

def tcpSeg (conn : TcpConn) (seq ack : UInt32) (flags : UInt8) (payload : List UInt8) : TcpSeg :=
  ⟨conn.localPort, conn.remotePort, seq, ack, flags, payload⟩

def tcpConnect (conn : TcpConn) (isn : UInt32) (now : UInt64) : TcpSeg × TcpConn :=
  let conn := { conn with
    sndUna := isn, sndNxt := isn, rcvNxt := 0, retx := 0, rtoMs := TCP_RTO_MS, lastTxMs := now
    tx := [], state := .synSent }
  (tcpSeg conn isn 0 TCP_SYN [], { conn with sndNxt := isn + 1 })

def tcpSend (conn : TcpConn) (payload : List UInt8) (now : UInt64) : Option TcpSeg × TcpConn :=
  if conn.state ≠ .established ∨ conn.tx ≠ [] then (none, conn)
  else
    let data := payload.take TCP_MSS
    let conn := { conn with tx := data, retx := 0, rtoMs := TCP_RTO_MS, lastTxMs := now }
    (some (tcpSeg conn conn.sndNxt conn.rcvNxt (TCP_PSH ||| TCP_ACK) data),
      { conn with sndNxt := conn.sndNxt + UInt32.ofNat data.length })

/-- The application closes; `FIN` is sent in the states that allow it. -/
def tcpClose (conn : TcpConn) (now : UInt64) : Option TcpSeg × TcpConn :=
  if conn.state = .established ∨ conn.state = .closeWait then
    let conn := { conn with
      state := .finWait1, retx := 0, rtoMs := TCP_RTO_MS, lastTxMs := now, tx := [] }
    (some (tcpSeg conn conn.sndNxt conn.rcvNxt (TCP_FIN ||| TCP_ACK) []),
      { conn with sndNxt := conn.sndNxt + 1 })
  else (none, conn)

/-- The answer `ACK` of `tcp_handle`. -/
def ackSeg (conn : TcpConn) : TcpSeg := tcpSeg conn conn.sndNxt conn.rcvNxt TCP_ACK []

/-- In `tcp_handle`: the payload of a segment that comes next is copied to the
receive buffer.  The result says whether an answer is needed. -/
def takePayload (conn : TcpConn) (seg : TcpSeg) : Bool × TcpConn :=
  if seg.payload ≠ [] ∧ seg.seq = conn.rcvNxt then
    (true, { conn with
      rx := seg.payload.take PAY_MAX
      rcvNxt := conn.rcvNxt + UInt32.ofNat seg.payload.length })
  else (false, conn)

/-- In `tcp_handle`: the peer's `FIN`. -/
def takeFin (conn : TcpConn) (next : TcpState) : TcpConn :=
  { conn with rcvNxt := conn.rcvNxt + 1, state := next }

/-- The segment acknowledges something that was not acknowledged before. -/
def acksNew (conn : TcpConn) (seg : TcpSeg) : Bool :=
  seg.has TCP_ACK && seg.ack == conn.sndNxt && conn.sndUna != conn.sndNxt

/-- `tcp_handle` in `SynSent`. -/
def handleSynSent (conn : TcpConn) (seg : TcpSeg) (now : UInt64) : Option TcpSeg × TcpConn :=
  if seg.has TCP_RST then (none, { conn with state := .closed })
  else if seg.flags &&& (TCP_SYN ||| TCP_ACK) = (TCP_SYN ||| TCP_ACK) ∧ seg.ack = conn.sndNxt then
    let conn := { conn with
      rcvNxt := seg.seq + 1, sndUna := seg.ack, retx := 0, rtoMs := TCP_RTO_MS, lastTxMs := now
      state := .established }
    (some (ackSeg conn), conn)
  else (none, conn)

/-- `tcp_handle` in `SynRcvd`. -/
def handleSynRcvd (conn : TcpConn) (seg : TcpSeg) : Option TcpSeg × TcpConn :=
  if seg.has TCP_RST then (none, { conn with state := .closed })
  else
    let conn := if acksNew conn seg then
      { conn with sndUna := conn.sndNxt, state := .established, retx := 0, rtoMs := TCP_RTO_MS }
      else conn
    let (needAck, conn) := takePayload conn seg
    (if needAck then some (ackSeg conn) else none, conn)

/-- `tcp_handle` in `Established`. -/
def handleEstablished (conn : TcpConn) (seg : TcpSeg) : Option TcpSeg × TcpConn :=
  if seg.has TCP_RST then (none, { conn with state := .closed })
  else
    let (taken, conn) := takePayload conn seg
    let conn := if acksNew conn seg then
      { conn with sndUna := conn.sndNxt, tx := [], retx := 0, rtoMs := TCP_RTO_MS } else conn
    let (needAck, conn) :=
      if seg.has TCP_FIN then (true, takeFin conn .closeWait) else (taken, conn)
    (if needAck then some (ackSeg conn) else none, conn)

/-- `tcp_handle` in `CloseWait`. -/
def handleCloseWait (conn : TcpConn) (seg : TcpSeg) : Option TcpSeg × TcpConn :=
  (none, if seg.has TCP_ACK && seg.ack == conn.sndNxt then { conn with sndUna := conn.sndNxt }
    else conn)

/-- The last part of `tcp_handle` in `FinWait1` and `FinWait2`. -/
def finWait (conn : TcpConn) (seg : TcpSeg) : Option TcpSeg × TcpConn :=
  if seg.has TCP_FIN then
    let conn := takeFin conn .timeWait
    (some (ackSeg conn), conn)
  else (none, conn)

/-- A segment for a connection: the answer and the connection after it. -/
def tcpHandle (conn : TcpConn) (seg : TcpSeg) (now : UInt64) : Option TcpSeg × TcpConn :=
  match conn.state with
  | .synSent => handleSynSent conn seg now
  | .synRcvd => handleSynRcvd conn seg
  | .established => handleEstablished conn seg
  | .closeWait => handleCloseWait conn seg
  | .finWait1 =>
    finWait (if seg.has TCP_ACK && seg.ack == conn.sndNxt then
      { conn with sndUna := conn.sndNxt, state := .finWait2 } else conn) seg
  | .finWait2 => finWait conn seg
  | .closed | .listen | .timeWait => (none, conn)

/-- The timer: what is sent again and the connection after it. -/
def tcpTick (conn : TcpConn) (now : UInt64) : Option TcpSeg × TcpConn :=
  if conn.state = .closed then (none, conn)
  else if ¬ (conn.state = .synSent ∨ conn.tx ≠ []) ∨ now - conn.lastTxMs < conn.rtoMs then
    (none, conn)
  else
    let conn := { conn with retx := conn.retx + 1 }
    if conn.retx > TCP_MAX_RETX then (none, { conn with state := .closed })
    else
      let conn := { conn with lastTxMs := now, rtoMs := conn.rtoMs * 2 }
      if conn.state = .synSent then (some (tcpSeg conn conn.sndUna 0 TCP_SYN []), conn)
      else (some (tcpSeg conn conn.sndUna conn.rcvNxt (TCP_PSH ||| TCP_ACK) conn.tx), conn)

/-! ## The table of connections -/

/-- The part of `Stack` that TCP uses. -/
structure Stack where
  nics : Nat
  tcons : List TcpConn

namespace Stack

/-- `Stack::zeroed` with the number of cards filled in. -/
def init (nics : Nat) : Stack := ⟨nics, List.replicate MAX_TCONS TcpConn.new⟩

/-- `st.tcons[i]`. -/
def conn (st : Stack) (i : Nat) : TcpConn := (st.tcons[i]?).getD TcpConn.new

/-- `st.tcons[i] = c`. -/
def put (st : Stack) (i : Nat) (c : TcpConn) : Stack := { st with tcons := st.tcons.set i c }

/-- The first slot that is not used. -/
def free (st : Stack) : Option Nat := st.tcons.findIdx? fun c => !c.used

/-- `tcp_slot_owned`: the slot of connection `id`, if it is used and `domain` owns it. -/
def owned (st : Stack) (id domain : Nat) : Option Nat :=
  if id = 0 ∨ id > MAX_TCONS then none
  else if (st.conn (id - 1)).used ∧ (st.conn (id - 1)).owner = domain then some (id - 1)
  else none

end Stack

/-- What a request returns: the answer, the bytes that are copied to the caller, the
segment that is sent, and the stack. -/
structure Outcome where
  reply : Nat
  bytes : List UInt8 := []
  out : Option TcpSeg := none
  st : Stack

def tcpOpen (st : Stack) (nic domain : Nat) : Outcome :=
  if nic ≥ st.nics then { reply := 0, st }
  else
    match st.free with
    | none => { reply := 0, st }
    | some i =>
      { reply := i + 1
        st := st.put i { TcpConn.new with used := true, owner := domain, nic := nic } }

/-- `tcp_listen_internal`; `portOwner` is the answer of `sys_net_owner`. -/
def tcpListenInternal (st : Stack) (nic : Nat) (port : UInt16) (domain portOwner : Nat) : Outcome :=
  if nic ≥ st.nics ∨ portOwner ≠ domain then { reply := 0, st }
  else
    match st.free with
    | none => { reply := 0, st }
    | some i =>
      { reply := i + 1
        st := st.put i { TcpConn.new with
          used := true, owner := domain, role := .listener, state := .listen, nic := nic
          localPort := port } }

def tcpAcceptInternal (st : Stack) (id domain : Nat) : Outcome :=
  match st.owned id domain with
  | none => { reply := 0, st }
  | some l =>
    let listener := st.conn l
    if listener.role ≠ .listener then { reply := 0, st }
    else
      match st.tcons.findIdx? fun c => c.used && decide (c.role = .server) &&
          decide (c.state = .established) && !c.accepted && c.localPort == listener.localPort &&
          c.nic == listener.nic with
      | none => { reply := 0, st }
      | some i =>
        { reply := i + 1, st := st.put i { st.conn i with accepted := true, owner := domain } }

def tcpBind (st : Stack) (id : Nat) (port : UInt16) (domain portOwner : Nat) : Outcome :=
  if portOwner ≠ domain then { reply := 0, st }
  else
    match st.owned id domain with
    | none => { reply := 0, st }
    | some i =>
      if (st.conn i).localPort = 0 then
        { reply := 1, st := st.put i { st.conn i with localPort := port } }
      else { reply := 0, st }

/-- `tcp_connect_op`; `gateway` says whether the card knows the gateway's address. -/
def tcpConnectOp (st : Stack) (id : Nat) (addr : UInt32) (port : UInt16) (now : UInt64)
    (domain : Nat) (gateway : Bool) : Outcome :=
  match st.owned id domain with
  | none => { reply := 0, st }
  | some i =>
    if !gateway then { reply := 0, st }
    else
      let c := st.conn i
      if c.localPort = 0 ∨ c.state ≠ .closed then { reply := 0, st }
      else
        -- the family of the connection is not set here
        let remote := match c.remote with
          | .v4 _ => SrcId.v4 addr
          | .v6 other => SrcId.v6 other
        let isn := 0x4d4f0000 ^^^ (UInt32.ofNat id * 0x01010101)
        let (syn, c) := tcpConnect { c with remote := remote, remotePort := port } isn now
        { reply := 1, out := some syn, st := st.put i c }

/-- `tcp_send_op`; `mapped` says whether the caller's buffer is there. -/
def tcpSendOp (st : Stack) (id : Nat) (mapped : Bool) (payload : List UInt8) (now : UInt64)
    (domain : Nat) : Outcome :=
  if !mapped || payload.length == 0 || decide (payload.length > TCP_MSS) then { reply := 0, st }
  else
    match st.owned id domain with
    | none => { reply := 0, st }
    | some i =>
      let (seg, c) := tcpSend (st.conn i) payload now
      { reply := if seg.isSome then 1 else 0, out := seg, st := st.put i c }

def tcpRecvOp (st : Stack) (id : Nat) (mapped : Bool) (domain : Nat) : Outcome :=
  if !mapped then { reply := 0, st }
  else
    match st.owned id domain with
    | none => { reply := 0, st }
    | some i =>
      let c := st.conn i
      if c.rx.length > 0 then
        { reply := c.rx.length, bytes := c.rx, st := st.put i { c with rx := [] } }
      else { reply := 0, st }

def tcpCloseOp (st : Stack) (id : Nat) (now : UInt64) (domain : Nat) : Outcome :=
  match st.owned id domain with
  | none => { reply := 0, st }
  | some i =>
    match tcpClose (st.conn i) now with
    | (some seg, c) => { reply := 1, out := some seg, st := st.put i c }
    | (none, _) => { reply := 1, st := st.put i TcpConn.new }

def tcpMatch (c : TcpConn) (nic : Nat) (src : SrcId) (seg : TcpSeg) : Bool :=
  c.used && c.nic == nic && c.localPort == seg.dport && c.remotePort == seg.sport &&
    decide (c.remote = src)

/-- The connection that a segment belongs to. -/
def Stack.target (st : Stack) (nic : Nat) (src : SrcId) (seg : TcpSeg) : Option Nat :=
  st.tcons.findIdx? fun c => tcpMatch c nic src seg

/-- The new connection of a passive open, in slot `i`. -/
def acceptedConn (i nic : Nat) (src : SrcId) (seg : TcpSeg) (now : UInt64) : TcpConn :=
  let isn : UInt32 := 0x4d4f9000 ^^^ (UInt32.ofNat i * 0x0101)
  { TcpConn.new with
    used := true, role := .server, state := .synRcvd, nic := nic, localPort := seg.dport
    remote := src, remotePort := seg.sport, rcvNxt := seg.seq + 1, sndUna := isn, sndNxt := isn
    lastTxMs := now }

/-- `tcp_input`: the connection handles the segment; without one, a `SYN` to a
listener opens a new connection. -/
def tcpInput (st : Stack) (nic : Nat) (src : SrcId) (seg : TcpSeg) (now : UInt64) : Outcome :=
  match st.target nic src seg with
  | some i =>
    let (out, c) := tcpHandle (st.conn i) seg now
    { reply := 0, out, st := st.put i c }
  | none =>
    if !seg.has TCP_SYN then { reply := 0, st }
    else if st.tcons.any (fun c => c.used && decide (c.role = .listener) &&
        decide (c.state = .listen) && c.nic == nic && c.localPort == seg.dport) then
      match st.free with
      | none => { reply := 0, st }
      | some i =>
        let c := acceptedConn i nic src seg now
        { reply := 0
          out := some (tcpSeg c c.sndUna c.rcvNxt (TCP_SYN ||| TCP_ACK) [])
          st := st.put i { c with sndNxt := c.sndUna + 1 } }
    else { reply := 0, st }

/-- One round of the loop in `tcp_tick_all`. -/
def tcpTickSlot (st : Stack) (i : Nat) (now : UInt64) : Outcome :=
  if (st.conn i).used && decide ((st.conn i).state ≠ .closed) then
    let (out, c) := tcpTick (st.conn i) now
    { reply := 0, out, st := st.put i c }
  else { reply := 0, st }

/-- What happens to the stack.  A segment that the stack sends to itself comes back
as an event of its own. -/
inductive Event where
  | tsocket (nic domain : Nat)
  | tbind (id : Nat) (port : UInt16) (domain portOwner : Nat)
  | tconnect (id : Nat) (addr : UInt32) (port : UInt16) (now : UInt64) (domain : Nat)
      (gateway : Bool)
  | tsend (id : Nat) (mapped : Bool) (payload : List UInt8) (now : UInt64) (domain : Nat)
  | trecv (id : Nat) (mapped : Bool) (domain : Nat)
  | tclose (id : Nat) (now : UInt64) (domain : Nat)
  | tlisten (nic : Nat) (port : UInt16) (domain portOwner : Nat)
  | taccept (id domain : Nat)
  | segment (nic : Nat) (src : SrcId) (seg : TcpSeg) (now : UInt64)
  | tick (i : Nat) (now : UInt64)

/-- One event. -/
def Stack.step (st : Stack) : Event → Outcome
  | .tsocket nic domain => tcpOpen st nic domain
  | .tbind id port domain portOwner => tcpBind st id port domain portOwner
  | .tconnect id addr port now domain gateway => tcpConnectOp st id addr port now domain gateway
  | .tsend id mapped payload now domain => tcpSendOp st id mapped payload now domain
  | .trecv id mapped domain => tcpRecvOp st id mapped domain
  | .tclose id now domain => tcpCloseOp st id now domain
  | .tlisten nic port domain portOwner => tcpListenInternal st nic port domain portOwner
  | .taccept id domain => tcpAcceptInternal st id domain
  | .segment nic src seg now => tcpInput st nic src seg now
  | .tick i now => tcpTickSlot st i now

end MorionOS.Net
