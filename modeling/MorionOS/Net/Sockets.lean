import MorionOS.Net.Steps
import MorionOS.Kernel.Ports

/-!
# Sockets of the network stack

`serve_app` of `netstack_srv.rs` answers the socket requests of all domains.  Beside
the table of TCP connections there is one of UDP sockets, which the `sock_*` functions
and `deliver` work on.  Who may bind a port is asked of the kernel, whose table of
bindings is part of the state here, with `SYS_NET_BIND` as an event.

What the cards know (the gateway's hardware address, the IPv6 addresses, whether a frame
goes out) is an input of the requests that depend on it.
-/

namespace MorionOS.Net

def MAX_SOCKS : Nat := 4
def OUR_IP : UInt32 := 0x0a00020f

/-- `Sock`; `data` is the part of the buffer that is in use.  The last two fields are kept
for the specification only: no function reads them. -/
structure Sock where
  used : Bool := false
  port : UInt16 := 0
  nic : Nat := 0
  data : List UInt8 := []
  /-- the domain whose request allocated the socket -/
  creator : Nat := 0
  /-- the port that the bytes in the buffer were addressed to -/
  arrived : UInt16 := 0
deriving DecidableEq

def Sock.new : Sock := {}

/-- A datagram that leaves through a card. -/
structure Datagram where
  sport : UInt16
  dst : SrcId
  dport : UInt16
  payload : List UInt8
deriving DecidableEq

/-- What a request reads of the card that it goes through. -/
structure Card where
  up : Bool
  gwMac : Bool
  gw6Mac : Bool
  linkLocal : BitVec 128
  v6Global : BitVec 128
  /-- the result of `link_tx` -/
  sent : Bool

abbrev SockTable := List Sock

/-- The answer of a UDP request: the reply, the bytes that are copied to the caller, the
datagram that is handed to the card, and the table. -/
structure SockOutcome where
  reply : Nat
  bytes : List UInt8 := []
  out : Option Datagram := none
  socks : SockTable

namespace SockTable

/-- `st.socks[i]`. -/
def sock (socks : SockTable) (i : Nat) : Sock := (socks[i]?).getD Sock.new

end SockTable

/-! ## UDP -/

def sockAlloc (socks : SockTable) (nic domain : Nat) : SockOutcome :=
  match socks.findIdx? fun s => !s.used with
  | none => { reply := 0, socks }
  | some i =>
    { reply := i + 1
      socks := socks.set i { Sock.new with used := true, nic := nic, creator := domain } }

def sockSlot (socks : SockTable) (id : Nat) : Option Nat :=
  if id = 0 ∨ id > MAX_SOCKS then none
  else if (socks.sock (id - 1)).used then some (id - 1)
  else none

/-- `sock_bind`; `portOwner` is the answer of `sys_net_owner`. -/
def sockBind (socks : SockTable) (id : Nat) (port : UInt16) (domain portOwner : Nat) :
    SockOutcome :=
  if portOwner ≠ domain then { reply := 0, socks }
  else
    match sockSlot socks id with
    | none => { reply := 0, socks }
    | some i =>
      if (socks.sock i).port = 0 then
        { reply := 1, socks := socks.set i { socks.sock i with port := port } }
      else { reply := 0, socks }

def deliver (socks : SockTable) (nic : Nat) (dport : UInt16) (payload : List UInt8) :
    Bool × SockTable :=
  match socks.findIdx? fun s =>
      s.used && s.nic == nic && s.port == dport && decide (payload.length ≤ PAY_MAX) with
  | none => (false, socks)
  | some i => (true, socks.set i { socks.sock i with data := payload, arrived := dport })

/-- The end of `sock_sendto`, which `sock_sendto6` has again for mapped addresses. -/
def sendIpv4 (socks : SockTable) (card : Card) (s : Sock) (dst : UInt32) (dport : UInt16)
    (payload : List UInt8) : SockOutcome :=
  if dst = OUR_IP then { reply := 1, socks := (deliver socks s.nic dport payload).2 }
  else if card.gwMac then
    { reply := if card.sent then 1 else 0
      out := some ⟨s.port, .v4 dst, dport, payload⟩
      socks }
  else { reply := 0, socks }

def sockSendto (nics : Nat) (socks : SockTable) (card : Card) (id : Nat) (mapped : Bool)
    (addr : UInt32) (port : UInt16) (payload : List UInt8) : SockOutcome :=
  if !mapped || payload.length == 0 || decide (payload.length > PAY_MAX) then { reply := 0, socks }
  else
    match sockSlot socks id with
    | none => { reply := 0, socks }
    | some i =>
      if (socks.sock i).nic ≥ nics || !card.up then { reply := 0, socks }
      else sendIpv4 socks card (socks.sock i) addr port payload

def v4Mapped (a : BitVec 128) : Option UInt32 :=
  if a >>> 32 = 0xffff#128 then some (UInt32.ofBitVec (a.setWidth 32)) else none

def v6IsLoopback (a : BitVec 128) : Bool := a == 1#128

def sockSendto6 (nics : Nat) (socks : SockTable) (card : Card) (id : Nat) (mapped : Bool)
    (dst6 : BitVec 128) (port : UInt16) (payload : List UInt8) : SockOutcome :=
  if !mapped || decide (payload.length > PAY_MAX) then { reply := 0, socks }
  else
    match sockSlot socks id with
    | none => { reply := 0, socks }
    | some i =>
      let s := socks.sock i
      if s.nic ≥ nics || !card.up then { reply := 0, socks }
      else
        match v4Mapped dst6 with
        | some dst => sendIpv4 socks card s dst port payload
        | none =>
          if v6IsLoopback dst6 || dst6 == card.linkLocal || dst6 == card.v6Global then
            { reply := 1, socks := (deliver socks s.nic port payload).2 }
          else if card.gw6Mac then
            { reply := if card.sent then 1 else 0
              out := some ⟨s.port, .v6 dst6, port, payload⟩
              socks }
          else { reply := 0, socks }

def sockRecvfrom (socks : SockTable) (id : Nat) (mapped : Bool) : SockOutcome :=
  if !mapped then { reply := 0, socks }
  else
    match sockSlot socks id with
    | none => { reply := 0, socks }
    | some i =>
      let s := socks.sock i
      if s.data.length > 0 then
        { reply := s.data.length, bytes := s.data, socks := socks.set i { s with data := [] } }
      else { reply := 0, socks }

def sockClose (socks : SockTable) (id : Nat) : SockOutcome :=
  if id = 0 ∨ id > MAX_SOCKS then { reply := 0, socks }
  else { reply := 1, socks := socks.set (id - 1) Sock.new }

/-! ## The service -/

/-- A domain: `u64::MAX`, the answer for a port without owner, is not one. -/
abbrev Domain := { d : Nat // d ≠ Kernel.U64_MAX }

/-- `NetSReq` with its operation; the operations that only ask (`NETINFO`, `PING4`,
`PING6`) are left out. -/
inductive Request where
  | socket (nic : Nat)
  | bind (id : Nat) (port : UInt16)
  | sendto (id : Nat) (mapped : Bool) (addr : UInt32) (port : UInt16) (payload : List UInt8)
      (card : Card)
  | sendto6 (id : Nat) (mapped : Bool) (addr : BitVec 128) (port : UInt16) (payload : List UInt8)
      (card : Card)
  | recvfrom (id : Nat) (mapped : Bool)
  | close (id : Nat)
  | tsocket (nic : Nat)
  | tbind (id : Nat) (port : UInt16)
  | tconnect (id : Nat) (addr : UInt32) (port : UInt16) (gateway : Bool)
  | tsend (id : Nat) (mapped : Bool) (payload : List UInt8)
  | trecv (id : Nat) (mapped : Bool)
  | tclose (id : Nat)
  | tlisten (nic : Nat) (port : UInt16)
  | taccept (id : Nat)

/-- What a request names: a UDP socket or a TCP connection. -/
inductive Handle where
  | udp (id : Nat)
  | tcp (id : Nat)
deriving DecidableEq

/-- The state of the service with the kernel's table of bindings.  `arrived` is kept for
the specification only: the port that the bytes in a connection's buffer were addressed
to. -/
structure Service where
  stack : Stack
  socks : SockTable
  bindings : List Kernel.Binding
  arrived : Nat → UInt16

/-- `Stack::zeroed` with the number of cards filled in. -/
def Service.init (nics : Nat) : Service where
  stack := Stack.init nics
  socks := List.replicate MAX_SOCKS Sock.new
  bindings := []
  arrived := fun _ => 0

/-- An answer of the service. -/
structure Answered where
  reply : Nat := 0
  bytes : List UInt8 := []
  datagram : Option Datagram := none
  segment : Option TcpSeg := none
  next : Service

namespace Service

variable (s : Service)

/-- `sys_net_owner`. -/
def portOwner (port : UInt16) : Nat := Kernel.Net.owner s.bindings port

/-- The answer of a UDP request. -/
def udp (o : SockOutcome) : Answered :=
  { reply := o.reply, bytes := o.bytes, datagram := o.out, next := { s with socks := o.socks } }

/-- The answer of a TCP request. -/
def tcp (o : Outcome) : Answered :=
  { reply := o.reply, bytes := o.bytes, segment := o.out, next := { s with stack := o.st } }

/-- A connection takes the payload of this segment. -/
def takesPayload (c : TcpConn) (seg : TcpSeg) : Bool :=
  (decide (c.state = .synRcvd) || decide (c.state = .established)) && !seg.has TCP_RST &&
    seg.payload != [] && seg.seq == c.rcvNxt

/-- The slot of a connection that takes a payload remembers the port. -/
def noteSegment (nic : Nat) (src : SrcId) (seg : TcpSeg) : Service :=
  match s.stack.target nic src seg with
  | none => s
  | some i =>
    if takesPayload (s.stack.conn i) seg then
      { s with arrived := Function.update s.arrived i seg.dport }
    else s

/-- `serve_app` for one request of `domain`. -/
def serve (domain : Nat) (now : UInt64) : Request → Answered
  | .socket nic =>
    if nic < s.stack.nics then s.udp (sockAlloc s.socks nic domain) else { next := s }
  | .bind id port => s.udp (sockBind s.socks id port domain (s.portOwner port))
  | .sendto id mapped addr port payload card =>
    s.udp (sockSendto s.stack.nics s.socks card id mapped addr port payload)
  | .sendto6 id mapped addr port payload card =>
    s.udp (sockSendto6 s.stack.nics s.socks card id mapped addr port payload)
  | .recvfrom id mapped => s.udp (sockRecvfrom s.socks id mapped)
  | .close id => s.udp (sockClose s.socks id)
  | .tsocket nic => s.tcp (tcpOpen s.stack nic domain)
  | .tbind id port => s.tcp (tcpBind s.stack id port domain (s.portOwner port))
  | .tconnect id addr port gateway =>
    s.tcp (tcpConnectOp s.stack id addr port now domain gateway)
  | .tsend id mapped payload => s.tcp (tcpSendOp s.stack id mapped payload now domain)
  | .trecv id mapped => s.tcp (tcpRecvOp s.stack id mapped domain)
  | .tclose id => s.tcp (tcpCloseOp s.stack id now domain)
  | .tlisten nic port => s.tcp (tcpListenInternal s.stack nic port domain (s.portOwner port))
  | .taccept id => s.tcp (tcpAcceptInternal s.stack id domain)

end Service

/-- What happens to the service: a domain binds a port in the kernel, a domain sends a
request, a UDP datagram or a TCP segment comes in, a timer runs. -/
inductive Input where
  | netBind (caps : List Kernel.CapRow) (domain : Domain) (port : UInt16)
  | request (domain : Domain) (now : UInt64) (r : Request)
  | datagram (nic : Nat) (dport : UInt16) (payload : List UInt8)
  | segment (nic : Nat) (src : SrcId) (seg : TcpSeg) (now : UInt64)
  | tick (i : Nat) (now : UInt64)

/-- One input. -/
def Service.step (s : Service) : Input → Service
  | .netBind caps domain port =>
    { s with bindings := (Kernel.Net.bind caps s.bindings domain port).2 }
  | .request domain now r => (s.serve domain now r).next
  | .datagram nic dport payload => { s with socks := (deliver s.socks nic dport payload).2 }
  | .segment nic src seg now =>
    { s.noteSegment nic src seg with stack := (tcpInput s.stack nic src seg now).st }
  | .tick i now => { s with stack := (tcpTickSlot s.stack i now).st }

end MorionOS.Net
