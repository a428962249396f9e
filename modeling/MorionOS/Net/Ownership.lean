import MorionOS.Net.Sockets

/-!
# Who may use a socket

A domain should only get the data of ports that it owns and only use sockets of its own.
The table of connections records an owner for every entry, and all operations look it up
with `tcp_slot_owned`.  The table of UDP sockets has no owner: only `sock_bind` looks at
the sender of the request, and it compares it with the owner of the port and not with the
domain that made the socket.

`sockets_respect_ownership` is what remains: in runs in which UDP requests come from the
domain that made the socket, in which no datagram is addressed to port 0 (the port of a
socket before `bind`), and in which domain 0 leaves the connections alone that have not
been accepted yet (their owner field is still 0), every answer respects ownership.
`foreign_recvfrom_is_served` is a run where a domain reads another domain's datagram.
-/

namespace MorionOS.Net

open Stack

open Kernel (U64_MAX)

/-! ## The specification -/

/-- A connection of a passive open that nobody has accepted yet. -/
def TcpConn.Pending (c : TcpConn) : Prop := c.role = .server ∧ c.accepted = false

instance (c : TcpConn) : Decidable c.Pending := inferInstanceAs (Decidable (_ ∧ _))

/-- The socket or connection that a request works on. -/
def Request.names : Request → Option Handle
  | .bind id _ | .sendto id _ _ _ _ _ | .sendto6 id _ _ _ _ _ | .recvfrom id _ | .close id =>
    some (.udp id)
  | .tbind id _ | .tconnect id _ _ _ | .tsend id _ _ | .trecv id _ | .tclose id | .taccept id =>
    some (.tcp id)
  | .socket _ | .tsocket _ | .tlisten _ _ => none

/-- The port that a UDP request sends to. -/
def Request.dport : Request → Option UInt16
  | .sendto _ _ _ port _ _ | .sendto6 _ _ _ port _ _ => some port
  | _ => none

namespace Service

variable (s : Service)

/-- The handle stands for a socket or connection. -/
def InUse : Handle → Prop
  | .udp id => (s.socks.sock (id - 1)).used = true
  | .tcp id => (s.stack.conn (id - 1)).used = true

/-- The domain made the socket; a connection of a passive open is made by `taccept`. -/
def CreatedBy (domain : Nat) : Handle → Prop
  | .udp id => (s.socks.sock (id - 1)).creator = domain
  | .tcp id => (s.stack.conn (id - 1)).owner = domain ∧ ¬ (s.stack.conn (id - 1)).Pending

/-- The port on which the bytes in the buffer came in. -/
def arrivedOn : Handle → UInt16
  | .udp id => (s.socks.sock (id - 1)).arrived
  | .tcp id => s.arrived (id - 1)

/-- The answer to the request respects ownership: bytes go to the owner of the port they
came in on, and a domain that did not make the socket is refused. -/
structure Respects (s : Service) (domain : Nat) (now : UInt64) (r : Request) : Prop where
  handed : ∀ h, r.names = some h → (s.serve domain now r).bytes ≠ [] →
    s.portOwner (s.arrivedOn h) = domain
  refused : ∀ h, r.names = some h → s.InUse h → ¬ s.CreatedBy domain h →
    s.serve domain now r = { next := s }

/-- What a domain may be asked to name. -/
def MayName (domain : Nat) : Handle → Prop
  | .udp id => (s.socks.sock (id - 1)).used = true → (s.socks.sock (id - 1)).creator = domain
  | .tcp id => domain = 0 → ¬ (s.stack.conn (id - 1)).Pending

/-- The inputs under which ownership is kept. -/
def Careful : Input → Prop
  | .request domain _ r => (∀ h, r.names = some h → s.MayName domain h) ∧ r.dport ≠ some 0
  | .datagram _ dport _ => dport ≠ 0
  | .netBind _ _ _ | .segment _ _ _ _ | .tick _ _ => True

/-- The states that careful inputs lead to. -/
inductive CarefulRun (nics : Nat) : Service → Prop
  | init : CarefulRun nics (Service.init nics)
  | step {s : Service} (run : CarefulRun nics s) (input : Input) (careful : s.Careful input) :
      CarefulRun nics (s.step input)

end Service

/-! ## The kernel's table -/

variable {port : UInt16} {id i domain : Nat} {c : TcpConn} {seg : TcpSeg}

theorem owner_bind {bindings : List Kernel.Binding} {d : Nat} (caps : List Kernel.CapRow) (domain : Nat)
    (other : UInt16) (owned : Kernel.Net.owner bindings port = d) (real : d ≠ U64_MAX) :
    Kernel.Net.owner (Kernel.Net.bind caps bindings domain other).2 port = d := by
  rcases Kernel.Net.bind_spec caps bindings domain other with same | ⟨added, -, -⟩
  · rw [same]
    exact owned
  · rw [added]
    unfold Kernel.Net.owner at owned ⊢
    rw [List.find?_append]
    cases found : bindings.find? fun b => b.port = port with
    | none =>
      rw [found] at owned
      exact absurd owned.symm real
    | some b =>
      rw [found] at owned
      exact owned

/-! ## UDP sockets -/

/-- A socket that belongs to its creator: so does its port, and so does the port that
its bytes came in on. -/
structure Sock.Held (owner : UInt16 → Nat) (s : Sock) : Prop where
  real : s.creator ≠ U64_MAX
  bound : s.port = 0 ∨ owner s.port = s.creator
  data : s.data ≠ [] → owner s.arrived = s.creator

theorem Sock.Held.imp {owner owner' : UInt16 → Nat} {s : Sock} (held : s.Held owner)
    (keeps : ∀ port, owner port = s.creator → owner' port = s.creator) : s.Held owner' where
  real := held.real
  bound := held.bound.imp id (keeps s.port)
  data := fun some_ => keeps s.arrived (held.data some_)

/-- Every socket in use belongs to its creator. -/
def SockTable.Held (owner : UInt16 → Nat) (socks : SockTable) : Prop :=
  ∀ i, (socks.sock i).used = true → (socks.sock i).Held owner

namespace SockTable

variable {owner : UInt16 → Nat} {socks : SockTable} {i : Nat}

theorem sock_set (socks : SockTable) (i j : Nat) (s : Sock) :
    sock (socks.set j s) i = socks.sock i ∨ sock (socks.set j s) i = s := by
  unfold sock
  rw [List.getElem?_set]
  split
  · split
    · exact .inr rfl
    next outside =>
      left
      rw [List.getElem?_eq_none (by omega)]
  · exact .inl rfl

theorem sock_of_findIdx {p : Sock → Bool} (found : socks.findIdx? p = some i) :
    p (socks.sock i) = true := by
  obtain ⟨inside, holds, -⟩ := List.findIdx?_eq_some_iff_getElem.mp found
  rw [sock, List.getElem?_eq_getElem inside, Option.getD_some]
  exact holds

theorem Held.set (held : socks.Held owner) (j : Nat) {s : Sock}
    (new : s.used = true → s.Held owner) : SockTable.Held owner (socks.set j s) := by
  intro i used
  rcases sock_set socks i j s with same | same <;> rw [same] at used ⊢
  · exact held i used
  · exact new used

end SockTable

theorem sockSlot_spec {socks : SockTable} (found : sockSlot socks id = some i) :
    id = i + 1 ∧ (socks.sock i).used = true := by
  unfold sockSlot at found
  split at found
  · cases found
  next valid =>
    split at found
    next used =>
      cases found
      exact ⟨by omega, used⟩
    · cases found

namespace SockTable.Held

variable {owner : UInt16 → Nat} {socks : SockTable}

section

variable (held : socks.Held owner)
include held

theorem sockAlloc (nic : Nat) (real : domain ≠ U64_MAX) :
    SockTable.Held owner (sockAlloc socks nic domain).socks := by
  unfold Net.sockAlloc
  split
  · exact held
  · exact held.set _ fun _ => ⟨real, .inl rfl, absurd rfl⟩

/-- The requester made the socket and owns the port. -/
theorem sockBind (port : UInt16)
    (mine : (socks.sock (id - 1)).used = true → (socks.sock (id - 1)).creator = domain) :
    SockTable.Held owner (sockBind socks id port domain (owner port)).socks := by
  unfold Net.sockBind
  split
  · exact held
  next allowed =>
    split
    · exact held
    next i found =>
      obtain ⟨rfl, used⟩ := sockSlot_spec found
      split
      · refine held.set _ fun _ => ⟨(held i used).real, .inr ?_, (held i used).data⟩
        exact (not_not.mp allowed).trans (mine used).symm
      · exact held

/-- Bytes for a port other than 0 reach sockets whose creator owns the port. -/
theorem deliver (nic : Nat) {dport : UInt16} (payload : List UInt8)
    (proper : dport ≠ 0) : SockTable.Held owner (deliver socks nic dport payload).2 := by
  unfold Net.deliver
  split
  · exact held
  next i found =>
    have chosen := SockTable.sock_of_findIdx found
    simp only [Bool.and_eq_true, beq_iff_eq] at chosen
    obtain ⟨⟨⟨used, -⟩, here⟩, -⟩ := chosen
    have owns : owner dport = (socks.sock i).creator := by
      rcases (held i used).bound with unbound | owns
      · exact absurd (here.symm.trans unbound) proper
      · rw [← here]
        exact owns
    exact held.set _ fun _ => ⟨(held i used).real, (held i used).bound, fun _ => owns⟩

theorem sendIpv4 (card : Card) (s : Sock) (dst : UInt32) {dport : UInt16}
    (payload : List UInt8) (proper : dport ≠ 0) :
    SockTable.Held owner (sendIpv4 socks card s dst dport payload).socks := by
  unfold Net.sendIpv4
  split
  · exact held.deliver _ _ proper
  · split <;> exact held

theorem sockSendto (nics : Nat) (card : Card) (id : Nat) (mapped : Bool)
    (addr : UInt32) (payload : List UInt8) (proper : port ≠ 0) :
    SockTable.Held owner (sockSendto nics socks card id mapped addr port payload).socks := by
  unfold Net.sockSendto
  split
  · exact held
  split
  · exact held
  split
  · exact held
  · exact held.sendIpv4 _ _ _ _ proper

theorem sockSendto6 (nics : Nat) (card : Card) (id : Nat) (mapped : Bool)
    (dst6 : BitVec 128) (payload : List UInt8) (proper : port ≠ 0) :
    SockTable.Held owner (sockSendto6 nics socks card id mapped dst6 port payload).socks := by
  unfold Net.sockSendto6
  split
  · exact held
  split
  · exact held
  dsimp only
  split
  · exact held
  split
  · exact held.sendIpv4 _ _ _ _ proper
  split
  · exact held.deliver _ _ proper
  · split <;> exact held

theorem sockRecvfrom (id : Nat) (mapped : Bool) :
    SockTable.Held owner (sockRecvfrom socks id mapped).socks := by
  unfold Net.sockRecvfrom
  split
  · exact held
  split
  · exact held
  next i found =>
    dsimp only
    split
    · obtain ⟨-, used⟩ := sockSlot_spec found
      exact held.set _ fun _ => ⟨(held i used).real, (held i used).bound, absurd rfl⟩
    · exact held

theorem sockClose (id : Nat) : SockTable.Held owner (sockClose socks id).socks := by
  unfold Net.sockClose
  split
  · exact held
  · exact held.set _ fun used => absurd used Bool.false_ne_true

end

end SockTable.Held

/-! ## Connections -/

theorem finWait_rx (c : TcpConn) (seg : TcpSeg) : (finWait c seg).2.rx = c.rx := by
  unfold finWait
  split <;> rfl

/-- Only a segment whose payload is taken changes the receive buffer. -/
theorem tcpHandle_rx (now : UInt64) (left : Service.takesPayload c seg = false) :
    (tcpHandle c seg now).2.rx = c.rx := by
  have unread {c' : TcpConn} (active : c.state = .synRcvd ∨ c.state = .established)
      (alive : seg.has TCP_RST = false) (next : c'.rcvNxt = c.rcvNxt) :
      takePayload c' seg = (false, c') := by
    refine if_neg fun ⟨some_, here⟩ => ?_
    rw [next] at here
    rcases active with state | state <;>
      simp [Service.takesPayload, state, alive, here, some_] at left
  unfold tcpHandle
  split
  · unfold handleSynSent
    repeat' split
    all_goals rfl
  next state =>
    unfold handleSynRcvd
    split
    · rfl
    next alive =>
      dsimp only
      rw [unread (.inl state) (by simpa using alive) (by split <;> rfl)]
      split <;> rfl
  next state =>
    unfold handleEstablished
    split
    · rfl
    next alive =>
      rw [unread (.inr state) (by simpa using alive) rfl]
      dsimp only
      repeat' split
      all_goals rfl
  · unfold handleCloseWait
    split <;> rfl
  · rw [finWait_rx]
    split <;> rfl
  · exact finWait_rx c seg
  all_goals rfl

/-- A connection that belongs to its owner: so does its port, and so does the port that
its bytes came in on.  A pending connection belongs to nobody yet, and its bytes came in
on its port. -/
structure TcpConn.Held (owner : UInt16 → Nat) (arrived : UInt16) (c : TcpConn) : Prop where
  real : c.owner ≠ U64_MAX
  nobody : c.Pending → c.owner = 0
  listener : c.role = .listener → owner c.localPort = c.owner
  bound : ¬ c.Pending → (c.localPort = 0 ∧ c.state = .closed) ∨ owner c.localPort = c.owner
  data : c.rx ≠ [] → if c.Pending then arrived = c.localPort else owner arrived = c.owner

namespace TcpConn.Held

variable {owner : UInt16 → Nat} {arrived : UInt16} {c c' : TcpConn}

theorem pending_same (same : c.Same c') : c'.Pending ↔ c.Pending := by
  rw [Pending, Pending, same.role, same.accepted]

section

variable (held : c.Held owner arrived)
include held

/-- A change that leaves the identity alone. -/
theorem change {arrived' : UInt16} (same : c.Same c')
    (bound : ¬ c.Pending → (c.localPort = 0 ∧ c'.state = .closed) ∨ owner c.localPort = c.owner)
    (data : c'.rx ≠ [] → if c.Pending then arrived' = c.localPort else owner arrived' = c.owner) :
    c'.Held owner arrived' where
  real := same.owner ▸ held.real
  nobody := fun pending => same.owner.trans (held.nobody ((pending_same same).mp pending))
  listener := fun role => by
    rw [same.localPort, same.owner]
    exact held.listener (same.role.symm.trans role)
  bound := fun settled => by
    rw [same.localPort, same.owner]
    exact bound ((pending_same same).not.mp settled)
  data := fun some_ => by
    rw [same.localPort, same.owner, if_congr (pending_same same) rfl rfl]
    exact data some_

/-- A change that takes no closed connection up and keeps the bytes or drops them. -/
theorem keep (same : c.Same c') (state : c.state = .closed → c.localPort = 0 → c'.state = .closed)
    (rx : c'.rx = c.rx ∨ c'.rx = []) : c'.Held owner arrived := by
  refine held.change same (fun settled => ?_) fun some_ => held.data ?_
  · exact (held.bound settled).imp_left fun unbound => ⟨unbound.1, state unbound.2 unbound.1⟩
  · rwa [← rx.resolve_right some_]

/-- The connection with bytes that came in on its own port. -/
theorem fill (same : c.Same c') (active : c.state ≠ .closed) : c'.Held owner c.localPort := by
  have bound (settled : ¬ c.Pending) : owner c.localPort = c.owner :=
    (held.bound settled).resolve_left fun unbound => active unbound.2
  refine held.change same (fun settled => .inr (bound settled)) fun _ => ?_
  split
  · rfl
  next settled => exact bound settled

theorem imp {owner' : UInt16 → Nat}
    (keeps : ∀ port, owner port = c.owner → owner' port = c.owner) : c.Held owner' arrived :=
  { held with
    listener := fun role => keeps c.localPort (held.listener role)
    bound := fun settled => (held.bound settled).imp id (keeps c.localPort)
    data := fun some_ => by
      have before := held.data some_
      split
      next pending => rwa [if_pos pending] at before
      next settled =>
        rw [if_neg settled] at before
        exact keeps arrived before }

end

end TcpConn.Held

theorem target_port {st : Stack} {nic : Nat} {src : SrcId} (found : st.target nic src seg = some i) :
    (st.conn i).localPort = seg.dport := by
  have matched := target_match found
  simp only [tcpMatch, Bool.and_eq_true, beq_iff_eq] at matched
  exact matched.1.1.2

theorem takesPayload_active (takes : Service.takesPayload c seg = true) : c.state ≠ .closed := by
  intro closed
  simp [Service.takesPayload, closed] at takes

/-! ## The service -/

namespace Service

variable {s : Service}

/-- Every socket and every connection in use belongs to its owner. -/
structure Held (s : Service) : Prop where
  socks : s.socks.Held s.portOwner
  conns : ∀ i, (s.stack.conn i).used = true → (s.stack.conn i).Held s.portOwner (s.arrived i)

/-- The ports of the buffered bytes after an event of the stack. -/
def noted (s : Service) : Event → Nat → UInt16
  | .segment nic src seg _ => (s.noteSegment nic src seg).arrived
  | _ => s.arrived

/-- What the service makes sure of before it passes a request to the stack, and what a
careful requester adds: no binding of a pending connection. -/
def Fair (s : Service) : Event → Prop
  | .tsocket _ domain => domain ≠ U64_MAX
  | .tlisten _ port domain portOwner => domain ≠ U64_MAX ∧ portOwner = s.portOwner port
  | .tbind id port domain portOwner =>
    portOwner = s.portOwner port ∧ (domain = 0 → ¬ (s.stack.conn (id - 1)).Pending)
  | _ => True

/-- Remembering the port of a payload that is taken. -/
theorem Held.noted (held : s.Held) (ev : Event) (i : Nat) (used : (s.stack.conn i).used = true) :
    (s.stack.conn i).Held s.portOwner (s.noted ev i) := by
  have before := held.conns i used
  cases ev with
  | segment nic src seg now =>
    simp only [Service.noted, noteSegment]
    split
    · exact before
    next j found =>
      split
      next takes =>
        dsimp only
        by_cases same : i = j
        · subst same
          rw [Function.update_self, ← target_port found]
          exact before.fill (.refl _) (takesPayload_active takes)
        · rw [Function.update_of_ne same]
          exact before
      · exact before
  | _ => exact before

theorem noted_taken {nic : Nat} {src : SrcId} (now : UInt64)
    (found : s.stack.target nic src seg = some i) (takes : takesPayload (s.stack.conn i) seg = true) :
    s.noted (.segment nic src seg now) i = (s.stack.conn i).localPort := by
  simp only [Service.noted, noteSegment, found, if_pos takes]
  rw [Function.update_self, target_port found]

theorem Held.conn_step (held : s.Held) (ev : Event) (fair : s.Fair ev) (i : Nat)
    (used : ((s.stack.step ev).st.conn i).used = true) :
    ((s.stack.step ev).st.conn i).Held s.portOwner (s.noted ev i) := by
  have move := s.stack.step_moves ev i
  generalize (s.stack.step ev).st.conn i = c at move used ⊢
  have before := held.noted ev i
  cases move with
  | stay => exact before used
  | opens =>
    exact
      { real := fair
        nobody := fun pending => nomatch pending.1
        listener := nofun
        bound := fun _ => .inl ⟨rfl, rfl⟩
        data := absurd rfl }
  | listen =>
    obtain ⟨real, owns⟩ := fair
    exact
      { real
        nobody := fun pending => nomatch pending.1
        listener := fun _ => owns.symm
        bound := fun _ => .inr owns.symm
        data := absurd rfl }
  | binds owned unbound =>
    obtain ⟨owns, careful⟩ := fair
    obtain ⟨-, inUse, rfl⟩ := owned_spec owned
    have before := before inUse
    have settled : ¬ (s.stack.conn i).Pending := fun pending =>
      careful (before.nobody pending) pending
    exact
      { real := before.real
        nobody := before.nobody
        listener := fun _ => owns.symm
        bound := fun _ => .inr owns.symm
        data := fun some_ => by
          have before := before.data some_
          rw [if_neg settled] at before
          exact (if_neg settled).mpr before }
  | accepts owned listener waiting =>
    obtain ⟨-, inUse, rfl⟩ := owned_spec owned
    simp only [waits, Bool.and_eq_true, decide_eq_true_eq, beq_iff_eq,
      Bool.not_eq_true'] at waiting
    obtain ⟨⟨⟨⟨⟨waits, server⟩, established⟩, open_⟩, port⟩, -⟩ := waiting
    have before := before waits
    have owns := (held.conns _ inUse).listener listener
    rw [← port] at owns
    exact
      { real := (held.conns _ inUse).real
        nobody := fun pending => nomatch pending.2
        listener := fun _ => owns
        bound := fun _ => .inr owns
        data := fun some_ => by
          have here := before.data some_
          rw [if_pos ⟨server, open_⟩] at here
          refine (if_neg fun pending => Bool.noConfusion pending.2).mpr ?_
          rw [here]
          exact owns }
  | connects owned bound closed =>
    obtain ⟨-, inUse, -⟩ := owned_spec owned
    exact (before inUse).keep ⟨rfl, rfl, rfl, rfl, rfl⟩ (fun _ unbound => absurd unbound bound) (.inl rfl)
  | sends owned some_ =>
    obtain ⟨-, inUse, -⟩ := owned_spec owned
    refine (before inUse).keep (tcpSend_same _ _ _) (fun closed _ => ?_) (.inl ?_)
    · rw [tcpSend, if_pos (.inl (by rw [closed]; decide))]
      exact closed
    · unfold tcpSend
      split <;> rfl
  | receives owned =>
    obtain ⟨-, inUse, -⟩ := owned_spec owned
    exact (before inUse).keep ⟨rfl, rfl, rfl, rfl, rfl⟩ (fun closed _ => closed) (.inr rfl)
  | closes owned closing =>
    obtain ⟨-, inUse, -⟩ := owned_spec owned
    refine (before inUse).keep (tcpClose_same _ _) (fun closed _ => ?_) (.inl ?_)
    · rw [tcpClose, if_neg (by rw [closed]; decide)]
      exact closed
    · unfold tcpClose
      split <;> rfl
  | releases => cases used
  | handles found =>
    have before := before (target_used found)
    cases takes : takesPayload (s.stack.conn i) _ with
    | true =>
      rw [noted_taken _ found takes]
      exact before.fill (tcpHandle_same _ _ _) (takesPayload_active takes)
    | false =>
      refine before.keep (tcpHandle_same _ _ _) (fun closed _ => ?_) (.inl (tcpHandle_rx _ takes))
      rw [tcpHandle, closed]
      exact closed
  | passive =>
    exact
      { real := (by decide : (0 : Nat) ≠ U64_MAX)
        nobody := fun _ => rfl
        listener := nofun
        bound := absurd ⟨rfl, rfl⟩
        data := absurd rfl }
  | ticks inUse busy =>
    refine (before inUse).keep (tcpTick_same _ _) (fun closed _ => absurd closed busy) (.inl ?_)
    unfold tcpTick
    dsimp only
    repeat' split
    all_goals rfl

theorem Held.netBind (held : s.Held) (caps : List Kernel.CapRow) (domain : Nat) (port : UInt16) :
    Held { s with bindings := (Kernel.Net.bind caps s.bindings domain port).2 } where
  socks := fun i used => (held.socks i used).imp fun _ owns =>
    owner_bind caps domain port owns (held.socks i used).real
  conns := fun i used => (held.conns i used).imp fun _ owns =>
    owner_bind caps domain port owns (held.conns i used).real

theorem Held.tcp (held : s.Held) (ev : Event) (fair : s.Fair ev) (same : s.noted ev = s.arrived) :
    (s.tcp (s.stack.step ev)).next.Held where
  socks := held.socks
  conns := fun i used => by
    have after := held.conn_step ev fair i used
    rw [same] at after
    exact after

theorem Held.udp (held : s.Held) {o : SockOutcome} (socks : o.socks.Held s.portOwner) :
    (s.udp o).next.Held := ⟨socks, held.conns⟩

variable {r : Request}

theorem Held.serve (held : s.Held) (domain : Domain) (now : UInt64)
    (names : ∀ h, r.names = some h → s.MayName domain h) (proper : r.dport ≠ some 0) :
    (s.serve domain now r).next.Held := by
  cases r with
  | socket nic =>
    rw [Service.serve]
    split
    · exact held.udp (held.socks.sockAlloc nic domain.2)
    · exact held
  | bind id port => exact held.udp (held.socks.sockBind port (names _ rfl))
  | sendto id mapped addr port payload card =>
    exact held.udp (held.socks.sockSendto _ card id mapped addr payload
      fun zero => proper (congrArg some zero))
  | sendto6 id mapped addr port payload card =>
    exact held.udp (held.socks.sockSendto6 _ card id mapped addr payload
      fun zero => proper (congrArg some zero))
  | recvfrom id mapped => exact held.udp (held.socks.sockRecvfrom id mapped)
  | close id => exact held.udp (held.socks.sockClose id)
  | tsocket nic => exact held.tcp (.tsocket nic domain) domain.2 rfl
  | tbind id port =>
    exact held.tcp (.tbind id port domain (s.portOwner port)) ⟨rfl, names _ rfl⟩ rfl
  | tconnect id addr port gateway =>
    exact held.tcp (.tconnect id addr port now domain gateway) trivial rfl
  | tsend id mapped payload => exact held.tcp (.tsend id mapped payload now domain) trivial rfl
  | trecv id mapped => exact held.tcp (.trecv id mapped domain) trivial rfl
  | tclose id => exact held.tcp (.tclose id now domain) trivial rfl
  | tlisten nic port =>
    exact held.tcp (.tlisten nic port domain (s.portOwner port)) ⟨domain.2, rfl⟩ rfl
  | taccept id => exact held.tcp (.taccept id domain) trivial rfl

/-- **A careful input keeps ownership.** -/
theorem Held.step (held : s.Held) {input : Input} (careful : s.Careful input) :
    (s.step input).Held := by
  cases input with
  | netBind caps domain port => exact held.netBind caps domain port
  | request domain now r => exact held.serve domain now careful.1 careful.2
  | datagram nic dport payload => exact ⟨held.socks.deliver nic payload careful, held.conns⟩
  | segment nic src seg now =>
    have bindings : (s.noteSegment nic src seg).portOwner = s.portOwner ∧
        (s.noteSegment nic src seg).socks = s.socks := by
      unfold noteSegment
      split
      · exact ⟨rfl, rfl⟩
      · split <;> exact ⟨rfl, rfl⟩
    constructor
    · show (s.noteSegment nic src seg).socks.Held (s.noteSegment nic src seg).portOwner
      rw [bindings.1, bindings.2]
      exact held.socks
    · show ∀ i, _ → TcpConn.Held (s.noteSegment nic src seg).portOwner _ _
      rw [bindings.1]
      exact held.conn_step (.segment nic src seg now) trivial
  | tick i now => exact ⟨held.socks, held.conn_step (.tick i now) trivial⟩

/-- In every state that careful inputs lead to, sockets belong to their owners. -/
theorem CarefulRun.held {nics : Nat} (run : CarefulRun nics s) : s.Held := by
  induction run with
  | init =>
    constructor
    · intro i used
      simp only [Service.init, SockTable.sock, List.getElem?_replicate] at used
      split at used <;> cases used
    · intro i used
      rw [Service.init, conn_init] at used
      cases used
  | step _ input careful held => exact held.step careful

/-! ## The answers -/

/-- A domain that did not make the connection does not pass `tcp_slot_owned`. -/
theorem Held.not_owned (held : s.Held) (may : s.MayName domain (.tcp id))
    (foreign : ¬ s.CreatedBy domain (.tcp id)) : s.stack.owned id domain = none := by
  refine Option.eq_none_iff_forall_ne_some.mpr fun i found => foreign ?_
  obtain ⟨rfl, used, owner⟩ := owned_spec found
  refine ⟨owner, fun pending => may ?_ pending⟩
  exact owner.symm.trans ((held.conns i used).nobody pending)

theorem Held.handed (held : s.Held) (now : UInt64) {h : Handle} (named : r.names = some h)
    (may : s.MayName domain h) (some_ : (s.serve domain now r).bytes ≠ []) :
    s.portOwner (s.arrivedOn h) = domain := by
  cases r with
  | recvfrom id mapped =>
    cases named
    simp only [Service.serve, Service.udp, sockRecvfrom] at some_
    split at some_
    · exact absurd rfl some_
    split at some_
    · exact absurd rfl some_
    next i found =>
      obtain ⟨rfl, used⟩ := sockSlot_spec found
      split at some_
      · exact ((held.socks i used).data some_).trans (may used)
      · exact absurd rfl some_
  | trecv id mapped =>
    cases named
    simp only [Service.serve, Service.tcp, tcpRecvOp] at some_
    split at some_
    · exact absurd rfl some_
    split at some_
    · exact absurd rfl some_
    next i found =>
      obtain ⟨rfl, used, rfl⟩ := owned_spec found
      split at some_
      · have data := (held.conns i used).data some_
        rw [if_neg fun pending => may ((held.conns i used).nobody pending) pending] at data
        exact data
      · exact absurd rfl some_
  | socket | tsocket | tlisten => cases named
  | _ =>
    -- the other requests copy nothing to the caller
    refine absurd ?_ some_
    simp only [Service.serve, Service.udp, Service.tcp, sockBind, sockSendto, sockSendto6, sendIpv4,
      sockClose, tcpBind, tcpConnectOp, tcpSendOp, tcpCloseOp, tcpAcceptInternal]
    repeat' split
    all_goals rfl

theorem Held.refused (held : s.Held) (now : UInt64) {h : Handle} (named : r.names = some h)
    (may : s.MayName domain h) (inUse : s.InUse h) (foreign : ¬ s.CreatedBy domain h) :
    s.serve domain now r = { next := s } := by
  cases h with
  | udp id => exact absurd (may inUse) foreign
  | tcp id =>
    have refused := held.not_owned may foreign
    cases r <;> cases named
    case tbind.refl =>
      simp only [Service.serve, tcpBind, refused]
      split <;> rfl
    case tsend.refl =>
      simp only [Service.serve, tcpSendOp, refused]
      split <;> rfl
    case trecv.refl =>
      simp only [Service.serve, tcpRecvOp, refused]
      split <;> rfl
    all_goals
      simp only [Service.serve, tcpConnectOp, tcpCloseOp, tcpAcceptInternal, refused]
      rfl

end Service

/-- **Sockets belong to the domains that made them**: in every state that careful inputs
lead to, the answer to a careful request hands bytes only to the owner of the port they
came in on, and does nothing for a domain that did not make the socket. -/
theorem sockets_respect_ownership {nics : Nat} {s : Service} (run : Service.CarefulRun nics s)
    (domain : Domain) (now : UInt64) (r : Request)
    (careful : s.Careful (.request domain now r)) : s.Respects domain now r where
  handed := fun h named some_ => run.held.handed now named (careful.1 h named) some_
  refused := fun h named inUse foreign =>
    run.held.refused now named (careful.1 h named) inUse foreign

/-! ## Two domains -/

def demoOwner : Domain := ⟨5, by decide⟩
def demoOther : Domain := ⟨6, by decide⟩

/-- The owner of port 7 makes a socket for it, and a datagram comes in. -/
def demoInputs : List Input :=
  [ .netBind (List.replicate 8 [some (.net 0 100)]) demoOwner 7
  , .request demoOwner 0 (.socket 0)
  , .request demoOwner 0 (.bind 1 7)
  , .datagram 0 7 [1, 2, 3] ]

def demoService : Service := demoInputs.foldl Service.step (Service.init 1)

theorem demoService_careful : Service.CarefulRun 1 demoService := by
  have made := (@Service.CarefulRun.init 1).step
    (.netBind (List.replicate 8 [some (.net 0 100)]) demoOwner 7) trivial
  have opened := made.step (.request demoOwner 0 (.socket 0))
    ⟨fun _ named => (nomatch named), nofun⟩
  have bound := opened.step (.request demoOwner 0 (.bind 1 7))
    ⟨fun _ named => by cases named; exact fun _ => rfl, nofun⟩
  exact bound.step (.datagram 0 7 [1, 2, 3]) (by decide : (7 : UInt16) ≠ 0)

theorem demoService_hands_to_owner :
    (demoService.serve demoOwner 0 (.recvfrom 1 true)).bytes = [1, 2, 3] ∧
      demoService.Respects demoOwner 0 (.recvfrom 1 true) := by
  refine ⟨by decide, sockets_respect_ownership demoService_careful demoOwner 0 _ ⟨?_, ?_⟩⟩
  · intro h named
    cases named
    exact fun _ => by decide
  · exact nofun

/-- Another domain reads the datagram: nothing in `sock_recvfrom` asks who sends the
request. -/
theorem foreign_recvfrom_is_served :
    demoService.InUse (.udp 1) ∧ demoService.CreatedBy demoOwner (.udp 1) ∧
      demoService.portOwner 7 = demoOwner ∧ demoService.arrivedOn (.udp 1) = 7 ∧
      (demoService.serve demoOther 0 (.recvfrom 1 true)).bytes = [1, 2, 3] ∧
      ¬ demoService.Respects demoOther 0 (.recvfrom 1 true) := by
  refine ⟨rfl, rfl, by decide, rfl, by decide, fun respects => ?_⟩
  exact absurd (respects.handed (.udp 1) rfl (by decide)) (by decide)

end MorionOS.Net
