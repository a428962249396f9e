import MorionOS.Net.Ownership

/-!
# What a remote peer can do

A segment is acceptable when it begins at `rcv_nxt`.  `tcp_handle` compares the two numbers
before it takes the payload and nowhere else: `RST`, `FIN` and the flags of the handshake
count whatever the sequence number is.  And a connection of a passive open belongs to nobody
until it is accepted: when the peer resets it before, no request gives its slot back.
`unacceptable_segment_ignored_iff` says which segments count, and `slot_kept_iff` which slots
are lost.
-/

namespace MorionOS.Net

/-- The state, the data for the owner and the end of what was received are the same, and `RST` and `FIN`
have no effect at all. -/
def TcpConn.Unmoved (c : TcpConn) (seg : TcpSeg) (c' : TcpConn) : Prop :=
  c'.state = c.state ∧ c'.rx = c.rx ∧ c'.rcvNxt = c.rcvNxt ∧
    ((seg.has TCP_RST || seg.has TCP_FIN) = true → c' = c)

/-- The segments that do not count out of order. -/
def TcpConn.Ignored (c : TcpConn) (seg : TcpSeg) : Prop :=
  match c.state with
  | .synSent => seg.has TCP_RST = false ∧
      ¬ (seg.flags &&& (TCP_SYN ||| TCP_ACK) = (TCP_SYN ||| TCP_ACK) ∧ seg.ack = c.sndNxt)
  | .synRcvd => seg.has TCP_RST = false ∧ acksNew c seg = false
  | .established => seg.has TCP_RST = false ∧ seg.has TCP_FIN = false
  | .finWait1 => seg.has TCP_FIN = false ∧ (seg.has TCP_ACK && seg.ack == c.sndNxt) = false
  | .finWait2 => seg.has TCP_FIN = false
  | .closeWait => (seg.has TCP_RST || seg.has TCP_FIN) = true → acksNew c seg = false
  | .closed | .listen | .timeWait => True

theorem handleCloseWait_eq_iff {c : TcpConn} {seg : TcpSeg} :
    (handleCloseWait c seg).2 = c ↔ acksNew c seg = false := by
  unfold handleCloseWait acksNew
  by_cases acked : (seg.has TCP_ACK && seg.ack == c.sndNxt) = true
  · rw [if_pos acked, acked, Bool.true_and, bne_eq_false_iff_eq]
    refine ⟨fun same => (congrArg TcpConn.sndUna same).symm, fun done => ?_⟩
    cases c
    simp_all
  · simp [acked]

theorem tcpHandle_unmoved_iff {c : TcpConn} {seg : TcpSeg} (wrong : seg.seq ≠ c.rcvNxt) (now : UInt64) :
    c.Unmoved seg (tcpHandle c seg now).2 ↔ c.Ignored seg := by
  have left : ∀ {c' : TcpConn}, c'.rcvNxt = c.rcvNxt → takePayload c' seg = (false, c') :=
    fun next => if_neg fun taken => wrong (taken.2.trans next)
  unfold tcpHandle TcpConn.Ignored TcpConn.Unmoved
  cases state : c.state <;> dsimp only
  case synSent =>
    unfold handleSynSent
    split_ifs <;> simp_all
  case synRcvd =>
    unfold handleSynRcvd
    by_cases acks : acksNew c seg <;> simp only [acks, if_true, left] <;> split_ifs <;> simp_all
  case established =>
    unfold handleEstablished
    by_cases acks : acksNew c seg <;> simp only [acks, if_true, left] <;> split_ifs <;>
      simp_all [takeFin]
  case closeWait =>
    rw [handleCloseWait_eq_iff]
    unfold handleCloseWait
    split_ifs <;> simp_all
  case finWait1 =>
    unfold finWait
    split_ifs <;> simp_all [takeFin]
  case finWait2 =>
    unfold finWait
    split_ifs <;> simp_all [takeFin]
  all_goals simp [state]

/-- **Which segments out of order are ignored.**  A segment with another sequence number than the
one that a connection expects leaves the state, the data and the end of the stream of this
connection alone, and with `RST` or `FIN` all of it, if and only if it is for another one or among those
that do not count. -/
theorem unacceptable_segment_ignored_iff (st : Stack) (nic : Nat) (src : SrcId) (seg : TcpSeg) (now : UInt64)
    {i : Nat} (used : (st.conn i).used = true) (wrong : seg.seq ≠ (st.conn i).rcvNxt) :
    (st.conn i).Unmoved seg ((tcpInput st nic src seg now).st.conn i) ↔
      (st.target nic src seg = some i → (st.conn i).Ignored seg) := by
  by_cases found : st.target nic src seg = some i
  · have handled : (tcpInput st nic src seg now).st.conn i = (tcpHandle (st.conn i) seg now).2 := by
      rw [tcpInput, found]
      exact Stack.conn_put_self (Stack.lt_of_used used) _
    rw [handled, tcpHandle_unmoved_iff wrong]
    exact ⟨fun ignored _ => ignored, fun ignored => ignored found⟩
  · refine iff_of_true ?_ fun here => absurd here found
    have move := st.step_moves (.segment nic src seg now) i
    rw [Stack.step] at move
    generalize (tcpInput st nic src seg now).st.conn i = c at move
    cases move with
    | stay => exact ⟨rfl, rfl, rfl, fun _ => rfl⟩
    | handles here => exact absurd here found
    | passive _ _ _ free =>
      obtain ⟨inside, unused, -⟩ := List.findIdx?_eq_some_iff_getElem.mp free
      rw [Stack.conn_eq inside] at used
      simp [used] at unused

/-- The small stack has a connection that expects sequence number 100. -/
def demoExpecting : Stack :=
  ⟨1, [{ TcpConn.new with used := true, state := .established, localPort := 7, remotePort := 9, rcvNxt := 100 }]⟩

theorem old_data_is_ignored : (demoExpecting.conn 0).Unmoved ⟨9, 7, 50, 0, TCP_ACK, [1]⟩
    ((tcpInput demoExpecting 0 (.v4 0) ⟨9, 7, 50, 0, TCP_ACK, [1]⟩ 0).st.conn 0) :=
  (unacceptable_segment_ignored_iff demoExpecting 0 (.v4 0) ⟨9, 7, 50, 0, TCP_ACK, [1]⟩ 0 (by decide) (by decide)).mpr
    fun _ => ⟨by decide, by decide⟩

/-- A reset counts whatever its sequence number is. -/
theorem reset_out_of_order_closes :
    (demoExpecting.conn 0).state = .established ∧ (demoExpecting.conn 0).rcvNxt = 100 ∧
      ((tcpInput demoExpecting 0 (.v4 0) ⟨9, 7, 50, 0, TCP_RST, []⟩ 0).st.conn 0).state = .closed := by
  decide

/-! ## Slots that nobody gives back -/

/-- The domain that a request comes from. -/
def Event.client : Event → Option Nat
  | .tsocket _ domain | .tbind _ _ domain _ | .tconnect _ _ _ _ domain _ | .tsend _ _ _ _ domain
  | .trecv _ _ domain | .tclose _ _ domain | .tlisten _ _ domain _ | .taccept _ domain => some domain
  | .segment _ _ _ _ | .tick _ _ => none

/-- The stacks that events lead to; no request comes from domain 0. -/
inductive Serving (nics : Nat) : Stack → Prop
  | init : Serving nics (Stack.init nics)
  | step {st : Stack} (served : Serving nics st) (ev : Event) (real : ev.client ≠ some 0) :
      Serving nics (st.step ev).st

/-- The table has its size, and the connections without an owner are those that wait to be accepted. -/
structure Stack.Attributed (st : Stack) : Prop where
  size : st.tcons.length = MAX_TCONS
  owner : ∀ i, (st.conn i).used = true → ((st.conn i).owner = 0 ↔ (st.conn i).Pending)

theorem step_length (st : Stack) (ev : Event) : (st.step ev).st.tcons.length = st.tcons.length := by
  cases ev <;>
    simp only [Stack.step, tcpOpen, tcpBind, tcpConnectOp, tcpSendOp, tcpRecvOp, tcpCloseOp, tcpListenInternal,
      tcpAcceptInternal, tcpInput, tcpTickSlot, Stack.put] <;>
    repeat' split
  all_goals simp

theorem TcpConn.Same.pending_iff {c c' : TcpConn} (same : c.Same c') (used : c'.used = true)
    (before : c.used = true → (c.owner = 0 ↔ c.Pending)) : c'.owner = 0 ↔ c'.Pending := by
  rw [same.owner, Held.pending_same same]
  exact before (same.used ▸ used)

theorem Serving.attributed {nics : Nat} {st : Stack} (served : Serving nics st) : st.Attributed := by
  induction served with
  | init =>
    refine ⟨List.length_replicate, fun i used => ?_⟩
    rw [Stack.conn_init] at used
    cases used
  | @step st _ ev real ih =>
    refine ⟨(step_length st ev).trans ih.size, fun i used => ?_⟩
    have before := ih.owner i
    have move := st.step_moves ev i
    generalize (st.step ev).st.conn i = c at move used ⊢
    have nobody : ∀ {domain : Nat}, ev.client = some domain → domain ≠ 0 := by
      rintro domain client rfl
      exact real client
    cases move with
    | stay => exact before used
    | opens | listen => exact iff_of_false (nobody rfl) fun pending => nomatch pending.1
    | accepts => exact iff_of_false (nobody rfl) fun pending => nomatch pending.2
    | binds | connects | receives => exact before used
    | sends => exact (tcpSend_same _ _ _).pending_iff used before
    | closes => exact (tcpClose_same _ _).pending_iff used before
    | releases => cases used
    | handles => exact (tcpHandle_same _ _ _).pending_iff used before
    | passive => exact iff_of_true rfl ⟨rfl, rfl⟩
    | ticks => exact (tcpTick_same _ _).pending_iff used before

namespace Stack

variable {st : Stack} {i : Nat}

/-- The slot after a `tclose` of its owner. -/
def closed (st : Stack) (i : Nat) (now : UInt64) : Stack := (tcpCloseOp st (i + 1) now (st.conn i).owner).st

/-- A domain owns the slot and gives it back by closing it, at the latest the second time. -/
def Closable (st : Stack) (i : Nat) : Prop := (st.conn i).owner ≠ 0 ∧ ∀ now now',
  ((st.closed i now).conn i).used = false ∨ (((st.closed i now).closed i now').conn i).used = false

/-- The connection waits to be accepted, and there is a listener for it. -/
def Acceptable (st : Stack) (i : Nat) : Prop :=
  ∃ l, (st.conn l).used = true ∧ (st.conn l).role = .listener ∧ waits (st.conn i) (st.conn l) = true

theorem Acceptable.established (acceptable : st.Acceptable i) : (st.conn i).state = .established := by
  obtain ⟨l, -, -, waiting⟩ := acceptable
  simp only [waits, Bool.and_eq_true, decide_eq_true_eq] at waiting
  exact waiting.1.1.1.2

/-- An accept of the owner of listener `l`. -/
def accepting (st : Stack) (l : Nat) : Outcome := st.step (.taccept (l + 1) (st.conn l).owner)

/-- The stack after some of these accepts. -/
def afterAccepts (st : Stack) (l : Nat) : Nat → Stack
  | 0 => st
  | n + 1 => ((st.accepting l).st).afterAccepts l n

/-- The accepts of the owner of listener `l` come to the connection. -/
def Returned (st : Stack) (l i : Nat) : Prop := ∃ n, ((st.afterAccepts l n).accepting l).reply = i + 1

/-- The stack after some ticks. -/
def ticked (st : Stack) (ticks : List (Nat × UInt64)) : Stack :=
  ticks.foldl (fun st t => (st.step (.tick t.1 t.2)).st) st

/-- The slot is not lost: it can be closed, accepted, or the timer frees it. -/
def Kept (st : Stack) (i : Nat) : Prop :=
  st.Closable i ∨ (∃ l, st.Returned l i) ∨ ∃ ticks, ((st.ticked ticks).conn i).used = false

/-- The timer frees no slot. -/
theorem ticked_used (ticks : List (Nat × UInt64)) : ((st.ticked ticks).conn i).used = (st.conn i).used := by
  induction ticks generalizing st with
  | nil => rfl
  | cons t ticks ih =>
    refine ih.trans ?_
    have move := st.step_moves (.tick t.1 t.2) i
    generalize (st.step (.tick t.1 t.2)).st.conn i = c at move ⊢
    cases move with
    | stay => rfl
    | ticks => exact (tcpTick_same _ _).used

theorem owned_self (size : st.tcons.length = MAX_TCONS) (used : (st.conn i).used = true) :
    st.owned (i + 1) (st.conn i).owner = some i := by
  have inside := lt_of_used used
  rw [owned, if_neg (by omega), if_pos ⟨used, rfl⟩]
  rfl

/-- The stack with the connection in slot `j` accepted by a domain. -/
def acceptedBy (st : Stack) (j domain : Nat) : Stack := st.put j { st.conn j with accepted := true, owner := domain }

/-- An accept answers nothing and changes nothing, as nothing waits, or it answers with the first connection
that waits. -/
theorem accepting_cases (size : st.tcons.length = MAX_TCONS) {l : Nat} (used : (st.conn l).used = true)
    (listener : (st.conn l).role = .listener) :
    ((st.accepting l).reply = 0 ∧ (st.accepting l).st = st ∧ ∀ k, waits (st.conn k) (st.conn l) = false) ∨
      ∃ j, (st.accepting l).reply = j + 1 ∧ waits (st.conn j) (st.conn l) = true ∧
        (∀ k < j, waits (st.conn k) (st.conn l) = false) ∧
        (st.accepting l).st = st.acceptedBy j (st.conn l).owner := by
  rw [accepting, step, tcpAcceptInternal, owned_self size used]
  dsimp only
  rw [if_neg (not_not.mpr listener)]
  split
  next nobody =>
    refine .inl ⟨rfl, rfl, fun k => ?_⟩
    by_contra waiting
    have inside : k < st.tcons.length := lt_of_used (by simp_all [waits])
    rw [conn_eq inside] at waiting
    exact waiting (List.findIdx?_eq_none_iff.mp nobody _ (List.getElem_mem inside))
  next j found =>
    obtain ⟨inside, here, first⟩ := List.findIdx?_eq_some_iff_getElem.mp found
    refine .inr ⟨j, rfl, (conn_eq inside).symm ▸ here, fun k below => ?_, rfl⟩
    rw [conn_eq (below.trans inside)]
    exact eq_false_of_ne_true (first k below)

/-- A connection that is accepted does not wait any more, and nothing else changes. -/
theorem conn_acceptedBy {j domain : Nat} {c : TcpConn} (waiting : waits (st.conn j) c = true) :
    (∀ l, (st.conn l).role = .listener ∨ ((st.acceptedBy j domain).conn l).role = .listener →
      (st.acceptedBy j domain).conn l = st.conn l) ∧
    ∀ k c', waits ((st.acceptedBy j domain).conn k) c' = (waits (st.conn k) c' && k != j) := by
  simp only [waits, Bool.and_eq_true, decide_eq_true_eq] at waiting
  have inside := lt_of_used waiting.1.1.1.1.1
  unfold acceptedBy
  refine ⟨fun l listener => conn_put_ne ?_ _, fun k c' => ?_⟩
  · rintro rfl
    rw [conn_put_self inside, or_self] at listener
    cases listener.symm.trans waiting.1.1.1.1.2
  · by_cases same : j = k
    · subst same
      rw [conn_put_self inside]
      simp [waits]
    · simp [conn_put_ne same, Ne.symm same]

/-- The accepts of an owner come to every connection that waits, in the order of the slots, and leave it and the
listener alone until then. -/
theorem returned_of_waits {l n d : Nat} (size : st.tcons.length = MAX_TCONS) (used : (st.conn l).used = true)
    (listener : (st.conn l).role = .listener) (waiting : waits (st.conn i) (st.conn l) = true)
    (before : ∀ k < d, waits (st.conn k) (st.conn l) = false) (near : i < d + n) :
    ∃ m, ((st.afterAccepts l m).accepting l).reply = i + 1 ∧ (st.afterAccepts l m).conn i = st.conn i ∧
      (st.afterAccepts l m).conn l = st.conn l ∧ (st.afterAccepts l m).tcons.length = MAX_TCONS := by
  -- each accept moves the first slot that waits, and `d` with it, towards `i`
  induction n generalizing st d with
  | zero => exact absurd waiting (by simp [before i near])
  | succ n ih =>
    rcases accepting_cases size used listener with ⟨-, -, none⟩ | ⟨j, answer, here, first, next⟩
    · exact absurd waiting (by simp [none i])
    · by_cases same : j = i
      · exact ⟨0, same ▸ answer, rfl, rfl, size⟩
      · obtain ⟨keeps, waits'⟩ := @conn_acceptedBy st j (st.conn l).owner _ here
        have stays := keeps l (.inl listener)
        have beyond : d ≤ j := by
          by_contra below
          exact absurd here (by simp [before j (by omega)])
        have rest := @ih (st.accepting l).st (j + 1) ((step_length st _).trans size)
        rw [next, stays, acceptedBy, conn_put_ne same] at rest
        have clear : ∀ k < j + 1, waits ((st.acceptedBy j (st.conn l).owner).conn k) (st.conn l) = false := by
          intro k below
          rw [waits']
          rcases Nat.lt_succ_iff_lt_or_eq.mp below with less | rfl
          · rw [first k less]
            rfl
          · simp
        obtain ⟨m, found⟩ := rest used listener waiting clear (by omega)
        exact ⟨m + 1, by rw [afterAccepts, next]; exact found⟩

/-- An accept by another than the owner of a listener does nothing. -/
theorem accepting_idle {l : Nat} (idle : ¬ ((st.conn l).used = true ∧ (st.conn l).role = .listener)) :
    (st.accepting l).reply = 0 ∧ (st.accepting l).st = st := by
  rw [accepting, step, tcpAcceptInternal]
  split
  · exact ⟨rfl, rfl⟩
  next found =>
    obtain ⟨same, used, -⟩ := owned_spec found
    obtain rfl := Nat.succ.inj same
    dsimp only
    rw [if_pos fun listener => idle ⟨used, listener⟩]
    exact ⟨rfl, rfl⟩

/-- What an accept answers was waiting for its listener all the time. -/
theorem acceptable_of_returned {l n : Nat} (size : st.tcons.length = MAX_TCONS)
    (answer : ((st.afterAccepts l n).accepting l).reply = i + 1) : st.Acceptable i := by
  induction n generalizing st with
  | zero =>
    rw [afterAccepts] at answer
    by_cases ready : (st.conn l).used = true ∧ (st.conn l).role = .listener
    · rcases accepting_cases size ready.1 ready.2 with ⟨none, -⟩ | ⟨j, found, waiting, -⟩
      · omega
      · obtain rfl : j = i := by omega
        exact ⟨l, ready.1, ready.2, waiting⟩
    · have none := (accepting_idle ready).1
      omega
  | succ n ih =>
    have next : (st.accepting l).st.Acceptable i := ih ((step_length st _).trans size) answer
    by_cases ready : (st.conn l).used = true ∧ (st.conn l).role = .listener
    · rcases accepting_cases size ready.1 ready.2 with ⟨-, same, -⟩ | ⟨j, -, here, -, same⟩ <;> rw [same] at next
      · exact next
      · obtain ⟨keeps, waits'⟩ := @conn_acceptedBy st j (st.conn l).owner _ here
        obtain ⟨l', used, listener, waiting⟩ := next
        rw [waits', Bool.and_eq_true] at waiting
        have same := keeps l' (.inr listener)
        rw [same] at used listener waiting
        exact ⟨l', used, listener, waiting.1⟩
    · rwa [(accepting_idle ready).2] at next

theorem closed_eq (size : st.tcons.length = MAX_TCONS) (used : (st.conn i).used = true) (now : UInt64) :
    st.closed i now = st.put i ((tcpClose (st.conn i) now).1.elim TcpConn.new fun _ => (tcpClose (st.conn i) now).2) := by
  rw [closed, tcpCloseOp, owned_self size used]
  dsimp only
  rcases tcpClose (st.conn i) now with ⟨_ | seg, c⟩ <;> rfl

theorem Attributed.closable (attributed : st.Attributed) (used : (st.conn i).used = true)
    (settled : ¬ (st.conn i).Pending) : st.Closable i := by
  have inside := lt_of_used used
  refine ⟨(attributed.owner i used).not.mpr settled, fun now now' => ?_⟩
  rw [closed_eq attributed.size used]
  by_cases open_ : (st.conn i).state = .established ∨ (st.conn i).state = .closeWait
  · right
    simp only [tcpClose, if_pos open_]
    rw [closed_eq ((List.length_set ..).trans attributed.size) (by rw [conn_put_self inside]; exact used),
      conn_put_self inside]
    rw [conn_put_self ((List.length_set ..).symm ▸ inside)]
    rfl
  · left
    simp only [tcpClose, if_neg open_]
    rw [conn_put_self inside]
    rfl

end Stack

/-- A connection that waits to be accepted and is not acceptable is lost. -/
theorem not_kept {nics : Nat} {st : Stack} (served : Serving nics st) {i : Nat} (used : (st.conn i).used = true)
    (pending : (st.conn i).Pending) (refused : ¬ st.Acceptable i) : ¬ st.Kept i := by
  rintro (closable | acceptable | ⟨ticks, freed⟩)
  · exact closable.1 ((served.attributed.owner i used).mpr pending)
  · obtain ⟨l, n, answer⟩ := acceptable
    exact refused (Stack.acceptable_of_returned served.attributed.size answer)
  · rw [Stack.ticked_used, used] at freed
    cases freed

/-- **Which slots are kept.**  In every state that is reached, a slot in use can be closed by its
owner, is the answer of an accept of a listener's owner, or is freed by the timer, if and only if it
is no connection of a passive open that nobody has accepted, or one that is established and has a
listener. -/
theorem slot_kept_iff {nics : Nat} {st : Stack} (served : Serving nics st) {i : Nat}
    (used : (st.conn i).used = true) : st.Kept i ↔ ((st.conn i).Pending → st.Acceptable i) := by
  refine ⟨fun kept pending => ?_, fun acceptable => ?_⟩
  · by_contra refused
    exact not_kept served used pending refused kept
  · by_cases pending : (st.conn i).Pending
    · obtain ⟨l, used, listener, waiting⟩ := acceptable pending
      obtain ⟨n, answer, -⟩ := @Stack.returned_of_waits st i l (i + 1) 0 served.attributed.size used listener
        waiting nofun (by omega)
      exact .inr (.inl ⟨l, n, answer⟩)
    · exact .inl (served.attributed.closable used pending)

/-- Domain 5 listens on port 7, and a peer opens a connection to it. -/
def demoOpened : Stack :=
  (((Stack.init 1).step (.tlisten 0 7 5 5)).st.step (.segment 0 (.v4 1) ⟨9, 7, 0, 0, TCP_SYN, []⟩ 0)).st

theorem demoOpened_served : Serving 1 demoOpened :=
  (Serving.init.step (.tlisten 0 7 5 5) (by decide)).step (.segment 0 (.v4 1) ⟨9, 7, 0, 0, TCP_SYN, []⟩ 0) nofun

theorem listener_is_kept : demoOpened.Kept 0 :=
  (slot_kept_iff demoOpened_served (by decide)).mpr fun pending => nomatch pending.1

/-- The peer resets the connection before it is accepted: the slot stays in use, and nobody can
give it back. -/
theorem reset_before_accept_loses_slot :
    ∃ st, Serving 1 st ∧ (st.conn 1).used = true ∧ (st.conn 1).state = .closed ∧ ¬ st.Kept 1 := by
  have served := demoOpened_served.step (.segment 0 (.v4 1) ⟨9, 7, 1, 0, TCP_RST, []⟩ 0) nofun
  refine ⟨_, served, by decide, by decide, not_kept served (by decide) (by decide) ?_⟩
  exact fun acceptable => absurd acceptable.established (by decide)

end MorionOS.Net
