import MorionOS.Net.Tcp

/-!
# What one event does to a connection

`Moves` has one constructor for each thing that can happen to the connection in a slot,
with the guards under which it happens.  `Stack.step_moves` says that an event does one
of them to every slot, so a fact about all connections is shown by cases on `Moves` and
the table does not come up again.
-/

namespace MorionOS.Net

/-! ## The table -/

namespace Stack

variable {st : Stack} {i j : Nat}

theorem lt_of_used (used : (st.conn i).used = true) : i < st.tcons.length := by
  by_contra outside
  rw [conn, List.getElem?_eq_none (by omega)] at used
  cases used

theorem conn_put_self (inside : i < st.tcons.length) (c : TcpConn) : (st.put i c).conn i = c := by
  simp [conn, put, inside]

theorem conn_put_ne (differs : j ≠ i) (c : TcpConn) : (st.put j c).conn i = st.conn i := by
  simp [conn, put, differs]

theorem free_lt (found : st.free = some i) : i < st.tcons.length :=
  (List.findIdx?_eq_some_iff_getElem.mp found).1

theorem conn_eq (inside : i < st.tcons.length) : st.conn i = st.tcons[i] := by
  rw [conn, List.getElem?_eq_getElem inside, Option.getD_some]

theorem conn_init (nics i : Nat) : (init nics).conn i = TcpConn.new := by
  simp only [conn, init, List.getElem?_replicate]
  split <;> rfl

theorem target_match {nic : Nat} {src : SrcId} {seg : TcpSeg}
    (found : st.target nic src seg = some i) : tcpMatch (st.conn i) nic src seg = true := by
  obtain ⟨inside, matched, -⟩ := List.findIdx?_eq_some_iff_getElem.mp found
  rw [conn_eq inside]
  exact matched

theorem target_used {nic : Nat} {src : SrcId} {seg : TcpSeg}
    (found : st.target nic src seg = some i) : (st.conn i).used = true := by
  have matched := target_match found
  simp only [tcpMatch, Bool.and_eq_true] at matched
  exact matched.1.1.1.1

theorem owned_spec {id domain : Nat} (found : st.owned id domain = some i) :
    id = i + 1 ∧ (st.conn i).used = true ∧ (st.conn i).owner = domain := by
  unfold owned at found
  split at found
  · cases found
  next valid =>
    split at found
    next both =>
      cases found
      exact ⟨by omega, both⟩
    · cases found

/-- A connection that waits to be accepted on the port of this listener. -/
def waits (c listener : TcpConn) : Bool :=
  c.used && decide (c.role = .server) && decide (c.state = .established) && !c.accepted &&
    c.localPort == listener.localPort && c.nic == listener.nic

/-- A listener for this segment. -/
def listens (c : TcpConn) (nic : Nat) (seg : TcpSeg) : Bool :=
  c.used && decide (c.role = .listener) && decide (c.state = .listen) && c.nic == nic &&
    c.localPort == seg.dport

/-- What an event can make of the connection in slot `i`. -/
inductive Moves (st : Stack) (i : Nat) : Event → TcpConn → Prop
  | stay {ev : Event} : Moves st i ev (st.conn i)
  | opens {nic domain : Nat} (found : st.free = some i) :
      Moves st i (.tsocket nic domain)
        { TcpConn.new with used := true, owner := domain, nic := nic }
  | listen {nic domain : Nat} {port : UInt16} (found : st.free = some i) :
      Moves st i (.tlisten nic port domain domain)
        { TcpConn.new with
          used := true, owner := domain, role := .listener, state := .listen, nic := nic
          localPort := port }
  | binds {domain : Nat} {port : UInt16} (owned : st.owned (i + 1) domain = some i)
      (unbound : (st.conn i).localPort = 0) :
      Moves st i (.tbind (i + 1) port domain domain) { st.conn i with localPort := port }
  | accepts {id l domain : Nat} (owned : st.owned id domain = some l)
      (listener : (st.conn l).role = .listener) (waiting : waits (st.conn i) (st.conn l) = true) :
      Moves st i (.taccept id domain) { st.conn i with accepted := true, owner := domain }
  | connects {domain : Nat} {addr isn : UInt32} {port : UInt16} {now : UInt64} {remote : SrcId}
      (owned : st.owned (i + 1) domain = some i) (bound : (st.conn i).localPort ≠ 0)
      (closed : (st.conn i).state = .closed) :
      Moves st i (.tconnect (i + 1) addr port now domain true)
        (tcpConnect { st.conn i with remote := remote, remotePort := port } isn now).2
  | sends {domain : Nat} {payload : List UInt8} {now : UInt64}
      (owned : st.owned (i + 1) domain = some i) (some_ : payload ≠ []) :
      Moves st i (.tsend (i + 1) true payload now domain) (tcpSend (st.conn i) payload now).2
  | receives {domain : Nat} (owned : st.owned (i + 1) domain = some i) :
      Moves st i (.trecv (i + 1) true domain) { st.conn i with rx := [] }
  | closes {domain : Nat} {now : UInt64} {seg : TcpSeg} (owned : st.owned (i + 1) domain = some i)
      (closing : (tcpClose (st.conn i) now).1 = some seg) :
      Moves st i (.tclose (i + 1) now domain) (tcpClose (st.conn i) now).2
  | releases {domain : Nat} {now : UInt64} (owned : st.owned (i + 1) domain = some i)
      (refused : (tcpClose (st.conn i) now).1 = none) :
      Moves st i (.tclose (i + 1) now domain) TcpConn.new
  | handles {nic : Nat} {src : SrcId} {seg : TcpSeg} {now : UInt64}
      (found : st.target nic src seg = some i) :
      Moves st i (.segment nic src seg now) (tcpHandle (st.conn i) seg now).2
  | passive {nic l : Nat} {src : SrcId} {seg : TcpSeg} {now : UInt64}
      (nobody : st.target nic src seg = none) (syn : seg.has TCP_SYN = true)
      (listening : listens (st.conn l) nic seg = true) (found : st.free = some i) :
      Moves st i (.segment nic src seg now)
        { acceptedConn i nic src seg now with sndNxt := (acceptedConn i nic src seg now).sndUna + 1 }
  | ticks {now : UInt64} (used : (st.conn i).used = true) (busy : (st.conn i).state ≠ .closed) :
      Moves st i (.tick i now) (tcpTick (st.conn i) now).2

/-- A change of slot `j` is a move of slot `j` and nothing for the others. -/
theorem Moves.put {ev : Event} {c : TcpConn} (inside : j < st.tcons.length) (move : st.Moves j ev c)
    (i : Nat) : st.Moves i ev ((st.put j c).conn i) := by
  by_cases same : j = i
  · subst same
    rw [conn_put_self inside]
    exact move
  · rw [conn_put_ne same]
    exact .stay

theorem conn_of_mem {c : TcpConn} (member : c ∈ st.tcons) : ∃ l, st.conn l = c := by
  obtain ⟨l, inside, entry⟩ := List.mem_iff_getElem.mp member
  exact ⟨l, (conn_eq inside).trans entry⟩

/-- **One event, one move.** -/
theorem step_moves (st : Stack) (ev : Event) (i : Nat) : st.Moves i ev ((st.step ev).st.conn i) := by
  cases ev with
  | tsocket nic domain =>
    simp only [step, tcpOpen]
    split
    · exact .stay
    split
    · exact .stay
    next found => exact Moves.put (free_lt found) (.opens found) i
  | tlisten nic port domain portOwner =>
    simp only [step, tcpListenInternal]
    split
    · exact .stay
    next allowed =>
      obtain rfl : portOwner = domain := by
        by_contra differs
        exact allowed (.inr differs)
      split
      · exact .stay
      next found => exact Moves.put (free_lt found) (.listen found) i
  | tbind id port domain portOwner =>
    simp only [step, tcpBind]
    split
    · exact .stay
    next allowed =>
      obtain rfl : portOwner = domain := by simpa using allowed
      split
      · exact .stay
      next found =>
        obtain ⟨rfl, used, -⟩ := owned_spec found
        split
        next unbound => exact Moves.put (lt_of_used used) (.binds found unbound) i
        · exact .stay
  | taccept id domain =>
    simp only [step, tcpAcceptInternal]
    split
    · exact .stay
    next found =>
      split
      · exact .stay
      next listener =>
        split
        · exact .stay
        next j waiting =>
          obtain ⟨inside, waits, -⟩ := List.findIdx?_eq_some_iff_getElem.mp waiting
          refine Moves.put inside (.accepts found (by simpa using listener) ?_) i
          rw [conn_eq inside]
          exact waits
  | tconnect id addr port now domain gateway =>
    simp only [step, tcpConnectOp]
    split
    · exact .stay
    next found =>
      obtain ⟨rfl, used, -⟩ := owned_spec found
      split
      · exact .stay
      next known =>
        obtain rfl : gateway = true := by simpa using known
        split
        · exact .stay
        next ready =>
          rw [not_or, not_not] at ready
          exact Moves.put (lt_of_used used) (.connects found ready.1 ready.2) i
  | tsend id mapped payload now domain =>
    simp only [step, tcpSendOp]
    split
    · exact .stay
    next valid =>
      simp only [Bool.or_eq_true, not_or, Bool.not_eq_true', Bool.not_eq_false] at valid
      obtain ⟨⟨rfl, some_⟩, -⟩ := valid
      split
      · exact .stay
      next found =>
        obtain ⟨rfl, used, -⟩ := owned_spec found
        exact Moves.put (lt_of_used used) (.sends found (by rintro rfl; simp at some_)) i
  | trecv id mapped domain =>
    simp only [step, tcpRecvOp]
    split
    · exact .stay
    next there =>
      obtain rfl : mapped = true := by simpa using there
      split
      · exact .stay
      next found =>
        obtain ⟨rfl, used, -⟩ := owned_spec found
        split
        · exact Moves.put (lt_of_used used) (.receives found) i
        · exact .stay
  | tclose id now domain =>
    simp only [step, tcpCloseOp]
    split
    · exact .stay
    next found =>
      obtain ⟨rfl, used, -⟩ := owned_spec found
      split
      next seg c closing =>
        have move := Moves.closes found (congrArg Prod.fst closing)
        rw [closing] at move
        exact Moves.put (lt_of_used used) move i
      next closing =>
        exact Moves.put (lt_of_used used) (.releases found (congrArg Prod.fst closing)) i
  | segment nic src seg now =>
    simp only [step, tcpInput]
    split
    next found => exact Moves.put (lt_of_used (target_used found)) (.handles found) i
    next nobody =>
      split
      · exact .stay
      next syn =>
        split
        next listening =>
          obtain ⟨c, member, listening⟩ := List.any_eq_true.mp listening
          obtain ⟨l, rfl⟩ := conn_of_mem member
          split
          · exact .stay
          next found =>
            exact Moves.put (free_lt found) (.passive nobody (by simpa using syn) listening found) i
        · exact .stay
  | tick j now =>
    simp only [step, tcpTickSlot]
    split
    next busy =>
      rw [Bool.and_eq_true, decide_eq_true_eq] at busy
      exact Moves.put (lt_of_used busy.1) (.ticks busy.1 busy.2) i
    · exact .stay

end Stack

/-! ## What no connection changes -/

/-- The fields that say whose connection it is. -/
structure TcpConn.Same (c c' : TcpConn) : Prop where
  used : c'.used = c.used
  owner : c'.owner = c.owner
  role : c'.role = c.role
  accepted : c'.accepted = c.accepted
  localPort : c'.localPort = c.localPort

theorem TcpConn.Same.refl (c : TcpConn) : c.Same c := ⟨rfl, rfl, rfl, rfl, rfl⟩

theorem TcpConn.Same.trans {a b c : TcpConn} (first : a.Same b) (second : b.Same c) : a.Same c :=
  ⟨second.used.trans first.used, second.owner.trans first.owner, second.role.trans first.role,
    second.accepted.trans first.accepted, second.localPort.trans first.localPort⟩

theorem tcpSend_same (c : TcpConn) (payload : List UInt8) (now : UInt64) :
    c.Same (tcpSend c payload now).2 := by
  unfold tcpSend
  split <;> exact ⟨rfl, rfl, rfl, rfl, rfl⟩

theorem tcpClose_same (c : TcpConn) (now : UInt64) : c.Same (tcpClose c now).2 := by
  unfold tcpClose
  split <;> exact ⟨rfl, rfl, rfl, rfl, rfl⟩

theorem tcpTick_same (c : TcpConn) (now : UInt64) : c.Same (tcpTick c now).2 := by
  unfold tcpTick
  dsimp only
  repeat' split
  all_goals exact ⟨rfl, rfl, rfl, rfl, rfl⟩

theorem takePayload_same (c : TcpConn) (seg : TcpSeg) : c.Same (takePayload c seg).2 := by
  unfold takePayload
  split <;> exact ⟨rfl, rfl, rfl, rfl, rfl⟩

theorem finWait_same (c : TcpConn) (seg : TcpSeg) : c.Same (finWait c seg).2 := by
  unfold finWait
  split <;> exact ⟨rfl, rfl, rfl, rfl, rfl⟩

theorem tcpHandle_same (c : TcpConn) (seg : TcpSeg) (now : UInt64) :
    c.Same (tcpHandle c seg now).2 := by
  unfold tcpHandle
  split
  · unfold handleSynSent
    repeat' split
    all_goals exact ⟨rfl, rfl, rfl, rfl, rfl⟩
  · unfold handleSynRcvd
    split
    · exact ⟨rfl, rfl, rfl, rfl, rfl⟩
    · refine TcpConn.Same.trans ?_ (takePayload_same _ seg)
      split <;> exact ⟨rfl, rfl, rfl, rfl, rfl⟩
  · unfold handleEstablished
    split
    · exact ⟨rfl, rfl, rfl, rfl, rfl⟩
    · dsimp only
      refine (takePayload_same c seg).trans ?_
      repeat' split
      all_goals exact ⟨rfl, rfl, rfl, rfl, rfl⟩
  · unfold handleCloseWait
    split <;> exact ⟨rfl, rfl, rfl, rfl, rfl⟩
  · refine TcpConn.Same.trans ?_ (finWait_same _ seg)
    split <;> exact ⟨rfl, rfl, rfl, rfl, rfl⟩
  · exact finWait_same c seg
  all_goals exact .refl c

end MorionOS.Net
