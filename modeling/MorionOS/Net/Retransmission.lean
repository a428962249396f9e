import MorionOS.Net.Steps

/-!
# What the timer sends again

Between `snd_una` and `snd_nxt` lies what a connection has sent and the peer has not
acknowledged.  `tcp_tick` decides from the state and the buffered data whether there is
anything to send again, not from these two numbers, so the two views have to agree.

`Synced` says how they are related in each state; every event keeps it.  From it follows
when the timer sends exactly what lies between them (`retransmission_covers_unacknowledged`).
A lost `SYN-ACK` is not sent again (`syn_ack_not_sent_again`).
-/

namespace MorionOS.Net

/-- The sequence numbers that a segment takes. -/
def TcpSeg.span (seg : TcpSeg) : UInt32 :=
  UInt32.ofNat (seg.payload.length + (if seg.has TCP_SYN then 1 else 0) +
    (if seg.has TCP_FIN then 1 else 0))

/-- The segment takes exactly the sequence numbers from `una` to `nxt`. -/
def TcpSeg.Covers (seg : TcpSeg) (una nxt : UInt32) : Prop :=
  seg.seq = una ∧ seg.seq + seg.span = nxt

/-- A tick at this time sends again what is unacknowledged, and nothing when nothing is. -/
def Resends (c : TcpConn) (now : UInt64) : Prop :=
  (c.sndUna ≠ c.sndNxt → ∃ seg, (tcpTick c now).1 = some seg ∧ seg.Covers c.sndUna c.sndNxt) ∧
    (c.sndUna = c.sndNxt → (tcpTick c now).1 = none)

/-- What the state says about the unacknowledged range. -/
def Spans (c : TcpConn) : Prop :=
  match c.state with
  | .synSent | .synRcvd => c.sndNxt = c.sndUna + 1 ∧ c.tx = []
  | .established => c.sndNxt = c.sndUna + UInt32.ofNat c.tx.length
  | .closeWait => c.sndNxt = c.sndUna + UInt32.ofNat c.tx.length ∨ c.sndUna = c.sndNxt
  | .finWait1 => c.tx = [] ∧ ∃ n, n ≤ TCP_MSS ∧ c.sndNxt = c.sndUna + UInt32.ofNat n + 1
  | .finWait2 => c.tx = [] ∧ c.sndUna = c.sndNxt
  | .closed | .listen | .timeWait => True

/-- The sent range and the buffered data agree. -/
structure Synced (c : TcpConn) : Prop where
  short : c.tx.length ≤ TCP_MSS
  spans : Spans c

theorem add_ofNat_eq_self {una : UInt32} {n : Nat} (small : n < 2 ^ 32) :
    una = una + UInt32.ofNat n ↔ n = 0 := by
  constructor
  · intro same
    have number := congrArg UInt32.toNat same
    rw [UInt32.toNat_add, UInt32.toNat_ofNat_of_lt' small] at number
    omega
  · rintro rfl
    simp

namespace Synced

variable {c : TcpConn}

/-- In the states in which nothing is asked. -/
theorem of_quiet (short : c.tx.length ≤ TCP_MSS)
    (quiet : c.state = .closed ∨ c.state = .listen ∨ c.state = .timeWait) : Synced c := by
  refine ⟨short, ?_⟩
  rcases quiet with state | state | state <;> simp [Spans, state]

theorem new : Synced TcpConn.new := .of_quiet (Nat.zero_le _) (.inl rfl)

theorem congr {c' : TcpConn} (synced : Synced c) (state : c'.state = c.state) (tx : c'.tx = c.tx)
    (una : c'.sndUna = c.sndUna) (nxt : c'.sndNxt = c.sndNxt) : Synced c' := by
  obtain ⟨short, spans⟩ := synced
  refine ⟨tx ▸ short, ?_⟩
  unfold Spans at *
  rw [state, tx, una, nxt]
  exact spans

theorem tcpConnect (c : TcpConn) (isn : UInt32) (now : UInt64) : Synced (tcpConnect c isn now).2 :=
  ⟨Nat.zero_le _, rfl, rfl⟩

theorem tcpSend (synced : Synced c) (payload : List UInt8) (now : UInt64) :
    Synced (tcpSend c payload now).2 := by
  unfold Net.tcpSend
  split
  · exact synced
  next ready =>
    rw [not_or, not_not, not_not] at ready
    have spans := synced.spans
    simp only [Spans, ready.1, ready.2] at spans
    refine ⟨List.length_take_le _ _, ?_⟩
    simp only [Spans, ready.1]
    rw [spans]
    simp

theorem tcpClose (synced : Synced c) (now : UInt64) : Synced (tcpClose c now).2 := by
  unfold Net.tcpClose
  split
  next open_ =>
    refine ⟨Nat.zero_le _, rfl, ?_⟩
    have spans := synced.spans
    rcases open_ with state | state
    · simp only [Spans, state] at spans
      exact ⟨c.tx.length, synced.short, congrArg (· + 1) spans⟩
    · simp only [Spans, state] at spans
      rcases spans with spans | equal
      · exact ⟨c.tx.length, synced.short, congrArg (· + 1) spans⟩
      · refine ⟨0, Nat.zero_le _, ?_⟩
        rw [equal]
        simp
  · exact synced

theorem tcpTick (synced : Synced c) (now : UInt64) : Synced (tcpTick c now).2 := by
  unfold Net.tcpTick
  split
  · exact synced
  split
  · exact synced
  dsimp only
  split
  · exact .of_quiet synced.short (.inl rfl)
  split <;> exact synced.congr rfl rfl rfl rfl

theorem takePayload (synced : Synced c) (seg : TcpSeg) : Synced (takePayload c seg).2 := by
  unfold Net.takePayload
  split
  · exact synced.congr rfl rfl rfl rfl
  · exact synced

theorem takePayload_state (c : TcpConn) (seg : TcpSeg) :
    (Net.takePayload c seg).2.state = c.state := by
  unfold Net.takePayload
  split <;> rfl

section

variable (synced : Synced c)
include synced

theorem handleSynSent (state : c.state = .synSent) (seg : TcpSeg)
    (now : UInt64) : Synced (handleSynSent c seg now).2 := by
  have spans := synced.spans
  simp only [Spans, state] at spans
  unfold Net.handleSynSent
  split
  · exact .of_quiet synced.short (.inl rfl)
  split
  next acks =>
    refine ⟨synced.short, ?_⟩
    show c.sndNxt = seg.ack + UInt32.ofNat c.tx.length
    rw [acks.2, spans.2]
    simp
  · exact synced

theorem handleSynRcvd (state : c.state = .synRcvd) (seg : TcpSeg) :
    Synced (handleSynRcvd c seg).2 := by
  have spans := synced.spans
  simp only [Spans, state] at spans
  unfold Net.handleSynRcvd
  split
  · exact .of_quiet synced.short (.inl rfl)
  refine .takePayload ?_ seg
  split
  · refine ⟨synced.short, ?_⟩
    show c.sndNxt = c.sndNxt + UInt32.ofNat c.tx.length
    rw [spans.2]
    simp
  · exact synced

theorem handleEstablished (state : c.state = .established) (seg : TcpSeg) :
    Synced (handleEstablished c seg).2 := by
  unfold Net.handleEstablished
  split
  · exact .of_quiet synced.short (.inl rfl)
  dsimp only
  have taken := synced.takePayload seg
  have still := (takePayload_state c seg).trans state
  generalize (Net.takePayload c seg).2 = c₁ at *
  generalize acks : (if acksNew c₁ seg then _ else c₁) = c₂
  have acked : Synced c₂ ∧ c₂.state = .established := by
    rw [← acks]
    split
    · refine ⟨⟨Nat.zero_le _, ?_⟩, still⟩
      simp only [Spans, still]
      simp
    · exact ⟨taken, still⟩
  split
  · have spans := acked.1.spans
    simp only [Spans, acked.2] at spans
    exact ⟨acked.1.short, .inl spans⟩
  · exact acked.1

theorem finWait (seg : TcpSeg) : Synced (finWait c seg).2 := by
  unfold Net.finWait
  split
  · exact .of_quiet synced.short (.inr (.inr rfl))
  · exact synced

theorem tcpHandle (seg : TcpSeg) (now : UInt64) : Synced (tcpHandle c seg now).2 := by
  unfold Net.tcpHandle
  split
  next state => exact synced.handleSynSent state seg now
  next state => exact synced.handleSynRcvd state seg
  next state => exact synced.handleEstablished state seg
  next state =>
    unfold handleCloseWait
    split
    · refine ⟨synced.short, ?_⟩
      simp [Spans, state]
    · exact synced
  next state =>
    refine .finWait ?_ seg
    split
    · have spans := synced.spans
      simp only [Spans, state] at spans
      exact ⟨synced.short, spans.1, rfl⟩
    · exact synced
  next => exact synced.finWait seg
  all_goals exact synced

end

end Synced

theorem synced_step {st : Stack} (synced : ∀ i, Synced (st.conn i)) (ev : Event) (i : Nat) :
    Synced ((st.step ev).st.conn i) := by
  have move := st.step_moves ev i
  generalize (st.step ev).st.conn i = c at move
  cases move with
  | stay => exact synced i
  | opens => exact .of_quiet (Nat.zero_le _) (.inl rfl)
  | listen => exact .of_quiet (Nat.zero_le _) (.inr (.inl rfl))
  | binds | accepts => exact (synced i).congr rfl rfl rfl rfl
  | connects => exact .tcpConnect _ _ _
  | sends => exact (synced i).tcpSend _ _
  | receives => exact (synced i).congr rfl rfl rfl rfl
  | closes => exact (synced i).tcpClose _
  | releases => exact .new
  | handles => exact (synced i).tcpHandle _ _
  | passive => exact ⟨Nat.zero_le _, rfl, rfl⟩
  | ticks => exact (synced i).tcpTick _

/-- The stacks that events lead to. -/
inductive Reached (nics : Nat) : Stack → Prop
  | init : Reached nics (Stack.init nics)
  | step {st : Stack} (reached : Reached nics st) (ev : Event) : Reached nics (st.step ev).st

theorem Reached.synced {nics : Nat} {st : Stack} (reached : Reached nics st) (i : Nat) :
    Synced (st.conn i) := by
  induction reached generalizing i with
  | init =>
    rw [Stack.conn_init]
    exact .new
  | step _ ev ih => exact synced_step ih ev i

/-! ## The timer -/

/-- The connection keeps all that it has sent for as long as it is not acknowledged, and no
longer: it does not wait for the acknowledgement of its `SYN-ACK` or `FIN`, and no data is
left in `CloseWait` after it was acknowledged. -/
def KeepsUnacknowledged (c : TcpConn) : Prop :=
  c.state ≠ .synRcvd ∧ c.state ≠ .finWait1 ∧
    (c.state = .closeWait → c.tx ≠ [] → c.sndUna ≠ c.sndNxt)

instance (c : TcpConn) : Decidable (KeepsUnacknowledged c) :=
  inferInstanceAs (Decidable (_ ∧ _ ∧ (_ → _ → _)))

section Tick

variable {c : TcpConn} {now : UInt64}

theorem tcpTick_silent (state : c.state ≠ .synSent) (empty : c.tx = []) :
    (tcpTick c now).1 = none := by
  unfold tcpTick
  split
  · rfl
  · rw [if_pos (.inl (by simp [state, empty]))]

theorem tcpTick_data (state : c.state ≠ .synSent) (open_ : c.state ≠ .closed) (some_ : c.tx ≠ [])
    (due : c.rtoMs ≤ now - c.lastTxMs) (tries : c.retx < TCP_MAX_RETX) :
    (tcpTick c now).1 =
      some ⟨c.localPort, c.remotePort, c.sndUna, c.rcvNxt, TCP_PSH ||| TCP_ACK, c.tx⟩ := by
  unfold tcpTick
  rw [if_neg open_, if_neg (by simp [some_, UInt64.not_lt.mpr due])]
  dsimp only
  rw [if_neg (by omega), if_neg state]
  rfl

theorem tcpTick_syn (state : c.state = .synSent) (due : c.rtoMs ≤ now - c.lastTxMs)
    (tries : c.retx < TCP_MAX_RETX) :
    (tcpTick c now).1 = some ⟨c.localPort, c.remotePort, c.sndUna, 0, TCP_SYN, []⟩ := by
  unfold tcpTick
  rw [if_neg (by simp [state]), if_neg (by simp [state, UInt64.not_lt.mpr due])]
  dsimp only
  rw [if_neg (by omega), if_pos state]
  rfl

theorem span_data (sport dport : UInt16) (seq ack : UInt32) (data : List UInt8) :
    TcpSeg.span ⟨sport, dport, seq, ack, TCP_PSH ||| TCP_ACK, data⟩ = UInt32.ofNat data.length := by
  unfold TcpSeg.span TcpSeg.has
  dsimp only
  rw [if_neg (by decide), if_neg (by decide)]
  rfl

theorem span_syn (sport dport : UInt16) (seq ack : UInt32) :
    TcpSeg.span ⟨sport, dport, seq, ack, TCP_SYN, []⟩ = 1 := by
  unfold TcpSeg.span TcpSeg.has
  dsimp only
  rw [if_pos (by decide), if_neg (by decide)]
  rfl

theorem data_covers (c : TcpConn) (nxt : c.sndNxt = c.sndUna + UInt32.ofNat c.tx.length) :
    TcpSeg.Covers ⟨c.localPort, c.remotePort, c.sndUna, c.rcvNxt, TCP_PSH ||| TCP_ACK, c.tx⟩
      c.sndUna c.sndNxt := by
  refine ⟨rfl, ?_⟩
  rw [span_data, nxt]

/-- The data is all there is to acknowledge. -/
theorem resends_data (synced : Synced c) (state : c.state ≠ .synSent) (open_ : c.state ≠ .closed)
    (nxt : c.sndNxt = c.sndUna + UInt32.ofNat c.tx.length) (due : c.rtoMs ≤ now - c.lastTxMs)
    (tries : c.retx < TCP_MAX_RETX) : Resends c now := by
  have none_iff : c.sndUna = c.sndNxt ↔ c.tx = [] := by
    rw [nxt, add_ofNat_eq_self (Nat.lt_of_le_of_lt synced.short (by decide)),
      List.length_eq_zero_iff]
  refine ⟨fun differs => ?_, fun equal => tcpTick_silent state (none_iff.mp equal)⟩
  have some_ : c.tx ≠ [] := fun empty => differs (none_iff.mpr empty)
  exact ⟨_, tcpTick_data state open_ some_ due tries, data_covers c nxt⟩

/-- Nothing is sent again although something is unacknowledged. -/
theorem not_resends_silent (state : c.state ≠ .synSent) (empty : c.tx = [])
    (differs : c.sndUna ≠ c.sndNxt) : ¬Resends c now := by
  intro resends
  obtain ⟨seg, sent, -⟩ := resends.1 differs
  rw [tcpTick_silent state empty] at sent
  cases sent

/-- After the last try nothing is sent. -/
theorem resends_iff_of_no_tries (last : TCP_MAX_RETX ≤ c.retx) : Resends c now ↔ c.sndUna = c.sndNxt := by
  have silent : (tcpTick c now).1 = none := by
    unfold tcpTick
    split
    · rfl
    · split
      · rfl
      · dsimp only
        rw [if_pos (by omega)]
  rw [Resends, silent]
  simp

/-- With tries left everything that is kept is sent again. -/
theorem resends_iff_keeps (synced : Synced c)
    (active : c.state ≠ .closed ∧ c.state ≠ .listen ∧ c.state ≠ .timeWait)
    (due : c.rtoMs ≤ now - c.lastTxMs) (tries : c.retx < TCP_MAX_RETX) :
    Resends c now ↔ KeepsUnacknowledged c := by
  have spans := synced.spans
  have one : ∀ una : UInt32, una ≠ una + 1 := fun una same =>
    absurd ((add_ofNat_eq_self (n := 1) (by decide)).mp same) (by decide)
  unfold Spans at spans
  split at spans
  next state =>
    -- `SynSent`: the `SYN` is sent again
    refine iff_of_true ⟨fun _ => ⟨_, tcpTick_syn state due tries, rfl, ?_⟩, fun equal => ?_⟩
      ⟨by simp [state], by simp [state], by simp [state]⟩
    · rw [span_syn]
      exact spans.1.symm
    · rw [spans.1] at equal
      exact absurd equal (one _)
  next state =>
    -- `SynRcvd`: the `SYN-ACK` is not
    refine iff_of_false (not_resends_silent (by simp [state]) spans.2 ?_) fun keeps => keeps.1 state
    rw [spans.1]
    exact one _
  next state =>
    exact iff_of_true (resends_data synced (by simp [state]) active.1 spans due tries)
      ⟨by simp [state], by simp [state], by simp [state]⟩
  next state =>
    -- `CloseWait`: an acknowledgement leaves the data in the buffer
    constructor
    · intro resends
      refine ⟨by simp [state], by simp [state], fun _ some_ equal => ?_⟩
      have sent := resends.2 equal
      rw [tcpTick_data (by simp [state]) active.1 some_ due tries] at sent
      cases sent
    · intro keeps
      rcases spans with spans | equal
      · exact resends_data synced (by simp [state]) active.1 spans due tries
      · have empty : c.tx = [] := by
          by_contra some_
          exact keeps.2.2 state some_ equal
        exact ⟨absurd equal, fun _ => tcpTick_silent (by simp [state]) empty⟩
  next state =>
    -- `FinWait1`: the `FIN` is not
    obtain ⟨empty, n, short, spans⟩ := spans
    refine iff_of_false (not_resends_silent (by simp [state]) empty fun equal => ?_)
      fun keeps => keeps.2.1 state
    have more : c.sndUna = c.sndUna + UInt32.ofNat (n + 1) := by
      rw [UInt32.ofNat_add, ← UInt32.add_assoc]
      exact equal.trans spans
    have small : n + 1 < 2 ^ 32 := Nat.lt_of_le_of_lt (Nat.succ_le_succ short) (by decide)
    exact absurd ((add_ofNat_eq_self small).mp more) (Nat.succ_ne_zero n)
  next state =>
    refine iff_of_true ⟨absurd spans.2, fun _ => ?_⟩
      ⟨by simp [state], by simp [state], by simp [state]⟩
    exact tcpTick_silent (by simp [state]) spans.1
  next state => exact absurd state active.1
  next state => exact absurd state active.2.1
  next state => exact absurd state active.2.2

end Tick

/-- Run a list of events. -/
def runEvents (st : Stack) (events : List Event) : Stack :=
  events.foldl (fun st ev => (st.step ev).st) st

theorem Reached.run {nics : Nat} {st : Stack} (reached : Reached nics st) (events : List Event) :
    Reached nics (runEvents st events) := by
  induction events generalizing st with
  | nil => exact reached
  | cons ev events ih => exact ih (.step reached ev)

/-- A domain listens on port 80, and a peer asks for a connection. -/
def demoAsked : List Event :=
  [.tlisten 0 80 5 5, .segment 0 (.v4 0x0a000202) ⟨1000, 80, 100, 0, TCP_SYN, []⟩ 0]

/-- The peer answers the `SYN-ACK`, and the domain accepts and sends three bytes. -/
def demoSent : List Event :=
  [.segment 0 (.v4 0x0a000202) ⟨1000, 80, 101, 0x4d4f9102, TCP_ACK, []⟩ 0, .taccept 1 5,
    .tsend 2 true [1, 2, 3] 7 5]

end MorionOS.Net
