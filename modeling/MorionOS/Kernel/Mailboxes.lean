import MorionOS.Kernel.Reclaim

/-!
# Mailboxes

A mailbox is a queue with a capacity: `send` and the kernel's own deliveries are
refused when it is full.  `call` and `reply` append without looking, and adding a
domain empties the mailbox of its number.  As long as none of these finds
messages in its way, mailboxes are queues with a bound (`mailboxes_are_bounded_queues`);
a call can overfill one (`call_overfills_mailbox`).
-/

namespace MorionOS.Kernel

open Function List

/-! ## The history of one receiver and one sender -/

/-- The message that an event accepted. -/
def Event.message : Event → Option Message
  | .accepted m => some m
  | _ => none

/-- The message that an event put into the mailbox of `owner`, if `sender` sent
it. -/
def Event.acceptedFor (owner sender : Nat) : Event → Option Message
  | .accepted m => if m.receiver = owner ∧ m.sender = sender then some m else none
  | _ => none

/-- The message that an event took out of the mailbox of `owner`, if `sender`
sent it. -/
def Event.takenFor (owner sender : Nat) : Event → Option Message
  | .received taker m => if taker = owner ∧ m.sender = sender then some m else none
  | .returned taker _ _ m => if taker = owner ∧ m.sender = sender then some m else none
  | .accepted _ => none

namespace View

/-- For every receiver and sender: the messages taken so far, followed by those
that wait, are accepted messages in the order of acceptance. -/
def Fifo (v : View) : Prop :=
  ∀ owner sender, List.Sublist
    (v.log.filterMap (Event.takenFor owner sender) ++
      (v.mailbox owner).filter fun m => m.sender = sender)
    (v.log.filterMap (Event.acceptedFor owner sender))

variable {v v' : View} {i : Nat} {me : TaskCore} {op : Op}

/-- Mailboxes that lost messages but were not taken from. -/
theorem Fifo.of_mailbox (fifo : v.Fifo) (log : v'.log = v.log)
    (fewer : ∀ d, v'.mailbox d = v.mailbox d ∨ v'.mailbox d = []) : v'.Fifo := by
  intro owner sender
  rw [log]
  rcases fewer owner with same | empty
  · rw [same]
    exact fifo owner sender
  · rw [empty, filter_nil, append_nil]
    exact (sublist_append_left _ _).trans (fifo owner sender)

theorem Fifo.accept (fifo : v.Fifo) (m : Message) : (v.accept m).Fifo := by
  intro owner sender
  rw [accept_log, accept_mailbox, update_apply, filterMap_append, filterMap_append]
  by_cases here : m.receiver = owner ∧ m.sender = sender
  · obtain ⟨rfl, rfl⟩ := here
    have added := (fifo m.receiver m.sender).append_right [m]
    simpa [filterMap_cons, Event.takenFor, Event.acceptedFor] using added
  · have same : ((if owner = m.receiver then v.mailbox m.receiver ++ [m] else v.mailbox owner).filter
        fun m => m.sender = sender) = (v.mailbox owner).filter fun m => m.sender = sender := by
      split
      next mine =>
        subst mine
        have other : ¬ m.sender = sender := fun sent => here ⟨rfl, sent⟩
        simp [other]
      next => rfl
    rw [same]
    simpa [filterMap_cons, Event.takenFor, Event.acceptedFor, here] using fifo owner sender

variable {owner : Nat} {m : Message} {rest : List Message} {event : Event}

/-- Taking the first message of one sender. -/
theorem Fifo.take (fifo : v.Fifo) (taken : ∀ d sender, event.takenFor d sender =
      if owner = d ∧ m.sender = sender then some m else none)
    (notAccepted : ∀ d sender, event.acceptedFor d sender = none)
    (first : ∀ sender, ((v.mailbox owner).filter fun m => m.sender = sender) =
      if m.sender = sender then m :: rest.filter (fun m => m.sender = sender)
      else rest.filter fun m => m.sender = sender) : (v.setMailbox owner rest event).Fifo := by
  intro d sender
  have before := fifo d sender
  rw [setMailbox_log, setMailbox_mailbox, update_apply, filterMap_append, filterMap_append]
  simp only [filterMap_cons, taken, notAccepted]
  by_cases here : owner = d
  · subst here
    rw [first sender] at before
    by_cases sent : m.sender = sender <;> simpa [sent] using before
  · have elsewhere : ¬ d = owner := fun same => here same.symm
    simpa [here, elsewhere] using before

/-- Only the first message of the callee is taken out. -/
theorem mem_eraseP_of_find {callee : Nat} {box : List Message} {m' : Message}
    (found : box.find? (fun m => m.sender = callee) = some m) (member : m' ∈ box) (other : m' ≠ m) :
    m' ∈ box.eraseP fun m => m.sender = callee := by
  induction box with
  | nil => cases member
  | cons head tail ih =>
    by_cases isFirst : head.sender = callee
    · have same : head = m := by simpa [isFirst] using found
      rw [eraseP_cons_of_pos (by simpa using isFirst)]
      rcases mem_cons.mp member with rfl | later
      · exact absurd same other
      · exact later
    · rw [eraseP_cons_of_neg (by simpa using isFirst)]
      rcases mem_cons.mp member with rfl | later
      · exact mem_cons_self
      · exact mem_cons_of_mem _ (ih (by simpa [isFirst] using found) later)

theorem filter_eraseP {callee : Nat} {box : List Message}
    (found : box.find? (fun m => m.sender = callee) = some m) (sender : Nat) :
    (box.filter fun m => m.sender = sender) =
      if m.sender = sender then
        m :: (box.eraseP fun m => m.sender = callee).filter (fun m => m.sender = sender)
      else (box.eraseP fun m => m.sender = callee).filter fun m => m.sender = sender := by
  have callees : m.sender = callee := by simpa using List.find?_some found
  induction box with
  | nil => cases found
  | cons head tail ih =>
    by_cases isFirst : head.sender = callee
    · have same : head = m := by simpa [isFirst] using found
      subst same
      rw [eraseP_cons_of_pos (by simpa using isFirst), filter_cons]
      simp
    · have later : tail.find? (fun m => m.sender = callee) = some m := by
        simpa [isFirst] using found
      rw [eraseP_cons_of_neg (by simpa using isFirst), filter_cons, ih later]
      by_cases sent : m.sender = sender
      · have other : ¬ head.sender = sender := by
          intro same
          exact isFirst (by rw [same, ← sent, callees])
        simp [other]
      · by_cases headFrom : head.sender = sender <;> simp [sent, headFrom]

/-! ## Steps -/

theorem update_nil_cases (boxes : Nat → List Message) (e d : Nat) :
    update boxes e [] d = boxes d ∨ update boxes e [] d = [] := by
  rw [update_apply]
  split
  · exact .inr rfl
  · exact .inl rfl

theorem Fifo.destroy (fifo : v.Fifo) (e : Nat) : (v.destroy e).Fifo :=
  destroy_cases (fun _ => fifo.of_mailbox rfl (update_nil_cases v.mailbox e)) fifo

theorem Fifo.create (fifo : v.Fifo) (d loader : Nat) : (v.create d loader).Fifo :=
  fifo.of_mailbox (create_log v d loader) (update_nil_cases v.mailbox d)

theorem Fifo.reset (fifo : v.Fifo) (d : Nat) : (v.reset d).Fifo :=
  fifo.of_mailbox (reset_log v d) (update_nil_cases v.mailbox d)

/-- The order of acceptance is kept by every step. -/
theorem Step.fifo (fifo : v.Fifo) (step : Step i me v op v') : v'.Fifo := by
  cases step with
  | send | fault | irq | call | reply => exact fifo.accept _
  | receive receives outside front =>
    rename_i m rest
    apply Fifo.take fifo (m := m)
    · exact fun _ _ => rfl
    · exact fun _ _ => rfl
    · intro sender
      rw [front, filter_cons]
      simp
  | «return» waiting found =>
    rename_i callee request m
    apply Fifo.take fifo (m := m)
    · exact fun _ _ => rfl
    · exact fun _ _ => rfl
    · exact filter_eraseP found
  | destroy owned => exact fifo.destroy _
  | spawn unused free => exact fifo.create _ me.domain
  | spawnFails unused => exact (fifo.create _ me.domain).destroy _
  | restart | restartFails => exact fifo.reset _
  | tick =>
    exact reclaim_induction (P := Fifo) fifo fun w queued _ fifo => fifo.destroy queued.id
  | _ => exact fifo

/-- The message is out of the mailbox because its owner received it, or because
the owner was destroyed or restarted. -/
def Removed (v : View) (caller : Nat) (op : Op) (v' : View) (owner : Nat) (m : Message) : Prop :=
  (caller = owner ∧ (v'.log = v.log ++ [.received owner m] ∨
      ∃ callee request, v'.log = v.log ++ [.returned owner callee request m])) ∨
    (v.alive owner = true ∧ v'.alive owner = false) ∨
    ∃ image, op = .syscall (.spawnElfAt owner image)

/-- When `call` and `reply` find room and no unused number has messages while a
domain is created. -/
structure Roomy (v : View) (me : TaskCore) (op : Op) : Prop where
  call : ∀ callee tag payload, op = .syscall (.call callee tag payload) →
    (v.mailbox callee).length < MAILBOX_CAP
  reply : ∀ tag target, op = .syscall (.reply tag) → me.replyTarget = some target →
    (v.mailbox target).length < MAILBOX_CAP
  spawn : ∀ image, op = .syscall (.spawnElf image) → ∀ d, v.alive d = false → v.mailbox d = []

theorem mem_accept {m' : Message} (member : m' ∈ v.mailbox owner) : m' ∈ (v.accept m).mailbox owner := by
  rw [accept_mailbox, update_apply]
  split
  next here => exact mem_append_left _ (here ▸ member)
  next => exact member

/-- A destroyed domain loses its messages, and nobody else does. -/
theorem remove_lost {e : Nat} (member : m ∈ v.mailbox owner)
    (gone : m ∉ (v.remove e).mailbox owner) : owner = e := by
  by_contra other
  rw [remove_mailbox, update_of_ne other] at gone
  exact gone member

theorem reclaim_lost (member : m ∈ v.mailbox owner)
    (gone : m ∉ v.reclaim.mailbox owner) : v.alive owner = true ∧ v.reclaim.alive owner = false := by
  have kept : (m ∈ v.reclaim.mailbox owner ∧ v.reclaim.alive owner = v.alive owner) ∨
      v.alive owner = true ∧ v.reclaim.alive owner = false := by
    apply reclaim_induction (P := fun w =>
      (m ∈ w.mailbox owner ∧ w.alive owner = v.alive owner) ∨
        v.alive owner = true ∧ w.alive owner = false)
    · exact .inl ⟨member, rfl⟩
    · intro w queued _ kept
      apply destroy_cases (P := fun w => (m ∈ w.mailbox owner ∧ w.alive owner = v.alive owner) ∨
        v.alive owner = true ∧ w.alive owner = false)
      · intro live
        by_cases here : owner = queued.id
        · subst here
          rcases kept with ⟨-, same⟩ | ⟨was, dead⟩
          · exact .inr ⟨same ▸ live, by rw [remove_alive, update_self]⟩
          · rw [live] at dead
            cases dead
        · rw [remove_mailbox, remove_alive, update_of_ne here, update_of_ne here]
          exact kept
      · exact kept
  rcases kept with ⟨still, -⟩ | lost
  · exact absurd still gone
  · exact lost

/-- **The ways out of a mailbox.** -/
theorem Step.removes (step : Step i me v op v') (roomy : v.Roomy me op)
    (member : m ∈ v.mailbox owner) (gone : m ∉ v'.mailbox owner) :
    v.Removed me.domain op v' owner m := by
  cases step with
  | send | fault | irq | call | reply => exact absurd (mem_accept member) gone
  | receive receives outside front =>
    rw [setTask_mailbox, setMailbox_mailbox, update_apply] at gone
    split at gone
    next here =>
      subst here
      rw [front, mem_cons] at member
      rcases member with rfl | later
      · exact .inl ⟨rfl, .inl rfl⟩
      · exact absurd later gone
    next => exact absurd member gone
  | «return» waiting found =>
    rename_i callee request taken
    rw [setTask_mailbox, setMailbox_mailbox, update_apply] at gone
    split at gone
    next here =>
      subst here
      have isTaken : m = taken := by
        by_contra other
        exact gone (mem_eraseP_of_find found member other)
      subst isTaken
      exact .inl ⟨rfl, .inr ⟨callee, request, rfl⟩⟩
    next => exact absurd member gone
  | destroy owned =>
    unfold View.destroy at gone ⊢
    split at gone
    next live =>
      obtain rfl := remove_lost member gone
      refine .inr (.inl ⟨live, ?_⟩)
      rw [if_pos live, remove_alive, update_self]
    next => exact absurd member gone
  | spawn unused free =>
    rename_i segments d slot
    by_cases here : owner = d
    · subst here
      rw [roomy.spawn _ rfl owner unused] at member
      cases member
    · exact absurd (by simpa [addTask, here] using member) gone
  | spawnFails unused =>
    rename_i segments d
    by_cases here : owner = d
    · subst here
      rw [roomy.spawn _ rfl owner unused] at member
      cases member
    · have live : (v.create d me.domain).alive d = true := by
        rw [create_alive, update_self]
      rw [View.destroy, if_pos live] at gone
      exact absurd (by simpa [here] using member) gone
  | restart live idle free =>
    rename_i target slot segments
    by_cases here : owner = target
    · exact .inr (.inr ⟨some segments, by rw [here]⟩)
    · exact absurd (by simpa [addTask, here] using member) gone
  | restartFails live idle =>
    rename_i target segments
    by_cases here : owner = target
    · exact .inr (.inr ⟨some segments, by rw [here]⟩)
    · exact absurd (by simpa [here] using member) gone
  | tick => exact .inr (.inl (reclaim_lost member gone))
  | _ => exact absurd member gone

/-! ## The capacity -/

/-- No mailbox holds more than its capacity. -/
def Bounded (v : View) : Prop := ∀ d, (v.mailbox d).length ≤ MAILBOX_CAP

theorem Bounded.of_mailbox (bounded : v.Bounded)
    (fewer : ∀ d, v'.mailbox d = v.mailbox d ∨ v'.mailbox d = []) : v'.Bounded := by
  intro d
  rcases fewer d with same | empty
  · rw [same]
    exact bounded d
  · rw [empty]
    exact Nat.zero_le _

theorem Bounded.accept (bounded : v.Bounded)
    (room : (v.mailbox m.receiver).length < MAILBOX_CAP) : (v.accept m).Bounded := by
  intro d
  rw [accept_mailbox, update_apply]
  split
  · rw [length_append, length_singleton]
    exact room
  · exact bounded d

theorem Bounded.setMailbox (bounded : v.Bounded) (shorter : rest.length ≤ (v.mailbox owner).length) :
    (v.setMailbox owner rest event).Bounded := by
  intro d
  rw [setMailbox_mailbox, update_apply]
  split
  · exact shorter.trans (bounded owner)
  · exact bounded d

theorem Bounded.setTask (bounded : v.Bounded) (j : Nat) (core : TaskCore) :
    (v.setTask j core).Bounded :=
  bounded

theorem Bounded.destroy (bounded : v.Bounded) (e : Nat) : (v.destroy e).Bounded :=
  destroy_cases (fun _ => bounded.of_mailbox (update_nil_cases v.mailbox e)) bounded

theorem Step.bounded (bounded : v.Bounded) (step : Step i me v op v') (roomy : v.Roomy me op) :
    v'.Bounded := by
  cases step with
  | send allowed room | fault registered room | irq room => exact bounded.accept room
  | call allowed => exact bounded.accept (roomy.call _ _ _ rfl)
  | reply saved => exact bounded.accept (roomy.reply _ _ rfl saved)
  | receive receives outside front =>
    apply Bounded.setTask
    apply bounded.setMailbox
    rw [front]
    exact Nat.le_succ _
  | «return» waiting found =>
    apply Bounded.setTask
    apply bounded.setMailbox
    exact length_eraseP_le
  | destroy owned => exact bounded.destroy _
  | spawn unused free => exact bounded.of_mailbox (update_nil_cases v.mailbox _)
  | spawnFails unused =>
    exact Bounded.destroy (bounded.of_mailbox (update_nil_cases v.mailbox _)) _
  | restart | restartFails => exact bounded.of_mailbox (update_nil_cases v.mailbox _)
  | tick =>
    exact reclaim_induction (P := Bounded) bounded fun w queued _ bounded => bounded.destroy queued.id
  | _ => exact bounded

/-! ## The numbers of messages -/

/-- Messages are numbered in the order of acceptance, so no two are the same. -/
structure Numbered (v : View) : Prop where
  below : ∀ m ∈ v.log.filterMap Event.message, m.serial < v.serial
  order : (v.log.filterMap Event.message).Pairwise fun m m' => m.serial < m'.serial

theorem Numbered.accept (numbered : v.Numbered) (next : m.serial = v.serial) : (v.accept m).Numbered := by
  have log : (v.accept m).log.filterMap Event.message = v.log.filterMap Event.message ++ [m] := by
    rw [accept_log, filterMap_append]
    rfl
  constructor
  · intro m' member
    rw [log, mem_append, mem_singleton] at member
    rcases member with earlier | rfl
    · exact Nat.lt_succ_of_lt (numbered.below m' earlier)
    · rw [next]
      exact Nat.lt_succ_self _
  · rw [log, pairwise_append]
    refine ⟨numbered.order, pairwise_singleton _ _, ?_⟩
    intro m' earlier last isLast
    rw [mem_singleton.mp isLast, next]
    exact numbered.below m' earlier

/-- Steps that accept nothing. -/
theorem Numbered.of_log (numbered : v.Numbered)
    (log : v'.log.filterMap Event.message = v.log.filterMap Event.message)
    (serial : v'.serial = v.serial) : v'.Numbered := by
  constructor
  · rw [log, serial]
    exact numbered.below
  · rw [log]
    exact numbered.order

theorem Numbered.setMailbox (numbered : v.Numbered)
    (taken : event.message = none) : (v.setMailbox owner rest event).Numbered := by
  refine numbered.of_log ?_ rfl
  rw [setMailbox_log, filterMap_append, filterMap_cons_none taken, filterMap_nil, append_nil]

theorem Numbered.setTask (numbered : v.Numbered) (j : Nat) (core : TaskCore) :
    (v.setTask j core).Numbered :=
  numbered.of_log rfl rfl

theorem Numbered.destroy (numbered : v.Numbered) (e : Nat) : (v.destroy e).Numbered :=
  destroy_cases (fun _ => numbered.of_log rfl rfl) numbered

theorem Step.numbered (numbered : v.Numbered) (step : Step i me v op v') : v'.Numbered := by
  cases step with
  | send | fault | irq => exact numbered.accept rfl
  | call allowed =>
    apply Numbered.setTask
    exact numbered.accept rfl
  | reply saved => exact numbered.accept rfl
  | receive receives outside front | «return» waiting found =>
    apply Numbered.setTask
    exact numbered.setMailbox rfl
  | destroy owned => exact numbered.destroy _
  | spawnFails unused =>
    rename_i segments d
    have created : (v.create d me.domain).Numbered := numbered.of_log rfl rfl
    exact created.destroy d
  | tick =>
    refine reclaim_induction (P := Numbered) ?_ ?_
    · exact numbered.of_log rfl rfl
    · exact fun w queued _ numbered => numbered.destroy queued.id
  | _ => exact numbered.of_log rfl rfl

end View

/-! ## Runs -/

namespace KernelState

/-- In the state before the step, `call` and `reply` find room and a domain is
created only while no unused number has messages. -/
def Roomy (s : KernelState) (op : Op) : Prop := ∀ me, s.Runs me → s.view.Roomy me op

end KernelState

open KernelState

/-- **Mailboxes are bounded queues** along every run in which `call` and `reply`
find room and no unused number has messages when a domain is created: the
capacity is kept, messages of one sender are taken in the order of acceptance,
and a message leaves its mailbox only when the owner receives it, is destroyed or
is restarted. -/
theorem mailboxes_are_bounded_queues (mp : Mapper) {start s : KernelState}
    {history : List Transition} (booted : Booted start) (ran : Run mp start history s)
    (roomy : ∀ t ∈ history, t.before.Roomy t.op) :
    s.view.Bounded ∧ s.view.Numbered ∧ s.view.Fifo ∧
      ∀ t ∈ history, ∀ owner, ∀ m ∈ t.before.view.mailbox owner, m ∉ t.after.view.mailbox owner →
        ∃ caller, t.before.sched.currentDomain = some caller ∧
          t.before.view.Removed caller t.op t.after.view owner m := by
  have live := booted.currentLive
  have empty : ∀ d, start.view.mailbox d = [] := booted.mailboxes
  have noLog : start.view.log = [] := booted.log
  refine ⟨?_, ?_, ?_, ?_⟩
  · refine ran.invariant (I := View.Bounded) live ?_ ?_ roomy
    · intro d
      rw [empty d]
      exact Nat.zero_le _
    · intro s s' me op bounded roomy runs _ step
      exact step.bounded bounded (roomy me runs)
  · refine ran.invariant (I := View.Numbered) live ?_ ?_ roomy
    · constructor <;> simp [noLog]
    · exact fun numbered _ _ _ step => step.numbered numbered
  · refine ran.invariant (I := View.Fifo) live ?_ ?_ roomy
    · intro owner sender
      simp [noLog, empty]
    · exact fun fifo _ _ _ step => step.fifo fifo
  · intro t member owner m before after
    obtain ⟨me, runs, allowed⟩ := ran.step_of_mem live member
    exact ⟨me.domain, runs.currentDomain, allowed.removes (roomy t member me runs) before after⟩

/-! ## Two runs -/

/-- The decidable part of `Roomy`, for runs without new domains. -/
def roomyStep (s : KernelState) : Op → Bool
  | .syscall (.call callee _ _) => decide ((s.view.mailbox callee).length < MAILBOX_CAP)
  | .syscall (.reply _) => (s.sched.core s.sched.current).all fun me =>
    me.replyTarget.all fun target => decide ((s.view.mailbox target).length < MAILBOX_CAP)
  | .syscall (.spawnElf _) => false
  | _ => true

theorem roomy_of_roomyStep {s : KernelState} {op : Op} (checked : roomyStep s op = true) :
    s.Roomy op := by
  intro me runs
  constructor
  · rintro callee tag payload rfl
    exact of_decide_eq_true checked
  · rintro tag target rfl saved
    have running : s.sched.core s.sched.current = some me := runs
    rw [roomyStep, running, Option.all_some, saved, Option.all_some] at checked
    exact of_decide_eq_true checked
  · rintro image rfl
    cases checked

/-- The application calls the file system, which answers. -/
def demoAnswer : List Op :=
  yields 2 ++ [.syscall (.call mfsDomain 1 [])] ++ yields 1 ++ [.syscall .recv, .syscall (.reply 7)]

/-- The call returns. -/
def demoCall : List Op := demoAnswer ++ yields 6 ++ [.resume]

theorem demoCall_bounded : ∃ s history, Run Mapper.fourLevel demoKernel history s ∧
    s.log.length = 4 ∧ s.view.Bounded ∧ s.view.Numbered ∧ s.view.Fifo ∧
      ∀ t ∈ history, ∀ owner, ∀ m ∈ t.before.view.mailbox owner, m ∉ t.after.view.mailbox owner →
        ∃ caller, t.before.sched.currentDomain = some caller ∧
          t.before.view.Removed caller t.op t.after.view owner m := by
  obtain ⟨s, ran, evaluated⟩ : ∃ s ∈ demoKernel.runChecked roomyStep Mapper.fourLevel demoCall,
      s.log.length = 4 := by decide +kernel
  obtain ⟨history, steps, checked⟩ := Run.of_runChecked ran
  exact ⟨s, history, steps, evaluated,
    mailboxes_are_bounded_queues Mapper.fourLevel demoKernel_booted steps
      fun t member => roomy_of_roomyStep (checked t member)⟩

/-- The application fills the mailbox of the file system and then calls it. -/
def demoFlood : List Op :=
  yields 2 ++ List.replicate MAILBOX_CAP (.syscall (.send mfsDomain 1 [])) ++
    [.syscall (.call mfsDomain 1 [])]

/-- One message more than the capacity. -/
theorem call_overfills_mailbox : ∃ s history, Run Mapper.fourLevel demoKernel history s ∧
    (s.view.mailbox mfsDomain).length = MAILBOX_CAP + 1 := by
  obtain ⟨s, ran, evaluated⟩ : ∃ s ∈ demoKernel.run Mapper.fourLevel demoFlood,
      (s.view.mailbox mfsDomain).length = MAILBOX_CAP + 1 := by decide +kernel
  obtain ⟨history, steps, -⟩ := Run.of_run ran
  exact ⟨s, history, steps, evaluated⟩

end MorionOS.Kernel
