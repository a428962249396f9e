import MorionOS.Kernel.Calls

/-!
# Waiting callers

A task inside `ipc::call` is woken by the reply, or gives up when the callee has no live task.
Between the two the request is in the callee's mailbox or in the hands of a task that received
it, and that task keeps one reply target only: after a second request nobody answers the first
(`second_request_orphans_first`).  `no_caller_is_orphaned` is about the other runs.
-/

namespace MorionOS.Kernel

open Function Option

namespace View

/-- The reply to the request is in the caller's mailbox. -/
def Replied (v : View) (d callee request : Nat) : Prop :=
  ∃ m ∈ v.mailbox d, m.sender = callee ∧ m.answers = some request

/-- The live task in slot `j` received the request and its reply target is the
caller. -/
def HeldAt (v : View) (j d callee request : Nat) : Prop :=
  ∃ t, v.task j = some t ∧ t.live = true ∧ t.domain = callee ∧ t.replyTarget = some d ∧
    t.received = some request

/-- Where the request of a waiting task can be. -/
inductive Attended (v : View) (d callee request : Nat) : Prop where
  | queued (m : Message) (member : m ∈ v.mailbox callee) (sent : m.sender = d)
      (numbered : m.serial = request)
  | held (j : Nat) (held : v.HeldAt j d callee request)
  | replied (replied : v.Replied d callee request)
  | idle (idle : v.Idle callee)

/-- Every waiting task is attended. -/
def NoOrphans (v : View) : Prop :=
  ∀ d callee request, v.Waits d callee request → v.Attended d callee request

variable {v v' : View} {i j d callee request : Nat} {me t' : TaskCore} {op : Op}

/-! ## Keeping a request attended -/

theorem Replied.mono (replied : v.Replied d callee request)
    (kept : ∀ m ∈ v.mailbox d, m.sender = callee → m ∈ v'.mailbox d) :
    v'.Replied d callee request := by
  obtain ⟨m, member, sent, answers⟩ := replied
  exact ⟨m, kept m member sent, sent, answers⟩

theorem Attended.mono (attended : v.Attended d callee request)
    (requests : ∀ m ∈ v.mailbox callee, m.sender = d → m.serial = request → m ∈ v'.mailbox callee)
    (replies : ∀ m ∈ v.mailbox d, m.sender = callee → m ∈ v'.mailbox d)
    (held : ∀ j, v.HeldAt j d callee request → v'.Attended d callee request)
    (idle : v.Idle callee → v'.Idle callee) : v'.Attended d callee request := by
  cases attended with
  | queued m member sent numbered =>
    exact .queued m (requests m member sent numbered) sent numbered
  | held j holds => exact held j holds
  | replied replied => exact .replied (replied.mono replies)
  | idle isIdle => exact .idle (idle isIdle)

theorem Attended.accept (attended : v.Attended d callee request) (m : Message) :
    (v.accept m).Attended d callee request :=
  attended.mono (fun _ member _ _ => mem_accept member) (fun _ member _ => mem_accept member)
    (fun j held => .held j held) id

/-- The new core of the running task has the same request in hand. -/
theorem HeldAt.setTask (held : v.HeldAt j d callee request) (runs : v.task i = some me)
    (live : t'.live = me.live) (domain : t'.domain = me.domain)
    (target : t'.replyTarget = me.replyTarget) (received : t'.received = me.received) :
    (v.setTask i t').HeldAt j d callee request := by
  obtain ⟨t, found, holds⟩ := held
  by_cases here : j = i
  · subst here
    obtain rfl : t = me := some.inj (found.symm.trans runs)
    refine ⟨t', ?_, ?_⟩
    · rw [setTask_task, update_self]
    · rw [live, domain, target, received]
      exact holds
  · refine ⟨t, ?_, holds⟩
    rw [setTask_task, update_of_ne here]
    exact found

theorem HeldAt.setTask_of_ne (held : v.HeldAt j d callee request) (other : j ≠ i) :
    (v.setTask i t').HeldAt j d callee request := by
  obtain ⟨t, found, holds⟩ := held
  refine ⟨t, ?_, holds⟩
  rw [setTask_task, update_of_ne other]
  exact found

theorem HeldAt.core (held : v.HeldAt i d callee request) (runs : v.task i = some me) :
    me.domain = callee ∧ me.replyTarget = some d ∧ me.received = some request := by
  obtain ⟨t, found, -, holds⟩ := held
  obtain rfl : t = me := some.inj (found.symm.trans runs)
  exact holds

theorem Attended.setTask (attended : v.Attended d callee request) (runs : v.task i = some me)
    (live : t'.live = me.live) (domain : t'.domain = me.domain)
    (target : t'.replyTarget = me.replyTarget) (received : t'.received = me.received) :
    (v.setTask i t').Attended d callee request := by
  apply attended.mono
  · exact fun _ member _ _ => member
  · exact fun _ member _ => member
  · exact fun j held => .held j (held.setTask runs live domain target received)
  · exact fun idle => idle.setTask runs domain fun alive => live ▸ alive

variable {e slot : Nat}

theorem Attended.remove (attended : v.Attended d callee request) (other : d ≠ e) :
    (v.remove e).Attended d callee request := by
  by_cases here : callee = e
  · refine .idle fun j t found inDomain => ?_
    exact absurd (inDomain.trans here) (remove_task_eq_some.mp found).2
  · apply attended.mono
    · intro m member _ _
      rwa [remove_mailbox, update_of_ne here]
    · intro m member _
      rwa [remove_mailbox, update_of_ne other]
    · rintro j ⟨t, found, live, domain, rest⟩
      exact .held j ⟨t, remove_task_eq_some.mpr ⟨found, domain ▸ here⟩, live, domain, rest⟩
    · exact fun idle j t found inDomain => idle j t (remove_task_eq_some.mp found).1 inDomain

theorem NoOrphans.destroy (inv : v.NoOrphans) (e : Nat) : (v.destroy e).NoOrphans := by
  apply destroy_cases
  · rintro - d callee request ⟨j, waits⟩
    obtain ⟨other, before⟩ := waits.of_remove
    exact (inv d callee request ⟨j, before⟩).remove other
  · exact inv

theorem WaitsAt.ne_of_not_alive (waits : v.WaitsAt j d callee request)
    (housed : v.Housed) (unused : v.alive e = false) : d ≠ e := by
  rintro rfl
  obtain ⟨t, found, -, rfl, -⟩ := waits
  rw [housed j t found] at unused
  cases unused

theorem WaitsAt.ne_of_idle (waits : v.WaitsAt j d callee request) (idle : v.Idle e) : d ≠ e := by
  rintro rfl
  obtain ⟨t, found, live, inDomain, -⟩ := waits
  rw [idle j t found inDomain] at live
  cases live

section

variable (attended : v.Attended d callee request)
include attended

theorem Attended.create {loader : Nat} (caller : d ≠ e)
    (other : callee ≠ e) : (v.create e loader).Attended d callee request := by
  apply attended.mono
  · intro m member _ _
    rwa [create_mailbox, update_of_ne other]
  · intro m member _
    rwa [create_mailbox, update_of_ne caller]
  · exact fun j held => .held j held
  · exact id

theorem Attended.reset (caller : d ≠ e)
    (other : callee ≠ e) : (v.reset e).Attended d callee request := by
  apply attended.mono
  · intro m member _ _
    rwa [reset_mailbox, update_of_ne other]
  · intro m member _
    rwa [reset_mailbox, update_of_ne caller]
  · rintro j ⟨t, found, live, domain, rest⟩
    refine .held j ⟨t, ?_, live, domain, rest⟩
    rw [reset_task, found, filter_some, live]
    simp
  · exact fun idle j t found inDomain => idle j t (reset_task_eq_some found) inDomain

/-- A new task of another domain in a free slot. -/
theorem Attended.addTask (free : v.task slot = none) (other : callee ≠ e) :
    (v.addTask slot e).Attended d callee request := by
  apply attended.mono
  · exact fun _ member _ _ => member
  · exact fun _ member _ => member
  · intro j held
    refine .held j (held.setTask_of_ne ?_)
    rintro rfl
    obtain ⟨t, found, -⟩ := held
    rw [free] at found
    cases found
  · exact fun idle => idle.addTask (Ne.symm other)

end

/-! ## Steps -/

/-- In the state before the step: a task that takes the next message has answered
the request in its hands, and the message is not the reply that another task of its
domain waits for; a task whose call returns shares its callee with no other task of
its domain and is not called by it; a task exits with no unanswered request unless
it is the last of its domain; and nobody waits without a reply for a domain that
is restarted or whose number is used again. -/
structure Attentive (v : View) (i : Nat) (me : TaskCore) (op : Op) : Prop where
  receive : op = .syscall .recv ∨ op = .syscall .tryRecv ∨ op = .resume → me.call = none →
    ∀ m rest, v.mailbox me.domain = m :: rest →
      (∀ request, ¬ v.Waits me.domain m.sender request) ∧
        ∀ d request, v.Waits d me.domain request → me.replyTarget = some d →
          me.received = some request → v.Replied d me.domain request
  returns : op = .resume → ∀ callee request, me.call = some (callee, request) →
    (∀ other, ¬ v.Waits callee me.domain other) ∧
      ∀ j other, j ≠ i → ¬ v.WaitsAt j me.domain callee other
  exit : op = .syscall .exit ∨ (∃ addr code, op = .pageFault true addr code) →
    ∀ d request, v.Waits d me.domain request → me.replyTarget = some d →
      me.received = some request → v.Replied d me.domain request ∨
        ∀ j t, j ≠ i → v.task j = some t → t.domain = me.domain → t.live = false
  spawn : ∀ image, op = .syscall (.spawnElf image) → ∀ d callee request, v.alive callee = false →
    v.Waits d callee request → v.Replied d callee request
  restart : ∀ target image, op = .syscall (.spawnElfAt target image) → ∀ d request,
    v.Waits d target request → v.Replied d target request

section

variable (inv : v.NoOrphans)
include inv

/-- The request that the running task takes out of the mailbox is in its hands. -/
theorem NoOrphans.receive (runs : v.task i = some me) (live : me.live = true)
    {m : Message} {rest : List Message} (outside : me.call = none)
    (front : v.mailbox me.domain = m :: rest)
    (notReply : ∀ request, ¬ v.Waits me.domain m.sender request)
    (answered : ∀ d request, v.Waits d me.domain request → me.replyTarget = some d →
      me.received = some request → v.Replied d me.domain request) :
    ((v.setMailbox me.domain rest (.received me.domain m)).setTask i
      { me with replyTarget := some m.sender, received := some m.serial }).NoOrphans := by
  rintro d callee request ⟨j, waits⟩
  have before : v.WaitsAt j d callee request := (WaitsAt.of_setTask_none (by exact outside) waits).2
  have waited : v.Waits d callee request := ⟨j, before⟩
  have replies : ∀ m' ∈ v.mailbox d, m'.sender = callee →
      m' ∈ (v.setMailbox me.domain rest (.received me.domain m)).mailbox d := by
    intro m' member sent
    rw [setMailbox_mailbox, update_apply]
    split
    next here =>
      subst here
      rw [front, List.mem_cons] at member
      rcases member with rfl | later
      · exact absurd (sent ▸ waited) (notReply request)
      · exact later
    next => exact member
  cases inv d callee request waited with
  | queued m' member sent numbered =>
    by_cases here : callee = me.domain
    · subst here
      rw [front, List.mem_cons] at member
      rcases member with rfl | later
      · refine .held i ⟨_, update_self .., live, rfl, ?_, ?_⟩
        · exact congrArg some sent
        · exact congrArg some numbered
      · refine .queued m' ?_ sent numbered
        rw [setTask_mailbox, setMailbox_mailbox, update_self]
        exact later
    · refine .queued m' ?_ sent numbered
      rw [setTask_mailbox, setMailbox_mailbox, update_of_ne here]
      exact member
  | held j' held =>
    by_cases here : j' = i
    · subst here
      obtain ⟨rfl, target, received⟩ := held.core runs
      exact .replied ((answered d request waited target received).mono replies)
    · have kept : (v.setMailbox me.domain rest (.received me.domain m)).HeldAt j' d callee request :=
        held
      exact .held j' (kept.setTask_of_ne here)
  | replied replied => exact .replied (replied.mono replies)
  | idle idle =>
    have kept : (v.setMailbox me.domain rest (.received me.domain m)).Idle callee := idle
    exact .idle (kept.setTask runs rfl id)

theorem NoOrphans.returns (runs : v.task i = some me) {m : Message}
    (found : (v.mailbox me.domain).find? (fun m => m.sender = callee) = some m)
    (notCalled : ∀ other, ¬ v.Waits callee me.domain other)
    (alone : ∀ j other, j ≠ i → ¬ v.WaitsAt j me.domain callee other) :
    ((v.setMailbox me.domain ((v.mailbox me.domain).eraseP fun m => m.sender = callee)
      (.returned me.domain callee request m)).setTask i { me with call := none }).NoOrphans := by
  have isCallee : m.sender = callee := by simpa using List.find?_some found
  rintro d callee' request' ⟨j, waits⟩
  obtain ⟨other, before⟩ := waits.of_setTask_none rfl
  refine Attended.setTask ?_ runs rfl rfl rfl rfl
  apply (inv d callee' request' ⟨j, before⟩).mono
  · intro m' member sent _
    rw [setMailbox_mailbox, update_apply]
    split
    next here =>
      subst here
      apply mem_eraseP_of_find found member
      rintro rfl
      exact notCalled request' ⟨j, isCallee ▸ sent ▸ before⟩
    next => exact member
  · intro m' member sent
    rw [setMailbox_mailbox, update_apply]
    split
    next here =>
      subst here
      apply mem_eraseP_of_find found member
      rintro rfl
      exact alone j request' other (isCallee ▸ sent ▸ before)
    next => exact member
  · exact fun j held => .held j held
  · exact id

theorem NoOrphans.exit (runs : v.task i = some me)
    (answered : ∀ d request, v.Waits d me.domain request → me.replyTarget = some d →
      me.received = some request → v.Replied d me.domain request ∨
        ∀ j t, j ≠ i → v.task j = some t → t.domain = me.domain → t.live = false) :
    (v.setTask i { me with live := false }).NoOrphans := by
  rintro d callee request ⟨j, waits⟩
  obtain ⟨-, before⟩ := waits.of_setTask_dead rfl
  have waited : v.Waits d callee request := ⟨j, before⟩
  apply (inv d callee request waited).mono
  · exact fun _ member _ _ => member
  · exact fun _ member _ => member
  · intro j' held
    by_cases here : j' = i
    · subst here
      obtain ⟨rfl, target, received⟩ := held.core runs
      rcases answered d request waited target received with replied | last
      · exact .replied replied
      · refine .idle fun k t found inDomain => ?_
        rw [setTask_task, update_apply] at found
        split at found
        next => cases found; rfl
        next other => exact last k t other found inDomain
    · exact .held j' (held.setTask_of_ne here)
  · exact fun idle => idle.setTask runs rfl (by simp)

/-- A new domain whose number nobody waits for without a reply. -/
theorem NoOrphans.spawn (housed : v.Housed) {loader : Nat}
    (unused : v.alive e = false) (free : v.task slot = none)
    (answered : ∀ d request, v.Waits d e request → v.Replied d e request) :
    ((v.create e loader).addTask slot e).NoOrphans := by
  rintro d callee request ⟨j, waits⟩
  have before : v.WaitsAt j d callee request := (waits.of_setTask_none rfl).2
  have waited : v.Waits d callee request := ⟨j, before⟩
  have caller : d ≠ e := before.ne_of_not_alive housed unused
  by_cases here : callee = e
  · subst here
    refine .replied ((answered d request waited).mono ?_)
    intro m member _
    change m ∈ (v.create callee loader).mailbox d
    rwa [create_mailbox, update_of_ne caller]
  · exact ((inv d callee request waited).create caller here).addTask free here

/-- A creation that is undone leaves nobody to wait for. -/
theorem NoOrphans.spawnFails (e loader : Nat) : ((v.create e loader).destroy e).NoOrphans := by
  have live : (v.create e loader).alive e = true := by rw [create_alive, update_self]
  rw [View.destroy, if_pos live]
  rintro d callee request ⟨j, waits⟩
  obtain ⟨caller, before⟩ := waits.of_remove
  have waited : v.Waits d callee request := ⟨j, before⟩
  by_cases here : callee = e
  · refine .idle fun k t found inDomain => ?_
    exact absurd (inDomain.trans here) (remove_task_eq_some.mp found).2
  · exact ((inv d callee request waited).create caller here).remove caller

/-- A restart of a domain that nobody waits for without a reply. -/
theorem NoOrphans.restart (idle : v.Idle e) (free : (v.reset e).task slot = none)
    (answered : ∀ d request, v.Waits d e request → v.Replied d e request) :
    ((v.reset e).addTask slot e).NoOrphans := by
  rintro d callee request ⟨j, waits⟩
  have before := (waits.of_setTask_none rfl).2.of_reset
  have waited : v.Waits d callee request := ⟨j, before⟩
  have caller : d ≠ e := before.ne_of_idle idle
  by_cases here : callee = e
  · subst here
    refine .replied ((answered d request waited).mono ?_)
    intro m member _
    change m ∈ (v.reset callee).mailbox d
    rwa [reset_mailbox, update_of_ne caller]
  · exact ((inv d callee request waited).reset caller here).addTask free here

theorem NoOrphans.restartFails (idle : v.Idle e) : (v.reset e).NoOrphans := by
  rintro d callee request ⟨j, waits⟩
  have before := waits.of_reset
  by_cases here : callee = e
  · subst here
    exact .idle fun k t found inDomain => idle k t (reset_task_eq_some found) inDomain
  · exact (inv d callee request ⟨j, before⟩).reset (before.ne_of_idle idle) here

/-- Only mailboxes and tasks matter. -/
theorem NoOrphans.of_same (mailbox : v'.mailbox = v.mailbox)
    (task : v'.task = v.task) : v'.NoOrphans := by
  rintro d callee request ⟨j, t, found, waiting⟩
  rw [task] at found
  apply (inv d callee request ⟨j, t, found, waiting⟩).mono
  · exact fun m member _ _ => mailbox ▸ member
  · exact fun m member _ => mailbox ▸ member
  · rintro j ⟨t, found, holds⟩
    exact .held j ⟨t, task ▸ found, holds⟩
  · exact fun idle j t found => idle j t (task ▸ found)

/-- **No step orphans a caller** unless it drops a request unanswered. -/
theorem NoOrphans.step (housed : v.Housed) (runs : v.task i = some me)
    (live : me.live = true) (step : Step i me v op v') (attentive : v.Attentive i me op) :
    v'.NoOrphans := by
  have accepts : ∀ m, (v.accept m).NoOrphans :=
    fun m d callee request waits => (inv d callee request waits).accept m
  cases step with
  | send | fault | irq | reply => exact accepts _
  | call allowed =>
    rename_i callee tag payload
    rintro d callee' request ⟨j, waits⟩
    rcases waits.of_setTask with ⟨-, -, rfl, waiting⟩ | ⟨-, before⟩
    · -- the new request is the last message of the callee's mailbox
      cases waiting
      refine .queued ⟨me.domain, callee, tag, fitPayload payload, v.serial, none⟩ ?_ rfl rfl
      rw [setTask_mailbox, accept_mailbox, update_self]
      exact List.mem_append_right _ List.mem_cons_self
    · exact Attended.setTask (accepts _ d callee' request ⟨j, before⟩) runs rfl rfl rfl rfl
  | receive receives outside front =>
    obtain ⟨notReply, answered⟩ := attentive.receive receives outside _ _ front
    exact inv.receive runs live outside front notReply answered
  | «return» waiting found =>
    obtain ⟨notCalled, alone⟩ := attentive.returns rfl _ _ waiting
    exact inv.returns runs found notCalled alone
  | giveUp waiting idle =>
    rintro d callee request ⟨j, waits⟩
    have before := (waits.of_setTask_none rfl).2
    exact (inv d callee request ⟨j, before⟩).setTask runs rfl rfl rfl rfl
  | exitLast exits last runtime =>
    have queued : (v.queue me.domain).NoOrphans := inv.of_same rfl rfl
    exact queued.exit runs (attentive.exit exits)
  | exit exits => exact inv.exit runs (attentive.exit exits)
  | destroy owned => exact inv.destroy _
  | spawn unused free =>
    rename_i segments e slot
    exact inv.spawn housed unused free fun d request => attentive.spawn _ rfl d e request unused
  | spawnFails unused =>
    rename_i segments e
    exact inv.spawnFails e me.domain
  | restart alive idle free => exact inv.restart idle free (attentive.restart _ _ rfl)
  | restartFails alive idle => exact inv.restartFails idle
  | tick =>
    apply reclaim_induction (P := NoOrphans)
    · exact inv.of_same rfl rfl
    · exact fun w queued _ inv => inv.destroy queued.id
  | _ => exact inv.of_same rfl rfl

end

end View

/-! ## Runs -/

namespace KernelState

/-- In the state before the step no request is dropped unanswered. -/
def Attentive (s : KernelState) (op : Op) : Prop :=
  ∀ me, s.Runs me → s.view.Attentive s.sched.current me op

end KernelState

open KernelState

/-- **No caller is orphaned** along every run in which no step drops a request
unanswered: the request of every waiting task is in the callee's mailbox, in the
hands of a live task of the callee that will reply to the caller, or answered in
the caller's mailbox, or the callee has no live task. -/
theorem no_caller_is_orphaned (mp : Mapper) {start s : KernelState} {history : List Transition}
    (booted : Booted start) (ran : Run mp start history s)
    (attentive : ∀ t ∈ history, t.before.Attentive t.op) : s.view.NoOrphans := by
  have both : s.view.Housed ∧ s.view.NoOrphans := by
    refine ran.invariant (I := fun v => v.Housed ∧ v.NoOrphans) booted.currentLive ⟨?_, ?_⟩ ?_
      attentive
    · exact booted.exited.housed
    · rintro d callee request ⟨j, waits⟩
      exact absurd waits (booted.not_waits j d callee request)
    · intro s s' me op inv attentive runs live step
      exact ⟨inv.1.step runs step, inv.2.step inv.1 runs (live me runs) step (attentive me runs)⟩
  exact both.2

/-! ## Two runs -/

/-- The decidable part of `Attentive`, for runs in which every task receives at
most once. -/
def attentiveStep (s : KernelState) : Op → Bool
  | .syscall .recv => (s.sched.core s.sched.current).all fun me =>
    decide (me.replyTarget = none) && (s.view.mailbox me.domain).all fun m =>
      s.sched.allCores fun t => t.call.all fun waiting => decide (waiting.1 ≠ m.sender)
  | .syscall .tryRecv | .syscall .exit | .syscall (.spawnElf _) | .syscall (.spawnElfAt ..)
  | .pageFault .. | .resume => false
  | _ => true

theorem attentive_of_attentiveStep {s : KernelState} {op : Op}
    (checked : attentiveStep s op = true) : s.Attentive op := by
  intro me runs
  have running : s.sched.core s.sched.current = some me := runs
  constructor
  · rintro (rfl | rfl | rfl) - m rest front
    · rw [attentiveStep, running, all_some, Bool.and_eq_true, decide_eq_true_eq, front,
        List.all_cons, Bool.and_eq_true] at checked
      obtain ⟨first, notReply, -⟩ := checked
      constructor
      · intro request waits
        exact of_decide_eq_true (waits_of_allCores notReply waits) rfl
      · intro d request _ target
        rw [first] at target
        cases target
    · cases checked
    · cases checked
  · rintro rfl
    cases checked
  · rintro (rfl | ⟨addr, code, rfl⟩)
    · cases checked
    · cases checked
  · rintro image rfl
    cases checked
  · rintro target image rfl
    cases checked

theorem demoAnswer_attended : ∃ s history, Run Mapper.fourLevel demoKernel history s ∧
    s.view.Waits appDomain mfsDomain 0 ∧ s.view.NoOrphans := by
  obtain ⟨s, ran, evaluated⟩ : ∃ s ∈ demoKernel.runChecked attentiveStep Mapper.fourLevel demoAnswer,
      s.sched.core 2 = some ⟨appDomain, true, none, none, some (mfsDomain, 0)⟩ := by decide +kernel
  obtain ⟨history, steps, checked⟩ := Run.of_runChecked ran
  refine ⟨s, history, steps, ⟨2, _, evaluated, rfl, rfl, rfl⟩, ?_⟩
  exact no_caller_is_orphaned Mapper.fourLevel demoKernel_booted steps
    fun t member => attentive_of_attentiveStep (checked t member)

/-- The application and the shell call the file system, which receives both
requests before it replies. -/
def demoTwoCalls : List Op :=
  yields 2 ++ [.syscall (.call mfsDomain 1 []), .syscall (.call mfsDomain 1 []), .syscall .recv,
    .syscall .recv]

/-- The application waits for a reply that no task will write. -/
theorem second_request_orphans_first : ∃ s history, Run Mapper.fourLevel demoKernel history s ∧
    s.view.Waits appDomain mfsDomain 0 ∧ ¬ s.view.Attended appDomain mfsDomain 0 := by
  obtain ⟨s, ran, waits, noRequest, noReply, server, targets⟩ :
      ∃ s ∈ demoKernel.run Mapper.fourLevel demoTwoCalls,
        s.sched.core 2 = some ⟨appDomain, true, none, none, some (mfsDomain, 0)⟩ ∧
        s.view.mailbox mfsDomain = [] ∧ s.view.mailbox appDomain = [] ∧
        s.sched.core 4 = some ⟨mfsDomain, true, some shellDomain, some 1, none⟩ ∧
        s.sched.allCores (fun t => decide (t.domain = mfsDomain → t.replyTarget ≠ some appDomain)) =
          true := by decide +kernel
  obtain ⟨history, steps, -⟩ := Run.of_run ran
  refine ⟨s, history, steps, ⟨2, _, waits, rfl, rfl, rfl⟩, ?_⟩
  rintro (⟨m, member, -, -⟩ | ⟨j, t, found, -, domain, target, -⟩ | ⟨m, member, -, -⟩ | idle)
  · rw [noRequest] at member
    cases member
  · exact of_decide_eq_true (Sched.of_allCores targets found) domain target
  · rw [noReply] at member
    cases member
  · cases idle 4 _ server rfl

end MorionOS.Kernel
