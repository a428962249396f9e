import MorionOS.Kernel.Mailboxes

/-!
# Answers to calls

`ipc::call` waits in the caller's own mailbox for the first message whose sender
is the callee.  Replies, requests and asynchronous messages share that mailbox and
carry no number of a request, so the callee's next message of any kind is taken
for the answer.  `calls_return_their_replies` says in which runs it is the answer, and
`call_returns_earlier_message` is a run in which it is not.
-/

namespace MorionOS.Kernel

open Function List Option

namespace View

/-- The live task in slot `j` is of domain `d` and waits in `call`. -/
def WaitsAt (v : View) (j d callee request : Nat) : Prop :=
  ∃ t, v.task j = some t ∧ t.live = true ∧ t.domain = d ∧ t.call = some (callee, request)

/-- A live task of domain `d` waits in `call`. -/
def Waits (v : View) (d callee request : Nat) : Prop := ∃ j, v.WaitsAt j d callee request

variable {v v' : View} {i j d callee request : Nat} {me t' : TaskCore} {op : Op}

/-! ## Who waits after a step -/

theorem WaitsAt.of_task (waits : v'.WaitsAt j d callee request)
    (kept : ∀ t, v'.task j = some t → v.task j = some t) : v.WaitsAt j d callee request := by
  obtain ⟨t, found, rest⟩ := waits
  exact ⟨t, kept t found, rest⟩

/-- The task that ran waits as its new core says, all others as before. -/
theorem WaitsAt.of_setTask (waits : (v.setTask i t').WaitsAt j d callee request) :
    (j = i ∧ t'.live = true ∧ t'.domain = d ∧ t'.call = some (callee, request)) ∨
      (j ≠ i ∧ v.WaitsAt j d callee request) := by
  obtain ⟨t, found, rest⟩ := waits
  rw [setTask_task, update_apply] at found
  split at found
  next here =>
    cases found
    exact .inl ⟨here, rest⟩
  next other => exact .inr ⟨other, t, found, rest⟩

theorem WaitsAt.of_setTask_none (outside : t'.call = none)
    (waits : (v.setTask i t').WaitsAt j d callee request) :
    j ≠ i ∧ v.WaitsAt j d callee request := by
  rcases waits.of_setTask with ⟨-, -, -, waiting⟩ | other
  · rw [outside] at waiting
    cases waiting
  · exact other

theorem WaitsAt.of_setTask_dead (dead : t'.live = false)
    (waits : (v.setTask i t').WaitsAt j d callee request) :
    j ≠ i ∧ v.WaitsAt j d callee request := by
  rcases waits.of_setTask with ⟨-, live, -⟩ | other
  · rw [dead] at live
    cases live
  · exact other

theorem WaitsAt.of_remove {e : Nat} (waits : (v.remove e).WaitsAt j d callee request) :
    d ≠ e ∧ v.WaitsAt j d callee request := by
  obtain ⟨t, found, live, rfl, waiting⟩ := waits
  obtain ⟨before, other⟩ := remove_task_eq_some.mp found
  exact ⟨other, t, before, live, rfl, waiting⟩

theorem WaitsAt.of_reset {e : Nat} (waits : (v.reset e).WaitsAt j d callee request) :
    v.WaitsAt j d callee request :=
  waits.of_task fun _ found => reset_task_eq_some found

/-! ## Matching -/

/-- While a task waits, every message of the callee in the domain's mailbox
answers its request. -/
def Matched (v : View) : Prop :=
  ∀ d callee request, v.Waits d callee request → ∀ m ∈ v.mailbox d, m.sender = callee →
    m.answers = some request

/-- Every call that returned got the reply to its own request. -/
def Answered (v : View) : Prop :=
  ∀ caller callee request m, .returned caller callee request m ∈ v.log →
    m.sender = callee ∧ m.answers = some request

/-- Nobody else waits and nothing new can be taken. -/
theorem Matched.mono (matched : v.Matched)
    (waits : ∀ j d callee request, v'.WaitsAt j d callee request → v.WaitsAt j d callee request)
    (fewer : ∀ d, v'.mailbox d ⊆ v.mailbox d) : v'.Matched := by
  rintro d callee request ⟨j, waiting⟩ m member sent
  exact matched d callee request ⟨j, waits j d callee request waiting⟩ m (fewer d member) sent

/-- A message that no task of the receiver mistakes for its answer. -/
theorem Matched.accept (matched : v.Matched) {m : Message}
    (harmless : ∀ request, v.Waits m.receiver m.sender request → m.answers = some request) :
    (v.accept m).Matched := by
  intro d callee request waits m' member sent
  rw [accept_mailbox, update_apply] at member
  split at member
  next here =>
    rcases mem_append.mp member with earlier | new
    · exact matched d callee request waits m' (here ▸ earlier) sent
    · obtain rfl := mem_singleton.mp new
      exact harmless request (here ▸ sent ▸ waits)
  next => exact matched d callee request waits m' member sent

theorem subset_of_cases {boxes boxes' : Nat → List Message}
    (fewer : ∀ d, boxes' d = boxes d ∨ boxes' d = []) (d : Nat) : boxes' d ⊆ boxes d := by
  rcases fewer d with same | empty
  · rw [same]
    exact List.Subset.refl _
  · rw [empty]
    exact nil_subset _

section

variable (matched : v.Matched)
include matched

theorem Matched.destroy (e : Nat) : (v.destroy e).Matched := by
  apply destroy_cases
  · intro _
    apply matched.mono
    · exact fun _ _ _ _ waits => waits.of_remove.2
    · exact subset_of_cases (update_nil_cases v.mailbox e)
  · exact matched

theorem Matched.create (e loader : Nat) : (v.create e loader).Matched :=
  matched.mono (fun _ _ _ _ waits => waits) (subset_of_cases (update_nil_cases v.mailbox e))

theorem Matched.reset (e : Nat) : (v.reset e).Matched :=
  matched.mono (fun _ _ _ _ waits => waits.of_reset) (subset_of_cases (update_nil_cases v.mailbox e))

theorem Matched.setTask (outside : t'.call = none ∨ t'.live = false) :
    (v.setTask i t').Matched := by
  refine matched.mono ?_ (fun _ => List.Subset.refl _)
  intro j d callee request waits
  rcases outside with none | dead
  · exact (waits.of_setTask_none none).2
  · exact (waits.of_setTask_dead dead).2

theorem Matched.setMailbox {owner : Nat} {rest : List Message} {event : Event}
    (fewer : rest ⊆ v.mailbox owner) : (v.setMailbox owner rest event).Matched := by
  refine matched.mono (fun _ _ _ _ waits => waits) ?_
  intro d
  rw [setMailbox_mailbox, update_apply]
  split
  next here => exact here ▸ fewer
  next => exact List.Subset.refl _

end

/-- In the state before the step: a domain sends to a domain that waits for it
only the reply to the request waited for, and it calls nobody whose messages are
unread. -/
structure Unambiguous (v : View) (me : TaskCore) (op : Op) : Prop where
  send : ∀ receiver tag payload, op = .syscall (.send receiver tag payload) →
    ∀ request, ¬ v.Waits receiver me.domain request
  call : ∀ callee tag payload, op = .syscall (.call callee tag payload) →
    callee ≠ me.domain ∧ (∀ request, ¬ v.Waits callee me.domain request) ∧
      ∀ m ∈ v.mailbox me.domain, m.sender ≠ callee
  fault : ∀ addr code pager, op = .pageFault false addr code → v.pager me.domain = some pager →
    ∀ request, ¬ v.Waits pager me.domain request
  irq : ∀ line data, op = .irq line data → ∀ d request, ¬ v.Waits d 0 request
  reply : ∀ tag target, op = .syscall (.reply tag) → me.replyTarget = some target →
    ∀ request, v.Waits target me.domain request → me.received = some request

theorem Matched.step (matched : v.Matched) (step : Step i me v op v')
    (clear : v.Unambiguous me op) : v'.Matched := by
  cases step with
  | send allowed room =>
    exact matched.accept fun request waits => absurd waits (clear.send _ _ _ rfl request)
  | fault registered room =>
    exact matched.accept fun request waits => absurd waits (clear.fault _ _ _ rfl registered request)
  | irq room => exact matched.accept fun request waits => absurd waits (clear.irq _ _ rfl _ request)
  | call allowed =>
    rename_i callee tag payload
    obtain ⟨other, noWait, unread⟩ := clear.call _ _ _ rfl
    have accepted : (v.accept ⟨me.domain, callee, tag, fitPayload payload, v.serial, none⟩).Matched :=
      matched.accept fun request waits => absurd waits (noWait request)
    rintro d callee' request ⟨j, waits⟩ m member sent
    rcases waits.of_setTask with ⟨-, -, rfl, waiting⟩ | ⟨-, waits⟩
    · -- the caller's own call: nothing of the callee is in its mailbox yet
      cases waiting
      rw [setTask_mailbox, accept_mailbox, update_of_ne (Ne.symm other)] at member
      exact absurd sent (unread m member)
    · exact accepted d callee' request ⟨j, waits⟩ m member sent
  | reply saved => exact matched.accept (clear.reply _ _ rfl saved)
  | receive receives outside front =>
    apply Matched.setTask
    · apply matched.setMailbox
      rw [front]
      exact subset_cons_self _ _
    · exact .inl outside
  | «return» waiting found =>
    apply Matched.setTask
    · apply matched.setMailbox
      exact eraseP_subset
    · exact .inl rfl
  | giveUp waiting idle => exact matched.setTask (.inl rfl)
  | exitLast exits last runtime => exact Matched.setTask matched (.inr rfl)
  | exit exits => exact matched.setTask (.inr rfl)
  | destroy owned => exact matched.destroy _
  | spawn unused free =>
    rename_i segments d slot
    exact (matched.create d me.domain).setTask (.inl rfl)
  | spawnFails unused =>
    rename_i segments d
    exact (matched.create d me.domain).destroy d
  | restart live idle free =>
    rename_i target slot segments
    exact (matched.reset target).setTask (.inl rfl)
  | restartFails live idle => exact matched.reset _
  | tick =>
    exact reclaim_induction (P := Matched) matched fun w queued _ matched =>
      matched.destroy queued.id
  | _ => exact matched

/-! ## Returning -/

theorem destroy_log (v : View) (e : Nat) : (v.destroy e).log = v.log :=
  destroy_cases (P := fun w => w.log = v.log) (fun _ => rfl) rfl

theorem reclaim_log (v : View) : v.reclaim.log = v.log :=
  reclaim_induction (P := fun w => w.log = v.log) rfl
    fun w queued _ same => (destroy_log w queued.id).trans same

/-- Only a waiting task makes `call` return, with a message of its callee. -/
theorem Step.returned (step : Step i me v op v') {caller : Nat} {m : Message}
    (logged : .returned caller callee request m ∈ v'.log) :
    .returned caller callee request m ∈ v.log ∨
      (me.call = some (callee, request) ∧ m ∈ v.mailbox me.domain ∧ m.sender = callee) := by
  cases step with
  | send | fault | irq | call | reply | receive => exact .inl (by simpa using logged)
  | «return» waiting found =>
    rw [setTask_log, setMailbox_log, mem_append, mem_singleton] at logged
    rcases logged with earlier | new
    · exact .inl earlier
    · cases new
      exact .inr ⟨waiting, mem_of_find?_eq_some found, by simpa using List.find?_some found⟩
  | destroy | spawnFails => exact .inl (by rwa [destroy_log] at logged)
  | tick => exact .inl (by rwa [reclaim_log] at logged)
  | _ => exact .inl logged

theorem Answered.step (answered : v.Answered) (matched : v.Matched) (runs : v.task i = some me)
    (live : me.live = true) (step : Step i me v op v') : v'.Answered := by
  intro caller callee request m logged
  rcases step.returned logged with earlier | ⟨waiting, member, sent⟩
  · exact answered caller callee request m earlier
  · have waits : v.Waits me.domain callee request := ⟨i, me, runs, live, rfl, waiting⟩
    exact ⟨sent, matched me.domain callee request waits m member sent⟩

end View

/-! ## Runs -/

namespace KernelState

/-- In the state before the step nobody is sent a message that it would mistake
for the answer to its call. -/
def Unambiguous (s : KernelState) (op : Op) : Prop := ∀ me, s.Runs me → s.view.Unambiguous me op

end KernelState

open KernelState

theorem Booted.not_waits {s : KernelState} (booted : Booted s) (j d callee request : Nat) :
    ¬ s.view.WaitsAt j d callee request := by
  rintro ⟨t, found, -, -, waiting⟩
  rw [(booted.tasks j t found).2.2.2.2] at waiting
  cases waiting

/-- **A call returns the reply to its own request** along every run in which a
waiting task's domain is sent nothing by the callee but that reply, and no call
starts while messages of its callee are unread. -/
theorem calls_return_their_replies (mp : Mapper) {start s : KernelState}
    {history : List Transition} (booted : Booted start) (ran : Run mp start history s)
    (clear : ∀ t ∈ history, t.before.Unambiguous t.op) : s.view.Answered := by
  have both : s.view.Matched ∧ s.view.Answered := by
    refine ran.invariant (I := fun v => v.Matched ∧ v.Answered) booted.currentLive ⟨?_, ?_⟩ ?_ clear
    · rintro d callee request ⟨j, waits⟩
      exact absurd waits (booted.not_waits j d callee request)
    · intro caller callee request m logged
      have noLog : start.view.log = [] := booted.log
      rw [noLog] at logged
      cases logged
    · intro s s' me op inv clear runs live step
      exact ⟨inv.1.step step (clear me runs), inv.2.step inv.1 runs (live me runs) step⟩
  exact both.2

/-! ## Two runs -/

/-- The decidable part of `Unambiguous`, for runs whose only messages are requests
and replies. -/
def unambiguousStep (s : KernelState) : Op → Bool
  | .syscall (.send ..) => false
  | .syscall (.call callee _ _) => (s.sched.core s.sched.current).all fun me =>
    decide (callee ≠ me.domain) && (s.view.mailbox me.domain).all (fun m => m.sender ≠ callee) &&
      s.sched.allCores fun t => t.call.all fun waiting => decide (waiting.1 ≠ me.domain)
  | .syscall (.reply _) => (s.sched.core s.sched.current).all fun me =>
    s.sched.allCores fun t => t.call.all fun waiting =>
      decide (waiting.1 = me.domain → me.received = some waiting.2)
  | .pageFault .. | .irq .. => false
  | _ => true

/-- What is checked of every task holds of every call that is waited for. -/
theorem waits_of_allCores {s : KernelState} {p : Nat × Nat → Bool} {d callee request : Nat}
    (checked : s.sched.allCores (fun t => t.call.all p) = true)
    (waits : s.view.Waits d callee request) : p (callee, request) = true := by
  obtain ⟨j, t, found, -, -, waiting⟩ := waits
  have here := Sched.of_allCores checked found
  rwa [waiting, all_some] at here

theorem unambiguous_of_unambiguousStep {s : KernelState} {op : Op}
    (checked : unambiguousStep s op = true) : s.Unambiguous op := by
  intro me runs
  have running : s.sched.core s.sched.current = some me := runs
  constructor
  · rintro receiver tag payload rfl
    cases checked
  · rintro callee tag payload rfl
    rw [unambiguousStep, running, all_some, Bool.and_eq_true, Bool.and_eq_true,
      decide_eq_true_eq] at checked
    obtain ⟨⟨other, unread⟩, free⟩ := checked
    refine ⟨other, ?_, ?_⟩
    · intro request waits
      exact of_decide_eq_true (waits_of_allCores free waits) rfl
    · intro m member
      exact of_decide_eq_true (all_eq_true.mp unread m member)
  · rintro addr code pager rfl
    cases checked
  · rintro line data rfl
    cases checked
  · rintro tag target rfl - request waits
    rw [unambiguousStep, running, all_some] at checked
    exact of_decide_eq_true (waits_of_allCores checked waits) rfl

theorem demoCall_answered : ∃ s history, Run Mapper.fourLevel demoKernel history s ∧
    s.log.length = 4 ∧ (∀ t ∈ history, t.before.Unambiguous t.op) ∧ s.view.Answered := by
  obtain ⟨s, ran, evaluated⟩ : ∃ s ∈ demoKernel.runChecked unambiguousStep Mapper.fourLevel demoCall,
      s.log.length = 4 := by decide +kernel
  obtain ⟨history, steps, checked⟩ := Run.of_runChecked ran
  have clear := fun t member => unambiguous_of_unambiguousStep (checked t member)
  exact ⟨s, history, steps, evaluated, clear,
    calls_return_their_replies Mapper.fourLevel demoKernel_booted steps clear⟩

/-- The disk driver sends a notice to the block server.  Then the block server
calls the driver, which answers. -/
def demoNotice : List Op :=
  yields 6 ++ [.syscall (.send blockDomain 9 [])] ++ yields 3 ++
    [.syscall (.call ahciDomain 1 [])] ++ yields 4 ++
    [.syscall .recv, .syscall (.reply 7)] ++ yields 3 ++ [.resume]

/-- The block server takes the notice for the reply. -/
theorem call_returns_earlier_message : ∃ s history m,
    Run Mapper.fourLevel demoKernel history s ∧
      .returned blockDomain ahciDomain 1 m ∈ s.view.log ∧ m.tag = 9 ∧ m.answers = none ∧
      ¬ s.view.Answered := by
  obtain ⟨s, ran, evaluated⟩ : ∃ s ∈ demoKernel.run Mapper.fourLevel demoNotice,
      .returned blockDomain ahciDomain 1 ⟨ahciDomain, blockDomain, 9, fitPayload [], 0, none⟩ ∈ s.log := by
    decide +kernel
  obtain ⟨history, steps, -⟩ := Run.of_run ran
  refine ⟨s, history, _, steps, evaluated, rfl, rfl, ?_⟩
  intro answered
  cases (answered _ _ _ _ evaluated).2

end MorionOS.Kernel
