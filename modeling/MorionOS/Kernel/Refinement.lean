import MorionOS.Kernel.View

/-!
# The kernel refines its view

One lemma per operation of the kernel: what it does to the view is one of the
cases of `View.Step`, and the task that runs afterwards is live.
-/

namespace MorionOS.Kernel

open Function List Option Sched

/-! ## Operations of the kernel as steps of the view -/

namespace KernelState

variable {ok : Bool} {op : Op} {mp : Mapper} {s s' : KernelState} {me : TaskCore}

/-- The step leads to a state whose view the relation allows and whose running
task is live. -/
def Allowed (s : KernelState) (me : TaskCore) (op : Op) (s' : KernelState) : Prop :=
  View.Step s.sched.current me s.view op s'.view ∧ s'.sched.CurrentLive

theorem Runs.currentDomain (runs : s.Runs me) : s.sched.currentDomain = some me.domain := by
  obtain ⟨t, found, rfl⟩ := map_eq_some_iff.mp runs
  rw [currentDomain, found]
  rfl

theorem currentLive_of_setTask {v : View} {i : Nat} {t : TaskCore} (current : s'.sched.current = i)
    (view : s'.view = v.setTask i t) (live : t.live = true) : s'.sched.CurrentLive := by
  intro u atCurrent
  have found : s'.view.task i = some t := by rw [view, View.setTask_task, update_self]
  rw [current] at atCurrent
  obtain rfl : t = u := some.inj (found.symm.trans atCurrent)
  exact live

variable {tag callee : Nat} {payload : List UInt8}

theorem Allowed.of_view {v : View} (view : s'.view = v) (live : s'.sched.CurrentLive)
    (step : View.Step s.sched.current me s.view op v) : s.Allowed me op s' := ⟨view ▸ step, live⟩

theorem Allowed.quiet (same : s'.view = s.view) (live : s'.sched.CurrentLive) : s.Allowed me op s' :=
  .of_view same live (.quiet op)

section

variable (live : s.sched.CurrentLive)
include live

theorem currentLive_enqueue (sender receiver tag : Nat)
    (payload : List UInt8) (answers : Option Nat) :
    (s.enqueue sender receiver tag payload answers).sched.CurrentLive := by
  intro t found
  rw [current_enqueue] at found
  exact live t ((congrFun (core_wakeOne _ _) _).symm.trans found)

theorem deliver_view {sender receiver : Nat}
    (done : s.deliver sender receiver tag payload = some (ok, s')) :
    s' = s ∨ s'.sched.CurrentLive ∧ s'.sched.current = s.sched.current ∧
      (s.view.mailbox receiver).length < MAILBOX_CAP ∧
      s'.view = s.view.accept ⟨sender, receiver, tag, fitPayload payload, s.serial, none⟩ := by
  obtain ⟨box, found, eq⟩ := map_eq_some_iff.mp done
  split at eq
  next => cases eq; exact .inl rfl
  next room =>
    cases eq
    refine .inr ⟨currentLive_enqueue live _ _ _ _ _, current_enqueue .., ?_, view_enqueue found⟩
    rw [show s.view.mailbox receiver = box from Table.row_of_getElem? found]
    omega

section

variable (runs : s.Runs me)
include runs

/-- The rule for system calls that need a capability: without it nothing
happens. -/
theorem guarded_allowed {cap : Capability} {body : Nat → Option KernelState}
    (inside : some cap ∈ s.view.caps me.domain → body me.domain = some s' → s.Allowed me op s')
    (done : s.guarded cap body = some s') : s.Allowed me op s' := by
  unfold guarded at done
  rw [runs.currentDomain, bind_eq_bind, bind_some] at done
  obtain ⟨held, asked, done⟩ := bind_eq_some_iff.mp done
  cases held with
  | true => exact inside (has_eq_some asked) done
  | false => cases done; exact .quiet rfl live

theorem send_allowed {receiver : Nat} (done : s.send receiver tag payload = some (ok, s')) :
    s.Allowed me (.syscall (.send receiver tag payload)) s' := by
  unfold send at done
  rw [runs.currentDomain, bind_eq_bind, bind_some] at done
  obtain ⟨held, asked, done⟩ := bind_eq_some_iff.mp done
  cases held with
  | true =>
    rcases deliver_view live done with rfl | ⟨live', -, room, view⟩
    · exact .quiet rfl live
    · exact .of_view view live' (.send (has_eq_some asked) room)
  | false => cases done; exact .quiet rfl live

theorem take_allowed {m : Message} {rest : List Message} (outside : me.call = none)
    (receives : op = .syscall .recv ∨ op = .syscall .tryRecv ∨ op = .resume)
    (found : s.mailboxes[me.domain]? = some (m :: rest)) :
    s.Allowed me op (s.take me.domain m rest) := by
  have inside := (List.getElem?_eq_some_iff.mp found).1
  have front : s.view.mailbox me.domain = m :: rest := Table.row_of_getElem? found
  have tasks := congrArg View.task (view_updateCurrent (s := s) (f := fun t => { t with
      replyTarget := some m.sender, received := some m.serial, frame := .user })
    (g := fun t => { t with
      replyTarget := some m.sender, received := some m.serial, call := none })
    (fun _ => rfl) runs)
  have view : (s.take me.domain m rest).view =
      (s.view.setMailbox me.domain rest (.received me.domain m)).setTask s.sched.current
        { me with replyTarget := some m.sender, received := some m.serial } := by
    ext1 <;> try rfl
    · funext d
      exact (Table.row_set inside d).trans (update_apply ..).symm
    · refine tasks.trans ?_
      rw [outside]
      rfl
  exact .of_view view (currentLive_of_setTask rfl view (live me runs)) (.receive receives outside front)

theorem receive_allowed (outside : me.call = none)
    (receives : op = .syscall .recv ∨ op = .syscall .tryRecv ∨ op = .resume)
    (done : s.receive = some s') : s.Allowed me op s' := by
  unfold receive at done
  rw [runs.currentDomain, bind_eq_bind, bind_some] at done
  obtain ⟨box, found, done⟩ := bind_eq_some_iff.mp done
  cases box with
  | cons m rest =>
    cases done
    exact take_allowed live runs outside receives found
  | nil =>
    obtain ⟨sched, blocked, eq⟩ := bind_eq_some_iff.mp done
    cases eq
    -- Going to sleep in `receive` is not visible: the task is in no call before or after.
    have same : (s.updateCurrent fun t => { t with frame := .receive }).view = s.view := by
      rw [view_updateCurrent (g := fun t => { t with call := none }) (fun _ => rfl) runs, ← outside]
      ext1 <;> try rfl
      exact (update_eq_self_iff).mpr runs.symm
    have cores := congrArg View.task same
    obtain ⟨cores', live'⟩ := blockUntil_core
      (s := (s.updateCurrent fun t => { t with frame := .receive }).sched)
      (fun t found => live t ((congrFun cores _).symm.trans found)) blocked
    refine .quiet ?_ live'
    rw [view_withSched, cores']
    exact same

theorem tryReceive_allowed {result : Option Message} (outside : me.call = none) (done : s.tryReceive = some (result, s')) :
    s.Allowed me (.syscall .tryRecv) s' := by
  unfold tryReceive at done
  rw [runs.currentDomain, bind_eq_bind, bind_some] at done
  obtain ⟨box, found, done⟩ := bind_eq_some_iff.mp done
  cases box with
  | cons m rest =>
    cases done
    exact take_allowed live runs outside (.inr (.inl rfl)) found
  | nil => cases done; exact .quiet rfl live

/-- The running task is in a call afterwards and another one runs. -/
theorem awaitReply_view {request : Nat} (done : s.awaitReply me.domain callee request = some s') :
    s'.view = s.view.setTask s.sched.current { me with call := some (callee, request) } ∧
      s'.sched.CurrentLive := by
  obtain ⟨sched, blocked, rfl⟩ := map_eq_some_iff.mp done
  have view := view_updateCurrent (s := s) (f := fun t => { t with frame := .call callee request })
    (g := fun t => { t with call := some (callee, request) }) (fun _ => rfl) runs
  obtain ⟨cores, live'⟩ := blockUntil_core
    (currentLive_of_setTask rfl view (live me runs)) blocked
  refine ⟨?_, live'⟩
  rw [view_withSched, cores]
  exact view

theorem call_allowed (done : s.call callee tag payload = some s') :
    s.Allowed me (.syscall (.call callee tag payload)) s' := by
  unfold call at done
  rw [runs.currentDomain, bind_eq_bind, bind_some] at done
  obtain ⟨held, asked, done⟩ := bind_eq_some_iff.mp done
  cases held with
  | false => cases done; exact .quiet rfl live
  | true =>
    rw [if_pos rfl] at done
    split at done
    · cases done; exact .quiet rfl live
    obtain ⟨box, found, waits⟩ := bind_eq_some_iff.mp done
    have runs' : (s.enqueue me.domain callee tag payload none).Runs me := by
      unfold Runs
      rw [current_enqueue]
      exact (congrFun (core_wakeOne _ _) _).trans runs
    obtain ⟨view, live'⟩ := awaitReply_view (currentLive_enqueue live _ _ _ _ _) runs' waits
    refine ⟨?_, live'⟩
    rw [view, view_enqueue found, current_enqueue]
    exact .call (has_eq_some asked)

theorem pollReply_allowed {request : Nat}
    (waiting : me.call = some (callee, request)) (done : s.pollReply callee request = some s') :
    s.Allowed me .resume s' := by
  have leaves := view_updateCurrent (s := s) (f := fun t => { t with frame := .user })
    (g := fun t => { t with call := none }) (fun _ => rfl) runs
  have tasks := congrArg View.task leaves
  unfold pollReply at done
  rw [runs.currentDomain, bind_eq_bind, bind_some] at done
  obtain ⟨box, found, done⟩ := bind_eq_some_iff.mp done
  have inside := (List.getElem?_eq_some_iff.mp found).1
  have here : s.view.mailbox me.domain = box := Table.row_of_getElem? found
  split at done
  next m first =>
    cases done
    have view : { s.updateCurrent fun t => { t with frame := .user } with
          mailboxes := s.mailboxes.set me.domain (box.eraseP fun m => m.sender = callee)
          log := s.log ++ [.returned me.domain callee request m] : KernelState }.view =
        (s.view.setMailbox me.domain (box.eraseP fun m => m.sender = callee)
          (.returned me.domain callee request m)).setTask s.sched.current
            { me with call := none } := by
      ext1 <;> try rfl
      · funext d
        exact (Table.row_set inside d).trans (update_apply ..).symm
      · exact tasks
    refine ⟨?_, currentLive_of_setTask rfl view (live me runs)⟩
    rw [view, ← here]
    exact .return waiting (here ▸ first)
  next =>
    split at done
    next idle =>
      cases done
      exact .of_view leaves (currentLive_of_setTask rfl leaves (live me runs))
        (.giveUp waiting (liveTasks_eq_zero.mp idle))
    next =>
      obtain ⟨view, live'⟩ := awaitReply_view live runs done
      refine .quiet ?_ live'
      -- The task waits again in the same call.
      rw [view, ← waiting]
      ext1 <;> try rfl
      exact (update_eq_self_iff).mpr runs.symm

theorem reply_allowed
    (done : s.reply tag [] = some (ok, s')) : s.Allowed me (.syscall (.reply tag)) s' := by
  obtain ⟨t, found, done⟩ := bind_eq_some_iff.mp done
  obtain rfl : t.core = me := some.inj (by rw [← runs, core, found, map_some])
  split at done
  · cases done; exact .quiet rfl live
  next target saved =>
    obtain ⟨box, found, eq⟩ := bind_eq_some_iff.mp done
    cases eq
    exact .of_view (view_enqueue found) (currentLive_enqueue live _ _ _ _ _) (.reply saved)

end

end

/-! ## Domains -/

theorem terminate_view {sched : Sched} (runs : s.Runs me)
    (scheduled : s.sched.scheduleNext .terminated = some sched) :
    { s with sched := sched }.view = s.view.setTask s.sched.current { me with live := false } ∧
      sched.CurrentLive := by
  obtain ⟨cores, live⟩ := scheduleNext_spec scheduled
  refine ⟨?_, live⟩
  ext1 <;> try rfl
  refine cores.trans ?_
  rw [runs]
  rfl

theorem exitCurrent_allowed (live : s.sched.CurrentLive) (runs : s.Runs me)
    (exits : op = .syscall .exit ∨ ∃ addr code, op = .pageFault true addr code)
    (done : s.exitCurrent = some s') : s.Allowed me op s' := by
  unfold exitCurrent at done
  rw [runs.currentDomain, bind_eq_bind, bind_some] at done
  have ends : (s.sched.scheduleNext .terminated).bind (fun sched => some { s with sched := sched }) =
      some s' → s.Allowed me op s' := by
    intro done
    obtain ⟨sched, scheduled, eq⟩ := bind_eq_some_iff.mp done
    cases eq
    obtain ⟨view, live'⟩ := terminate_view runs scheduled
    exact .of_view view live' (.exit exits)
  split at done
  next few =>
    unfold requestDestroy at done
    split at done
    · exact ends done
    next runtime =>
      obtain ⟨sched, scheduled, eq⟩ := bind_eq_some_iff.mp done
      cases eq
      obtain ⟨view, live'⟩ := terminate_view
        (s := { s with pending := s.pending ++ [⟨me.domain, s.births me.domain⟩] }) runs scheduled
      refine .of_view view live' (.exitLast exits ?_ (Nat.le_of_not_lt runtime))
      intro j t other found inDomain
      exact others_terminated few runs rfl (live me runs) other found inDomain
  · exact ends done

variable {d : Nat}

theorem grant_eq {caps : List CapRow} {i : Nat} {slots slots' : CapRow} {cap : Capability}
    (found : caps[d]? = some slots) (filled : Table.fill slots cap = some (i, slots')) :
    grant caps d cap = some (true, caps.set d slots') := by
  rw [grant, found, map_some, filled]

theorem grantAll_spawnGrants {caps : List CapRow} (found : caps[d]? = some emptyCapRow) :
    grantAll caps d spawnGrants = some (caps.set d View.spawnRow) := by
  have inside := (List.getElem?_eq_some_iff.mp found).1
  have again : ∀ row : CapRow, (caps.set d row)[d]? = some row := by simp [inside]
  simp only [grantAll, spawnGrants]
  rw [grant_eq found rfl, bind_some, grant_eq (again _) rfl, bind_some,
    set_set, grant_eq (again _) rfl, bind_some, set_set]
  rfl

variable {segments : List Segment}

/-- Loading an image starts a task in an empty slot or changes nothing visible. -/
theorem startTask_view {started : Bool} (done : s.startTask mp segments d = some (started, s')) :
    s'.sched.current = s.sched.current ∧
      (started = false ∧ s'.view = s.view ∨
        started = true ∧ ∃ slot, s.view.task slot = none ∧ s'.view = s.view.addTask slot d) := by
  obtain ⟨⟨mapped, m⟩, image, done⟩ := bind_eq_some_iff.mp done
  have same : { s with machine := m }.view = s.view := by
    ext1 <;> try rfl
    exact Machine.alive_mapImage image
  dsimp only at done
  split at done
  · split at done
    next sched spawned =>
      cases done
      obtain ⟨current, slot, empty, cores⟩ := spawnUser_core spawned
      refine ⟨current, .inr ⟨rfl, slot, empty, ?_⟩⟩
      have view := view_withSched { s with machine := m } sched
      rw [same, cores] at view
      exact view
    next => cases done; exact ⟨rfl, .inl ⟨rfl, same⟩⟩
  · cases done; exact ⟨rfl, .inl ⟨rfl, same⟩⟩

theorem currentLive_addTask {v : View} {slot : Nat} (view : s'.view = v.addTask slot d)
    (live : ∀ t, v.task s'.sched.current = some t → t.live = true) : s'.sched.CurrentLive := by
  intro t found
  have atCurrent : s'.view.task s'.sched.current = some t := found
  rw [view, View.addTask, View.setTask_task, update_apply] at atCurrent
  split at atCurrent
  · cases atCurrent; rfl
  · exact live t atCurrent

theorem spawnElf_allowed {result : Option Nat} (live : s.sched.CurrentLive)
    (done : s.spawnElf mp segments me.domain = some (result, s')) :
    s.Allowed me (.syscall (.spawnElf (some segments))) s' := by
  unfold spawnElf at done
  split at done
  · cases done; exact .quiet rfl live
  obtain ⟨⟨d, m⟩, created, done⟩ := bind_eq_some_iff.mp done
  obtain ⟨unused, alive⟩ := Machine.alive_createDomain created
  dsimp only at done
  have empty : (s.addDomain d me.domain m).caps[d]? = some emptyCapRow :=
    Table.getElem?_put emptyCapRow s.caps d emptyCapRow
  rw [grantAll_spawnGrants empty, bind_eq_bind, bind_some] at done
  obtain ⟨⟨started, s₂⟩, start, done⟩ := bind_eq_some_iff.mp done
  have view : { s.addDomain d me.domain m with
      caps := (s.addDomain d me.domain m).caps.set d View.spawnRow }.view =
        s.view.create d me.domain := by
    ext1 <;> try rfl
    · exact alive
    · funext e
      rw [View.create_caps, update_apply]
      refine (capRow_set empty e).trans ?_
      by_cases here : e = d
      · rw [if_pos here, if_pos here]
      · rw [if_neg here, if_neg here]
        exact (capRow_setRow s.caps d e).trans (if_neg here)
    · funext e
      rw [View.create_mailbox, update_apply]
      exact Table.row_put [] s.mailboxes d [] e
    · funext e
      rw [View.create_pager, update_apply]
      exact Table.row_put none s.pagers d (some me.domain) e
  obtain ⟨current, failed | ⟨rfl, slot, free, view₂⟩⟩ := startTask_view start
  · obtain ⟨rfl, view₂⟩ := failed
    cases done
    have live₂ : s₂.sched.CurrentLive := by
      intro t found
      rw [current] at found
      exact live t ((congrFun (congrArg View.task (view₂.trans view)) _).symm.trans found)
    refine ⟨?_, currentLive_destroy live₂⟩
    rw [view_destroy, view₂, view]
    exact .spawnFails unused
  · cases done
    rw [view] at free view₂
    refine .of_view view₂ (currentLive_addTask view₂ fun t found => ?_) (.spawn unused free)
    rw [current] at found
    exact live t found

theorem restartInPlace_allowed (live : s.sched.CurrentLive)
    (done : s.restartInPlace mp segments d = some (ok, s')) :
    s.Allowed me (.syscall (.spawnElfAt d (some segments))) s' := by
  unfold restartInPlace at done
  split at done
  · cases done; exact .quiet rfl live
  next checked =>
    simp only [Bool.or_eq_true, Bool.not_eq_true', decide_eq_true_eq, not_or,
      Bool.not_eq_false, not_not] at checked
    obtain ⟨alive, none⟩ := checked
    have idle : s.view.Idle d := liveTasks_eq_zero.mp none
    have view : { s with
        machine := (resetDomain s.machine d).2
        mailboxes := Table.put [] s.mailboxes d []
        sched := s.sched.reapTerminated d }.view = s.view.reset d := by
      ext1 <;> try rfl
      · exact Machine.alive_resetDomain d
      · funext e
        rw [View.reset_mailbox, update_apply]
        exact Table.row_put [] s.mailboxes d [] e
      · funext i
        exact core_reapTerminated s.sched d i
    have stays : ∀ t, (s.view.reset d).task s.sched.current = some t → t.live = true := by
      intro t found
      exact live t (filter_eq_some_iff.mp found).1
    split at done
    · cases done
      refine .of_view view (fun t found => stays t ?_) (.restartFails alive idle)
      rw [← view]
      exact found
    obtain ⟨current, failed | ⟨-, slot, free, view₂⟩⟩ := startTask_view done
    · obtain ⟨-, view₂⟩ := failed
      rw [view] at view₂
      refine .of_view view₂ (fun t found => stays t ?_) (.restartFails alive idle)
      rw [← view₂, ← show s'.sched.current = s.sched.current from current]
      exact found
    · rw [view] at free view₂
      refine .of_view view₂ (currentLive_addTask view₂ ?_) (.restart alive idle free)
      rw [show s'.sched.current = s.sched.current from current]
      exact stays

/-! ## Every step -/

section

variable (live : s.sched.CurrentLive)
include live

theorem onMachine_allowed {result : Option (Nat × Machine)}
    (same : ∀ code m, result = some (code, m) → m.alive = s.machine.alive)
    (done : s.onMachine result = some s') : s.Allowed me op s' := by
  obtain ⟨⟨code, m⟩, eq, rfl⟩ := map_eq_some_iff.mp done
  refine .quiet ?_ live
  ext1 <;> try rfl
  exact same code m eq

theorem syscall_allowed {c : Syscall} (runs : s.Runs me)
    (outside : me.call = none) (done : s.syscall mp c = some s') :
    s.Allowed me (.syscall c) s' := by
  cases c with
  | send receiver tag payload =>
    obtain ⟨⟨ok, t⟩, sent, rfl⟩ := map_eq_some_iff.mp done
    exact send_allowed live runs sent
  | recv => exact receive_allowed live runs outside (.inl rfl) done
  | tryRecv =>
    obtain ⟨⟨result, t⟩, received, rfl⟩ := map_eq_some_iff.mp done
    exact tryReceive_allowed live runs outside received
  | call callee tag payload => exact call_allowed live runs done
  | reply tag =>
    obtain ⟨⟨ok, t⟩, replied, rfl⟩ := map_eq_some_iff.mp done
    exact reply_allowed live runs replied
  | pageFaultReply =>
    obtain ⟨t, found, eq⟩ := bind_eq_some_iff.mp done
    split at eq
    next target saved =>
      cases eq
      refine .quiet (view_wakeOne s target) fun u atCurrent => live u ?_
      exact (congrFun (core_wakeOne s.sched target) _).symm.trans
        (current_wakeOne s.sched target ▸ atCurrent)
    next => cases eq; exact .quiet rfl live
  | yield =>
    obtain ⟨view, live'⟩ := view_onSched
      (fun _ eq => scheduleNext_core live (by simp) eq) done
    exact .quiet view live'
  | sleep ms =>
    obtain ⟨view, live'⟩ := view_onSched (fun _ eq => sleep_core live eq) done
    exact .quiet view live'
  | exit => exact exitCurrent_allowed live runs (.inl rfl) done
  | capIssue | capDrop =>
    obtain ⟨d, -, eq⟩ := bind_eq_some_iff.mp done
    cases eq
    exact .quiet rfl live
  | handleSend receiver handle =>
    refine guarded_allowed live runs (fun _ eq => ?_) done
    cases eq
    exact .quiet rfl live
  | capSend receiver kind arg =>
    refine guarded_allowed live runs (fun allowed eq => ?_) done
    split at eq
    next cap decoded =>
      cases eq
      exact ⟨.capSend allowed decoded (delegate_spec s.caps me.domain receiver cap), live⟩
    next => cases eq; exact .quiet rfl live
  | registerIrq line =>
    refine guarded_allowed live runs (fun _ eq => ?_) done
    split at eq <;> cases eq <;> exact .quiet rfl live
  | allocPage vaddr =>
    obtain ⟨d, -, done⟩ := bind_eq_some_iff.mp done
    exact onMachine_allowed live (fun _ _ => Machine.alive_sysAllocPage) done
  | sharePage vaddr target =>
    obtain ⟨d, -, done⟩ := bind_eq_some_iff.mp done
    obtain ⟨allowed, -, done⟩ := bind_eq_some_iff.mp done
    exact onMachine_allowed live (fun _ _ => Machine.alive_sysSharePage) done
  | unmap vaddr =>
    obtain ⟨d, -, done⟩ := bind_eq_some_iff.mp done
    exact onMachine_allowed live (fun _ _ => Machine.alive_sysUnmap) done
  | mapAnon target vaddr =>
    obtain ⟨d, -, done⟩ := bind_eq_some_iff.mp done
    obtain ⟨allowed, -, done⟩ := bind_eq_some_iff.mp done
    exact onMachine_allowed live (fun _ _ => Machine.alive_sysMapAnon) done
  | spawnElf image =>
    refine guarded_allowed live runs (fun _ eq => ?_) done
    cases image with
    | none => cases eq; exact .quiet rfl live
    | some segments =>
      obtain ⟨⟨result, t⟩, spawned, rfl⟩ := map_eq_some_iff.mp eq
      exact spawnElf_allowed live spawned
  | spawnElfAt target image =>
    refine guarded_allowed live runs (fun _ eq => ?_) done
    cases image with
    | none => cases eq; exact .quiet rfl live
    | some segments =>
      obtain ⟨⟨ok, t⟩, restarted, rfl⟩ := map_eq_some_iff.mp eq
      exact restartInPlace_allowed live restarted
  | domainDestroy target =>
    refine guarded_allowed live runs (fun _ eq => ?_) done
    split at eq
    next owned =>
      cases eq
      exact .of_view (view_destroy ..) (currentLive_destroy live) (.destroy owned)
    next => cases eq; exact .quiet rfl live

theorem pageFault_allowed {violation : Bool} {addr code : Nat}
    (runs : s.Runs me) (done : s.pageFault violation addr code = some s') :
    s.Allowed me (.pageFault violation addr code) s' := by
  unfold pageFault at done
  cases violation with
  | true =>
    rw [if_pos rfl] at done
    exact exitCurrent_allowed live runs (.inr ⟨addr, code, rfl⟩) done
  | false =>
    rw [if_neg (by simp), runs.currentDomain, bind_eq_bind, bind_some] at done
    obtain ⟨pager, registered, done⟩ := bind_eq_some_iff.mp done
    obtain ⟨⟨ok, t⟩, delivered, blocks⟩ := bind_eq_some_iff.mp done
    rcases deliver_view live delivered with rfl | ⟨live₁, -, room, view⟩
    · obtain ⟨same, live'⟩ := view_onSched (fun _ eq => blockUntil_core live eq) blocks
      exact .quiet same live'
    · obtain ⟨same, live'⟩ := view_onSched (fun _ eq => blockUntil_core live₁ eq) blocks
      exact .of_view (same.trans view) live' (.fault registered room)

theorem dispatch_allowed {line data : Nat}
    (done : s.dispatch line data = some s') : s.Allowed me (.irq line data) s' := by
  unfold dispatch at done
  split at done
  next driver registered =>
    obtain ⟨⟨ok, t⟩, delivered, rfl⟩ := map_eq_some_iff.mp done
    rcases deliver_view live delivered with rfl | ⟨live', -, room, view⟩
    · exact .quiet rfl live
    · exact .of_view view live' (.irq room)
  next => cases done; exact .quiet rfl live

theorem tick_allowed (done : s.tick = some s') : s.Allowed me .tick s' := by
  obtain ⟨view, live₁⟩ := view_reclaimPending live
  obtain ⟨same, live'⟩ := view_onSched (fun _ eq => tick_core live₁ eq) done
  exact .of_view (same.trans view) live' .tick

/-- **Every step of the system is a step of its view.** -/
theorem step_view (stepped : s.step mp op = some s') : ∃ me, s.Runs me ∧ s.Allowed me op s' := by
  unfold step at stepped
  split at stepped
  · cases stepped
  next t found =>
    have runs : s.Runs t.core := by rw [Runs, core, found, map_some]
    refine ⟨t.core, runs, ?_⟩
    split at stepped
    next frame => exact syscall_allowed live runs (by simp [Task.core, frame, Frame.pendingCall]) stepped
    next => exact pageFault_allowed live runs stepped
    next => exact dispatch_allowed live stepped
    next => exact tick_allowed live stepped
    next frame =>
      exact receive_allowed live runs (by simp [Task.core, frame, Frame.pendingCall])
        (.inr (.inr rfl)) stepped
    next frame =>
      exact pollReply_allowed live runs (by simp [Task.core, frame, Frame.pendingCall]) stepped
    next => cases stepped

end

/-! ## Runs -/

/-- One step of a run, with the states around it. -/
structure Transition where
  before : KernelState
  op : Op
  after : KernelState

/-- A run from a state, with its steps, the latest first. -/
inductive Run (mp : Mapper) (start : KernelState) : List Transition → KernelState → Prop where
  | nil : Run mp start [] start
  | step {history : List Transition} {s s' : KernelState} {op : Op} (before : Run mp start history s)
      (stepped : s.step mp op = some s') : Run mp start (⟨s, op, s'⟩ :: history) s'

variable {start : KernelState} {history : List Transition}

section

variable (live : start.sched.CurrentLive)
include live

theorem Run.currentLive (ran : Run mp start history s) : s.sched.CurrentLive := by
  induction ran with
  | nil => exact live
  | step _ stepped ih =>
    obtain ⟨me, -, -, live'⟩ := step_view ih stepped
    exact live'

/-- **Invariants of runs.**  What holds of the view at the start and is kept by
every step that meets a condition holds in every state that a run of such steps
reaches. -/
theorem Run.invariant {I : View → Prop} {K : KernelState → Op → Prop} (initial : I start.view)
    (keeps : ∀ {s s' : KernelState} {me : TaskCore} {op : Op}, I s.view → K s op → s.Runs me →
      s.sched.CurrentLive → View.Step s.sched.current me s.view op s'.view → I s'.view)
    (ran : Run mp start history s) (meets : ∀ t ∈ history, K t.before t.op) : I s.view := by
  induction ran with
  | nil => exact initial
  | step before stepped ih =>
    have here := ih fun t member => meets t (mem_cons_of_mem _ member)
    obtain ⟨me, runs, allowed, -⟩ := step_view (before.currentLive live) stepped
    exact keeps here (meets _ mem_cons_self) runs (before.currentLive live) allowed

theorem Run.step_of_mem (ran : Run mp start history s) {t : Transition}
    (member : t ∈ history) : ∃ me, t.before.Runs me ∧
      View.Step t.before.sched.current me t.before.view t.op t.after.view := by
  induction ran with
  | nil => cases member
  | step before stepped ih =>
    rcases mem_cons.mp member with rfl | earlier
    · obtain ⟨me, runs, allowed, -⟩ := step_view (before.currentLive live) stepped
      exact ⟨me, runs, allowed⟩
    · exact ih earlier

end

/-- A run that stops at the first step that does not pass a check. -/
def runChecked (check : KernelState → Op → Bool) (mp : Mapper) (s : KernelState) (ops : List Op) :
    Option KernelState :=
  ops.foldlM (fun s op => if check s op then s.step mp op else none) s

variable {check : KernelState → Op → Bool} {ops : List Op}

/-- A checked run goes on from the steps before it. -/
theorem Run.extend (before : Run mp start history s) (passed : ∀ t ∈ history, check t.before t.op = true)
    (ran : s.runChecked check mp ops = some s') :
    ∃ more, Run mp start more s' ∧ (∀ t ∈ more, check t.before t.op = true) ∧
      more.reverse.map (·.op) = history.reverse.map (·.op) ++ ops := by
  induction ops generalizing s history with
  | nil =>
    cases ran
    exact ⟨history, before, passed, by simp⟩
  | cons op ops ih =>
    obtain ⟨s₁, stepped, rest⟩ := bind_eq_some_iff.mp ran
    obtain ⟨passes, stepped⟩ := ite_none_right_eq_some.mp stepped
    obtain ⟨more, all, passed, same⟩ := ih (.step before stepped) (forall_mem_cons.mpr ⟨passes, passed⟩) rest
    exact ⟨more, all, passed, by rw [same]; simp⟩

theorem Run.of_runChecked (ran : s.runChecked check mp ops = some s') :
    ∃ history, Run mp s history s' ∧ ∀ t ∈ history, check t.before t.op = true := by
  obtain ⟨history, steps, passed, -⟩ := Run.extend .nil (forall_mem_nil _) ran
  exact ⟨history, steps, passed⟩

theorem Run.of_run (ran : s.run mp ops = some s') :
    ∃ history, Run mp s history s' ∧ history.reverse.map (·.op) = ops := by
  have unchecked : s.run mp ops = s.runChecked (fun _ _ => true) mp ops := by
    clear ran
    induction ops generalizing s with
    | nil => rfl
    | cons op ops ih => exact congrArg (s.step mp op).bind (funext fun _ => ih)
  obtain ⟨history, steps, -, same⟩ := Run.extend .nil (forall_mem_nil _) (unchecked ▸ ran)
  exact ⟨history, steps, same⟩

end KernelState

end MorionOS.Kernel
