import MorionOS.Kernel.Boot

/-!
# Deferred reclamation

The last task of a domain to exit puts the number of the domain into a queue that
the next tick empties by destroying every domain in it.  The queue holds bare
numbers.  `ReclaimSafe` says that a queued number that is in use still stands for
the domain that exited, and that this domain runs nothing.  It holds along the runs in which
no call destroys or restarts a queued domain (`reclaim_hits_only_exited`);
`reclaim_destroys_successor` is another one.
-/

namespace MorionOS.Kernel

open Function List

namespace View

variable {v v' : View} {i : Nat} {me t' : TaskCore}

variable {d : Nat}

theorem Idle.setTask (idle : v.Idle d) (runs : v.task i = some me) (sameDomain : t'.domain = me.domain)
    (live : t'.live = true → me.live = true) : (v.setTask i t').Idle d := by
  intro j t found inDomain
  rw [setTask_task, update_apply] at found
  split at found
  · cases found
    have dead := idle i me runs (sameDomain ▸ inDomain)
    exact Bool.eq_false_iff.mpr fun alive => by simp [live alive] at dead
  · exact idle j t found inDomain

theorem Housed.setTask (housed : v.Housed) (runs : v.task i = some me)
    (sameDomain : t'.domain = me.domain) : (v.setTask i t').Housed := by
  intro j t found
  rw [setTask_task, update_apply] at found
  split at found
  · cases found
    rw [setTask_alive, sameDomain]
    exact housed i me runs
  · exact housed j t found

theorem Housed.addTask {slot : Nat} (housed : v.Housed) (live : v.alive d = true) :
    (v.addTask slot d).Housed := by
  intro j t found
  rw [View.addTask, setTask_task, update_apply] at found
  split at found
  · cases found; exact live
  · exact housed j t found

theorem Idle.addTask {slot e : Nat} (idle : v.Idle e) (other : d ≠ e) : (v.addTask slot d).Idle e := by
  intro j t found inDomain
  rw [View.addTask, setTask_task, update_apply] at found
  split at found
  · cases found; exact absurd inDomain other
  · exact idle j t found inDomain

theorem Housed.create {loader : Nat} (housed : v.Housed) : (v.create d loader).Housed := by
  intro j t found
  rw [create_alive, update_apply]
  split
  · rfl
  · exact housed j t found

theorem reset_task_eq_some {j : Nat} {t : TaskCore} (found : (v.reset d).task j = some t) :
    v.task j = some t :=
  (Option.filter_eq_some_iff.mp found).1

theorem Housed.reset (housed : v.Housed) : (v.reset d).Housed :=
  fun j t found => housed j t (reset_task_eq_some found)

theorem Housed.destroy (housed : v.Housed) (d : Nat) : (v.destroy d).Housed :=
  destroy_cases (fun _ => housed.remove d) housed

theorem Housed.reclaim (housed : v.Housed) : v.reclaim.Housed :=
  reclaim_induction (P := Housed) housed fun _ queued _ housed => housed.destroy queued.id

theorem Housed.step {op : Op} (housed : v.Housed) (runs : v.task i = some me)
    (step : Step i me v op v') : v'.Housed := by
  cases step with
  | call allowed => exact Housed.setTask (v := v.accept _) housed runs rfl
  | receive receives outside front =>
    exact Housed.setTask (v := v.setMailbox _ _ _) housed runs rfl
  | «return» waiting found => exact Housed.setTask (v := v.setMailbox _ _ _) housed runs rfl
  | giveUp | exit => exact housed.setTask runs rfl
  | exitLast exits last runtime => exact Housed.setTask (v := v.queue _) housed runs rfl
  | destroy owned => exact housed.destroy _
  | spawn unused free =>
    apply housed.create.addTask
    rw [create_alive, update_self]
  | spawnFails unused => exact housed.create.destroy _
  | restart live idle free => exact housed.reset.addTask live
  | restartFails live idle => exact housed.reset
  | tick => exact housed.reclaim
  | _ => exact housed

/-- Every queued number stands for the domain that exited, and it runs nothing. -/
structure Exited (v : View) : Prop where
  housed : v.Housed
  queued : ∀ q ∈ v.pending, v.alive q.id = true ∧ v.births q.id = q.birth ∧ v.Idle q.id

namespace Exited

section

variable (inv : v.Exited)
include inv

theorem setTask (runs : v.task i = some me) (sameDomain : t'.domain = me.domain)
    (live : t'.live = true → me.live = true) : (v.setTask i t').Exited where
  housed := inv.housed.setTask runs sameDomain
  queued := fun q member =>
    ⟨(inv.queued q member).1, (inv.queued q member).2.1,
      (inv.queued q member).2.2.setTask runs sameDomain live⟩

theorem remove (unqueued : ∀ q ∈ v.pending, q.id ≠ d) : (v.remove d).Exited where
  housed := inv.housed.remove d
  queued := by
    intro q member
    obtain ⟨live, birth, idle⟩ := inv.queued q member
    refine ⟨?_, birth, ?_⟩
    · rw [remove_alive, update_of_ne (unqueued q member)]
      exact live
    · intro j t found inDomain
      exact idle j t (remove_task_eq_some.mp found).1 inDomain

theorem destroy (unqueued : ∀ q ∈ v.pending, q.id ≠ d) : (v.destroy d).Exited :=
  destroy_cases (fun _ => inv.remove unqueued) inv

theorem create {loader : Nat} (unused : v.alive d = false) : (v.create d loader).Exited where
  housed := inv.housed.create
  queued := by
    intro q member
    obtain ⟨live, birth, idle⟩ := inv.queued q member
    have other : q.id ≠ d := by
      intro same
      rw [same, unused] at live
      cases live
    refine ⟨?_, ?_, idle⟩
    · rw [create_alive, update_of_ne other]
      exact live
    · rw [create_births, update_of_ne other]
      exact birth

theorem addTask {slot : Nat} (live : v.alive d = true)
    (unqueued : ∀ q ∈ v.pending, q.id ≠ d) : (v.addTask slot d).Exited where
  housed := inv.housed.addTask live
  queued := fun q member =>
    ⟨(inv.queued q member).1, (inv.queued q member).2.1,
      (inv.queued q member).2.2.addTask (unqueued q member).symm⟩

theorem reset : (v.reset d).Exited where
  housed := inv.housed.reset
  queued := fun q member =>
    ⟨(inv.queued q member).1, (inv.queued q member).2.1,
      fun j t found => (inv.queued q member).2.2 j t (reset_task_eq_some found)⟩

/-- The domain of the running task is queued when the task was its last. -/
theorem exitLast (runs : v.task i = some me)
    (last : ∀ j t, j ≠ i → v.task j = some t → t.domain = me.domain → t.live = false) :
    ((v.queue me.domain).setTask i { me with live := false }).Exited where
  housed := inv.housed.setTask runs rfl
  queued := by
    intro q member
    rw [setTask_pending, queue_pending, mem_append, mem_singleton] at member
    rcases member with before | rfl
    · obtain ⟨live, birth, idle⟩ := inv.queued q before
      refine ⟨live, birth, ?_⟩
      have stays : (v.setTask i { me with live := false }).Idle q.id :=
        idle.setTask runs rfl (by simp)
      exact stays
    · refine ⟨inv.housed i me runs, rfl, ?_⟩
      intro j t found inDomain
      rw [setTask_task, update_apply] at found
      split at found
      next => cases found; rfl
      next other => exact last j t other found inDomain

theorem reclaim : v.reclaim.Exited := by
  have cleared : v.reclaim.Housed ∧ v.reclaim.pending = [] :=
    reclaim_induction (P := fun w => w.Housed ∧ w.pending = []) ⟨inv.housed, rfl⟩
      fun w queued _ h => ⟨destroy_cases (fun _ => h.1.remove _) h.1,
        (destroy_pending w queued.id).trans h.2⟩
  refine ⟨cleared.1, fun q member => ?_⟩
  rw [cleared.2] at member
  cases member

end

end Exited

end View

/-! ## Steps and runs -/

/-- No system call of the step destroys or restarts a queued domain. -/
def KernelState.LeavesQueued (s : KernelState) (op : Op) : Prop :=
  ∀ q ∈ s.pending, op ≠ .syscall (.domainDestroy q.id) ∧
    ∀ image, op ≠ .syscall (.spawnElfAt q.id image)

namespace View

theorem Exited.step {v v' : View} {i : Nat} {me : TaskCore} {op : Op} (inv : v.Exited)
    (runs : v.task i = some me) (step : Step i me v op v')
    (unqueued : ∀ q ∈ v.pending, op ≠ .syscall (.domainDestroy q.id) ∧
      ∀ image, op ≠ .syscall (.spawnElfAt q.id image)) : v'.Exited := by
  -- A new domain has a number that no queued domain uses.
  have fresh : ∀ {d : Nat}, v.alive d = false → ∀ q ∈ v.pending, q.id ≠ d := by
    intro d unused q member same
    have live := (inv.queued q member).1
    rw [same, unused] at live
    cases live
  cases step with
  | quiet op => exact inv
  | send | fault | irq => exact ⟨inv.housed, inv.queued⟩
  | call allowed =>
    apply Exited.setTask (v := v.accept _) ⟨inv.housed, inv.queued⟩ runs
    · rfl
    · exact id
  | reply saved => exact ⟨inv.housed, inv.queued⟩
  | receive receives outside front | «return» waiting found =>
    apply Exited.setTask (v := v.setMailbox _ _ _) ⟨inv.housed, inv.queued⟩ runs
    · rfl
    · exact id
  | giveUp waiting idle => exact inv.setTask runs rfl id
  | exitLast exits last runtime => exact inv.exitLast runs last
  | exit exits => exact inv.setTask runs rfl (by simp)
  | capSend allowed decoded held => exact ⟨inv.housed, inv.queued⟩
  | destroy owned =>
    apply inv.destroy
    intro q member same
    exact (unqueued q member).1 (by rw [same])
  | spawn unused free =>
    apply (inv.create unused).addTask
    · rw [create_alive, update_self]
    · exact fresh unused
  | spawnFails unused => exact (inv.create unused).destroy (fresh unused)
  | restart live idle free =>
    apply inv.reset.addTask live
    intro q member same
    exact (unqueued q member).2 _ (by rw [same])
  | restartFails live idle => exact inv.reset
  | tick => exact inv.reclaim

end View

namespace KernelState

/-- The tick may empty the queue: a queued number that is in use stands for the
creation that exited, and no task of that domain is live. -/
def ReclaimSafe (s : KernelState) : Prop :=
  ∀ q ∈ s.pending, s.isAlive q.id = true → s.births q.id = q.birth ∧ s.sched.liveTasks q.id = 0

end KernelState

open KernelState

theorem Booted.exited {s : KernelState} (booted : Booted s) : s.view.Exited where
  housed := by
    intro i t found
    change s.machine.alive t.domain = true
    rw [booted.alive]
    exact decide_eq_true (booted.tasks i t found).1
  queued := by
    intro q member
    change q ∈ s.pending at member
    rw [booted.pending] at member
    cases member

/-- **Reclamation hits only the domain that exited** along every run in which no
system call destroys or restarts a queued domain. -/
theorem reclaim_hits_only_exited (mp : Mapper) {start s : KernelState} {history : List Transition}
    (booted : Booted start) (ran : Run mp start history s)
    (leaves : ∀ t ∈ history, t.before.LeavesQueued t.op) : s.ReclaimSafe := by
  have inv : s.view.Exited := ran.invariant (I := View.Exited) booted.currentLive booted.exited
    (fun inv leaves runs _ step => inv.step runs step leaves) leaves
  intro q member _
  obtain ⟨-, birth, idle⟩ := inv.queued q member
  exact ⟨birth, Sched.liveTasks_eq_zero.mpr idle⟩

/-! ## Two runs -/

theorem demoProgram_end_le : USER_SPACE_BASE + 4096 ≤ USER_SPACE_END := by decide

/-- A program of one page. -/
def demoProgram : Segment where
  vaddr := USER_SPACE_BASE
  memsz := 4096
  flags := 5
  base_le := Nat.le_refl _
  end_le := demoProgram_end_le

/-- Other tasks give up the processor. -/
def yields (n : Nat) : List Op := List.replicate n (.syscall .yield)

/-- The application starts a program, and the program exits. -/
def demoExit : List Op :=
  yields 2 ++ [.syscall (.spawnElf (some [demoProgram]))] ++ yields 6 ++ [.syscall .exit]

/-- Before the tick the application destroys the domain itself and starts another
program, which gets the same number. -/
def demoReuse : List Op :=
  demoExit ++ yields 2 ++
    [.syscall (.domainDestroy 26), .syscall (.spawnElf (some [demoProgram]))]

theorem demoExit_safe : ∃ s, demoKernel.run Mapper.fourLevel demoExit = some s ∧
    s.pending = [⟨26, 1⟩] ∧ s.ReclaimSafe := by
  obtain ⟨s, ran, evaluated⟩ : ∃ s ∈ demoKernel.run Mapper.fourLevel demoExit,
      s.pending = [⟨26, 1⟩] := by decide +kernel
  obtain ⟨history, steps, ops⟩ := Run.of_run ran
  refine ⟨s, ran, evaluated, reclaim_hits_only_exited Mapper.fourLevel demoKernel_booted steps ?_⟩
  intro t member q _
  have op : t.op ∈ demoExit := by
    rw [← ops]
    exact mem_map_of_mem (mem_reverse.mpr member)
  simp only [demoExit, yields] at op
  constructor
  · rintro destroys
    simp [destroys] at op
  · rintro image restarts
    simp [restarts] at op

/-- The tick destroys the new domain, which runs a task, for the exit of the old
one. -/
theorem reclaim_destroys_successor : ∃ s s', demoKernel.run Mapper.fourLevel demoReuse = some s ∧
    ¬ s.ReclaimSafe ∧ s.isAlive 26 = true ∧ s.births 26 = 2 ∧ s.sched.liveTasks 26 = 1 ∧
      s.step Mapper.fourLevel .tick = some s' ∧ s'.isAlive 26 = false := by
  obtain ⟨s, ran, queue, live, births, running, s', next, ticked⟩ :
      ∃ s ∈ demoKernel.run Mapper.fourLevel demoReuse, s.pending = [⟨26, 1⟩] ∧ s.isAlive 26 = true ∧
        s.births 26 = 2 ∧ s.sched.liveTasks 26 = 1 ∧
        ∃ s' ∈ s.step Mapper.fourLevel .tick, s'.isAlive 26 = false := by decide +kernel
  refine ⟨s, s', ran, ?_, live, births, running, next, ticked⟩
  intro safe
  have stale := (safe ⟨26, 1⟩ (by simp [queue]) live).1
  rw [births] at stale
  cases stale

end MorionOS.Kernel
