import Mathlib.Tactic

/-!
# The task table

The scheduler of `scheduler/mod.rs`: a fixed table of tasks, the index of the
running one and the tick counter.  The stacks and saved registers are not
modelled; what a task does when it is switched to again is its `Frame`.  A kernel
panic (no runnable task, no current task) is the result `none`.

`Task.core` is the part of a task that scheduling leaves alone.  The lemmas of the
second half say for each function what it does to the cores, so that arguments
about messages and domains need not look at run states, deadlines and wait keys.
-/

namespace MorionOS.Kernel

open List Option

def MAX_TASKS : Nat := 32
def TARGET_FREQ : Nat := 1000

inductive TaskState where
  | ready
  | running
  | sleeping
  | blocked
  | terminated
deriving DecidableEq

/-- Where a task continues when it is switched to: in user mode, at the top of
the loop of `ipc::receive`, or in the loop of `ipc::call` on `callee` after its
request was queued (`request` is the request's serial number). -/
inductive Frame where
  | user
  | receive
  | call (callee request : Nat)
deriving DecidableEq

/-- `Task`.  `replyTarget` is `none` where the source has `u64::MAX`; `received`
is a ghost: the serial number of the message that `replyTarget` comes from. -/
structure Task where
  state : TaskState
  domain : Nat
  sleepUntil : Nat
  waitOn : Nat
  wakeDeadline : Nat
  replyTarget : Option Nat
  frame : Frame
  received : Option Nat

/-- `Scheduler`. -/
structure Sched where
  tasks : List (Option Task)
  current : Nat
  ticks : Nat

namespace Sched

variable (s : Sched)

/-- The task in a slot. -/
def task (i : Nat) : Option Task := s.tasks[i]?.join

/-- Change the task in a slot, if there is one. -/
def update (i : Nat) (f : Task → Task) : Sched :=
  { s with tasks := s.tasks.modify i (Option.map f) }

/-- Change every task. -/
def mapTasks (f : Task → Task) : Sched :=
  { s with tasks := s.tasks.map (Option.map f) }

/-- Empty the slots of the tasks that do not pass the test. -/
def keepTasks (p : Task → Bool) : Sched :=
  { s with tasks := s.tasks.map (Option.filter p) }

/-- `ms_to_ticks`: the product saturates, the quotient is rounded up, at least 1. -/
def msToTicks (ms : Nat) : Nat :=
  max ((min (ms * TARGET_FREQ) (2 ^ 64 - 1) + 999) / 1000) 1

/-- `spawn_inner` on the table: the first empty slot takes the task. -/
def spawnUser (domain : Nat) : Option Sched :=
  (s.tasks.findIdx? Option.isNone).map fun slot =>
    { s with tasks := s.tasks.set slot (some
        { state := .ready, domain := domain, sleepUntil := 0, waitOn := 0, wakeDeadline := 0
          replyTarget := none, frame := .user, received := none }) }

/-- `next_ready`: the next ready task after a slot, going round the table. -/
def nextReady (after : Nat) : Option Nat :=
  ((List.range MAX_TASKS).map fun i => (after + (i + 1)) % MAX_TASKS).find? fun idx =>
    (s.task idx).any fun t => t.state = .ready

/-- `schedule_next`: the current task takes the given state and the next ready
one runs. -/
def scheduleNext (state : TaskState) : Option Sched :=
  let s := s.update s.current fun t => { t with state := state }
  (s.nextReady s.current).bind fun next => (s.task s.current).map fun _ =>
    { s.update next (fun t => { t with state := .running }) with current := next }

def currentDomain : Option Nat := (s.task s.current).map (·.domain)

def yieldNow : Option Sched := s.scheduleNext .ready

def sleep (ms : Nat) : Option Sched :=
  (s.update s.current fun t => { t with sleepUntil := s.ticks + msToTicks ms }).scheduleNext .sleeping

/-- `block_current` (no deadline) and `block_current_timeout_ms`: the task waits
on a key. -/
def blockUntil (key deadline : Nat) : Option Sched :=
  (s.update s.current fun t =>
    { t with waitOn := key, wakeDeadline := deadline }).scheduleNext .blocked

def blockCurrent (key : Nat) : Option Sched := s.blockUntil key 0

def blockCurrentTimeoutMs (key ms : Nat) : Option Sched :=
  s.blockUntil key (s.ticks + msToTicks ms)

/-- A blocked task becomes ready. -/
def wake (t : Task) : Task := { t with state := .ready, wakeDeadline := 0 }

/-- Is the task blocked on the key? -/
def waitsOn (key : Nat) (t : Task) : Bool :=
  decide (t.state = .blocked) && decide (t.waitOn = key)

def wakeOne (key : Nat) : Sched :=
  match s.tasks.findIdx? fun slot => slot.any (waitsOn key) with
  | some i => s.update i wake
  | none => s

def removeDomain (domain : Nat) : Sched :=
  (s.keepTasks fun t => decide (t.domain ≠ domain)).mapTasks fun t =>
    if waitsOn domain t then wake t else t

/-- A task of the domain that has not terminated. -/
def isLiveIn (domain : Nat) (t : Task) : Bool :=
  decide (t.domain = domain) && decide (t.state ≠ .terminated)

def liveTasks (domain : Nat) : Nat :=
  s.tasks.countP fun slot => slot.any (isLiveIn domain)

def reapTerminated (domain : Nat) : Sched :=
  s.keepTasks fun t => !(decide (t.domain = domain) && decide (t.state = .terminated))

/-- The loop of `tick`: sleeping and timed-out tasks become ready. -/
def wakeExpired (ticks : Nat) (t : Task) : Task :=
  if t.state = .sleeping ∧ t.sleepUntil ≤ ticks then { t with state := .ready }
  else if t.state = .blocked ∧ t.wakeDeadline ≠ 0 ∧ t.wakeDeadline ≤ ticks then wake t
  else t

/-- `tick` without the reclamation of domains that precedes it. -/
def tick : Option Sched :=
  ({ s with ticks := s.ticks + 1 }.mapTasks (wakeExpired (s.ticks + 1))).scheduleNext .ready

end Sched

/-! ## The cores of the tasks -/

/-- The part of a task that does not depend on how it is scheduled. -/
structure TaskCore where
  domain : Nat
  live : Bool
  replyTarget : Option Nat
  received : Option Nat
  /-- The callee and the request of the call the task is in. -/
  call : Option (Nat × Nat)
deriving DecidableEq

/-- The call that a frame is in. -/
def Frame.pendingCall : Frame → Option (Nat × Nat)
  | .call callee request => some (callee, request)
  | _ => none

def Task.core (t : Task) : TaskCore where
  domain := t.domain
  live := decide (t.state ≠ .terminated)
  replyTarget := t.replyTarget
  received := t.received
  call := t.frame.pendingCall

namespace Sched

/-- The core of the task in a slot. -/
def core (s : Sched) (i : Nat) : Option TaskCore := (s.task i).map Task.core

/-- A check of every task. -/
def allCores (s : Sched) (p : TaskCore → Bool) : Bool :=
  s.tasks.all fun slot => slot.all fun t => p t.core

variable {s s' : Sched} {i domain : Nat} {f : Task → Task}

theorem of_allCores {p : TaskCore → Bool} {t : TaskCore}
    (checked : s.allCores p = true) (found : s.core i = some t) : p t = true := by
  obtain ⟨task, atSlot, rfl⟩ := map_eq_some_iff.mp found
  have member : some task ∈ s.tasks := mem_of_getElem? (join_eq_some_iff.mp atSlot)
  exact all_eq_true.mp checked _ member

/-- The current task has not terminated. -/
def CurrentLive (s : Sched) : Prop := ∀ t, s.core s.current = some t → t.live = true

theorem task_update (s : Sched) (i : Nat) (f : Task → Task) (j : Nat) :
    (s.update i f).task j = if j = i then (s.task i).map f else s.task j := by
  unfold task update
  rw [List.getElem?_modify]
  by_cases here : j = i
  · subst here
    cases s.tasks[j]? with
    | none => simp
    | some slot => cases slot <;> simp
  · have other : ¬ i = j := fun h => here h.symm
    simp [here, other]

theorem core_update (s : Sched) (i : Nat) {g : TaskCore → TaskCore} (agree : ∀ t, (f t).core = g t.core) :
    (s.update i f).core = Function.update s.core i ((s.core i).map g) := by
  funext j
  unfold core
  rw [task_update]
  by_cases here : j = i
  · subst here
    cases s.task j <;> simp [agree]
  · rw [if_neg here, Function.update_of_ne here]

/-- A change that keeps the core of the one task it is applied to keeps all cores. -/
theorem core_update_same
    (same : ∀ t, s.task i = some t → (f t).core = t.core) : (s.update i f).core = s.core := by
  funext j
  unfold core
  rw [task_update]
  by_cases here : j = i
  · subst here
    rw [if_pos rfl]
    cases found : s.task j with
    | none => rfl
    | some t => simp [same t found]
  · rw [if_neg here]

theorem core_mapTasks (s : Sched) (same : ∀ t, (f t).core = t.core) : (s.mapTasks f).core = s.core := by
  funext j
  unfold core task mapTasks
  rw [List.getElem?_map]
  cases s.tasks[j]? with
  | none => rfl
  | some slot => cases slot <;> simp [same]

theorem core_keepTasks (s : Sched) {p : Task → Bool} {q : TaskCore → Bool}
    (agree : ∀ t, p t = q t.core) (j : Nat) : (s.keepTasks p).core j = (s.core j).filter q := by
  unfold core task keepTasks
  rw [List.getElem?_map]
  cases s.tasks[j]? with
  | none => rfl
  | some slot =>
    cases slot with
    | none => rfl
    | some t => by_cases holds : q t.core <;> simp [Option.filter, agree]

theorem core_wake {t : Task} (blocked : t.state = .blocked) : (wake t).core = t.core := by
  simp [wake, Task.core, blocked]

theorem core_of_waitsOn {key : Nat} {t : Task} (waits : waitsOn key t = true) :
    (wake t).core = t.core := by
  simp only [waitsOn, Bool.and_eq_true, decide_eq_true_eq] at waits
  exact core_wake waits.1

theorem core_wakeOne (s : Sched) (key : Nat) : (s.wakeOne key).core = s.core := by
  unfold wakeOne
  split
  next i found =>
    apply core_update_same
    intro t atSlot
    obtain ⟨inside, waits, -⟩ := List.findIdx?_eq_some_iff_getElem.mp found
    have slot : s.tasks[i] = some t := by simpa [task, inside] using atSlot
    rw [slot, any_some] at waits
    exact core_of_waitsOn waits
  next => rfl

theorem current_wakeOne (s : Sched) (key : Nat) : (s.wakeOne key).current = s.current := by
  unfold wakeOne
  split <;> rfl

theorem core_removeDomain (s : Sched) (domain j : Nat) :
    (s.removeDomain domain).core j = (s.core j).filter fun t => decide (t.domain ≠ domain) := by
  rw [removeDomain, core_mapTasks]
  · exact core_keepTasks s (q := fun t => decide (t.domain ≠ domain)) (fun _ => rfl) j
  · intro t
    split
    next waits => exact core_of_waitsOn waits
    next => rfl

theorem core_reapTerminated (s : Sched) (domain j : Nat) :
    (s.reapTerminated domain).core j =
      (s.core j).filter fun t => !(decide (t.domain = domain) && !t.live) := by
  apply core_keepTasks
  simp [Task.core]

theorem core_wakeExpired (ticks : Nat) (t : Task) : (wakeExpired ticks t).core = t.core := by
  unfold wakeExpired
  split
  next sleeping => simp [Task.core, sleeping.1]
  next =>
    split
    next blocked => exact core_wake blocked.1
    next => rfl

/-- **Rescheduling.**  The current task is live afterwards unless it was
terminated; no other core changes, and the next task is live. -/
theorem scheduleNext_spec {state : TaskState} (scheduled : s.scheduleNext state = some s') :
    s'.core = Function.update s.core s.current
        ((s.core s.current).map fun t => { t with live := decide (state ≠ .terminated) }) ∧
      s'.CurrentLive := by
  obtain ⟨next, found, picked⟩ := bind_eq_some_iff.mp scheduled
  obtain ⟨t, -, rfl⟩ := map_eq_some_iff.mp picked
  have ready := List.find?_some found
  constructor
  · rw [← core_update s s.current (f := fun t => { t with state := state })
      (g := fun t => { t with live := decide (state ≠ .terminated) }) (fun _ => rfl)]
    apply core_update_same
    intro u atNext
    have isReady : u.state = .ready := by simpa [atNext] using ready
    simp [Task.core, isReady]
  · intro u atNext
    simp only [core, map_eq_some_iff] at atNext
    obtain ⟨v, slot, rfl⟩ := atNext
    change (update _ next _).task next = some v at slot
    rw [task_update, if_pos rfl] at slot
    obtain ⟨w, -, rfl⟩ := map_eq_some_iff.mp slot
    rfl

section

variable (live : s.CurrentLive)
include live

/-- Rescheduling a live task that stays live changes no core. -/
theorem scheduleNext_core {state : TaskState}
    (stays : state ≠ .terminated) (scheduled : s.scheduleNext state = some s') :
    s'.core = s.core ∧ s'.CurrentLive := by
  obtain ⟨cores, live'⟩ := scheduleNext_spec scheduled
  refine ⟨?_, live'⟩
  rw [cores]
  conv_rhs => rw [← Function.update_eq_self s.current s.core]
  cases found : s.core s.current with
  | none => rfl
  | some t => simp [stays, ← live t found]

theorem blockUntil_core {key deadline : Nat}
    (blocked : s.blockUntil key deadline = some s') : s'.core = s.core ∧ s'.CurrentLive := by
  have same : (s.update s.current fun t =>
      { t with waitOn := key, wakeDeadline := deadline }).core = s.core :=
    core_update_same fun _ _ => rfl
  rw [← same]
  exact scheduleNext_core (by intro t found; exact live t (same ▸ found)) (by simp) blocked

theorem sleep_core {ms : Nat} (slept : s.sleep ms = some s') :
    s'.core = s.core ∧ s'.CurrentLive := by
  have same : (s.update s.current fun t =>
      { t with sleepUntil := s.ticks + msToTicks ms }).core = s.core :=
    core_update_same fun _ _ => rfl
  rw [← same]
  exact scheduleNext_core (by intro t found; exact live t (same ▸ found)) (by simp) slept

theorem tick_core (ticked : s.tick = some s') : s'.core = s.core ∧ s'.CurrentLive := by
  have same : ({ s with ticks := s.ticks + 1 }.mapTasks (wakeExpired (s.ticks + 1))).core = s.core :=
    core_mapTasks { s with ticks := s.ticks + 1 } (core_wakeExpired _)
  rw [← same]
  exact scheduleNext_core (by intro t found; exact live t (same ▸ found)) (by simp) ticked

end

theorem spawnUser_core (spawned : s.spawnUser domain = some s') :
    s'.current = s.current ∧ ∃ slot, s.core slot = none ∧
      s'.core = Function.update s.core slot (some ⟨domain, true, none, none, none⟩) := by
  obtain ⟨slot, found, rfl⟩ := map_eq_some_iff.mp spawned
  obtain ⟨inside, empty, -⟩ := List.findIdx?_eq_some_iff_getElem.mp found
  refine ⟨rfl, slot, ?_, ?_⟩
  · have atSlot : s.tasks[slot] = none := by simpa using empty
    simp [core, task, inside, atSlot]
  · funext j
    by_cases here : j = slot
    · subst here
      simp [core, task, inside, Task.core, Frame.pendingCall]
    · simp [core, task, List.getElem?_set_ne (Ne.symm here), Function.update_of_ne here]

theorem liveTasks_eq_zero :
    s.liveTasks domain = 0 ↔ ∀ i t, s.core i = some t → t.domain = domain → t.live = false := by
  unfold liveTasks
  rw [countP_eq_zero]
  constructor
  · intro none i t found inDomain
    obtain ⟨u, atSlot, rfl⟩ := map_eq_some_iff.mp found
    have member : some u ∈ s.tasks := mem_of_getElem? (join_eq_some_iff.mp atSlot)
    simpa [isLiveIn, Task.core, show u.domain = domain from inDomain] using none _ member
  · intro dead slot member
    cases slot with
    | none => simp
    | some t =>
      obtain ⟨i, atSlot⟩ := mem_iff_getElem?.mp member
      by_cases inDomain : t.domain = domain
      · simpa [Task.core, isLiveIn, inDomain] using dead i t.core (by simp [core, task, atSlot]) inDomain
      · simp [isLiveIn, inDomain]

theorem two_le_countP {α : Type} {p : α → Bool} {l : List α} {j : Nat} {a b : α} (lt : i < j)
    (first : l[i]? = some a) (passes : p a = true) (second : l[j]? = some b)
    (passes' : p b = true) : 2 ≤ l.countP p := by
  induction l generalizing i j with
  | nil => cases first
  | cons head tail ih =>
    obtain ⟨k, rfl⟩ : ∃ k, j = k + 1 := ⟨j - 1, by omega⟩
    cases i with
    | zero =>
      rw [List.getElem?_cons_zero, some.injEq] at first
      have later : 0 < tail.countP p := countP_pos_iff.mpr ⟨b, mem_of_getElem? second, passes'⟩
      rw [first, countP_cons_of_pos passes]
      omega
    | succ i =>
      exact Nat.le_trans (ih (by omega) first second) (sublist_cons_self head tail).countP_le

/-- When the domain has at most one live task and the task in a slot is live,
every other task of the domain has terminated. -/
theorem others_terminated {t : TaskCore}
    (few : s.liveTasks domain ≤ 1) (found : s.core i = some t) (inDomain : t.domain = domain)
    (live : t.live = true) {j : Nat} {u : TaskCore} (other : j ≠ i) (found' : s.core j = some u)
    (inDomain' : u.domain = domain) : u.live = false := by
  by_contra alive
  obtain ⟨t', atSlot, rfl⟩ := map_eq_some_iff.mp found
  obtain ⟨u', atSlot', rfl⟩ := map_eq_some_iff.mp found'
  have counts : ∀ v : Task, v.core.domain = domain → v.core.live = true →
      (some v).any (isLiveIn domain) = true := by
    intro v here running
    simpa [isLiveIn, Task.core] using And.intro here running
  have countsI := counts t' inDomain live
  have countsJ := counts u' inDomain' (by simpa using alive)
  rw [task, join_eq_some_iff] at atSlot atSlot'
  have two : 2 ≤ s.liveTasks domain := by
    rcases Nat.lt_or_gt_of_ne other with lt | gt
    · exact two_le_countP lt atSlot' countsJ atSlot countsI
    · exact two_le_countP gt atSlot countsI atSlot' countsJ
  omega

end Sched

end MorionOS.Kernel
