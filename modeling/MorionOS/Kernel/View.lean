import MorionOS.Kernel.Liveness
import MorionOS.Kernel.Syscall
import Mathlib.Tactic.Simps.Basic

/-!
# The kernel without memory and scheduling

What messages, capabilities and the life of domains depend on is a small part of
the kernel state.  `View` is that part as total maps: which domain numbers are
alive, the rows of the tables, the cores of the tasks.  `View.Step` says, once for
every operation, what a step can do to it.  The relation allows at least what the
kernel does (`Refinement`), so whatever holds of all its runs holds of all runs of
the system.
-/

namespace MorionOS.Kernel

open Function

/-- The part of the kernel state that domains, capabilities and messages depend
on. -/
@[ext] structure View where
  alive : Nat → Bool
  births : Nat → Nat
  caps : Nat → CapRow
  mailbox : Nat → List Message
  pager : Nat → Option Nat
  task : Nat → Option TaskCore
  pending : List Queued
  serial : Nat
  log : List Event

/-- The view of a kernel state. -/
def KernelState.view (s : KernelState) : View where
  alive := s.machine.alive
  births := s.births
  caps := capRow s.caps
  mailbox := Table.row [] s.mailboxes
  pager := s.pagerOf
  task := s.sched.core
  pending := s.pending
  serial := s.serial
  log := s.log

namespace View

variable (v : View)

/-- No task of the domain is live. -/
def Idle (domain : Nat) : Prop :=
  ∀ i t, v.task i = some t → t.domain = domain → t.live = false

/-- Put a message into its receiver's mailbox. -/
@[simps] def accept (m : Message) : View :=
  { v with
    mailbox := update v.mailbox m.receiver (v.mailbox m.receiver ++ [m])
    serial := v.serial + 1
    log := v.log ++ [.accepted m] }

/-- Replace the task in a slot. -/
@[simps] def setTask (i : Nat) (t : TaskCore) : View :=
  { v with task := update v.task i (some t) }

/-- Replace a mailbox and record why. -/
@[simps] def setMailbox (owner : Nat) (box : List Message) (event : Event) : View :=
  { v with mailbox := update v.mailbox owner box, log := v.log ++ [event] }

/-- What `domain::destroy` does to the tables. -/
@[simps] def remove (d : Nat) : View :=
  { v with
    alive := update v.alive d false
    caps := update v.caps d emptyCapRow
    mailbox := update v.mailbox d []
    pager := update v.pager d none
    task := fun i => (v.task i).filter fun t => decide (t.domain ≠ d) }

def destroy (d : Nat) : View := if v.alive d then v.remove d else v

/-- `reclaim_pending`. -/
def reclaim : View :=
  v.pending.foldr (fun queued v => v.destroy queued.id) { v with pending := [] }

/-- Queue a domain for reclamation. -/
@[simps] def queue (d : Nat) : View := { v with pending := v.pending ++ [⟨d, v.births d⟩] }

/-- The row of a domain that was just created. -/
def spawnRow : CapRow :=
  KernelState.spawnGrants.map some ++ List.replicate (CAP_SLOTS - KernelState.spawnGrants.length) none

/-- Create a domain for a loader. -/
@[simps] def create (d loader : Nat) : View :=
  { v with
    alive := update v.alive d true
    births := update v.births d (v.births d + 1)
    caps := update v.caps d spawnRow
    mailbox := update v.mailbox d []
    pager := update v.pager d (some loader) }

/-- Start a task of a domain in a slot. -/
def addTask (slot d : Nat) : View := v.setTask slot ⟨d, true, none, none, none⟩

/-- What `restart_in_place` clears before it loads the image. -/
@[simps] def reset (d : Nat) : View :=
  { v with
    mailbox := update v.mailbox d []
    task := fun i => (v.task i).filter fun t => !(decide (t.domain = d) && !t.live) }

/-- What a step of the task `me` in slot `i` can do. -/
inductive Step (i : Nat) (me : TaskCore) (v : View) : Op → View → Prop where
  /-- Nothing that the view shows. -/
  | quiet (op : Op) : Step i me v op v
  | send {receiver tag : Nat} {payload : List UInt8}
      (allowed : some (.sendTo receiver) ∈ v.caps me.domain)
      (room : (v.mailbox receiver).length < MAILBOX_CAP) :
      Step i me v (.syscall (.send receiver tag payload))
        (v.accept ⟨me.domain, receiver, tag, fitPayload payload, v.serial, none⟩)
  /-- A missing page is reported to the pager. -/
  | fault {addr code pager : Nat} {payload : List UInt8} (registered : v.pager me.domain = some pager)
      (room : (v.mailbox pager).length < MAILBOX_CAP) :
      Step i me v (.pageFault false addr code)
        (v.accept ⟨me.domain, pager, FAULT_TAG, payload, v.serial, none⟩)
  | irq {line data driver : Nat} {payload : List UInt8}
      (room : (v.mailbox driver).length < MAILBOX_CAP) :
      Step i me v (.irq line data) (v.accept ⟨0, driver, data, payload, v.serial, none⟩)
  | call {callee tag : Nat} {payload : List UInt8}
      (allowed : some (.sendTo callee) ∈ v.caps me.domain) :
      Step i me v (.syscall (.call callee tag payload))
        ((v.accept ⟨me.domain, callee, tag, fitPayload payload, v.serial, none⟩).setTask i
          { me with call := some (callee, v.serial) })
  | reply {tag target : Nat} (saved : me.replyTarget = some target) :
      Step i me v (.syscall (.reply tag))
        (v.accept ⟨me.domain, target, tag, fitPayload [], v.serial, me.received⟩)
  /-- `receive` and `try_receive` take the oldest message. -/
  | receive {op : Op} {m : Message} {rest : List Message}
      (receives : op = .syscall .recv ∨ op = .syscall .tryRecv ∨ op = .resume)
      (outside : me.call = none) (front : v.mailbox me.domain = m :: rest) :
      Step i me v op ((v.setMailbox me.domain rest (.received me.domain m)).setTask i
        { me with replyTarget := some m.sender, received := some m.serial })
  /-- `call` returns the first message from the callee. -/
  | return {callee request : Nat} {m : Message} (waiting : me.call = some (callee, request))
      (found : (v.mailbox me.domain).find? (fun m => m.sender = callee) = some m) :
      Step i me v .resume
        ((v.setMailbox me.domain ((v.mailbox me.domain).eraseP fun m => m.sender = callee)
          (.returned me.domain callee request m)).setTask i { me with call := none })
  /-- `call` fails on a callee without live tasks. -/
  | giveUp {callee request : Nat} (waiting : me.call = some (callee, request))
      (idle : v.Idle callee) : Step i me v .resume (v.setTask i { me with call := none })
  /-- The last live task of a run-time domain queues the domain. -/
  | exitLast {op : Op}
      (exits : op = .syscall .exit ∨ ∃ addr code, op = .pageFault true addr code)
      (last : ∀ j t, j ≠ i → v.task j = some t → t.domain = me.domain → t.live = false)
      (runtime : BOOT_DOMAINS ≤ me.domain) :
      Step i me v op ((v.queue me.domain).setTask i { me with live := false })
  | exit {op : Op} (exits : op = .syscall .exit ∨ ∃ addr code, op = .pageFault true addr code) :
      Step i me v op (v.setTask i { me with live := false })
  /-- At most the receiver's row gets a capability, one that the sender holds. -/
  | capSend {receiver kind arg : Nat} {cap : Capability} {caps : Nat → CapRow}
      (allowed : some (.sendTo receiver) ∈ v.caps me.domain) (decoded : decode kind arg = some cap)
      (held : ∀ d c, some c ∈ caps d →
        some c ∈ v.caps d ∨ d = receiver ∧ c = cap ∧ some cap ∈ v.caps me.domain) :
      Step i me v (.syscall (.capSend receiver kind arg)) { v with caps := caps }
  | destroy {target : Nat} (owned : v.pager target = some me.domain) :
      Step i me v (.syscall (.domainDestroy target)) (v.destroy target)
  | spawn {segments : List Segment} {d slot : Nat} (unused : v.alive d = false)
      (free : v.task slot = none) :
      Step i me v (.syscall (.spawnElf (some segments))) ((v.create d me.domain).addTask slot d)
  | spawnFails {segments : List Segment} {d : Nat} (unused : v.alive d = false) :
      Step i me v (.syscall (.spawnElf (some segments))) ((v.create d me.domain).destroy d)
  | restart {target slot : Nat} {segments : List Segment} (live : v.alive target = true)
      (idle : v.Idle target) (free : (v.reset target).task slot = none) :
      Step i me v (.syscall (.spawnElfAt target (some segments)))
        ((v.reset target).addTask slot target)
  | restartFails {target : Nat} {segments : List Segment} (live : v.alive target = true)
      (idle : v.Idle target) :
      Step i me v (.syscall (.spawnElfAt target (some segments))) (v.reset target)
  | tick : Step i me v .tick v.reclaim

/-! ### Destroying -/

theorem remove_task_eq_some {v : View} {d i : Nat} {t : TaskCore} :
    (v.remove d).task i = some t ↔ v.task i = some t ∧ t.domain ≠ d := by
  rw [remove_task, Option.filter_eq_some_iff, decide_eq_true_eq]

/-- What holds after removing a domain that is alive and without doing anything
holds after `destroy`. -/
theorem destroy_cases {v : View} {d : Nat} {P : View → Prop}
    (removed : v.alive d = true → P (v.remove d)) (same : P v) : P (v.destroy d) := by
  unfold destroy
  split
  next live => exact removed live
  next => exact same

theorem destroy_births (d : Nat) : (v.destroy d).births = v.births :=
  destroy_cases (P := fun w => w.births = v.births) (fun _ => rfl) rfl

theorem destroy_pending (d : Nat) : (v.destroy d).pending = v.pending :=
  destroy_cases (P := fun w => w.pending = v.pending) (fun _ => rfl) rfl

/-- Every task belongs to a domain that is alive. -/
def Housed : Prop := ∀ i t, v.task i = some t → v.alive t.domain = true

theorem Housed.remove {v : View} (housed : v.Housed) (d : Nat) : (v.remove d).Housed := by
  intro i t found
  obtain ⟨before, other⟩ := remove_task_eq_some.mp found
  rw [remove_alive, update_of_ne other]
  exact housed i t before

/-- What holds of a view and survives the destruction of each queued domain
survives the reclamation. -/
theorem reclaim_induction {v : View} {P : View → Prop} (start : P { v with pending := [] })
    (destroys : ∀ w, ∀ queued ∈ v.pending, P w → P (w.destroy queued.id)) : P v.reclaim := by
  suffices sub : ∀ queue : List Queued, queue ⊆ v.pending →
      P (queue.foldr (fun queued v => v.destroy queued.id) { v with pending := [] }) from
    sub v.pending (List.Subset.refl _)
  intro queue
  induction queue with
  | nil => exact fun _ => start
  | cons queued queue ih =>
    intro sub
    exact destroys _ queued (sub List.mem_cons_self) (ih (List.subset_of_cons_subset sub))

theorem reclaim_births : v.reclaim.births = v.births :=
  reclaim_induction (P := fun w => w.births = v.births) rfl
    fun w queued _ same => (destroy_births w queued.id).trans same

/-- The step created the domain. -/
def Created (v v' : View) (d : Nat) : Prop := v'.births d ≠ v.births d

end View

/-! ## Functions of the kernel on the view -/

namespace KernelState

variable {s s' : KernelState}

/-- The core of the running task. -/
def Runs (s : KernelState) (me : TaskCore) : Prop := s.sched.core s.sched.current = some me

theorem view_withSched (s : KernelState) (sched : Sched) :
    { s with sched := sched }.view = { s.view with task := sched.core } := rfl

theorem view_wakeOne (s : KernelState) (key : Nat) : (s.wakeOne key).view = s.view := by
  rw [wakeOne, view_withSched, Sched.core_wakeOne]
  rfl

theorem view_onSched {result : Option Sched} (same : ∀ sched, result = some sched →
    sched.core = s.sched.core ∧ sched.CurrentLive) (done : s.onSched result = some s') :
    s'.view = s.view ∧ s'.sched.CurrentLive := by
  obtain ⟨sched, eq, rfl⟩ := Option.map_eq_some_iff.mp done
  obtain ⟨cores, live⟩ := same sched eq
  refine ⟨?_, live⟩
  rw [view_withSched, cores]
  rfl

theorem view_updateCurrent {f : Task → Task} {g : TaskCore → TaskCore}
    (agree : ∀ t, (f t).core = g t.core) {me : TaskCore} (runs : s.Runs me) :
    (s.updateCurrent f).view = s.view.setTask s.sched.current (g me) := by
  rw [updateCurrent, view_withSched, Sched.core_update s.sched s.sched.current agree, runs]
  rfl

theorem view_enqueue {sender receiver tag : Nat} {payload : List UInt8} {answers : Option Nat}
    {box : List Message} (found : s.mailboxes[receiver]? = some box) :
    (s.enqueue sender receiver tag payload answers).view =
      s.view.accept ⟨sender, receiver, tag, fitPayload payload, s.serial, answers⟩ := by
  have inside := (List.getElem?_eq_some_iff.mp found).1
  rw [enqueue, view_wakeOne]
  ext1 <;> try rfl
  funext d
  simp [view, Table.row_modify inside, update_apply]

theorem current_enqueue (sender receiver tag : Nat) (payload : List UInt8) (answers : Option Nat) :
    (s.enqueue sender receiver tag payload answers).sched.current = s.sched.current :=
  Sched.current_wakeOne _ _

theorem view_destroy (s : KernelState) (d : Nat) : (s.destroy d).2.view = s.view.destroy d := by
  change (if s.machine.alive d then _ else _ : Bool × KernelState).2.view =
    if s.machine.alive d then s.view.remove d else s.view
  split
  next live =>
    ext1 <;> try rfl
    · exact Machine.alive_destroyDomain d
    · funext e
      rw [View.remove_caps, update_apply]
      exact capRow_setRow s.caps d e
    · funext e
      rw [View.remove_mailbox, update_apply]
      exact Table.row_put [] s.mailboxes d [] e
    · funext e
      rw [View.remove_pager, update_apply]
      exact Table.row_put none s.pagers d none e
    · funext i
      exact Sched.core_removeDomain s.sched d i
  next => rfl

theorem current_destroy (s : KernelState) (d : Nat) :
    (s.destroy d).2.sched.current = s.sched.current := by
  unfold destroy
  split <;> rfl

theorem currentLive_destroy {d : Nat} (live : s.sched.CurrentLive) :
    (s.destroy d).2.sched.CurrentLive := by
  intro t found
  apply live t
  rw [current_destroy] at found
  have cores := congrFun (congrArg View.task (view_destroy s d)) s.sched.current
  change (s.destroy d).2.sched.core s.sched.current = _ at cores
  rw [cores] at found
  revert found
  exact View.destroy_cases (P := fun w => w.task s.sched.current = some t → _)
    (fun _ found => (View.remove_task_eq_some.mp found).1) id

theorem destroyAll_view (queue : List Queued) (live : s.sched.CurrentLive) :
    (queue.foldr (fun queued s => (s.destroy queued.id).2) s).view =
        queue.foldr (fun queued v => v.destroy queued.id) s.view ∧
      (queue.foldr (fun queued s => (s.destroy queued.id).2) s).sched.CurrentLive := by
  induction queue with
  | nil => exact ⟨rfl, live⟩
  | cons queued queue ih =>
    refine ⟨?_, currentLive_destroy ih.2⟩
    rw [List.foldr_cons, List.foldr_cons, view_destroy, ih.1]

theorem view_reclaimPending (live : s.sched.CurrentLive) :
    s.reclaimPending.view = s.view.reclaim ∧ s.reclaimPending.sched.CurrentLive :=
  destroyAll_view (s := { s with pending := [] }) s.pending live

end KernelState

end MorionOS.Kernel
