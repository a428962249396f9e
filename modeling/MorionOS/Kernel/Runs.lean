import MorionOS.Kernel.Mailboxes
import MorionOS.Kernel.Ports

/-!
# What every run keeps

Three results about all runs from the boot, without a condition on what the domains ask for, by
any interleaving of system calls, faults, interrupts and ticks:

* `messages_come_in_order_and_once`: a receiver gets the messages of a sender in the order in
  which they were accepted, and none of them twice;
* `tasks_have_living_domains`: no task outlives its domain, and no terminated task runs;
* `boot_domains_stay`: the services that `main.rs` starts keep their numbers and their pagers.

The first two follow from invariants of the view of the kernel (`Refinement`), the third from
those that carry the ports (`Ports`).  `Reached` is a state together with the run that leads to it.
-/

namespace MorionOS.Kernel

open List KernelState

/-- A state that is reached from the boot. -/
structure Reached {σ τ : Type} (Boot : σ → Prop) (Run : σ → List τ → σ → Prop) where
  start : σ
  booted : Boot start
  history : List τ
  state : σ
  ran : Run start history state

variable {mp : Mapper} (r : Reached Booted (Run mp))

/-- The messages of `sender` that `owner` has taken, and then those that wait for it. -/
def KernelState.passed (s : KernelState) (owner sender : Nat) : List Message :=
  s.log.filterMap (Event.takenFor owner sender) ++ (s.view.mailbox owner).filter fun m => m.sender = sender

theorem message_of_acceptedFor {owner sender : Nat} {m : Message} {e : Event}
    (accepted : e.acceptedFor owner sender = some m) : e.message = some m := by
  cases e with
  | accepted =>
    obtain ⟨-, same⟩ := Option.ite_none_right_eq_some.mp accepted
    exact same
  | _ => cases accepted

/-- **Messages come in order and once**, also where mailboxes are overfull. -/
theorem messages_come_in_order_and_once (owner sender : Nat) :
    (r.state.passed owner sender).Sublist (r.state.log.filterMap (Event.acceptedFor owner sender)) ∧
      (r.state.passed owner sender).Pairwise fun m m' => m.serial < m'.serial := by
  have noLog : r.start.view.log = [] := r.booted.log
  have empty : ∀ d, r.start.view.mailbox d = [] := r.booted.mailboxes
  obtain ⟨fifo, numbered⟩ : r.state.view.Fifo ∧ r.state.view.Numbered := by
    refine r.ran.invariant (I := fun v => v.Fifo ∧ v.Numbered) (K := fun _ _ => True)
      r.booted.currentLive ⟨?_, ?_⟩ ?_ fun _ _ => trivial
    · intro owner sender
      simp [noLog, empty]
    · constructor <;> simp [noLog]
    · exact fun inv _ _ _ step => ⟨step.fifo inv.1, step.numbered inv.2⟩
  refine ⟨fifo owner sender, .sublist (fifo owner sender) (pairwise_filterMap.mpr ?_)⟩
  refine (pairwise_filterMap.mp numbered.order).imp fun less m first m' second => ?_
  exact less m (message_of_acceptedFor first) m' (message_of_acceptedFor second)

/-- The run in which an application calls the file system and is answered. -/
theorem demoCall_reached : ∃ r : Reached Booted (Run Mapper.fourLevel), r.state.log.length = 4 := by
  obtain ⟨s, ran, evaluated⟩ : ∃ s ∈ demoKernel.run Mapper.fourLevel demoCall, s.log.length = 4 := by
    decide +kernel
  obtain ⟨history, steps, -⟩ := Run.of_run ran
  exact ⟨⟨demoKernel, demoKernel_booted, history, s, steps⟩, evaluated⟩

theorem demoCall_in_order : ∃ r : Reached Booted (Run Mapper.fourLevel), r.state.log.length = 4 ∧
    (r.state.passed mfsDomain appDomain).Pairwise fun m m' => m.serial < m'.serial := by
  obtain ⟨r, logged⟩ := demoCall_reached
  exact ⟨r, logged, (messages_come_in_order_and_once r mfsDomain appDomain).2⟩

/-- **Tasks have living domains**, and the task that runs has not ended. -/
theorem tasks_have_living_domains :
    (∀ i t, r.state.sched.task i = some t → r.state.isAlive t.domain = true) ∧
      ∀ t, r.state.sched.task r.state.sched.current = some t → t.state ≠ .terminated := by
  have live := r.booted.currentLive
  have core {i : Nat} {t : Task} (found : r.state.sched.task i = some t) :
      r.state.sched.core i = some t.core := by rw [Sched.core, found, Option.map_some]
  have housed : r.state.view.Housed :=
    r.ran.invariant (K := fun _ _ => True) live r.booted.exited.housed
      (fun inv _ runs _ step => inv.step runs step) fun _ _ => trivial
  refine ⟨fun i t found => housed i t.core (core found), fun t found => ?_⟩
  simpa [Task.core] using r.ran.currentLive live t.core (core found)

theorem demoCall_housed : ∃ r : Reached Booted (Run Mapper.fourLevel), r.state.log.length = 4 ∧
    ∀ i t, r.state.sched.task i = some t → r.state.isAlive t.domain = true := by
  obtain ⟨r, logged⟩ := demoCall_reached
  exact ⟨r, logged, (tasks_have_living_domains r).1⟩

/-- **The services of the boot stay.**  No domain can destroy one, get its number or change its pager. -/
theorem boot_domains_stay (r : Reached NetBooted (NetState.Run mp)) (d : Fin BOOT_DOMAINS) :
    r.start.kernel.view.Stays r.state.kernel.view d := by
  obtain ⟨start, booted, history, s, ran⟩ := r
  have unbound := booted.unbound
  have both : NetState.Settled history s ∧ start.kernel.view.Stays s.kernel.view d := by
    induction ran with
    | nil =>
      exact ⟨⟨booted.booted.currentLive, booted.booted.exited.housed, booted.entrusted,
        by simp [unbound], by simp [unbound], by simp [unbound]⟩, .refl (booted.entrusted.boot d d.2)⟩
    | step _ stepped ih =>
      obtain ⟨settled, stays⟩ := ih
      refine ⟨settled.step stepped, ?_⟩
      rcases NetState.step_cases stepped with ⟨o, rfl, kernelStepped, -⟩ | ⟨t, port, rfl, found, rfl⟩
      · have next := (settled.kernelStep kernelStepped).2.2.2 d d.2
        exact ⟨next.alive, next.births.trans stays.births, next.pager.trans stays.pager⟩
      · exact stays
  exact both.2

theorem demoBind_stays : ∃ r : Reached NetBooted (NetState.Run Mapper.fourLevel),
    r.state.bindings = [⟨appDomain, 12345⟩] ∧
      ∀ d : Fin BOOT_DOMAINS, r.start.kernel.view.Stays r.state.kernel.view d := by
  obtain ⟨s, ran, evaluated⟩ : ∃ s ∈ demoNet.run Mapper.fourLevel demoBind,
      s.bindings = [⟨appDomain, 12345⟩] := by decide +kernel
  obtain ⟨history, steps⟩ := NetState.Run.of_run ran
  exact ⟨⟨demoNet, demoNet_booted, history, s, steps⟩, evaluated, boot_domains_stay _⟩

end MorionOS.Kernel
