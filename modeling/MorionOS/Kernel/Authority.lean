import MorionOS.Kernel.Confinement
import MorionOS.Kernel.Reclaim

/-!
# Authority over a domain number

Domain numbers are used again, the smallest free one first.  Capabilities, pager
entries and reply targets of other domains refer to a domain by its number, and so
do messages, from which `receive` takes the reply target.  `NamedByOther` says
that one of them names a number.  In runs that destroy a domain only while none does, a
new domain is named by nobody (`no_dead_authority`); in `reply_target_survives` a reply
target outlives its domain.
-/

namespace MorionOS.Kernel

open Function List

namespace View

/-- The capabilities, the pager entry and the messages of domain `e` name `d`. -/
def RowNames (v : View) (e d : Nat) : Prop :=
  (∃ cap, some cap ∈ v.caps e ∧ cap.names = some d) ∨ v.pager e = some d ∨
    ∃ m ∈ v.mailbox e, m.sender = d

/-- A task of domain `e` will reply to `d`. -/
def TaskNames (v : View) (e d : Nat) : Prop :=
  ∃ i t, v.task i = some t ∧ t.domain = e ∧ t.replyTarget = some d

/-- Domain `e` names `d`. -/
def Names (v : View) (e d : Nat) : Prop := v.RowNames e d ∨ v.TaskNames e d

/-- Another domain has a capability for `d`, has `d` as its pager, will reply to
`d` or has a message from `d` that it has yet to receive. -/
def NamedByOther (v : View) (d : Nat) : Prop := ∃ e, e ≠ d ∧ v.Names e d

/-- Whatever is named is alive, and so are the domains of the boot. -/
structure Named (v : View) : Prop where
  housed : v.Housed
  boot : ∀ d, d < BOOT_DOMAINS → v.alive d = true
  live : ∀ e d, v.Names e d → v.alive d = true

variable {v v' : View} {i : Nat} {me : TaskCore}

/-! ## Fewer names -/

variable {d e n loader : Nat}

theorem remove_names (named : (v.remove d).Names e n) : e ≠ d ∧ v.Names e n := by
  rcases named with (⟨cap, held, names⟩ | pager | ⟨m, member, sent⟩) | ⟨j, t, found, inDomain, saved⟩
  · rw [remove_caps, update_apply] at held
    split at held
    · exact absurd held (not_mem_emptyCapRow cap)
    next other => exact ⟨other, .inl (.inl ⟨cap, held, names⟩)⟩
  · rw [remove_pager, update_apply] at pager
    split at pager
    · cases pager
    next other => exact ⟨other, .inl (.inr (.inl pager))⟩
  · rw [remove_mailbox, update_apply] at member
    split at member
    · cases member
    next other => exact ⟨other, .inl (.inr (.inr ⟨m, member, sent⟩))⟩
  · obtain ⟨before, other⟩ := remove_task_eq_some.mp found
    exact ⟨inDomain ▸ other, .inr ⟨j, t, before, inDomain, saved⟩⟩

theorem Named.remove (inv : v.Named) (runtime : BOOT_DOMAINS ≤ d)
    (unnamed : ¬ v.NamedByOther d) : (v.remove d).Named where
  housed := inv.housed.remove d
  boot := by
    intro e boot
    rw [remove_alive, update_of_ne (by omega)]
    exact inv.boot e boot
  live := by
    intro e n named
    obtain ⟨other, before⟩ := remove_names named
    have different : n ≠ d := by
      intro same
      subst same
      exact unnamed ⟨e, other, before⟩
    rw [remove_alive, update_of_ne different]
    exact inv.live e n before

theorem Named.of_names (inv : v.Named) (housed : v'.Housed) (alive : v'.alive = v.alive)
    (names : ∀ e d, v'.Names e d → v.Names e d ∨ v.alive d = true) : v'.Named where
  housed := housed
  boot := fun d boot => alive ▸ inv.boot d boot
  live := by
    intro e d named
    rw [alive]
    rcases names e d named with before | live
    · exact inv.live e d before
    · exact live

variable {m : Message}

theorem accept_names (named : (v.accept m).Names e d) : v.Names e d ∨ d = m.sender := by
  rcases named with (capped | pager | ⟨m', member, sent⟩) | saved
  · exact .inl (.inl (.inl capped))
  · exact .inl (.inl (.inr (.inl pager)))
  · rw [accept_mailbox, update_apply] at member
    split at member
    next here =>
      rcases mem_append.mp member with before | added
      · exact .inl (.inl (.inr (.inr ⟨m', here ▸ before, sent⟩)))
      · rw [mem_singleton] at added
        exact .inr (by rw [← sent, added])
    next => exact .inl (.inl (.inr (.inr ⟨m', member, sent⟩)))
  · exact .inl (.inr saved)

theorem Named.accept (inv : v.Named) (live : v.alive m.sender = true) :
    (v.accept m).Named := by
  have housed : (v.accept m).Housed := inv.housed
  apply inv.of_names housed rfl
  intro e d named
  rcases accept_names named with before | rfl
  · exact .inl before
  · exact .inr live

variable {t : TaskCore}

theorem setTask_names (runs : v.task i = some me)
    (sameDomain : t.domain = me.domain) (named : (v.setTask i t).Names e d) :
    v.Names e d ∨ t.replyTarget = some d ∧ t.replyTarget ≠ me.replyTarget := by
  rcases named with rows | ⟨j, u, found, inDomain, saved⟩
  · exact .inl (.inl rows)
  · rw [setTask_task, update_apply] at found
    split at found
    · cases found
      by_cases same : t.replyTarget = me.replyTarget
      · exact .inl (.inr ⟨i, me, runs, sameDomain ▸ inDomain, same ▸ saved⟩)
      · exact .inr ⟨saved, same⟩
    · exact .inl (.inr ⟨j, u, found, inDomain, saved⟩)

theorem Named.setTask (inv : v.Named) (runs : v.task i = some me)
    (sameDomain : t.domain = me.domain) (sameTarget : t.replyTarget = me.replyTarget) :
    (v.setTask i t).Named := by
  apply inv.of_names (inv.housed.setTask runs sameDomain) rfl
  intro e d named
  rcases setTask_names runs sameDomain named with before | ⟨-, changed⟩
  · exact .inl before
  · exact absurd sameTarget changed

variable {owner slot : Nat} {box : List Message} {event : Event}

theorem setMailbox_names
    (sub : ∀ m ∈ box, m ∈ v.mailbox owner) (named : (v.setMailbox owner box event).Names e d) :
    v.Names e d := by
  rcases named with (capped | pager | ⟨m, member, sent⟩) | saved
  · exact .inl (.inl capped)
  · exact .inl (.inr (.inl pager))
  · rw [setMailbox_mailbox, update_apply] at member
    split at member
    next here => exact .inl (.inr (.inr ⟨m, here ▸ sub m member, sent⟩))
    next => exact .inl (.inr (.inr ⟨m, member, sent⟩))
  · exact .inr saved

theorem Named.setMailbox (inv : v.Named)
    (sub : ∀ m ∈ box, m ∈ v.mailbox owner) : (v.setMailbox owner box event).Named := by
  have housed : (v.setMailbox owner box event).Housed := inv.housed
  apply inv.of_names housed rfl
  intro e d named
  exact .inl (setMailbox_names sub named)

/-! ## New domains -/

theorem create_names (named : (v.create d loader).Names e n) :
    v.Names e n ∨ e = d ∧ (n = loader ∨ n < BOOT_DOMAINS) := by
  rcases named with (⟨cap, held, names⟩ | pager | ⟨m, member, sent⟩) | saved
  · rw [create_caps, update_apply] at held
    split at held
    next here =>
      refine .inr ⟨here, .inr ?_⟩
      have granted := mem_spawnRow held
      simp only [KernelState.spawnGrants, mem_cons, not_mem_nil, or_false] at granted
      rcases granted with rfl | rfl | rfl <;> cases names <;> decide
    next => exact .inl (.inl (.inl ⟨cap, held, names⟩))
  · rw [create_pager, update_apply] at pager
    split at pager
    next here => cases pager; exact .inr ⟨here, .inl rfl⟩
    next => exact .inl (.inl (.inr (.inl pager)))
  · rw [create_mailbox, update_apply] at member
    split at member
    · cases member
    · exact .inl (.inl (.inr (.inr ⟨m, member, sent⟩)))
  · exact .inl (.inr saved)

theorem Named.create (inv : v.Named) (live : v.alive loader = true) : (v.create d loader).Named where
  housed := inv.housed.create
  boot := by
    intro e boot
    rw [create_alive, update_apply]
    split
    · rfl
    · exact inv.boot e boot
  live := by
    intro e n named
    rw [create_alive, update_apply]
    split
    · rfl
    · rcases create_names named with before | ⟨-, rfl | boot⟩
      · exact inv.live e n before
      · exact live
      · exact inv.boot n boot

/-- A number that is not in use is named by no one, and creating the domain gives
no other domain a name for it. -/
theorem Named.create_unnamed (inv : v.Named) (unused : v.alive d = false) :
    ¬ (v.create d loader).NamedByOther d := by
  rintro ⟨e, other, named⟩
  rcases create_names named with before | ⟨same, -⟩
  · rw [inv.live e d before] at unused
    cases unused
  · exact other same

theorem addTask_names (named : (v.addTask slot d).Names e n) : v.Names e n := by
  rcases named with rows | ⟨j, t, found, inDomain, saved⟩
  · exact .inl rows
  · rw [addTask, setTask_task, update_apply] at found
    split at found
    · cases found; cases saved
    · exact .inr ⟨j, t, found, inDomain, saved⟩

theorem Named.addTask (inv : v.Named) (live : v.alive d = true) : (v.addTask slot d).Named :=
  inv.of_names (inv.housed.addTask live) rfl fun _ _ named => .inl (addTask_names named)

theorem reset_names (named : (v.reset d).Names e n) : v.Names e n := by
  rcases named with (capped | pager | ⟨m, member, sent⟩) | ⟨j, t, found, inDomain, saved⟩
  · exact .inl (.inl capped)
  · exact .inl (.inr (.inl pager))
  · rw [reset_mailbox, update_apply] at member
    split at member
    · cases member
    · exact .inl (.inr (.inr ⟨m, member, sent⟩))
  · exact .inr ⟨j, t, reset_task_eq_some found, inDomain, saved⟩

theorem Named.reset (inv : v.Named) : (v.reset d).Named :=
  inv.of_names inv.housed.reset rfl fun _ _ named => .inl (reset_names named)

theorem create_destroy (v : View) (d loader : Nat) :
    (v.create d loader).destroy d = (v.create d loader).remove d :=
  if_pos (by rw [create_alive, update_self])

/-! ## Steps -/

/-- The step destroys the domain: its pager asks for it, or it is queued at a
tick. -/
def Destroys (v : View) (caller : Nat) (op : Op) (d : Nat) : Prop :=
  v.alive d = true ∧ (op = .syscall (.domainDestroy d) ∧ v.pager d = some caller ∨
    op = .tick ∧ ∃ q ∈ v.pending, q.id = d)

/-- The domains that the step destroys are not of the boot and no other domain
names them. -/
def DestroysUnnamed (v : View) (caller : Nat) (op : Op) : Prop :=
  ∀ d, v.Destroys caller op d → BOOT_DOMAINS ≤ d ∧ ¬ v.NamedByOther d

/-- A view with fewer names and fewer domains, all of them accounted for. -/
structure Shrunk (v w : View) : Prop where
  named : w.Named
  names : ∀ e d, w.Names e d → v.Names e d
  alive : ∀ d, w.alive d = true → v.alive d = true

theorem Shrunk.remove {w : View} (shrunk : v.Shrunk w) (runtime : BOOT_DOMAINS ≤ d)
    (unnamed : ¬ v.NamedByOther d) : v.Shrunk (w.remove d) where
  named := by
    apply shrunk.named.remove runtime
    rintro ⟨e, other, named⟩
    exact unnamed ⟨e, other, shrunk.names e d named⟩
  names := fun e n named => shrunk.names e n (remove_names named).2
  alive := by
    intro e live
    rw [remove_alive, update_apply] at live
    split at live
    · cases live
    · exact shrunk.alive e live

theorem Named.reclaim {caller : Nat} (inv : v.Named) (unnamed : v.DestroysUnnamed caller .tick) :
    v.reclaim.Named := by
  have shrunk : v.Shrunk v.reclaim := by
    apply reclaim_induction (P := v.Shrunk)
    · exact ⟨⟨inv.housed, inv.boot, inv.live⟩, fun _ _ named => named, fun _ live => live⟩
    · intro w queued member shrunk
      apply destroy_cases (P := v.Shrunk)
      · intro live
        obtain ⟨runtime, free⟩ :=
          unnamed queued.id ⟨shrunk.alive _ live, .inr ⟨rfl, queued, member, rfl⟩⟩
        exact shrunk.remove runtime free
      · exact shrunk
  exact shrunk.named

theorem Named.step {op : Op} (inv : v.Named) (runs : v.task i = some me)
    (step : Step i me v op v') (unnamed : v.DestroysUnnamed me.domain op) : v'.Named := by
  have here : v.alive me.domain = true := inv.housed i me runs
  cases step with
  | quiet op => exact inv
  | send | fault => exact inv.accept here
  | irq room => exact inv.accept (inv.boot 0 (by decide))
  | call allowed =>
    apply (inv.accept here).setTask runs
    · rfl
    · rfl
  | reply saved => exact inv.accept here
  | receive receives outside front =>
    rename_i m rest
    have sub : ∀ m' ∈ rest, m' ∈ v.mailbox me.domain := by
      intro m' member
      rw [front]
      exact mem_cons_of_mem m member
    have smaller : (v.setMailbox me.domain rest (.received me.domain m)).Named := inv.setMailbox sub
    have atSlot : (v.setMailbox me.domain rest (.received me.domain m)).task i = some me := runs
    apply smaller.of_names
    · exact smaller.housed.setTask atSlot rfl
    · rfl
    · intro e d named
      rcases setTask_names atSlot (by rfl) named with before | ⟨target, -⟩
      · exact .inl before
      · cases target
        exact .inr (inv.live me.domain _ (.inl (.inr (.inr ⟨m, by simp [front], rfl⟩))))
  | «return» waiting found =>
    apply (inv.setMailbox fun m member => mem_of_mem_eraseP member).setTask runs
    · rfl
    · rfl
  | giveUp | exit => exact inv.setTask runs rfl rfl
  | exitLast exits last runtime =>
    have queued : (v.queue me.domain).Named := ⟨inv.housed, inv.boot, inv.live⟩
    exact queued.setTask runs rfl rfl
  | capSend allowed decoded held =>
    rename_i receiver kind arg cap caps
    have housed : ({ v with caps := caps } : View).Housed := inv.housed
    apply inv.of_names housed rfl
    rintro e d ((⟨c, row, names⟩ | pager | message) | saved)
    · rcases held e c row with before | ⟨rfl, rfl, giverHolds⟩
      · exact .inl (.inl (.inl ⟨c, before, names⟩))
      · exact .inr (inv.live me.domain d (.inl (.inl ⟨c, giverHolds, names⟩)))
    · exact .inl (.inl (.inr (.inl pager)))
    · exact .inl (.inl (.inr (.inr message)))
    · exact .inl (.inr saved)
  | destroy owned =>
    rename_i target
    apply destroy_cases
    · intro live
      obtain ⟨runtime, free⟩ := unnamed target ⟨live, .inl ⟨rfl, owned⟩⟩
      exact inv.remove runtime free
    · exact inv
  | spawn unused free =>
    apply (inv.create here).addTask
    rw [create_alive, update_self]
  | spawnFails unused =>
    rename_i segments d
    rw [create_destroy]
    apply (inv.create here).remove
    · by_contra boot
      rw [inv.boot d (by omega)] at unused
      cases unused
    · exact inv.create_unnamed unused
  | restart live idle free => exact inv.reset.addTask live
  | restartFails live idle => exact inv.reset
  | tick => exact inv.reclaim unnamed

/-- A domain that a step creates is named by no other domain. -/
theorem Named.created {op : Op} (inv : v.Named) (step : Step i me v op v')
    (created : Created v v' d) : ¬ v'.NamedByOther d := by
  cases step with
  | spawn unused free =>
    rename_i segments e slot
    by_cases here : d = e
    · subst here
      rintro ⟨n, other, named⟩
      exact inv.create_unnamed unused ⟨n, other, addTask_names named⟩
    · exact fun _ => created (by simp [View.addTask, here])
  | spawnFails unused =>
    rename_i segments e
    by_cases here : d = e
    · subst here
      rw [create_destroy]
      rintro ⟨n, other, named⟩
      exact inv.create_unnamed unused ⟨n, other, (remove_names named).2⟩
    · exact fun _ => created (by simp [destroy_births, here])
  | destroy owned => exact fun _ => created (by rw [destroy_births])
  | tick => exact fun _ => created (by rw [reclaim_births])
  | _ => exact fun _ => created rfl

end View

/-! ## Runs -/

namespace KernelState

/-- The domains that the step destroys are not of the boot and no other domain
names them. -/
def DestroysUnnamed (s : KernelState) (op : Op) : Prop :=
  ∀ caller, s.sched.currentDomain = some caller → s.view.DestroysUnnamed caller op

end KernelState

open KernelState

theorem Booted.named {s : KernelState} (booted : Booted s) : s.view.Named where
  housed := booted.exited.housed
  boot := fun d boot => (booted.alive d).trans (decide_eq_true boot)
  live := by
    have alive : ∀ d, d < BOOT_DOMAINS → s.view.alive d = true :=
      fun d boot => (booted.alive d).trans (decide_eq_true boot)
    rintro e d ((⟨cap, held, names⟩ | pager | ⟨m, member, -⟩) | ⟨i, t, found, -, saved⟩)
    · exact alive d (booted.caps e cap d held names)
    · exact alive d (booted.pagers e d pager)
    · rw [booted.mailboxes e] at member
      cases member
    · rw [(booted.tasks i t found).2.2.1] at saved
      cases saved

/-- **No authority over a dead domain's successor** along every run in which a
domain is destroyed only while no other domain names it: a domain that is created
is named by no other domain's capabilities, pager entry, reply target or unread
message. -/
theorem no_dead_authority (mp : Mapper) {start s : KernelState} {history : List Transition}
    (booted : Booted start) (ran : Run mp start history s)
    (unnamed : ∀ t ∈ history, t.before.DestroysUnnamed t.op) :
    ∀ t ∈ history, ∀ d, t.Creates d → ¬ t.after.view.NamedByOther d := by
  induction ran with
  | nil => exact fun t member => nomatch member
  | step before stepped ih =>
    intro t member d creates
    have earlier := fun t member => unnamed t (mem_cons_of_mem _ member)
    rcases mem_cons.mp member with rfl | member
    · have live := booted.currentLive
      have inv := before.invariant (I := View.Named) live booted.named
        (fun inv unnamed runs _ step => inv.step runs step (unnamed _ runs.currentDomain)) earlier
      obtain ⟨me, -, allowed, -⟩ := step_view (before.currentLive live) stepped
      exact inv.created allowed creates
    · exact ih earlier t member d creates

/-! ## Two runs -/

/-- The application starts a program. -/
def demoSpawn : List Op := yields 2 ++ [.syscall (.spawnElf (some [demoProgram]))]

theorem demoSpawn_unnamed : ∃ s history, Run Mapper.fourLevel demoKernel history s ∧
    s.births 26 = 1 ∧ (∀ t ∈ history, t.before.DestroysUnnamed t.op) ∧
      ∀ t ∈ history, ∀ d, t.Creates d → ¬ t.after.view.NamedByOther d := by
  obtain ⟨s, ran, evaluated⟩ : ∃ s ∈ demoKernel.run Mapper.fourLevel demoSpawn, s.births 26 = 1 := by
    decide +kernel
  obtain ⟨history, steps, ops⟩ := Run.of_run ran
  have unnamed : ∀ t ∈ history, t.before.DestroysUnnamed t.op := by
    intro t member caller _ d destroys
    have op : t.op ∈ demoSpawn := by
      rw [← ops]
      exact mem_map_of_mem (mem_reverse.mpr member)
    simp only [demoSpawn, yields] at op
    rcases destroys.2 with ⟨asked, -⟩ | ⟨ticked, -⟩
    · simp [asked] at op
    · simp [ticked] at op
  exact ⟨s, history, steps, evaluated, unnamed,
    no_dead_authority Mapper.fourLevel demoKernel_booted steps unnamed⟩

/-- The program sends a request to the file system, which receives it; then the
application destroys the program. -/
def demoClient : List Op :=
  demoSpawn ++ yields 6 ++ [.syscall (.send mfsDomain 1 [])] ++ yields 5 ++ [.syscall .recv] ++
    yields 7 ++ [.syscall (.domainDestroy 26)]

/-- The next program gets the number of the old one: the file system names it,
and its answer to the old program goes to the new one. -/
theorem reply_target_survives : ∃ s s' history,
    Run Mapper.fourLevel demoKernel (⟨s, .syscall (.spawnElf (some [demoProgram])), s'⟩ :: history) s' ∧
      s.births 26 = 1 ∧ s'.births 26 = 2 ∧ s'.view.NamedByOther 26 ∧
      (s'.run Mapper.fourLevel (yields 2 ++ [.syscall (.reply 7)])).any
        (fun s => (s.view.mailbox 26).any fun m => decide (m.sender = mfsDomain ∧ m.tag = 7)) = true := by
  obtain ⟨s, ran, s', next, old, new, ⟨t, found, saved⟩, answered⟩ :
      ∃ s ∈ demoKernel.run Mapper.fourLevel demoClient,
      ∃ s' ∈ s.step Mapper.fourLevel (.syscall (.spawnElf (some [demoProgram]))),
        s.births 26 = 1 ∧ s'.births 26 = 2 ∧
        (∃ t ∈ s'.sched.core 4, t.domain = mfsDomain ∧ t.replyTarget = some 26) ∧
        (s'.run Mapper.fourLevel (yields 2 ++ [.syscall (.reply 7)])).any
          (fun s => (s.view.mailbox 26).any fun m =>
            decide (m.sender = mfsDomain ∧ m.tag = 7)) = true := by decide +kernel
  obtain ⟨history, steps, -⟩ := Run.of_run ran
  exact ⟨s, s', history, .step steps next, old, new,
    ⟨mfsDomain, by decide, .inr ⟨4, t, found, saved⟩⟩, answered⟩

end MorionOS.Kernel
