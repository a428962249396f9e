import MorionOS.Kernel.Authority

/-!
# Network ports

`net.rs` keeps a table of bindings: which domain bound which port.  `SYS_NET_BIND`
adds to it for a caller with a `Net` capability that covers the port, and
`SYS_NET_OWNER` reads it.  The table is apart from those that `domain::destroy`
clears, and `net::remove_domain`, which would clear the bindings of a domain, has
no caller: a binding, once made, stays.

`Follows` says that nevertheless every port belongs to the domain that bound it.
One step keeps it as long as the step destroys no owner of a port
(`Follows.step`), and with the capabilities that `main.rs` grants no step can:

* a domain that runs a program from a file is never sent a capability, because no
  domain holds `SendTo` for its number, so only domains of the boot bind ports;
* the pager of the domains of the boot has no `Spawn` capability and cannot be sent
  one, so no system call destroys a domain of the boot, and an exit does not queue
  one either.

The result is `port_ownership_follows_domain`.
-/

namespace MorionOS.Kernel

open Function List Option KernelState

/-! ## What survives a step -/

variable {d : Nat}

namespace View

variable {v v' : View} {i : Nat} {me : TaskCore} {op : Op}

/-- The domain is alive and still the one it was: its number was not given to
another domain and has the same pager. -/
structure Stays (v v' : View) (d : Nat) : Prop where
  alive : v'.alive d = true
  births : v'.births d = v.births d
  pager : v'.pager d = v.pager d

theorem Stays.refl (live : v.alive d = true) : v.Stays v d := ⟨live, rfl, rfl⟩

theorem Stays.remove {w : View} {e : Nat} (stays : v.Stays w d) (other : d ≠ e) :
    v.Stays (w.remove e) d where
  alive := by
    rw [remove_alive, update_of_ne other]
    exact stays.alive
  births := stays.births
  pager := by
    rw [remove_pager, update_of_ne other]
    exact stays.pager

theorem Stays.create {e loader : Nat} (live : v.alive d = true) (unused : v.alive e = false) :
    v.Stays (v.create e loader) d ∧ d ≠ e := by
  have other : d ≠ e := by
    intro same
    rw [same, unused] at live
    cases live
  refine ⟨⟨?_, ?_, ?_⟩, other⟩
  · rw [create_alive, update_of_ne other]
    exact live
  · rw [create_births, update_of_ne other]
  · rw [create_pager, update_of_ne other]

/-- **A domain that a step does not destroy stays.** -/
theorem Step.stays (step : Step i me v op v') (live : v.alive d = true)
    (spared : ¬ v.Destroys me.domain op d) : v.Stays v' d := by
  cases step with
  | destroy owned =>
    apply destroy_cases (P := fun w => v.Stays w d)
    · intro targetLive
      apply (Stays.refl live).remove
      rintro rfl
      exact spared ⟨live, .inl ⟨rfl, owned⟩⟩
    · exact .refl live
  | spawn unused free =>
    obtain ⟨stays, -⟩ := Stays.create live unused
    exact ⟨stays.alive, stays.births, stays.pager⟩
  | spawnFails unused =>
    obtain ⟨stays, other⟩ := Stays.create live unused
    rw [create_destroy]
    exact stays.remove other
  | tick =>
    apply reclaim_induction (P := fun w => v.Stays w d)
    · exact ⟨live, rfl, rfl⟩
    · intro w queued member stays
      apply destroy_cases (P := fun w => v.Stays w d)
      · intro _
        apply stays.remove
        rintro rfl
        exact spared ⟨live, .inr ⟨rfl, queued, member, rfl⟩⟩
      · exact stays
  | _ => exact ⟨live, rfl, rfl⟩

/-! ## What the grants of the boot keep out of reach -/

/-- No domain can send to a domain that was created later or to the pager, the
pager cannot destroy what it pages, and only domains of the boot hold network
ports. -/
structure Entrusted (v : View) : Prop where
  boot : ∀ d, d < BOOT_DOMAINS → v.alive d = true
  pager : ∀ d p, d < BOOT_DOMAINS → v.pager d = some p → p = pagerDomain
  sends : ∀ e d, some (.sendTo d) ∈ v.caps e → d < BOOT_DOMAINS ∧ d ≠ pagerDomain
  spawns : some .spawn ∉ v.caps pagerDomain
  nets : ∀ e lo hi, some (.net lo hi) ∈ v.caps e → e < BOOT_DOMAINS
  queued : ∀ q ∈ v.pending, BOOT_DOMAINS ≤ q.id

/-- Only a domain with `Spawn` destroys one by a system call. -/
def DestroysWithSpawn (v : View) (caller : Nat) (op : Op) : Prop :=
  ∀ d, op = .syscall (.domainDestroy d) → some .spawn ∈ v.caps caller

/-- No step destroys a domain of the boot. -/
theorem Entrusted.spares_boot (inv : v.Entrusted) (entitled : v.DestroysWithSpawn me.domain op)
    (boot : d < BOOT_DOMAINS) : ¬ v.Destroys me.domain op d := by
  rintro ⟨-, ⟨asked, owned⟩ | ⟨-, q, member, rfl⟩⟩
  · have caller := inv.pager d me.domain boot owned
    have spawn := entitled d asked
    rw [caller] at spawn
    exact inv.spawns spawn
  · exact absurd (inv.queued q member) (by omega)

theorem Step.pending_origin (step : Step i me v op v') {q : Queued} (member : q ∈ v'.pending) :
    q ∈ v.pending ∨ BOOT_DOMAINS ≤ q.id := by
  cases step with
  | exitLast exits last runtime =>
    rw [setTask_pending, queue_pending, mem_append, mem_singleton] at member
    rcases member with before | rfl
    · exact .inl before
    · exact .inr runtime
  | destroy | spawnFails =>
    rw [destroy_pending] at member
    exact .inl member
  | tick =>
    have emptied : v.reclaim.pending = [] := reclaim_induction (P := fun w => w.pending = []) rfl
        fun w queued _ empty => (destroy_pending w queued.id).trans empty
    rw [emptied] at member
    cases member
  | _ => exact .inl member

theorem Entrusted.step (inv : v.Entrusted) (step : Step i me v op v')
    (entitled : v.DestroysWithSpawn me.domain op) : v'.Entrusted where
  boot := fun d boot => (step.stays (inv.boot d boot) (inv.spares_boot entitled boot)).alive
  pager := by
    intro d p boot registered
    rw [(step.stays (inv.boot d boot) (inv.spares_boot entitled boot)).pager] at registered
    exact inv.pager d p boot registered
  sends := by
    intro e d held
    rcases step.caps_origin held with ⟨had, -⟩ | ⟨-, granted⟩ | ⟨-, _, _, -, -, giverHolds, -⟩
    · exact inv.sends e d had
    · revert granted
      simp only [spawnGrants, mem_cons, Capability.sendTo.injEq, reduceCtorEq,
        not_mem_nil, or_false]
      rintro (rfl | rfl) <;> decide
    · exact inv.sends me.domain d giverHolds
  spawns := by
    intro held
    rcases step.caps_origin held with ⟨had, -⟩ | ⟨-, granted⟩ | ⟨-, _, _, -, -, -, allowed⟩
    · exact inv.spawns had
    · simp [spawnGrants] at granted
    · exact (inv.sends me.domain pagerDomain allowed).2 rfl
  nets := by
    intro e lo hi held
    rcases step.caps_origin held with ⟨had, -⟩ | ⟨-, granted⟩ | ⟨-, _, _, -, -, -, allowed⟩
    · exact inv.nets e lo hi had
    · simp [spawnGrants] at granted
    · exact (inv.sends me.domain e allowed).1
  queued := by
    intro q member
    rcases step.pending_origin member with before | runtime
    · exact inv.queued q before
    · exact runtime

end View

/-! ## The table of bindings -/

def MAX_BINDINGS : Nat := 64

structure Binding where
  domain : Nat
  port : UInt16
deriving DecidableEq

namespace Net

/-- `bind`: a port that is taken is bound again only by its owner. -/
def bind (caps : List CapRow) (bindings : List Binding) (domain : Nat) (port : UInt16) :
    Bool × List Binding :=
  if !hasNetPort caps domain port then (false, bindings)
  else if bindings.any (fun b => b.port = port) then
    (bindings.any (fun b => b.port = port ∧ b.domain = domain), bindings)
  else if bindings.length ≥ MAX_BINDINGS then (false, bindings)
  else (true, bindings ++ [⟨domain, port⟩])

def owner (bindings : List Binding) (port : UInt16) : Nat :=
  match bindings.find? fun b => b.port = port with
  | some b => b.domain
  | none => U64_MAX

/-- What `bind` does: nothing, or it adds a port that nobody has and that a
capability of the domain covers. -/
theorem bind_spec (caps : List CapRow) (bindings : List Binding) (domain : Nat) (port : UInt16) :
    (bind caps bindings domain port).2 = bindings ∨
      (bind caps bindings domain port).2 = bindings ++ [⟨domain, port⟩] ∧
        hasNetPort caps domain port = true ∧ port ∉ bindings.map Binding.port := by
  unfold bind
  split
  · exact .inl rfl
  next covered =>
    split
    · exact .inl rfl
    next free =>
      split
      · exact .inl rfl
      · refine .inr ⟨rfl, by simpa using covered, ?_⟩
        intro member
        obtain ⟨b, bound, samePort⟩ := mem_map.mp member
        exact free (any_eq_true.mpr ⟨b, bound, decide_eq_true samePort⟩)

end Net

/-! ## The system with its ports -/

/-- The kernel and the table of bindings. -/
structure NetState where
  kernel : KernelState
  bindings : List Binding

/-- A step of the kernel, or `SYS_NET_BIND`. -/
inductive NetOp where
  | kernel (op : Op)
  | netBind (port : Nat)

variable {op : NetOp}

namespace NetState

/-- One step: a step of the kernel leaves the bindings alone, and `SYS_NET_BIND`
takes the low 16 bits of its argument as the port. -/
def step (mp : Mapper) (s : NetState) : NetOp → Option NetState
  | .kernel op => (s.kernel.step mp op).map fun kernel => { s with kernel := kernel }
  | .netBind port =>
    match s.kernel.sched.task s.kernel.sched.current with
    | none => none
    | some t =>
      match t.frame with
      | .user => some { s with
          bindings := (Net.bind s.kernel.caps s.bindings t.domain (UInt16.ofNat port)).2 }
      | _ => none

/-- One step of a run, with the states around it. -/
structure Transition where
  before : NetState
  op : NetOp
  after : NetState

/-- A run from a state, with its steps, the latest first. -/
inductive Run (mp : Mapper) (start : NetState) : List Transition → NetState → Prop where
  | nil : Run mp start [] start
  | step {history : List Transition} {s s' : NetState} {op : NetOp}
      (before : Run mp start history s) (stepped : s.step mp op = some s') :
      Run mp start (⟨s, op, s'⟩ :: history) s'

/-- The domain of the binding made it in this step, with a `Net` capability that
covers the port. -/
structure Transition.Binds (t : Transition) (b : Binding) : Prop where
  op : ∃ port, t.op = .netBind port ∧ UInt16.ofNat port = b.port
  caller : t.before.kernel.sched.currentDomain = some b.domain
  covered : ∃ lo hi, Holds t.before.kernel.caps b.domain (.net lo hi) ∧
    lo.toNat ≤ b.port.toNat ∧ b.port.toNat ≤ hi.toNat
  bound : b ∈ t.after.bindings

/-- **Ports follow the domain.**  A port has one owner at most; the owner is alive,
and it is this domain, not an earlier one with its number, that bound the port. -/
structure Follows (history : List Transition) (s : NetState) : Prop where
  unique : (s.bindings.map Binding.port).Nodup
  owned : ∀ b ∈ s.bindings, s.kernel.isAlive b.domain = true ∧
    ∃ t ∈ history, t.Binds b ∧ t.before.kernel.births b.domain = s.kernel.births b.domain

variable {mp : Mapper} {start s s' : NetState} {history : List Transition}

/-- What a step does: the kernel steps, or the running domain binds a port. -/
theorem step_cases (stepped : s.step mp op = some s') :
    (∃ o, op = .kernel o ∧ s.kernel.step mp o = some s'.kernel ∧ s'.bindings = s.bindings) ∨
      ∃ t port, op = .netBind port ∧ s.kernel.sched.task s.kernel.sched.current = some t ∧
        s' = { s with
          bindings := (Net.bind s.kernel.caps s.bindings t.domain (UInt16.ofNat port)).2 } := by
  cases op with
  | kernel o =>
    obtain ⟨kernel, eq, rfl⟩ := map_eq_some_iff.mp stepped
    exact .inl ⟨o, rfl, eq, rfl⟩
  | netBind port =>
    simp only [step] at stepped
    split at stepped
    · cases stepped
    next t found =>
      split at stepped
      · cases stepped
        exact .inr ⟨t, port, rfl, found, rfl⟩
      · cases stepped

theorem Follows.step (follows : Follows history s) (stepped : s.step mp op = some s')
    (stays : ∀ b ∈ s.bindings, s.kernel.view.Stays s'.kernel.view b.domain)
    (callerLive : ∀ d, s.kernel.sched.currentDomain = some d → s.kernel.isAlive d = true) :
    Follows (⟨s, op, s'⟩ :: history) s' := by
  have kept : ∀ b ∈ s.bindings, s'.kernel.isAlive b.domain = true ∧
      ∃ t ∈ (⟨s, op, s'⟩ :: history : List Transition), t.Binds b ∧
        t.before.kernel.births b.domain = s'.kernel.births b.domain := by
    intro b member
    obtain ⟨-, t, earlier, binds, birth⟩ := follows.owned b member
    exact ⟨(stays b member).alive, t, mem_cons_of_mem _ earlier, binds,
      birth.trans (stays b member).births.symm⟩
  rcases step_cases stepped with ⟨o, rfl, -, same⟩ | ⟨t, port, rfl, found, rfl⟩
  · exact ⟨same ▸ follows.unique, same ▸ kept⟩
  · have caller : s.kernel.sched.currentDomain = some t.domain := by
      rw [Sched.currentDomain, found]
      rfl
    rcases Net.bind_spec s.kernel.caps s.bindings t.domain (UInt16.ofNat port) with
      same | ⟨added, covered, free⟩
    · refine ⟨by rw [same]; exact follows.unique, fun b member => kept b ?_⟩
      rw [← same]
      exact member
    · have binds : Transition.Binds ⟨s, .netBind port, { s with
          bindings := (Net.bind s.kernel.caps s.bindings t.domain (UInt16.ofNat port)).2 }⟩
          ⟨t.domain, UInt16.ofNat port⟩ :=
        ⟨⟨port, rfl, rfl⟩, caller, hasNetPort_eq_true covered, by simp [added]⟩
      refine ⟨?_, ?_⟩
      · rw [added, map_append, nodup_append]
        refine ⟨follows.unique, by simp, ?_⟩
        rintro p member q last rfl
        simp only [map_cons, map_nil, mem_singleton] at last
        exact free (last ▸ member)
      · intro b member
        simp only [added, mem_append, mem_singleton] at member
        rcases member with before | rfl
        · exact kept b before
        · exact ⟨callerLive t.domain caller, _, mem_cons_self, binds, rfl⟩

end NetState

/-! ## From the boot -/

/-- What a driver gets with its device. -/
def Capability.OfDevice : Capability → Prop
  | .mmio _ | .irq _ => True
  | _ => False

/-- The state at boot with the grants of `main.rs`: every capability is one of
`bootGrants` or belongs to a device, the pager of every domain is the pager domain,
and no port is bound. -/
structure NetBooted (s : NetState) : Prop where
  booted : Booted s.kernel
  granted : ∀ d cap, Holds s.kernel.caps d cap →
    (∃ g ∈ bootGrants, g.1 = d ∧ cap ∈ g.2.flatten) ∨ cap.OfDevice
  pager : ∀ d p, s.kernel.view.pager d = some p → p = pagerDomain
  unbound : s.bindings = []

theorem bootGrants_sends : ∀ g ∈ bootGrants, Capability.sendTo pagerDomain ∉ g.2.flatten := by
  decide

theorem bootGrants_spawn : ∀ g ∈ bootGrants, g.1 = pagerDomain → Capability.spawn ∉ g.2.flatten := by
  decide

theorem bootGrants_domain : ∀ g ∈ bootGrants, g.1 < BOOT_DOMAINS := by decide

theorem NetBooted.entrusted {s : NetState} (start : NetBooted s) : s.kernel.view.Entrusted where
  boot := fun d boot => (start.booted.alive d).trans (decide_eq_true boot)
  pager := fun d p _ registered => start.pager d p registered
  sends := by
    intro e d held
    refine ⟨start.booted.caps e _ d held rfl, ?_⟩
    rintro rfl
    rcases start.granted e _ held with ⟨g, member, -, granted⟩ | device
    · exact bootGrants_sends g member granted
    · exact device
  spawns := by
    intro held
    rcases start.granted _ _ held with ⟨g, member, isPager, granted⟩ | device
    · exact bootGrants_spawn g member isPager granted
    · exact device
  nets := by
    intro e lo hi held
    rcases start.granted e _ held with ⟨g, member, rfl, -⟩ | device
    · exact bootGrants_domain g member
    · exact device.elim
  queued := by
    intro q member
    change q ∈ s.kernel.pending at member
    rw [start.booted.pending] at member
    cases member

/-- A system call that destroys a domain does nothing for a caller without
`Spawn`. -/
theorem KernelState.domainDestroy_cases {mp : Mapper} {s s' : KernelState} {me : TaskCore}
    {target : Nat} (runs : s.Runs me)
    (stepped : s.step mp (.syscall (.domainDestroy target)) = some s') :
    s' = s ∨ some .spawn ∈ s.view.caps me.domain := by
  unfold step at stepped
  split at stepped
  · cases stepped
  next t found =>
    split at stepped <;> try contradiction
    next call asked frame =>
      cases asked
      obtain ⟨d, caller, guarded⟩ := bind_eq_some_iff.mp stepped
      rw [runs.currentDomain] at caller
      cases caller
      obtain ⟨holds, checked, body⟩ := bind_eq_some_iff.mp guarded
      cases holds with
      | true => exact .inr (has_eq_some checked)
      | false =>
        cases body
        exact .inl rfl

namespace NetState

variable {mp : Mapper} {start s s' : NetState} {history : List Transition}

/-- What holds along a run from the boot. -/
structure Settled (history : List Transition) (s : NetState) : Prop where
  currentLive : s.kernel.sched.CurrentLive
  housed : s.kernel.view.Housed
  entrusted : s.kernel.view.Entrusted
  boot : ∀ b ∈ s.bindings, b.domain < BOOT_DOMAINS
  follows : Follows history s

theorem Settled.callerLive (settled : Settled history s)
    (caller : s.kernel.sched.currentDomain = some d) : s.kernel.isAlive d = true := by
  obtain ⟨t, found, rfl⟩ := map_eq_some_iff.mp caller
  have core : s.kernel.view.task s.kernel.sched.current = some t.core := by
    change s.kernel.sched.core s.kernel.sched.current = _
    rw [Sched.core, found, map_some]
  exact settled.housed _ _ core

/-- A step of the kernel spares the domains of the boot. -/
theorem Settled.kernelStep (settled : Settled history s) {op : Op} {kernel : KernelState}
    (stepped : s.kernel.step mp op = some kernel) :
    kernel.sched.CurrentLive ∧ kernel.view.Housed ∧ kernel.view.Entrusted ∧
      ∀ d, d < BOOT_DOMAINS → s.kernel.view.Stays kernel.view d := by
  obtain ⟨me, runs, step, live⟩ := step_view settled.currentLive stepped
  by_cases entitled : s.kernel.view.DestroysWithSpawn me.domain op
  · have inv := settled.entrusted
    exact ⟨live, settled.housed.step runs step, inv.step step entitled,
      fun d boot => step.stays (inv.boot d boot) (inv.spares_boot entitled boot)⟩
  · -- The caller asks for a destruction without `Spawn`: nothing happens.
    simp only [View.DestroysWithSpawn, not_forall] at entitled
    obtain ⟨target, rfl, denied⟩ := entitled
    rcases domainDestroy_cases runs stepped with rfl | spawn
    · exact ⟨live, settled.housed, settled.entrusted,
        fun d boot => .refl (settled.entrusted.boot d boot)⟩
    · exact absurd spawn denied

theorem Settled.step (settled : Settled history s) (stepped : s.step mp op = some s') :
    Settled (⟨s, op, s'⟩ :: history) s' := by
  have boot := settled.boot
  rcases step_cases stepped with ⟨o, rfl, kernelStepped, same⟩ | ⟨t, port, rfl, found, rfl⟩
  · obtain ⟨live, housed, entrusted, stays⟩ := settled.kernelStep kernelStepped
    exact ⟨live, housed, entrusted, same ▸ boot,
      settled.follows.step stepped (fun b member => stays _ (boot b member))
        fun d => settled.callerLive⟩
  · refine ⟨settled.currentLive, settled.housed, settled.entrusted, ?_,
      settled.follows.step stepped (fun b member => .refl (settled.follows.owned b member).1)
        fun d => settled.callerLive⟩
    rcases Net.bind_spec s.kernel.caps s.bindings t.domain (UInt16.ofNat port) with
      same | ⟨added, covered, -⟩
    · rw [same]
      exact boot
    · intro b member
      simp only [added, mem_append, mem_singleton] at member
      rcases member with before | rfl
      · exact boot b before
      · obtain ⟨lo, hi, held, -⟩ := hasNetPort_eq_true covered
        exact settled.entrusted.nets t.domain lo hi held

end NetState

/-- **Port ownership follows the domain.**  In every state that a run from the boot
reaches, each port has at most one owner, every owner is alive, and the domain
that now has the owner's number bound the port itself, at a step at which it held a
`Net` capability that covers the port. -/
theorem port_ownership_follows_domain (mp : Mapper) {start s : NetState}
    {history : List NetState.Transition} (booted : NetBooted start)
    (ran : NetState.Run mp start history s) : NetState.Follows history s := by
  have settled : NetState.Settled history s := by
    induction ran with
    | nil =>
      have unbound := booted.unbound
      exact ⟨booted.booted.currentLive, booted.booted.exited.housed, booted.entrusted,
        by simp [unbound], by simp [unbound], by simp [unbound]⟩
    | step _ stepped ih => exact ih.step stepped
  exact settled.follows

/-! ## Two runs -/

/-- A run given by its operations. -/
def NetState.run (mp : Mapper) (s : NetState) (ops : List NetOp) : Option NetState :=
  ops.foldlM (fun s op => s.step mp op) s

theorem NetState.Run.of_run {mp : Mapper} {start s : NetState} {ops : List NetOp}
    (ran : start.run mp ops = some s) : ∃ history, NetState.Run mp start history s := by
  suffices general : ∀ {s s' : NetState} {ops : List NetOp} {history : List Transition},
      Run mp start history s → s.run mp ops = some s' → ∃ more, Run mp start more s' from
    general .nil ran
  intro s s' ops history before ran
  induction ops generalizing s history with
  | nil =>
    cases ran
    exact ⟨history, before⟩
  | cons op ops ih =>
    obtain ⟨s₁, stepped, rest⟩ := bind_eq_some_iff.mp ran
    exact ih (.step before stepped) rest

def demoNet : NetState := ⟨demoKernel, []⟩

theorem demoNet_booted : NetBooted demoNet where
  booted := demoKernel_booted
  granted := by
    intro d cap held
    have rows : (List.range BOOT_DOMAINS).all (fun d => (capRow bootCaps d).all fun slot =>
        slot.all fun cap => bootGrants.any fun g => decide (g.1 = d ∧ cap ∈ g.2.flatten)) = true := by
      decide +kernel
    have inside : d < BOOT_DOMAINS := by
      by_contra beyond
      have row : capRow bootCaps d = emptyCapRow := by
        have length : bootCaps.length = BOOT_DOMAINS := by decide +kernel
        rw [capRow, Table.row, List.getElem?_eq_none (by omega)]
        rfl
      have held : some cap ∈ capRow bootCaps d := held
      rw [row] at held
      exact not_mem_emptyCapRow cap held
    have granted := all_eq_true.mp (all_eq_true.mp rows d (mem_range.mpr inside)) (some cap) held
    obtain ⟨g, member, eq⟩ := any_eq_true.mp granted
    exact .inl ⟨g, member, of_decide_eq_true eq⟩
  pager := by
    intro d p registered
    have row := (Table.row_replicate none (some pagerDomain) BOOT_DOMAINS d).symm.trans registered
    split at row <;> cases row
    rfl
  unbound := rfl

/-- The application binds a port, and the shell, which may use the port as well,
tries to. -/
def demoBind : List NetOp :=
  (yields 2).map .kernel ++ [.netBind 12345, .kernel (.syscall .yield), .netBind 12345]

theorem demoBind_follows : ∃ s history, NetState.Run Mapper.fourLevel demoNet history s ∧
    Net.owner s.bindings 12345 = appDomain ∧ NetState.Follows history s := by
  obtain ⟨s, ran, evaluated⟩ : ∃ s ∈ demoNet.run Mapper.fourLevel demoBind,
      s.bindings = [⟨appDomain, 12345⟩] := by decide +kernel
  obtain ⟨history, steps⟩ := NetState.Run.of_run ran
  exact ⟨s, history, steps, by rw [evaluated]; decide,
    port_ownership_follows_domain Mapper.fourLevel demoNet_booted steps⟩

end MorionOS.Kernel
