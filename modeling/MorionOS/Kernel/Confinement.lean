import MorionOS.Kernel.Boot

/-!
# Where capabilities come from

`Obtained` traces a capability of a domain back through a run: the boot granted
it, the domain got it when it was created, or another domain that held it sent it
while it was allowed to send to the receiver.  Every capability is one of these
(`capabilities_are_confined`).
-/

namespace MorionOS.Kernel

open Function

/-! ## What a step does to the rows -/

variable {d : Nat} {c : Capability}

namespace View

variable {v v' : View}

theorem remove_caps_subset {e : Nat} (held : some c ∈ (v.remove e).caps d) : some c ∈ v.caps d := by
  rw [remove_caps, update_apply] at held
  split at held
  · exact absurd held (not_mem_emptyCapRow c)
  · exact held

theorem destroy_caps {e : Nat} : some c ∈ (v.destroy e).caps d → some c ∈ v.caps d :=
  destroy_cases (P := fun w => some c ∈ w.caps d → some c ∈ v.caps d)
    (fun _ => remove_caps_subset) id

theorem reclaim_caps (held : some c ∈ v.reclaim.caps d) : some c ∈ v.caps d :=
  reclaim_induction (P := fun w => some c ∈ w.caps d → some c ∈ v.caps d) id
    (fun _ _ _ keeps held => keeps (destroy_caps held)) held

theorem mem_spawnRow (member : some c ∈ spawnRow) : c ∈ KernelState.spawnGrants := by
  simpa [spawnRow] using member

theorem create_destroy_caps (v : View) (d loader : Nat) :
    ((v.create d loader).destroy d).caps = update v.caps d emptyCapRow := by
  have live : (v.create d loader).alive d = true := by simp
  rw [destroy, if_pos live]
  funext e
  by_cases here : e = d
  · subst here; simp
  · simp [here]

/-- **The rows after a step.**  A capability in a row was there before, was
granted to a domain that the step created, or was sent by a domain that holds it
and may send to the receiver. -/
theorem Step.caps_origin {i : Nat} {me : TaskCore} {op : Op} (step : Step i me v op v')
    (held : some c ∈ v'.caps d) :
    some c ∈ v.caps d ∧ ¬ Created v v' d ∨
      Created v v' d ∧ c ∈ KernelState.spawnGrants ∨
      ¬ Created v v' d ∧ ∃ kind arg, op = .syscall (.capSend d kind arg) ∧
        decode kind arg = some c ∧ some c ∈ v.caps me.domain ∧
        some (.sendTo d) ∈ v.caps me.domain := by
  cases step with
  | spawn unused free =>
    rename_i segments e slot
    simp only [addTask, setTask_caps, create_caps, update_apply] at held
    simp only [Created, addTask]
    by_cases here : d = e
    · subst here
      rw [if_pos rfl] at held
      exact .inr (.inl ⟨by simp, mem_spawnRow held⟩)
    · rw [if_neg here] at held
      exact .inl ⟨held, by simp [here]⟩
  | spawnFails unused =>
    rename_i segments e
    rw [create_destroy_caps, update_apply] at held
    by_cases here : d = e
    · rw [if_pos here] at held
      exact absurd held (not_mem_emptyCapRow c)
    · rw [if_neg here] at held
      exact .inl ⟨held, by simp [Created, destroy_births, here]⟩
  | capSend allowed decoded origin =>
    rcases origin d c held with before | ⟨rfl, rfl, giverHolds⟩
    · exact .inl ⟨before, fun created => created rfl⟩
    · exact .inr (.inr ⟨fun created => created rfl, _, _, rfl, decoded, giverHolds, allowed⟩)
  | destroy owned =>
    exact .inl ⟨destroy_caps held, fun created => created (by rw [destroy_births])⟩
  | tick => exact .inl ⟨reclaim_caps held, fun created => created (by rw [reclaim_births])⟩
  | _ => exact .inl ⟨held, fun created => created rfl⟩

/-- A created domain has the grants of the spawn in an otherwise empty row, or
nothing when the spawn failed. -/
theorem Step.created_caps {i : Nat} {me : TaskCore} {op : Op} (step : Step i me v op v')
    (created : Created v v' d) : v'.caps d = spawnRow ∨ v'.caps d = emptyCapRow := by
  cases step with
  | spawn unused free =>
    rename_i segments e slot
    by_cases here : d = e
    · subst here
      exact .inl (by simp [addTask])
    · exact absurd (by simp [addTask, here]) created
  | spawnFails unused =>
    rename_i segments e
    by_cases here : d = e
    · subst here
      exact .inr (by rw [create_destroy_caps, update_self])
    · exact absurd (by simp [destroy_births, here]) created
  | destroy owned => exact absurd (by rw [destroy_births]) created
  | tick => exact absurd (by rw [reclaim_births]) created
  | _ => exact absurd rfl created

end View

/-! ## Along a run -/

namespace KernelState

/-- The step created the domain. -/
def Transition.Creates (t : Transition) (d : Nat) : Prop := t.after.births d ≠ t.before.births d

/-- How a domain came to a capability in a run from the boot. -/
inductive Obtained (start : KernelState) : List Transition → Nat → Capability → Prop where
  | boot {d : Nat} {c : Capability} (granted : Holds start.caps d c) : Obtained start [] d c
  /-- It had it before and was not created anew. -/
  | keep {t : Transition} {history : List Transition} {d : Nat} {c : Capability}
      (before : Obtained start history d c) (same : ¬ t.Creates d) :
      Obtained start (t :: history) d c
  /-- The spawn that created it granted it. -/
  | spawn {t : Transition} {history : List Transition} {d : Nat} {c : Capability}
      (creates : t.Creates d) (granted : c ∈ spawnGrants) : Obtained start (t :: history) d c
  /-- Another domain, which held it and was allowed to send to the receiver, sent
  it. -/
  | sent {t : Transition} {history : List Transition} {giver receiver kind arg : Nat}
      {c : Capability} (call : t.op = .syscall (.capSend receiver kind arg))
      (named : decode kind arg = some c) (runs : t.before.sched.currentDomain = some giver)
      (other : giver ≠ receiver) (held : Holds t.before.caps giver c)
      (allowed : Holds t.before.caps giver (.sendTo receiver))
      (origin : Obtained start history giver c) : Obtained start (t :: history) receiver c

variable {mp : Mapper} {start s : KernelState} {history : List Transition}

section

variable (live : start.sched.CurrentLive) (ran : Run mp start history s)
include live ran

theorem Run.obtained (held : Holds s.caps d c) : Obtained start history d c := by
  induction ran generalizing d c with
  | nil => exact .boot held
  | step before stepped ih =>
    obtain ⟨me, runs, allowed, -⟩ := step_view (before.currentLive live) stepped
    rcases allowed.caps_origin held with ⟨had, same⟩ | ⟨created, granted⟩ |
      ⟨same, kind, arg, call, named, giverHolds, maySend⟩
    · exact .keep (ih had) same
    · exact .spawn created granted
    · by_cases self : me.domain = d
      · -- A capability sent to oneself was there already.
        exact .keep (ih (self ▸ giverHolds)) same
      · exact .sent call named runs.currentDomain self giverHolds maySend (ih giverHolds)

theorem Run.created_caps {t : Transition} (member : t ∈ history) (creates : t.Creates d) :
    capRow t.after.caps d = View.spawnRow ∨ capRow t.after.caps d = emptyCapRow := by
  induction ran with
  | nil => cases member
  | step before stepped ih =>
    rcases List.mem_cons.mp member with rfl | earlier
    · obtain ⟨me, -, allowed, -⟩ := step_view (before.currentLive live) stepped
      exact allowed.created_caps creates
    · exact ih earlier

end

end KernelState

open KernelState

/-- **Capability confinement.**  Along every run from the boot a domain holds only
capabilities that it obtained from the boot, from its spawn or from a domain that
held them and was allowed to send to it; a domain that is created, with a new
number or a used one, starts with nothing but the grants of its spawn; and the
port checks accept only ports of a range that was obtained. -/
theorem capabilities_are_confined (mp : Mapper) {start s : KernelState}
    {history : List Transition} (booted : Booted start) (ran : Run mp start history s) :
    (∀ d c, Holds s.caps d c → Obtained start history d c) ∧
      (∀ t ∈ history, ∀ d, t.Creates d →
        capRow t.after.caps d = View.spawnRow ∨ capRow t.after.caps d = emptyCapRow) ∧
      (∀ d port, hasPort s.caps d port = true →
        ∃ base len, Obtained start history d (.ioPort base len) ∧
          base.toNat ≤ port.toNat ∧ port.toNat < base.toNat + len.toNat) ∧
      (∀ d port, hasNetPort s.caps d port = true →
        ∃ lo hi, Obtained start history d (.net lo hi) ∧
          lo.toNat ≤ port.toNat ∧ port.toNat ≤ hi.toNat) := by
  have live := booted.currentLive
  refine ⟨fun d c => ran.obtained live, fun t member d => ran.created_caps live member, ?_, ?_⟩
  · intro d port allowed
    obtain ⟨base, len, held, inside⟩ := hasPort_eq_true allowed
    exact ⟨base, len, ran.obtained live held, inside⟩
  · intro d port allowed
    obtain ⟨lo, hi, held, inside⟩ := hasNetPort_eq_true allowed
    exact ⟨lo, hi, ran.obtained live held, inside⟩

/-- The application gives its network ports to the file system. -/
def demoDelegation : List Op :=
  [.syscall .yield, .syscall .yield,
    .syscall (.capSend mfsDomain CAP_KIND_NET (12345 * 65536 + 12399))]

theorem demoDelegation_confined : ∃ s history,
    demoKernel.run Mapper.fourLevel demoDelegation = some s ∧
      Run Mapper.fourLevel demoKernel history s ∧ hasNetPort s.caps mfsDomain 12350 = true ∧
      ∃ lo hi, Obtained demoKernel history mfsDomain (.net lo hi) ∧
        lo.toNat ≤ 12350 ∧ 12350 ≤ hi.toNat := by
  obtain ⟨s, ran, evaluated⟩ : ∃ s ∈ demoKernel.run Mapper.fourLevel demoDelegation,
      hasNetPort s.caps mfsDomain 12350 = true := by decide +kernel
  obtain ⟨history, steps, -⟩ := Run.of_run ran
  have confined := capabilities_are_confined Mapper.fourLevel demoKernel_booted steps
  exact ⟨s, history, ran, steps, evaluated, confined.2.2.2 _ _ evaluated⟩

end MorionOS.Kernel
