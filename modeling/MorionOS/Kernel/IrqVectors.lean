import Mathlib.Logic.Function.Basic
import Mathlib.Data.Nat.Bitwise

/-!
# Message-signalled interrupts

A driver registers a vector (`SYS_REGISTER_IRQ`); the handler of the vector sets its pending
flag, and `SYS_IRQ_POLL` and `SYS_IRQ_WAIT` take the flag away and report the vector
(`irq.rs`).  Registrations belong to domains, the flags to vectors: `remove_domain` clears the
registrations of a domain that goes, and says that the flags need not be cleared because
nobody else may take them.  The next domain that registers the vector may.

A run is watched through its events, newest first.  `RaisedSince` says that a flag was raised after
the last registration and the last report of its vector, and `Honest` that every report was
fresh and went to the registrant.  `reports_are_fresh` is about the runs in
which a registration finds the flag clear; `destroyed_driver_leaves_flag` is another one.
-/

namespace MorionOS.Kernel

open Function

def MSI_VECTOR_BASE : Nat := 0x50
def MSI_VECTOR_COUNT : Nat := 16
def ANY_MAX_DOMAINS : Nat := 64

/-- The tables of `irq.rs` for vectors, and the masks of the tasks inside `SYS_IRQ_WAIT`, of
which a domain has one at most. -/
structure IrqVectors where
  vectors : Nat → Option Nat
  pending : Nat → Bool
  anyMask : Nat → Nat
  waiting : Nat → Option Nat

/-- What a run shows. -/
inductive IrqEvent where
  | registered (vector domain : Nat)
  | raised (vector : Nat)
  | reported (vector domain : Nat)
  | removed (domain : Nat)

namespace IrqVectors

variable (s : IrqVectors)

def takePendingAny (mask domain : Nat) : Option Nat × IrqVectors :=
  match (List.range MSI_VECTOR_COUNT).find? fun i => mask.testBit i &&
      s.vectors (MSI_VECTOR_BASE + i) == some domain && s.pending (MSI_VECTOR_BASE + i) with
  | some i => (some (MSI_VECTOR_BASE + i),
      { s with pending := update s.pending (MSI_VECTOR_BASE + i) false })
  | none => (none, s)

/-- `irq_mask_ok`; `holds` are the vectors that the domain has the capability for. -/
def maskOk (domain mask : Nat) (holds : Nat → Bool) : Bool :=
  (List.range MSI_VECTOR_COUNT).all fun i => !mask.testBit i ||
    holds (MSI_VECTOR_BASE + i) && s.vectors (MSI_VECTOR_BASE + i) == some domain

/-- `set_pending`, with the domains whose waiting task it wakes. -/
def setPending (vector : Nat) : List Nat × IrqVectors :=
  match s.vectors vector with
  | none => ([], s)
  | some _ =>
    let s := { s with pending := update s.pending vector true }
    if MSI_VECTOR_BASE ≤ vector ∧ vector < MSI_VECTOR_BASE + MSI_VECTOR_COUNT then
      ((List.range ANY_MAX_DOMAINS).filter fun domain =>
        (s.anyMask domain).testBit (vector - MSI_VECTOR_BASE), s)
    else ([], s)

/-- `remove_domain`, and the task of the domain goes. -/
def removeDomain (domain : Nat) : IrqVectors :=
  { s with
    vectors := fun vector => (s.vectors vector).filter fun d => decide (d ≠ domain)
    anyMask := update s.anyMask domain 0
    waiting := update s.waiting domain none }

end IrqVectors

/-- The calls and interrupts.  A task that waits continues when it is woken or its time is
up. -/
inductive IrqOp where
  | registerIrq (domain irq : Nat) (holds : Bool)
  | interrupt (vector : Nat)
  | irqPoll (domain mask : Nat) (holds : Nat → Bool)
  | irqWait (domain mask : Nat) (holds : Nat → Bool)
  | resume (domain : Nat)
  | destroy (domain : Nat)

namespace IrqVectors

/-- The report of a vector that was taken. -/
def report (domain : Nat) (taken : Option Nat × IrqVectors) : Option IrqEvent × IrqVectors :=
  (taken.1.map (.reported · domain), taken.2)

def step (s : IrqVectors) : IrqOp → Option IrqEvent × IrqVectors
  | .registerIrq domain irq holds =>
    -- the number is cut to a byte; lines below 16 have another table
    if holds ∧ 32 ≤ irq % 256 then
      (some (.registered (irq % 256) domain),
        { s with vectors := update s.vectors (irq % 256) (some domain) })
    else (none, s)
  | .interrupt vector =>
    ((s.vectors vector).map fun _ => .raised vector, (s.setPending vector).2)
  | .irqPoll domain mask holds =>
    if mask = 0 ∨ s.maskOk domain mask holds = false then (none, s)
    else report domain (s.takePendingAny mask domain)
  | .irqWait domain mask holds =>
    if mask = 0 ∨ s.maskOk domain mask holds = false then (none, s)
    else
      match s.takePendingAny mask domain with
      | (some vector, s) => report domain (some vector, s)
      | (none, s) =>
        if domain ≥ ANY_MAX_DOMAINS then (none, s)
        else (none, { s with
          anyMask := update s.anyMask domain mask
          waiting := update s.waiting domain (some mask) })
  | .resume domain =>
    match s.waiting domain with
    | none => (none, s)
    | some mask => report domain (takePendingAny { s with
        anyMask := update s.anyMask domain 0
        waiting := update s.waiting domain none } mask domain)
  | .destroy domain => (some (.removed domain), s.removeDomain domain)

/-- One step of a run that is watched. -/
def watch (t : IrqVectors × List IrqEvent) (op : IrqOp) : IrqVectors × List IrqEvent :=
  ((t.1.step op).2, (t.1.step op).1.toList ++ t.2)

/-- Nothing registered, nothing pending. -/
def boot : IrqVectors := ⟨fun _ => none, fun _ => false, fun _ => 0, fun _ => none⟩

end IrqVectors

/-! ## Honest reports -/

/-- Who is registered for the vector after the events. -/
def registrant (vector : Nat) : List IrqEvent → Option Nat
  | [] => none
  | .registered v domain :: before => if v = vector then some domain else registrant vector before
  | .removed domain :: before => (registrant vector before).filter fun d => decide (d ≠ domain)
  | _ :: before => registrant vector before

/-- The vector was raised, and since then neither registered nor reported. -/
def RaisedSince (vector : Nat) : List IrqEvent → Prop
  | [] => False
  | .raised v :: before => v = vector ∨ RaisedSince vector before
  | .registered v _ :: before | .reported v _ :: before => v ≠ vector ∧ RaisedSince vector before
  | .removed _ :: before => RaisedSince vector before

/-- Every report told the registrant of a vector that was raised after the registration and
not reported since. -/
def Honest : List IrqEvent → Prop
  | [] => True
  | .reported vector domain :: before =>
    registrant vector before = some domain ∧ RaisedSince vector before ∧ Honest before
  | _ :: before => Honest before

/-- The tables agree with the events, and what is pending is fresh. -/
structure Watched (t : IrqVectors × List IrqEvent) : Prop where
  vectors : ∀ vector, t.1.vectors vector = registrant vector t.2
  fresh : ∀ vector, t.1.pending vector = true → RaisedSince vector t.2
  honest : Honest t.2

/-- A registration finds the flag of its vector clear. -/
def IrqVectors.Clean (s : IrqVectors) : IrqOp → Prop
  | .registerIrq _ irq holds => holds = true → 32 ≤ irq % 256 → s.pending (irq % 256) = false
  | _ => True

namespace Watched

variable {s : IrqVectors} {events : List IrqEvent}

/-- Only the registrant takes a flag, and it takes a fresh one. -/
theorem take (watched : Watched (s, events)) (mask domain : Nat) :
    Watched ((IrqVectors.report domain (s.takePendingAny mask domain)).2,
      (IrqVectors.report domain (s.takePendingAny mask domain)).1.toList ++ events) := by
  unfold IrqVectors.takePendingAny
  split
  next i found =>
    have here := List.find?_some found
    simp only [Bool.and_eq_true, beq_iff_eq] at here
    refine ⟨watched.vectors, fun vector set => ?_, (watched.vectors _).symm.trans here.1.2,
      watched.fresh _ here.2, watched.honest⟩
    by_cases same : MSI_VECTOR_BASE + i = vector
    · simp [IrqVectors.report, same] at set
    · refine ⟨same, watched.fresh vector ?_⟩
      simpa [IrqVectors.report, update_of_ne (Ne.symm same)] using set
  · exact watched

theorem register (watched : Watched (s, events)) {vector : Nat} (clear : s.pending vector = false)
    (domain : Nat) : Watched ({ s with vectors := update s.vectors vector (some domain) },
      .registered vector domain :: events) := by
  refine ⟨fun other => ?_, fun other set => ?_, watched.honest⟩
  · by_cases same : other = vector
    · simp [registrant, same]
    · simpa [registrant, same, Ne.symm same] using watched.vectors other
  · refine ⟨?_, watched.fresh other set⟩
    rintro rfl
    exact absurd (clear.symm.trans set) (by decide)

/-- **One step.** -/
theorem step {t : IrqVectors × List IrqEvent} (watched : Watched t) {op : IrqOp} (clean : t.1.Clean op) :
    Watched (IrqVectors.watch t op) := by
  obtain ⟨s, events⟩ := t
  unfold IrqVectors.watch
  cases op with
  | registerIrq domain irq holds =>
    rw [IrqVectors.step]
    split
    next allowed => exact watched.register (clean allowed.1 allowed.2) domain
    · exact watched
  | interrupt vector =>
    simp only [IrqVectors.step, IrqVectors.setPending]
    split
    next unregistered => rwa [unregistered]
    next domain registered =>
      rw [registered]
      have raised : Watched ({ s with pending := update s.pending vector true },
          .raised vector :: events) := by
        refine ⟨watched.vectors, fun other set => ?_, watched.honest⟩
        by_cases same : other = vector
        · exact .inl same.symm
        · exact .inr (watched.fresh other (by simpa [update_of_ne same] using set))
      split <;> exact raised
  | irqPoll domain mask holds =>
    rw [IrqVectors.step]
    split
    · exact watched
    · exact watched.take mask domain
  | irqWait domain mask holds =>
    rw [IrqVectors.step]
    split
    · exact watched
    have taken := watched.take mask domain
    split
    next vector after took => rwa [took] at taken
    next after took =>
      rw [took] at taken
      split
      · exact taken
      · exact ⟨taken.vectors, taken.fresh, taken.honest⟩
  | resume domain =>
    rw [IrqVectors.step]
    split
    · exact watched
    next mask _ =>
      have woken : Watched ({ s with
          anyMask := update s.anyMask domain 0
          waiting := update s.waiting domain none }, events) :=
        ⟨watched.vectors, watched.fresh, watched.honest⟩
      exact woken.take mask domain
  | destroy domain =>
    exact ⟨fun vector => congrArg (Option.filter _) (watched.vectors vector), watched.fresh,
      watched.honest⟩

end Watched

/-- Every registration of the run finds the flag of its vector clear. -/
def IrqVectors.CleanRun (s : IrqVectors) : List IrqOp → Prop
  | [] => True
  | op :: ops => s.Clean op ∧ (s.step op).2.CleanRun ops

theorem Watched.run {t : IrqVectors × List IrqEvent} (watched : Watched t) {ops : List IrqOp}
    (clean : t.1.CleanRun ops) : Watched (ops.foldl IrqVectors.watch t) := by
  induction ops generalizing t with
  | nil => exact watched
  | cons op ops ih => exact ih (watched.step clean.1) clean.2

/-- **Reports are fresh** in every run from the boot in which each registration finds the flag
of its vector clear. -/
theorem reports_are_fresh {ops : List IrqOp} (clean : IrqVectors.boot.CleanRun ops) :
    Honest (ops.foldl IrqVectors.watch (IrqVectors.boot, [])).2 :=
  have start : Watched (IrqVectors.boot, []) :=
    ⟨fun _ => rfl, fun _ set => absurd set Bool.false_ne_true, trivial⟩
  (start.run clean).honest

/-- A driver waits for its vector and is told of the interrupt. -/
theorem driver_is_told : Honest ([IrqOp.registerIrq 3 0x50 true, .irqWait 3 1 fun _ => true,
    .interrupt 0x50, .resume 3].foldl IrqVectors.watch (IrqVectors.boot, [])).2 :=
  reports_are_fresh ⟨fun _ _ => rfl, trivial, trivial, trivial, trivial⟩

/-- **A stale flag is reported.**  Domain 3 registers the vector and is destroyed with the
interrupt pending; domain 4 registers it and is told of an interrupt at once. -/
theorem destroyed_driver_leaves_flag : ¬ Honest ([IrqOp.registerIrq 3 0x50 true, .interrupt 0x50,
    .destroy 3, .registerIrq 4 0x50 true, .irqPoll 4 1 fun _ => true].foldl IrqVectors.watch
      (IrqVectors.boot, [])).2 := by
  intro honest
  have fresh : RaisedSince 0x50 [.registered 0x50 4, .removed 3, .raised 0x50, .registered 0x50 3] :=
    honest.2.1
  exact fresh.1 rfl

end MorionOS.Kernel
