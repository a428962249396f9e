import Mathlib.Logic.Basic

/-!
# Programs that talk to an environment

A `Dialogue` either returns or asks its environment a question and goes on with
the answer.  What an environment may answer, and how its own state moves, is a
relation, so one program can be read against several environments: against one
that only records the questions, against a device with queues, against a disk.

`Runs` is a run against such an environment and `Triple` a statement about all of
them, with one rule for each constructor and one for `bind`.  `exec` runs a program
against an environment that is a function.
-/

/-- A program that asks questions in `Q`, gets answers in `A` and returns an `α`. -/
inductive Dialogue (Q A α : Type) where
  | ret (result : α)
  | ask (question : Q) (next : A → Dialogue Q A α)

namespace Dialogue

variable {Q A S α β : Type}

/-- Go on with `next` where the program returns. -/
def bind : Dialogue Q A α → (α → Dialogue Q A β) → Dialogue Q A β
  | .ret result, next => next result
  | .ask question rest, next => .ask question fun answer => (rest answer).bind next

instance : Monad (Dialogue Q A) where
  pure := .ret
  bind := .bind

/-- Ask one question and return the answer. -/
def query (question : Q) : Dialogue Q A A := .ask question .ret

/-- The program runs from one state of the environment to another and returns `result`. -/
def Runs (env : S → Q → A → S → Prop) : Dialogue Q A α → S → α → S → Prop
  | .ret value, s, result, s' => result = value ∧ s' = s
  | .ask question next, s, result, s' =>
    ∃ answer mid, env s question answer mid ∧ (next answer).Runs env mid result s'

variable {env : S → Q → A → S → Prop} {d : Dialogue Q A α} {next : α → Dialogue Q A β} {P : Q → Prop}

theorem runs_bind {s s' : S} {result : β} :
    (d >>= next).Runs env s result s' ↔
      ∃ value mid, d.Runs env s value mid ∧ (next value).Runs env mid result s' := by
  induction d generalizing s with
  | ret value =>
    constructor
    · intro run
      exact ⟨value, s, ⟨rfl, rfl⟩, run⟩
    · rintro ⟨_, _, ⟨rfl, rfl⟩, run⟩
      exact run
  | ask question rest ih =>
    constructor
    · rintro ⟨answer, mid, asked, run⟩
      obtain ⟨value, late, first, second⟩ := (ih answer).mp run
      exact ⟨value, late, ⟨answer, mid, asked, first⟩, second⟩
    · rintro ⟨value, late, ⟨answer, mid, asked, first⟩, second⟩
      exact ⟨answer, mid, asked, (ih answer).mpr ⟨value, late, first, second⟩⟩

/-- Every run that starts with `P` ends with `R`. -/
def Triple (env : S → Q → A → S → Prop) (P : S → Prop) (d : Dialogue Q A α)
    (R : α → S → Prop) : Prop :=
  ∀ s result s', P s → d.Runs env s result s' → R result s'

section Rules

variable {env : S → Q → A → S → Prop} {P : S → Prop} {R : α → S → Prop}

theorem Triple.ret {value : α} (holds : ∀ s, P s → R value s) : Triple env P (.ret value) R := by
  rintro s _ _ before ⟨rfl, rfl⟩
  exact holds _ before

theorem Triple.query {question : Q} {R : A → S → Prop}
    (holds : ∀ s answer s', P s → env s question answer s' → R answer s') :
    Triple env P (query question) R := by
  rintro s _ _ before ⟨answer, mid, asked, rfl, rfl⟩
  exact holds s _ _ before asked

variable {d : Dialogue Q A α}

theorem Triple.bind {R' : β → S → Prop} (first : Triple env P d R)
    (second : ∀ value, Triple env (R value) (next value) R') : Triple env P (d >>= next) R' := by
  intro s result s' before run
  obtain ⟨value, mid, head, tail⟩ := runs_bind.mp run
  exact second value mid result s' (first s value mid before head) tail

theorem Triple.skip {p : Prop} {R' : β → S → Prop}
    (second : ∀ value, Triple env (fun _ => p) (next value) R') : Triple env (fun _ => p) (d >>= next) R' :=
  Triple.bind (fun _ _ _ holds _ => holds) second

theorem Triple.ite {c : Prop} [Decidable c] {e : Dialogue Q A α} (first : Triple env P d R)
    (second : Triple env P e R) : Triple env P (if c then d else e) R := by
  split
  · exact first
  · exact second

theorem Triple.weaken {R' : α → S → Prop} (triple : Triple env P d R)
    (holds : ∀ value s, R value s → R' value s) : Triple env P d R' :=
  fun s value s' before run => holds value s' (triple s value s' before run)

end Rules

/-- Every question the program asks, whatever the answers before it, satisfies `P`. -/
def Asks (P : Q → Prop) : Dialogue Q A α → Prop
  | .ret _ => True
  | .ask question next => P question ∧ ∀ answer, (next answer).Asks P

theorem asks_pure (value : α) : (pure value : Dialogue Q A α).Asks P := trivial

theorem asks_query {question : Q} (holds : P question) : (query question : Dialogue Q A A).Asks P :=
  ⟨holds, fun _ => trivial⟩

theorem Asks.bind (first : d.Asks P) (second : ∀ value, (next value).Asks P) : (d >>= next).Asks P := by
  induction d with
  | ret value => exact second value
  | ask question rest ih => exact ⟨first.1, fun answer => ih answer (first.2 answer)⟩

/-- A program that goes on by whether its first part returns something. -/
theorem Asks.option {d : Dialogue Q A (Option α)} {next : Option α → Dialogue Q A β} (first : d.Asks P)
    (failed : (next none).Asks P) (got : ∀ value, (next (some value)).Asks P) : (d >>= next).Asks P := by
  refine first.bind fun result => ?_
  cases result with
  | none => exact failed
  | some value => exact got value

theorem Asks.ite {c : Prop} [Decidable c] {e : Dialogue Q A α}
    (first : d.Asks P) (second : e.Asks P) : (if c then d else e).Asks P := by
  split
  · exact first
  · exact second

theorem Asks.imp {R : Q → Prop} (imp : ∀ question, P question → R question) (asks : d.Asks P) : d.Asks R := by
  induction d with
  | ret value => trivial
  | ask question rest ih => exact ⟨imp question asks.1, fun answer => ih answer (asks.2 answer)⟩

theorem Asks.keeps {I : S → Prop}
    (kept : ∀ question, P question → ∀ s answer s', I s → env s question answer s' → I s')
    (asks : d.Asks P) : Triple env I d fun _ => I := by
  intro s result s' before run
  induction d generalizing s with
  | ret value =>
    obtain ⟨-, rfl⟩ := run
    exact before
  | ask question rest ih =>
    obtain ⟨answer, mid, asked, tail⟩ := run
    exact ih answer (asks.2 answer) mid (kept question asks.1 s answer mid before asked) tail

/-- Run against an environment that is a function of its state and the question. -/
def exec (respond : S → Q → A × S) : Dialogue Q A α → S → α × S
  | .ret result, s => (result, s)
  | .ask question next, s =>
    (next (respond s question).1).exec respond (respond s question).2

/-- What `exec` computes is a run, in every environment that allows the answers given. -/
theorem runs_exec {respond : S → Q → A × S}
    (allowed : ∀ s question, env s question (respond s question).1 (respond s question).2)
    (d : Dialogue Q A α) (s : S) : d.Runs env s (d.exec respond s).1 (d.exec respond s).2 := by
  induction d generalizing s with
  | ret value => exact ⟨rfl, rfl⟩
  | ask question next ih => exact ⟨_, _, allowed s question, ih _ _⟩

/-- Where the answers to the questions asked are those of `respond` at one state, every
run returns what `exec` returns there. -/
theorem Asks.determined {respond : S → Q → A × S} {I : S → Prop} {fixed : S}
    (same : ∀ question, P question → ∀ s answer s', I s → env s question answer s' →
      respond fixed question = (answer, fixed) ∧ I s') (asks : d.Asks P) :
    Triple env I d fun result s => result = (d.exec respond fixed).1 ∧ I s := by
  intro s result s' before run
  induction d generalizing s with
  | ret value =>
    obtain ⟨rfl, rfl⟩ := run
    exact ⟨rfl, before⟩
  | ask question rest ih =>
    obtain ⟨answer, mid, asked, tail⟩ := run
    obtain ⟨eq, after⟩ := same question asks.1 s answer mid before asked
    rw [exec, eq]
    exact ih answer (asks.2 answer) mid after tail

end Dialogue
