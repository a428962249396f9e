import Mathlib.Data.List.TakeWhile
import MorionOS.Blk.Queue
import MorionOS.Blk.Footprint

/-!
# Completions belong to their commands

The service consumes completions in the order in which they arrive and never looks at
which command they are for.  That is sound as long as every queue is idle between
requests: nothing placed and not announced, nothing with the device, no completion
waiting.  Two exits break it: a batch whose descriptors are accepted up to one that is
not leaves commands in the queue without a doorbell write, and a command that outlives
the polling limit leaves its completion for the next request.

`Serving` counts where the commands of the current request are.  The main result,
`completions_belong`, is that a queue that is idle before a query is idle after it and hands out
completions of this request only, if no batch stops half way and the device completes every
command in time; the run at the end shows what the first exit does to the request after it.
-/

namespace MorionOS.Blk

open List Dialogue QueuePair DevMove

/-! ## What a queue holds -/

/-- The commands below the doorbell that the device has not taken, those above it, and
the completions that wait. -/
structure QueuePair.Holds (q : QueuePair) (rung placed : List Command) (posted : List Cqe) :
    Prop where
  slots : ∃ position, q.fetched = position % IO_QDEPTH ∧
    q.doorbell = (position + rung.length) % IO_QDEPTH ∧
    q.tail = (position + (rung ++ placed).length) % IO_QDEPTH ∧
    SlotRing.Holds IO_QDEPTH q.sq position (rung ++ placed)
  completions : q.cq.Holds IO_QDEPTH posted

/-- Nothing is placed, nothing is with the device and no completion waits. -/
structure QueuePair.Idle (q : QueuePair) : Prop where
  started : q.started = []
  holds : q.Holds [] [] []

/-- The commands in the slots from the doorbell to the tail: what the next doorbell write
starts besides the commands placed by then. -/
def QueuePair.pending (q : QueuePair) : List Command :=
  (range ((q.tail + IO_QDEPTH - q.doorbell) % IO_QDEPTH)).map fun i =>
    q.sq ((q.doorbell + i) % IO_QDEPTH)

variable {q : QueuePair} {activity : Activity} {first owner : Nat} {counts : Nat × Nat}

theorem QueuePair.Idle.pending (idle : q.Idle) : q.pending = [] := by
  obtain ⟨position, -, doorbell, tail, -⟩ := idle.holds.slots
  unfold QueuePair.pending
  rw [tail, doorbell]
  simp

section Holds

variable {q : QueuePair} {rung placed : List Command} {posted : List Cqe}

theorem QueuePair.Holds.place (holds : q.Holds rung placed posted)
    (room : (rung ++ placed).length < IO_QDEPTH) (command : Command) :
    (q.place command).Holds rung (placed ++ [command]) posted := by
  obtain ⟨⟨position, fetched, doorbell, tail, slots⟩, completions⟩ := holds
  refine ⟨⟨position, fetched, doorbell, ?_, ?_⟩, completions⟩
  · rw [← append_assoc, length_append, length_singleton, ← Nat.add_assoc,
      ← SlotRing.succ_mod_mod, ← tail]
    rfl
  · have written := slots.write room command
    rw [← Nat.mod_mod, ← tail] at written
    rw [← append_assoc]
    exact written

theorem QueuePair.Holds.ring (holds : q.Holds rung placed posted) :
    q.ring.Holds (rung ++ placed) [] posted := by
  obtain ⟨⟨position, fetched, -, tail, slots⟩, completions⟩ := holds
  refine ⟨⟨position, fetched, tail, ?_, ?_⟩, completions⟩
  · rw [append_nil]
    exact tail
  · rw [append_nil]
    exact slots

theorem QueuePair.Holds.tryComplete_cons {cqe : Cqe} (holds : q.Holds rung placed (cqe :: posted)) :
    ∃ rest, q.tryComplete = some (cqe, rest) ∧ rest.Holds rung placed posted ∧
      rest.started = q.started := by
  obtain ⟨ring, taken, left⟩ := holds.completions.take_cons (by decide)
  refine ⟨{ q with cq := ring }, ?_, ⟨holds.slots, left⟩, rfl⟩
  rw [tryComplete, taken]
  rfl

theorem QueuePair.Holds.tryComplete_nil (holds : q.Holds rung placed []) : q.tryComplete = none := by
  rw [tryComplete, holds.completions.take_nil (by decide)]
  rfl

theorem QueuePair.Holds.fetch_cons {command : Command} (holds : q.Holds (command :: rung) placed posted)
    (room : (command :: rung).length < IO_QDEPTH) :
    (q.move .fetch).started = q.started ++ [command] ∧ (q.move .fetch).Holds rung placed posted := by
  obtain ⟨⟨position, fetched, doorbell, tail, slots⟩, completions⟩ := holds
  have behind : q.fetched ≠ q.doorbell := by
    rw [fetched, doorbell]
    rw [length_cons] at room ⊢
    exact SlotRing.slot_ne (by omega) (by omega)
  have taken : q.sq q.fetched = command := by
    rw [fetched]
    exact SlotRing.Holds.first slots
  have moved : q.move .fetch = { q with
      started := q.started ++ [command]
      fetched := (q.fetched + 1) % IO_QDEPTH } := by
    rw [← taken]
    exact if_neg behind
  rw [moved]
  refine ⟨rfl, ⟨position + 1, ?_, ?_, ?_, SlotRing.Holds.rest slots⟩, completions⟩
  · change (q.fetched + 1) % IO_QDEPTH = _
    rw [fetched, SlotRing.succ_mod_mod]
  · rw [Nat.add_assoc, Nat.add_comm 1]
    exact doorbell
  · rw [Nat.add_assoc, Nat.add_comm 1]
    exact tail

theorem QueuePair.Holds.fetch_nil (holds : q.Holds [] placed posted) : q.move .fetch = q := by
  obtain ⟨position, fetched, doorbell, -, -⟩ := holds.slots
  exact if_pos (fetched.trans doorbell.symm)

theorem QueuePair.Holds.post (holds : q.Holds rung placed posted)
    (room : posted.length + 1 < IO_QDEPTH) (pick sc : Nat) :
    (q.started = [] ∧ q.move (.post pick sc) = q) ∨
      ∃ command before after, q.started = before ++ command :: after ∧
        (q.move (.post pick sc)).started = before ++ after ∧
        (q.move (.post pick sc)).Holds rung placed (posted ++ [⟨sc, command⟩]) := by
  have open_ : q.cq.full IO_QDEPTH = false := holds.completions.not_full room
  cases found : q.started[pick % q.started.length]? with
  | none =>
    left
    have empty : q.started = [] := by
      by_contra some_
      have inside := Nat.mod_lt pick (length_pos_of_ne_nil some_)
      rw [getElem?_eq_getElem inside] at found
      cases found
    refine ⟨empty, ?_⟩
    simp [move, found]
  | some command =>
    right
    have moved : q.move (.post pick sc) = { q with
        started := q.started.eraseIdx (pick % q.started.length)
        cq := q.cq.post IO_QDEPTH ⟨sc, command⟩ } := by
      simp [move, open_, found]
    obtain ⟨inside, here⟩ := List.getElem?_eq_some_iff.mp found
    refine ⟨command, q.started.take (pick % q.started.length),
      q.started.drop (pick % q.started.length + 1), ?_, ?_, ?_⟩
    · rw [← here, getElem_cons_drop inside, take_append_drop]
    · rw [moved, eraseIdx_eq_take_drop_succ]
    · rw [moved]
      exact ⟨holds.slots, holds.completions.post (by omega) _⟩

end Holds

/-! ## The commands of the request being served -/

/-- Where a move of the device takes a command: from the announced ones to the ones
taken, and from those to the completions. -/
def DevMove.count (counts : Nat × Nat) : DevMove → Nat × Nat
  | .fetch => if counts.1 = 0 then counts else (counts.1 - 1, counts.2 + 1)
  | .post _ _ => (counts.1, counts.2 - 1)

/-- `total` commands of the request `owner` are in the queue: so many announced and taken
as `counts` says, the others completed, with the completions in `posted`. -/
structure Serving (owner total : Nat) (q : QueuePair) (counts : Nat × Nat) (posted : List Cqe) :
    Prop where
  holds : ∃ rung, q.Holds rung [] posted ∧ rung.length = counts.1 ∧
    ∀ command ∈ rung, command.owner = owner
  taken : q.started.length = counts.2
  started : ∀ command ∈ q.started, command.owner = owner
  own : ∀ cqe ∈ posted, cqe.command.owner = owner
  all : counts.1 + counts.2 + posted.length = total
  few : total ≤ BLOCK_BATCH_MAX

namespace Serving

variable {owner total : Nat} {q : QueuePair} {counts : Nat × Nat} {posted : List Cqe}

theorem idle (serving : Serving owner total q counts []) (closed : counts.1 + counts.2 = 0) :
    q.Idle := by
  obtain ⟨rung, holds, length, -⟩ := serving.holds
  have taken := serving.taken
  obtain rfl : rung = [] := length_eq_zero_iff.mp (by omega)
  exact ⟨length_eq_zero_iff.mp (by omega), holds⟩

section

variable (serving : Serving owner total q counts posted)
include serving

theorem fetch : Serving owner total (q.move .fetch) (count counts .fetch) posted := by
  obtain ⟨announced, taken⟩ := counts
  obtain ⟨rung, holds, length, own⟩ := serving.holds
  have sum := serving.all
  have few : total ≤ 16 := serving.few
  cases rung with
  | nil =>
    obtain rfl : announced = 0 := length.symm
    rw [holds.fetch_nil]
    exact serving
  | cons command rung =>
    obtain rfl : announced = rung.length + 1 := length.symm
    obtain ⟨started, rest⟩ := holds.fetch_cons (by
      unfold IO_QDEPTH
      omega)
    refine ⟨⟨rung, rest, rfl, fun other member => own other (mem_cons_of_mem _ member)⟩,
      ?_, ?_, serving.own, ?_, serving.few⟩
    · rw [started, length_append, serving.taken]
      rfl
    · rw [started]
      exact forall_mem_append.mpr ⟨serving.started, forall_mem_singleton.mpr (own _ mem_cons_self)⟩
    · change rung.length + (taken + 1) + posted.length = total
      omega

theorem post (pick sc : Nat) :
    ∃ posted, Serving owner total (q.move (.post pick sc)) (count counts (.post pick sc))
      posted := by
  obtain ⟨announced, taken⟩ := counts
  obtain ⟨rung, holds, length, own⟩ := serving.holds
  have sum := serving.all
  have few : total ≤ 16 := serving.few
  have kept := serving.taken
  rcases holds.post (by unfold IO_QDEPTH; omega) pick sc with ⟨empty, same⟩ | moved
  · rw [empty] at kept
    obtain rfl : taken = 0 := kept.symm
    rw [same]
    exact ⟨posted, serving⟩
  · obtain ⟨command, before, after, started, left, rest⟩ := moved
    have mine : ∀ other, other ∈ before ++ command :: after → other.owner = owner := by
      intro other member
      exact serving.started other (started ▸ member)
    rw [started, length_append, length_cons] at kept
    obtain rfl : taken = before.length + after.length + 1 := by omega
    refine ⟨posted ++ [⟨sc, command⟩], ⟨rung, rest, length, own⟩, ?_, ?_, ?_, ?_, serving.few⟩
    · rw [left, length_append]
      rfl
    · rw [left]
      exact fun other member => mine other (((sublist_cons_self _ _).append_left _).subset member)
    · have own := mine command (mem_append_right _ mem_cons_self)
      exact forall_mem_append.mpr ⟨serving.own, forall_mem_singleton.mpr own⟩
    · rw [length_append, length_singleton]
      change announced + (before.length + after.length) + _ = total
      omega

/-- What the device does moves commands on, as counted, and loses none. -/
theorem moves (moves : List DevMove) :
    ∃ posted, Serving owner total (q.moves moves) (moves.foldl count counts) posted := by
  induction moves generalizing q counts posted with
  | nil => exact ⟨posted, serving⟩
  | cons move moves ih =>
    cases move with
    | fetch => exact ih serving.fetch
    | post pick sc =>
      obtain ⟨posted, next⟩ := serving.post pick sc
      exact ih next

end

theorem tryComplete_cons {cqe : Cqe} (serving : Serving owner total q counts (cqe :: posted)) :
    ∃ rest, q.tryComplete = some (cqe, rest) ∧ Serving owner (total - 1) rest counts posted := by
  obtain ⟨rung, holds, length, own⟩ := serving.holds
  obtain ⟨rest, taken, left, started⟩ := holds.tryComplete_cons
  have sum := serving.all
  have few := serving.few
  rw [length_cons] at sum
  refine ⟨rest, taken, ⟨rung, left, length, own⟩, ?_, ?_, ?_, by omega, by omega⟩
  · rw [started]
    exact serving.taken
  · rw [started]
    exact serving.started
  · exact fun other member => serving.own other (mem_cons_of_mem _ member)

theorem tryComplete_nil (serving : Serving owner total q counts []) : q.tryComplete = none := by
  obtain ⟨rung, holds, -⟩ := serving.holds
  exact holds.tryComplete_nil

/-- Draining the completion queue yields what was posted. -/
theorem drain (serving : Serving owner total q counts posted) {slots : Nat}
    (room : posted.length ≤ slots) :
    (drain slots q).1 = posted ∧
      Serving owner (total - posted.length) (drain slots q).2 counts [] := by
  induction posted generalizing q total slots with
  | nil =>
    cases slots with
    | zero => exact ⟨rfl, serving⟩
    | succ slots =>
      unfold Blk.drain
      rw [serving.tryComplete_nil]
      exact ⟨rfl, serving⟩
  | cons cqe posted ih =>
    obtain ⟨rest, taken, left⟩ := serving.tryComplete_cons
    cases slots with
    | zero => cases room
    | succ slots =>
      obtain ⟨drained, done⟩ := ih left (Nat.le_of_succ_le_succ room)
      unfold Blk.drain
      rw [taken]
      refine ⟨congrArg (cqe :: ·) drained, ?_⟩
      rw [length_cons, Nat.add_comm, ← Nat.sub_sub]
      exact done

end Serving

/-! ## Waits -/

/-- The device is done with commands that stood at `counts` within the given polls. -/
def Answered (activity : Activity) (first polls : Nat) (counts : Nat × Nat) : Prop :=
  ∃ used ≤ polls,
    ((range' first used).flatMap activity).foldl DevMove.count counts = (0, 0)

/-- With commands outstanding, an answer in time leaves the rest of it for after the first
poll. -/
theorem Answered.next {polls : Nat}
    (answered : Answered activity first (polls + 1) counts) (open_ : counts ≠ (0, 0)) :
    Answered activity (first + 1) polls ((activity first).foldl count counts) := by
  obtain ⟨used, enough, done⟩ := answered
  cases used with
  | zero => exact absurd done open_
  | succ used =>
    rw [range'_succ, flatMap_cons, foldl_append] at done
    exact ⟨used, by omega, done⟩

theorem Answered.zero (answered : Answered activity first 0 counts) : counts = (0, 0) := by
  obtain ⟨used, enough, done⟩ := answered
  obtain rfl : used = 0 := by omega
  exact done

/-- A wait ends with an idle queue and consumed only completions of this request. -/
structure Waited.Own (w : Waited) (owner : Nat) : Prop where
  idle : w.queue.Idle
  own : ∀ cqe ∈ w.consumed, cqe.command.owner = owner

theorem poll_own {polls : Nat} (serving : Serving owner 1 q counts [])
    (answered : Answered activity first polls counts) :
    (poll activity polls first q).Own owner := by
  have open_ : counts ≠ (0, 0) := by
    rintro rfl
    cases serving.all
  induction polls generalizing first q counts with
  | zero => exact absurd answered.zero open_
  | succ polls ih =>
    obtain ⟨posted, moved⟩ := serving.moves (activity first)
    unfold poll
    dsimp only
    cases posted with
    | nil =>
      rw [moved.tryComplete_nil]
      refine ih moved (answered.next open_) ?_
      intro closed
      rw [closed] at moved
      cases moved.all
    | cons cqe posted =>
      obtain ⟨rest, taken, left⟩ := moved.tryComplete_cons
      rw [taken]
      have sum := left.all
      obtain rfl : posted = [] := length_eq_zero_iff.mp (by omega)
      refine ⟨left.idle (by omega), ?_⟩
      intro other member
      obtain rfl := mem_singleton.mp member
      exact moved.own _ mem_cons_self

theorem collect_own {total spins missing : Nat} (serving : Serving owner total q counts [])
    (answered : Answered activity first spins counts) (count : missing = counts.1 + counts.2) :
    (collect activity spins first missing q).Own owner := by
  -- nothing is missing exactly when nothing is outstanding
  induction spins generalizing first missing q counts total with
  | zero =>
    obtain rfl := answered.zero
    have none_ : missing = 0 := count
    unfold collect
    rw [if_pos none_]
    exact ⟨serving.idle rfl, by simp⟩
  | succ spins ih =>
    unfold collect
    by_cases none_ : missing = 0
    · rw [if_pos none_]
      exact ⟨serving.idle (by omega), by simp⟩
    · rw [if_neg none_]
      have open_ : counts ≠ (0, 0) := by
        rintro rfl
        exact none_ count
      obtain ⟨posted, moved⟩ := serving.moves (activity first)
      have room : posted.length ≤ IO_QDEPTH := by
        have sum := moved.all
        have few : total ≤ 16 := moved.few
        unfold IO_QDEPTH
        omega
      obtain ⟨drained, left⟩ := moved.drain room
      have before := serving.all
      have after := moved.all
      rw [length_nil] at before
      dsimp only
      rw [drained]
      have rest := ih left (answered.next open_) (show missing - posted.length = _ by omega)
      exact ⟨rest.idle, forall_mem_append.mpr ⟨moved.own, rest.own⟩⟩

/-- Commands placed into an idle queue stand behind the doorbell, in order. -/
theorem placed_holds {placed : List Command} (commands : List Command)
    (holds : q.Holds [] placed []) (few : placed.length + commands.length < IO_QDEPTH) :
    (commands.foldl place q).Holds [] (placed ++ commands) [] ∧
      (commands.foldl place q).started = q.started := by
  induction commands generalizing q placed with
  | nil =>
    rw [append_nil]
    exact ⟨holds, rfl⟩
  | cons command commands ih =>
    rw [length_cons] at few
    have one := holds.place (by rw [nil_append]; omega) command
    have rest := ih one (by rw [length_append, length_singleton]; omega)
    rw [append_assoc] at rest
    exact rest

/-- An idle queue into which the commands of a request were placed and announced. -/
theorem serving_of_placed (idle : q.Idle) {commands : List Command}
    (few : commands.length ≤ BLOCK_BATCH_MAX) (own : ∀ command ∈ commands, command.owner = owner) :
    Serving owner commands.length (commands.foldl place q).ring (commands.length, 0) [] := by
  obtain ⟨holds, started⟩ := placed_holds commands idle.holds (by
    have : commands.length ≤ 16 := few
    unfold IO_QDEPTH
    simp only [length_nil]
    omega)
  have none_ : (commands.foldl place q).ring.started = [] := started.trans idle.started
  refine ⟨⟨commands, holds.ring, rfl, own⟩, ?_, ?_, ?_, by simp, few⟩
  · rw [none_]
    rfl
  · rw [none_]
    intro command member
    cases member
  · intro cqe member
    cases member

theorem submitWait_own {command : Command} (idle : q.Idle)
    (answered : Answered activity 0 NVME_POLL_LIMIT (1, 0)) :
    (submitWait activity command q).Own command.owner := by
  have serving : Serving command.owner 1 (q.place command).ring (1, 0) [] :=
    @serving_of_placed q command.owner idle [command] (by simp [BLOCK_BATCH_MAX]) (by simp)
  exact poll_own serving answered

theorem batchWait_own {commands : List Command} (idle : q.Idle) (few : commands.length ≤ BLOCK_BATCH_MAX)
    (own : ∀ command ∈ commands, command.owner = owner)
    (answered : Answered activity 0 NVME_POLL_LIMIT (commands.length, 0)) :
    (batchWait activity commands true q).Own owner :=
  collect_own (serving_of_placed idle few own) answered rfl

/-! ## Whole runs -/

section Runs

variable {σ : Type}

/-- Every queue is idle and every completion consumed so far was the request's own. -/
structure Controller.Orderly (c : Controller) : Prop where
  idle : ∀ queue, (c.queues queue).Idle
  own : ∀ entry ∈ c.log, entry.cqe.command.owner = entry.request

theorem Controller.Orderly.waited {c : Controller} (orderly : c.Orderly) {w : Waited}
    (own : w.Own c.request) (queue : Nat) : (c.waited queue w).Orderly := by
  constructor
  · exact (Function.forall_update_iff c.queues fun _ => QueuePair.Idle).mpr
      ⟨own.idle, fun other _ => orderly.idle other⟩
  · exact forall_mem_append.mpr ⟨orderly.own, forall_mem_map.mpr own.own⟩

variable (c : Controller)

/-- A device: it does what it likes while the service waits. -/
def anyDevice (query : Query σ) (answer : Answer σ) (c' : Controller) : Prop :=
  ∃ activity, c' = (c.respond activity query).2 ∧
    ∀ ok, (c.respond activity query).1 = some ok → answer.ok = ok

/-- A device that completes the commands of every query before the service gives up. -/
def timelyDevice (query : Query σ) (answer : Answer σ) (c' : Controller) : Prop :=
  ∃ activity, Answered activity 0 NVME_POLL_LIMIT (query.commands, 0) ∧
    c' = (c.respond activity query).2 ∧
    ∀ ok, (c.respond activity query).1 = some ok → answer.ok = ok

/-- A query that does not leave commands behind: a batch stops before the first command or
not at all. -/
def Query.Whole : Query σ → Prop
  | .batch sqes whole => sqes.length ≤ BLOCK_BATCH_MAX ∧ (whole = true ∨ sqes = [])
  | _ => True

theorem Controller.Orderly.step {c c' : Controller} {query : Query σ} {answer : Answer σ}
    (orderly : c.Orderly) (whole : query.Whole) (step : timelyDevice c query answer c') :
    c'.Orderly := by
  obtain ⟨activity, answered, rfl, -⟩ := step
  cases query with
  | nvme queue sqe data =>
    exact orderly.waited (submitWait_own (orderly.idle queue) answered) queue
  | batch sqes whole_ =>
    obtain ⟨few, whole | rfl⟩ := whole
    · subst whole
      refine orderly.waited (batchWait_own (orderly.idle 0) ?_ ?_ ?_) 0
      · rw [length_map]
        exact few
      · intro command member
        obtain ⟨entry, -, rfl⟩ := mem_map.mp member
        rfl
      · rw [length_map]
        exact answered
    · cases whole_ with
      | false => exact orderly.waited ⟨orderly.idle 0, by simp [batchWait]⟩ 0
      | true =>
        exact orderly.waited (batchWait_own (orderly.idle 0) few (by simp) answered) 0
  | driver | ide => exact orderly

variable {mem : Memory σ}

theorem nvmeBatchRw_whole {vol : Volume} {write : Bool} {ents : List BatchEnt}
    (few : ents.length ≤ BLOCK_BATCH_MAX)
    (accepted : (∃ ent rest, ents = ent :: rest ∧ ent.accepted mem = false) ∨
      ∀ ent ∈ ents, ent.accepted mem = true) :
    (nvmeBatchRw mem vol write ents).Asks Query.Whole := by
  refine (asks_query ⟨?_, ?_⟩).bind fun answer => asks_pure _
  · rw [length_mapIdx]
    exact (takeWhile_sublist _).length_le.trans few
  · rcases accepted with ⟨ent, rest, rfl, refused⟩ | all
    · right
      rw [takeWhile_cons_of_neg (by simp [refused])]
      rfl
    · left
      rw [takeWhile_eq_self_iff.mpr all, beq_self_eq_true]

theorem serveNvme_whole (service : Service σ) {request : Request}
    (accepted : request.Accepted mem) : (serveNvme mem service request).Asks Query.Whole := by
  -- a command for a queue is never left behind
  have single {write : Bool} {nsid lba count : Nat} (query : Query σ)
      (names : query.Names write nsid lba count) : query.Whole := by
    cases query with
    | nvme queue sqe data => trivial
    | _ => exact names.elim
  cases request with
  | rw dev isRead lba count buf =>
    simp only [serveNvme]
    split
    · exact asks_pure _
    · split
      · refine Dialogue.Asks.bind ?_ fun ok => asks_pure _
        unfold driverRw
        split
        · exact asks_pure _
        · exact backendRw_asks (fun done inside data => trivial) _ _
      · unfold nvmeRw
        split
        · exact asks_pure _
        · split
          · exact (blkCacheRead_asks (fun page inside query => single query) _ _ _).bind
              fun done => asks_pure _
          · exact (segments_asks (fun done inside query => single query) _ _ _).bind
              fun done => asks_pure _
  | batch dev isRead k desc =>
    simp only [serveNvme]
    split
    · exact asks_pure _
    · unfold nvmeBatch
      split
      · exact asks_pure _
      · split
        · exact asks_pure _
        next sized =>
          refine (nvmeBatchRw_whole (by simp; omega) ?_).bind fun answer => asks_pure _
          obtain ⟨more, rfl⟩ := Nat.exists_eq_succ_of_ne_zero (fun none_ => sized (.inl none_))
          cases first : (desc 0).accepted mem with
          | false =>
            left
            refine ⟨desc 0, (range more).map fun i => desc (i + 1), ?_, first⟩
            rw [range_succ_eq_map, map_cons, map_map]
            rfl
          | true =>
            right
            intro ent member
            obtain ⟨i, inside, rfl⟩ := mem_map.mp member
            exact accepted first i (mem_range.mp inside)

/-- A request served by a device that is in time leaves the queues as orderly as it found
them. -/
theorem serveNvme_orderly (service : Service σ) {request : Request} (accepted : request.Accepted mem) :
    Dialogue.Triple timelyDevice Controller.Orderly (serveNvme mem service request)
      fun _ => Controller.Orderly :=
  (serveNvme_whole service accepted).keeps fun _ whole _ _ _ orderly step => orderly.step whole step

/-- The service and the controller under it. -/
structure Node (σ : Type) where
  service : Service σ
  controller : Controller

/-- One request is served while the device does what `device` allows. -/
def Node.Serves (device : Controller → Query σ → Answer σ → Controller → Prop) (n : Node σ)
    (mem : Memory σ) (request : Request) (n' : Node σ) : Prop :=
  ∃ reply, (serveNvme mem n.service request).Runs device
    { n.controller with request := n.controller.request + 1 } (reply, n'.service) n'.controller

/-- The states after any number of requests.  The run starts when the queues are idle. -/
inductive Reached (device : Controller → Query σ → Answer σ → Controller → Prop)
    (allowed : Memory σ → Request → Prop) : Node σ → Prop where
  | start {n : Node σ} (idle : ∀ queue, (n.controller.queues queue).Idle)
      (fresh : n.controller.log = []) : Reached device allowed n
  | step {n n' : Node σ} {mem : Memory σ} {request : Request} (reached : Reached device allowed n)
      (fits : allowed mem request) (serves : n.Serves device mem request n') :
      Reached device allowed n'

theorem Reached.orderly {n : Node σ} (reached : Reached timelyDevice Request.Accepted n) :
    n.controller.Orderly := by
  induction reached with
  | start idle fresh =>
    refine ⟨idle, ?_⟩
    rw [fresh]
    intro entry member
    cases member
  | @step n n' mem request _ fits serves ih =>
    obtain ⟨reply, run⟩ := serves
    have before : Controller.Orderly { n.controller with request := n.controller.request + 1 } :=
      ⟨ih.idle, ih.own⟩
    exact serveNvme_orderly _ fits _ _ _ before run

/-- In a run in which no batch stops half way and the device completes every command in
time, the completions consumed for a request are those of its own commands, and no command
is left in a queue for a later doorbell write. -/
theorem completions_belong {n : Node σ} (reached : Reached timelyDevice Request.Accepted n) :
    (∀ entry ∈ n.controller.log, entry.cqe.command.owner = entry.request) ∧
      ∀ queue, (n.controller.queues queue).pending = [] :=
  ⟨reached.orderly.own, fun queue => (reached.orderly.idle queue).pending⟩

/-! ## Two runs -/

/-- The device takes all commands and completes them, in order, before the first poll. -/
def promptActivity (commands : Nat) : Activity := fun poll =>
  if poll = 0 then
    replicate commands .fetch ++ replicate commands (.post 0 0)
  else
    []

theorem promptActivity_answered (commands : Nat) :
    Answered (promptActivity commands) 0 NVME_POLL_LIMIT (commands, 0) := by
  have fetched (taken : Nat) :
      (replicate commands fetch).foldl DevMove.count (commands, taken) =
        (0, taken + commands) := by
    induction commands generalizing taken with
    | zero => rfl
    | succ commands ih =>
      refine (ih (taken + 1)).trans ?_
      rw [Nat.add_assoc, Nat.add_comm 1]
  have posted : (replicate commands (post 0 0)).foldl DevMove.count (0, commands) =
      (0, 0) := by
    clear fetched
    induction commands with
    | zero => rfl
    | succ commands ih =>
      exact ih
  refine ⟨1, by decide, ?_⟩
  change ((promptActivity commands 0 ++ []).foldl count (commands, 0)) = (0, 0)
  rw [append_nil, promptActivity, if_pos rfl, foldl_append, fetched, Nat.zero_add, posted]

/-- The prompt device as a function. -/
def promptDevice (query : Query σ) : Answer σ × Controller :=
  let response := c.respond (promptActivity query.commands) query
  (⟨response.1.getD true, fun _ => none⟩, response.2)

theorem promptDevice_timely (query : Query σ) :
    timelyDevice c query (promptDevice c query).1 (promptDevice c query).2 := by
  refine ⟨_, promptActivity_answered _, rfl, ?_⟩
  intro ok answered
  change (c.respond _ query).1.getD true = ok
  rw [answered]
  rfl

/-- Serve a request with the prompt device. -/
def Node.serve (n : Node σ) (mem : Memory σ) (request : Request) : Node σ :=
  let done := (serveNvme mem n.service request).exec promptDevice
    { n.controller with request := n.controller.request + 1 }
  ⟨done.1.2, done.2⟩

theorem Node.serves_serve (n : Node σ) (mem : Memory σ) (request : Request) :
    n.Serves timelyDevice mem request (n.serve mem request) :=
  ⟨_, runs_exec promptDevice_timely (serveNvme mem n.service request) _⟩

theorem Node.serves_any (n : Node σ) (mem : Memory σ) (request : Request) :
    n.Serves anyDevice mem request (n.serve mem request) := by
  refine ⟨_, runs_exec ?_ (serveNvme mem n.service request) _⟩
  intro c query
  obtain ⟨activity, -, rest⟩ := promptDevice_timely c query
  exact ⟨activity, rest⟩

end Runs

/-- Queues as `nvme_main` creates them: the queue memory is zero. -/
def QueuePair.created : QueuePair where
  sq _ := ⟨⟨false, 0, 0, 0, 0, 0, 0⟩, 0⟩
  tail := 0
  doorbell := 0
  fetched := 0
  started := []
  cq := ⟨fun _ => (false, ⟨0, ⟨⟨false, 0, 0, 0, 0, 0, 0⟩, 0⟩⟩), 0, true, 0, true⟩

theorem QueuePair.created_idle : created.Idle := by
  refine ⟨rfl, ⟨0, rfl, rfl, rfl, SlotRing.holds_nil⟩, 0, rfl, rfl, rfl, rfl, ?_, ?_⟩
  · intro i item found
    cases found
  · intro other _ inside
    have first : other / IO_QDEPTH = 0 := Nat.div_eq_of_lt (by omega)
    simp [created, PhaseRing.phaseAt, first]

/-- A disk with one volume, no cache, and memory in which every address is a mapped page. -/
def demoNode : Node Unit where
  service := ⟨[⟨1, 0, 1024, .nvme⟩], ⟨false, fun _ => ⟨false, 0, 0, 0⟩, fun _ _ => (), none, 0⟩, 0⟩
  controller := ⟨fun _ => .created, 0, []⟩

def demoMemory : Memory Unit := ⟨fun _ => 4096, fun _ => ()⟩

/-- Two descriptors; the second asks for `sectors` sectors. -/
def demoBatch (sectors : Nat) : Request :=
  .batch 0 true 2 fun i => if i = 0 then ⟨0, 8, 4096⟩ else ⟨8, sectors, 8192⟩

def demoRead : Request := .rw 0 true 100 1 4096

theorem demoBatch_completions :
    (∀ entry ∈ ((demoNode.serve demoMemory (demoBatch 8)).serve demoMemory demoRead).controller.log,
        entry.cqe.command.owner = entry.request) ∧
      ∀ queue, (((demoNode.serve demoMemory (demoBatch 8)).serve demoMemory
        demoRead).controller.queues queue).pending = [] :=
  completions_belong
    (((Reached.start (n := demoNode) (fun _ => created_idle) rfl).step
      (show (demoBatch 8).Accepted demoMemory from fun _ => by decide +kernel)
      (demoNode.serves_serve demoMemory (demoBatch 8))).step
      (show demoRead.Accepted demoMemory from trivial) (Node.serves_serve _ demoMemory demoRead))

/-- A batch with a descriptor of nine sectors behind a good one: the good command stays in
the queue, the next read starts it and takes its completion for its own. -/
theorem completion_of_other_request :
    ∃ first second : Node Unit, Reached anyDevice (fun _ _ => True) first ∧
      (first.controller.queues 0).pending ≠ [] ∧
      first.Serves anyDevice demoMemory demoRead second ∧
      ∃ entry ∈ second.controller.log, entry.cqe.command.owner ≠ entry.request := by
  have first := demoNode.serves_any demoMemory (demoBatch 9)
  have second := (demoNode.serve demoMemory (demoBatch 9)).serves_any demoMemory demoRead
  refine ⟨_, _, ?_, ?_, second, ?_⟩
  · exact (Reached.start (n := demoNode) (fun _ => created_idle) rfl).step trivial first
  · decide +kernel
  · decide +kernel

end MorionOS.Blk
