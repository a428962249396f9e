import MorionOS.Lib.Ring
import MorionOS.Blk.Service

/-!
# NVMe queue pairs

A submission queue is a ring of 64 slots: the service writes commands at `tail` and
makes them known by writing the new tail to the doorbell; the device takes the slots
up to the doorbell, works on the commands in any order and posts a completion for each
into the completion queue, a ring with phase bits.

The service matches completions to commands by arrival alone, so a command carries the
number of the request it was submitted for, which no definition reads, and the record
of the completions consumed says for which request each was consumed.  The device acts
between the polls of the service; what it does is a list of moves for each poll.
-/

namespace MorionOS.Blk

def IO_QDEPTH : Nat := 64
def NVME_POLL_LIMIT : Nat := 1000000

/-- A command in a submission queue, with the number of the request it is for. -/
structure Command where
  sqe : Sqe
  owner : Nat
deriving DecidableEq

/-- A completion: the status code, and the command it completes. -/
structure Cqe where
  sc : Nat
  command : Command
deriving DecidableEq

/-- An I/O queue: `io_tail[q]`, the queue memory with `io_head[q]` and `io_phase[q]`,
and what the device knows. -/
structure QueuePair where
  sq : Nat → Command
  tail : Nat
  /-- The last value written to the submission doorbell. -/
  doorbell : Nat
  /-- The slot the device takes next. -/
  fetched : Nat
  /-- Commands the device took and did not complete. -/
  started : List Command
  cq : PhaseRing Cqe

/-- What the device does on its own. -/
inductive DevMove where
  /-- Take the next slot below the doorbell. -/
  | fetch
  /-- Complete one of the commands taken, with this status code. -/
  | post (pick sc : Nat)
deriving DecidableEq

variable (q : QueuePair)

def QueuePair.move : DevMove → QueuePair
  | .fetch =>
    if q.fetched = q.doorbell then
      q
    else
      { q with
        started := q.started ++ [q.sq q.fetched]
        fetched := (q.fetched + 1) % IO_QDEPTH }
  | .post pick sc =>
    if q.cq.full IO_QDEPTH then
      q
    else
      match q.started[pick % q.started.length]? with
      | none => q
      | some command =>
        { q with
          started := q.started.eraseIdx (pick % q.started.length)
          cq := q.cq.post IO_QDEPTH ⟨sc, command⟩ }

def QueuePair.moves (moves : List DevMove) : QueuePair :=
  moves.foldl QueuePair.move q

/-- Write a command into the slot at the tail and advance the tail. -/
def QueuePair.place (command : Command) : QueuePair :=
  { q with
    sq := Function.update q.sq (q.tail % IO_QDEPTH) command
    tail := (q.tail + 1) % IO_QDEPTH }

/-- `wr32(sq_doorbell, tail)`. -/
def QueuePair.ring : QueuePair := { q with doorbell := q.tail }

/-- `try_complete`: the doorbell of the completion queue follows its head. -/
def QueuePair.tryComplete : Option (Cqe × QueuePair) :=
  (q.cq.take IO_QDEPTH).map fun taken => (taken.1, { q with cq := taken.2 })

/-- What the device does before each poll. -/
abbrev Activity : Type := Nat → List DevMove

/-- What a wait returns: the status, the completions it consumed and the queue. -/
structure Waited where
  ok : Bool
  consumed : List Cqe
  queue : QueuePair

/-- The polling loop of `submit_wait`. -/
def poll (activity : Activity) : Nat → Nat → QueuePair → Waited
  | 0, _, q => ⟨false, [], q⟩
  | polls + 1, i, q =>
    let q := q.moves (activity i)
    match q.tryComplete with
    | some (cqe, q) => ⟨cqe.sc == 0, [cqe], q⟩
    | none => poll activity polls (i + 1) q

def submitWait (activity : Activity) (command : Command) (q : QueuePair) : Waited :=
  poll activity NVME_POLL_LIMIT 0 (q.place command).ring

/-- The inner loop of `nvme_batch_rw`: take completions as long as there are any.  The
ring has no more new entries than slots. -/
def drain : Nat → QueuePair → List Cqe × QueuePair
  | 0, q => ([], q)
  | slots + 1, q =>
    match q.tryComplete with
    | some (cqe, q) => ((cqe :: (drain slots q).1), (drain slots q).2)
    | none => ([], q)

/-- The waiting loop of `nvme_batch_rw`, with `submitted - done` completions missing. -/
def collect (activity : Activity) : Nat → Nat → Nat → QueuePair → Waited
  | 0, i, missing, q =>
    if missing = 0 then
      ⟨true, [], q⟩
    else
      let drained := drain IO_QDEPTH (q.moves (activity i))
      ⟨false, drained.1, drained.2⟩
  | spins + 1, i, missing, q =>
    if missing = 0 then
      ⟨true, [], q⟩
    else
      let drained := drain IO_QDEPTH (q.moves (activity i))
      let rest := collect activity spins (i + 1) (missing - drained.1.length) drained.2
      ⟨drained.1.all (·.sc == 0) && rest.ok, drained.1 ++ rest.consumed, rest.queue⟩

/-- `nvme_batch_rw` from the first command written into the queue. -/
def batchWait (activity : Activity) (commands : List Command) (whole : Bool) (q : QueuePair) :
    Waited :=
  let placed := commands.foldl QueuePair.place q
  if whole then
    collect activity NVME_POLL_LIMIT 0 commands.length placed.ring
  else
    ⟨false, [], placed⟩

/-! ## The controller -/

/-- A completion that was consumed, and the request that consumed it. -/
structure Consumed where
  request : Nat
  cqe : Cqe
deriving DecidableEq

/-- The queues, the number of the request being served and the completions consumed. -/
structure Controller where
  queues : Nat → QueuePair
  request : Nat
  log : List Consumed

/-- A wait on a queue is over: keep the queue and record the completions. -/
def Controller.waited (c : Controller) (queue : Nat) (w : Waited) : Controller :=
  { c with
    queues := Function.update c.queues queue w.queue
    log := c.log ++ w.consumed.map fun cqe => ⟨c.request, cqe⟩ }

section

variable {σ : Type}

/-- How many commands a query puts into a queue. -/
def Query.commands : Query σ → Nat
  | .nvme .. => 1
  | .batch sqes _ => sqes.length
  | .driver .. | .ide .. => 0

/-- What the controller makes of a query, given what the device does meanwhile.  The
other disks answer without it. -/
def Controller.respond (c : Controller) (activity : Activity) :
    Query σ → Option Bool × Controller
  | .nvme queue sqe _ =>
    let w := submitWait activity ⟨sqe, c.request⟩ (c.queues queue)
    (some w.ok, c.waited queue w)
  | .batch sqes whole =>
    let commands := sqes.map fun entry => (⟨entry.1, c.request⟩ : Command)
    let w := batchWait activity commands whole (c.queues 0)
    (some w.ok, c.waited 0 w)
  | .driver .. | .ide .. => (none, c)

end

end MorionOS.Blk
