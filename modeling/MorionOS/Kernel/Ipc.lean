import MorionOS.Kernel.AddressSpace
import MorionOS.Kernel.Capability
import MorionOS.Kernel.Scheduler

/-!
# The kernel state and message passing

`KernelState` collects the kernel's tables: memory and domains, capabilities and
handles, mailboxes, pagers, interrupt handlers, tasks and the queue of domains to
reclaim.  The functions follow `ipc.rs`.  All of them run with interrupts off, so
each is one step of the system; `receive` and `call` block by switching to another
task, and the pass they make when they are switched to again is a step of its own
(`receive` once more, `pollReply`).

Four fields and parts of fields are ghosts that no function reads: the serial
numbers of messages with the number that a reply answers, the log of what
happened to messages, the number of times a domain number was created, and the
creation that a queued number stands for.
-/

namespace MorionOS.Kernel

def PAYLOAD_LEN : Nat := 96
def MAILBOX_CAP : Nat := 16
def CALL_POLL_MS : Nat := 200

/-- `Message`.  `sender` and `receiver` are `from` and `to`; the serial number and
the serial number of the message that a reply answers are ghosts. -/
structure Message where
  sender : Nat
  receiver : Nat
  tag : Nat
  payload : List UInt8
  serial : Nat
  answers : Option Nat
deriving DecidableEq

/-- The payload field: cut off or padded with zeros to its fixed size. -/
def fitPayload (payload : List UInt8) : List UInt8 :=
  payload.take PAYLOAD_LEN ++ List.replicate (PAYLOAD_LEN - payload.length) 0

/-- What happened to a message. -/
inductive Event where
  /-- It was put into its receiver's mailbox. -/
  | accepted (m : Message)
  /-- A task of the owner received it. -/
  | received (owner : Nat) (m : Message)
  /-- It was returned to a task of the caller as the answer to a request. -/
  | returned (caller callee request : Nat) (m : Message)
deriving DecidableEq

/-- An entry of `PENDING`: a domain number; which creation of the number it was
queued for is a ghost. -/
structure Queued where
  id : Nat
  birth : Nat
deriving DecidableEq

/-- The kernel's tables. -/
structure KernelState where
  machine : Machine
  caps : List CapRow
  handles : List HandleRow
  mailboxes : List (List Message)
  pagers : List (Option Nat)
  /-- `HANDLERS`: the driver domain of each interrupt line. -/
  handlers : List (Option Nat)
  sched : Sched
  /-- `PENDING`. -/
  pending : List Queued
  /-- How often a domain was created with this number. -/
  births : Nat → Nat
  /-- How many messages were accepted. -/
  serial : Nat
  log : List Event

namespace KernelState

variable (s : KernelState)

def isAlive (id : Nat) : Bool := (s.machine.domain id).isSome

/-- Change the task that is running. -/
def updateCurrent (f : Task → Task) : KernelState :=
  { s with sched := s.sched.update s.sched.current f }

def wakeOne (s : KernelState) (key : Nat) : KernelState :=
  { s with sched := s.sched.wakeOne key }

/-- Append a message to a mailbox and wake a task that waits for it. -/
def enqueue (sender receiver tag : Nat) (payload : List UInt8)
    (answers : Option Nat) : KernelState :=
  let m : Message :=
    { sender := sender, receiver := receiver, tag := tag, payload := fitPayload payload
      serial := s.serial, answers := answers }
  let s : KernelState := { s with
    mailboxes := s.mailboxes.modify receiver (· ++ [m])
    serial := s.serial + 1
    log := s.log ++ [.accepted m] }
  s.wakeOne receiver

/-- `deliver`: refused when the mailbox is full; panics when there is none. -/
def deliver (sender receiver tag : Nat) (payload : List UInt8) :
    Option (Bool × KernelState) :=
  s.mailboxes[receiver]?.map fun box =>
    if box.length ≥ MAILBOX_CAP then (false, s)
    else (true, s.enqueue sender receiver tag payload none)

/-- `send`: the running domain must be allowed to send to the receiver. -/
def send (receiver tag : Nat) (payload : List UInt8) :
    Option (Bool × KernelState) := do
  let me ← s.sched.currentDomain
  if ← has s.caps me (.sendTo receiver) then s.deliver me receiver tag payload
  else some (false, s)

/-- The running task takes a message out of its domain's mailbox, which keeps the
rest, and will answer its sender. -/
def take (me : Nat) (m : Message) (rest : List Message) : KernelState :=
  { s.updateCurrent fun t =>
      { t with replyTarget := some m.sender, received := some m.serial, frame := .user } with
    mailboxes := s.mailboxes.set me rest
    log := s.log ++ [.received me m] }

/-- One pass of the loop of `receive`: it blocks when the mailbox is empty. -/
def receive (s : KernelState) : Option KernelState := do
  let me ← s.sched.currentDomain
  match ← s.mailboxes[me]? with
  | m :: rest => some (s.take me m rest)
  | [] =>
    let sched ← (s.updateCurrent fun t => { t with frame := .receive }).sched.blockCurrent me
    some { s with sched := sched }

def tryReceive : Option (Option Message × KernelState) := do
  let me ← s.sched.currentDomain
  match ← s.mailboxes[me]? with
  | m :: rest => some (some m, s.take me m rest)
  | [] => some (none, s)

/-- The running task waits in `call` for an answer from the callee. -/
def awaitReply (me callee request : Nat) : Option KernelState :=
  ((s.updateCurrent fun t => { t with frame := .call callee request }).sched.blockCurrentTimeoutMs
    me CALL_POLL_MS).map fun sched => { s with sched := sched }

/-- `call` up to its loop: the request is queued whatever the length of the
mailbox.  Without the capability or a live callee the call fails at once. -/
def call (callee tag : Nat) (payload : List UInt8) : Option KernelState := do
  let me ← s.sched.currentDomain
  if ← has s.caps me (.sendTo callee) then
    if s.sched.liveTasks callee = 0 then some s
    else do
      let _ ← s.mailboxes[callee]?
      (s.enqueue me callee tag payload none).awaitReply me callee s.serial
  else some s

/-- One pass of the loop of `call`: the first message whose sender is the callee
is returned; without one the call fails if the callee has no live task, and waits
again otherwise. -/
def pollReply (callee request : Nat) : Option KernelState := do
  let me ← s.sched.currentDomain
  let box ← s.mailboxes[me]?
  match box.find? fun m => m.sender = callee with
  | some m =>
    some { s.updateCurrent fun t => { t with frame := .user } with
      mailboxes := s.mailboxes.set me (box.eraseP fun m => m.sender = callee)
      log := s.log ++ [.returned me callee request m] }
  | none =>
    if s.sched.liveTasks callee = 0 then
      some (s.updateCurrent fun t => { t with frame := .user })
    else s.awaitReply me callee request

/-- `reply`: to the sender of the message received last, whatever the length of
its mailbox; the reply target stays. -/
def reply (tag : Nat) (payload : List UInt8) : Option (Bool × KernelState) := do
  let t ← s.sched.task s.sched.current
  match t.replyTarget with
  | none => some (false, s)
  | some target => do
      let _ ← s.mailboxes[target]?
      some (true, s.enqueue t.domain target tag payload t.received)

end KernelState

end MorionOS.Kernel
