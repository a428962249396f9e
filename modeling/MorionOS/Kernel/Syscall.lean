import MorionOS.Kernel.Ipc

/-!
# Domains, system calls and interrupts

The life of a domain over all tables (`domain.rs`, `exec.rs`, `restart_in_place`),
the system calls that touch them (`syscall.rs`), the page fault handler, the
forwarding of interrupts (`irq.rs`) and the timer tick.

`step` is one step of the system: the running task makes a system call, faults, is
interrupted, or continues inside `receive` or `call`.  Interrupts are off while a
task is inside the kernel, so only a task in user mode is interrupted.  The result
`none` says that the step is not possible or that the kernel panics.

The system calls for the framebuffer, the console, devices, message-signalled
interrupts, network ports and queries change none of these tables and are left out.
So are `SYS_IRQ_WAIT` and `SYS_KEY_READ`, which block the calling task until an
interrupt or `SYS_KEY_PUSH` wakes it and change nothing but its state.
-/

namespace MorionOS.Kernel

def BOOT_DOMAINS : Nat := 26
def MOUNT_SRV_DOMAIN : Nat := 9
def MFS_SRV_DOMAIN : Nat := 11
def FAULT_TAG : Nat := 0x504641554C54

namespace KernelState

/-! ## Domains -/

variable (s : KernelState)

def destroy (id : Nat) : Bool × KernelState :=
  if s.isAlive id then
    (true, { s with
      machine := (destroyDomain s.machine id).2
      caps := setRow s.caps id emptyCapRow
      handles := setRow s.handles id emptyHandleRow
      mailboxes := Table.put [] s.mailboxes id []
      pagers := Table.put none s.pagers id none
      handlers := s.handlers.map (Option.filter fun d => decide (d ≠ id))
      sched := s.sched.removeDomain id })
  else (false, s)

/-- `request_destroy`: domains of the boot stay. -/
def requestDestroy (id : Nat) : KernelState :=
  if id < BOOT_DOMAINS then s else { s with pending := s.pending ++ [⟨id, s.births id⟩] }

/-- `reclaim_pending`: the queue is emptied from its end. -/
def reclaimPending : KernelState :=
  s.pending.foldr (fun queued s => (s.destroy queued.id).2) { s with pending := [] }

/-- `exit_current`: the last live task of a domain queues the domain. -/
def exitCurrent : Option KernelState := do
  let domain ← s.sched.currentDomain
  let s := if s.sched.liveTasks domain ≤ 1 then s.requestDestroy domain else s
  let sched ← s.sched.scheduleNext .terminated
  some { s with sched := sched }

/-- `create` and the rows that `spawn_elf` adds for the new domain. -/
def addDomain (id loader : Nat) (m : Machine) : KernelState :=
  { s with
    machine := m
    caps := setRow s.caps id emptyCapRow
    handles := setRow s.handles id emptyHandleRow
    mailboxes := Table.put [] s.mailboxes id []
    pagers := Table.put none s.pagers id (some loader)
    births := Function.update s.births id (s.births id + 1) }

/-- What `spawn_elf` grants to a new domain. -/
def spawnGrants : List Capability :=
  [.sendTo MOUNT_SRV_DOMAIN, .sendTo MFS_SRV_DOMAIN, .mapInto MFS_SRV_DOMAIN]

/-- `grant` for a list of capabilities. -/
def grantAll (caps : List CapRow) (domain : Nat) : List Capability → Option (List CapRow)
  | [] => some caps
  | cap :: more => (grant caps domain cap).bind fun granted => grantAll granted.2 domain more

/-- `map_image` and then `try_spawn_user`, which is asked only if the image fits. -/
def startTask (mp : Mapper) (s : KernelState) (segments : List Segment) (id : Nat) :
    Option (Bool × KernelState) := do
  let (mapped, m) ← mapImage mp segments id s.machine
  let s := { s with machine := m }
  if mapped then
    match s.sched.spawnUser id with
    | some sched => some (true, { s with sched := sched })
    | none => some (false, s)
  else some (false, s)

/-- `spawn_elf` for a parsed image. -/
def spawnElf (mp : Mapper) (s : KernelState) (segments : List Segment) (loader : Nat) :
    Option (Option Nat × KernelState) :=
  if imagePages segments > MAX_IMAGE_PAGES then some (none, s)
  else do
    let (id, m) ← createDomain s.machine
    let s := s.addDomain id loader m
    let caps ← grantAll s.caps id spawnGrants
    let (started, s) ← startTask mp { s with caps := caps } segments id
    if started then some (some id, s) else some (none, (s.destroy id).2)

/-- `restart_in_place` for a parsed image (`SYS_SPAWN_ELF_AT` and
`SYS_SPAWN_ELF_MODULE`). -/
def restartInPlace (mp : Mapper) (s : KernelState) (segments : List Segment) (id : Nat) :
    Option (Bool × KernelState) :=
  if !s.isAlive id || s.sched.liveTasks id ≠ 0 then some (false, s)
  else
    let s := { s with
      machine := (resetDomain s.machine id).2
      mailboxes := Table.put [] s.mailboxes id []
      sched := s.sched.reapTerminated id }
    if imagePages segments > MAX_IMAGE_PAGES then some (false, s)
    else s.startTask mp segments id

/-! ## System calls -/

/-- `pager::of`. -/
def pagerOf (domain : Nat) : Option Nat := Table.row none s.pagers domain

end KernelState

/-- The system calls on the tables.  An image is the list of its segments, or
`none` when it cannot be read or parsed. -/
inductive Syscall where
  | send (receiver tag : Nat) (payload : List UInt8)
  | recv
  | tryRecv
  | call (callee tag : Nat) (payload : List UInt8)
  | reply (tag : Nat)
  | pageFaultReply
  | yield
  | sleep (ms : Nat)
  | exit
  | capIssue (obj : Nat)
  | capDrop (handle : Nat)
  | handleSend (receiver handle : Nat)
  | capSend (receiver kind arg : Nat)
  | registerIrq (line : UInt8)
  | allocPage (vaddr : Nat)
  | sharePage (vaddr target : Nat)
  | unmap (vaddr : Nat)
  | mapAnon (target vaddr : Nat)
  | spawnElf (image : Option (List Segment))
  | spawnElfAt (target : Nat) (image : Option (List Segment))
  | domainDestroy (target : Nat)

/-- What happens next. -/
inductive Op where
  /-- The running task makes a system call. -/
  | syscall (call : Syscall)
  /-- The running task continues inside the kernel. -/
  | resume
  /-- The running task faults in user mode: on a page that is mapped
  (`violation`) or on one that is not. -/
  | pageFault (violation : Bool) (addr code : Nat)
  /-- An interrupt line with the data its handler read. -/
  | irq (line data : Nat)
  | tick

namespace KernelState

variable (s : KernelState)

/-- A system call that only a holder of the capability may make. -/
def guarded (cap : Capability) (body : Nat → Option KernelState) :
    Option KernelState := do
  let me ← s.sched.currentDomain
  if ← has s.caps me cap then body me else some s

/-- A system call on memory. -/
def onMachine (result : Option (Nat × Machine)) : Option KernelState :=
  result.map fun answer => { s with machine := answer.2 }

/-- Only the tasks change. -/
def onSched (result : Option Sched) : Option KernelState :=
  result.map fun sched => { s with sched := sched }

/-- `SYS_REGISTER_IRQ`: lines below 16 are forwarded as messages. -/
def registerIrq (line : UInt8) : Option KernelState :=
  s.guarded (.irq line) fun me =>
    some (if line.toNat < 16 then { s with handlers := s.handlers.set line.toNat (some me) } else s)

/-- `syscall_dispatch`. -/
def syscall (mp : Mapper) (s : KernelState) : Syscall → Option KernelState
  | .send receiver tag payload => (s.send receiver tag payload).map (·.2)
  | .recv => s.receive
  | .tryRecv => s.tryReceive.map (·.2)
  | .call callee tag payload => s.call callee tag payload
  | .reply tag => (s.reply tag []).map (·.2)
  | .pageFaultReply => do
      let t ← s.sched.task s.sched.current
      some (match t.replyTarget with
        | some target => s.wakeOne target
        | none => s)
  | .yield => s.onSched s.sched.yieldNow
  | .sleep ms => s.onSched (s.sched.sleep ms)
  | .exit => s.exitCurrent
  | .capIssue obj => do
      let me ← s.sched.currentDomain
      some { s with handles := (handleIssue s.handles me obj).2 }
  | .capDrop handle => do
      let me ← s.sched.currentDomain
      some { s with handles := (handleDrop s.handles me handle).2 }
  | .handleSend receiver handle => s.guarded (.sendTo receiver) fun me =>
    some { s with handles := (handleMove s.handles me receiver handle).2 }
  | .capSend receiver kind arg => s.guarded (.sendTo receiver) fun me =>
    some (match decode kind arg with
      | some cap => { s with caps := (delegate s.caps me receiver cap).2 }
      | none => s)
  | .registerIrq line => s.registerIrq line
  | .allocPage vaddr => do
      let me ← s.sched.currentDomain
      s.onMachine (sysAllocPage mp s.machine me vaddr)
  | .sharePage vaddr target => do
      let me ← s.sched.currentDomain
      let allowed ← has s.caps me (.mapInto target)
      s.onMachine (sysSharePage mp s.machine allowed me vaddr target)
  | .unmap vaddr => do
      let me ← s.sched.currentDomain
      s.onMachine (sysUnmap mp s.machine me vaddr)
  | .mapAnon target vaddr => do
      let me ← s.sched.currentDomain
      let allowed ← has s.caps me (.mapInto target)
      s.onMachine (sysMapAnon mp s.machine allowed target vaddr)
  | .spawnElf image => s.guarded .spawn fun me =>
    match image with
    | some segments => (s.spawnElf mp segments me).map (·.2)
    | none => some s
  | .spawnElfAt target image => s.guarded .spawn fun _ =>
    match image with
    | some segments => (s.restartInPlace mp segments target).map (·.2)
    | none => some s
  | .domainDestroy target => s.guarded .spawn fun me =>
    some (if s.pagerOf target = some me then (s.destroy target).2 else s)

/-! ## Faults and interrupts -/

/-- A 64-bit number as bytes, low byte first. -/
def le64 (n : Nat) : List UInt8 := (List.range 8).map fun i => UInt8.ofNat (n / 256 ^ i)

/-- `page_fault_handler` for a fault in user mode: a violation ends the task, a
missing page is reported to the pager of the domain, and without a pager the
kernel halts. -/
def pageFault (violation : Bool) (addr code : Nat) : Option KernelState :=
  if violation then s.exitCurrent
  else do
    let domain ← s.sched.currentDomain
    let pager ← s.pagerOf domain
    let (_, s) ← s.deliver domain pager FAULT_TAG (le64 domain ++ le64 addr ++ le64 code)
    s.onSched (s.sched.blockCurrent domain)

/-- `irq::dispatch`: the data goes to the registered driver as a message from
domain 0. -/
def dispatch (line data : Nat) : Option KernelState :=
  match Table.row none s.handlers line with
  | some domain => (s.deliver 0 domain data []).map (·.2)
  | none => some s

def tick (s : KernelState) : Option KernelState :=
  s.reclaimPending.onSched s.reclaimPending.sched.tick

/-- One step of the system. -/
def step (mp : Mapper) (s : KernelState) (op : Op) : Option KernelState :=
  match s.sched.task s.sched.current with
  | none => none
  | some t =>
    match op, t.frame with
    | .syscall call, .user => s.syscall mp call
    | .pageFault violation addr code, .user => s.pageFault violation addr code
    | .irq line data, .user => s.dispatch line data
    | .tick, .user => s.tick
    | .resume, .receive => s.receive
    | .resume, .call callee request => s.pollReply callee request
    | _, _ => none

/-- A run of the system. -/
def run (mp : Mapper) (s : KernelState) : List Op → Option KernelState
  | [] => some s
  | op :: ops => (s.step mp op).bind fun s => s.run mp ops

end KernelState

end MorionOS.Kernel
