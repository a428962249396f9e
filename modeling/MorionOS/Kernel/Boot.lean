import MorionOS.Kernel.Refinement

/-!
# The state at boot

The domains that `main.rs` creates, the capabilities it grants to them, and what
holds when the first task runs: `Booted`.  The grants for devices depend on the
hardware and are about memory and interrupts only, so `Booted` leaves the rows of
the capability table open except that they name no other domain than those of the
boot.
-/

namespace MorionOS.Kernel

open List Option

def senderDomain : Nat := 0
def receiverDomain : Nat := 1
def pagerDomain : Nat := 2
def echoDomain : Nat := 3
def kbdDomain : Nat := 4
def blockDomain : Nat := 5
def fat32Domain : Nat := 6
def appDomain : Nat := 7
def shellDomain : Nat := 8
def mountDomain : Nat := 9
def tmpfsDomain : Nat := 10
def mfsDomain : Nat := 11
def ext2Domain : Nat := 12
def exfatDomain : Nat := 13
def initDomain : Nat := 14
def gfxDomain : Nat := 15
def netDomain : Nat := 16
def ahciDomain : Nat := 18
def xhciDomain : Nat := 19
def iso9660Domain : Nat := 20
def netstackDomain : Nat := 21
def e1000eDomain : Nat := 22
def httpdDomain : Nat := 23
def e1000Domain : Nat := 24
def wifiDomain : Nat := 25

/-- Both capabilities on a service: to send to it and to map pages into it. -/
def useService (d : Nat) : List Capability := [.sendTo d, .mapInto d]

/-- The grants of `main.rs`, by domain. -/
def bootGrants : List (Nat × List (List Capability)) :=
  [(senderDomain, [useService receiverDomain, [.sendTo echoDomain]]),
    (pagerDomain, [(List.range 16).map .mapInto]),
    (kbdDomain, [[.irq 1, .ioPort 0x60 5]]),
    (blockDomain, [[.ioPort 0x1F0 8], useService ahciDomain, useService xhciDomain]),
    (fat32Domain, [useService blockDomain, [.sendTo mountDomain]]),
    (appDomain, [useService fat32Domain, [.sendTo mountDomain], useService tmpfsDomain,
      useService mfsDomain, useService ext2Domain, useService exfatDomain,
      useService blockDomain, [.spawn], useService gfxDomain, [.sendTo echoDomain],
      useService netstackDomain, [.net 12345 12399], useService wifiDomain]),
    (shellDomain, [useService fat32Domain, [.sendTo mountDomain], useService tmpfsDomain,
      useService mfsDomain, useService ext2Domain, useService exfatDomain, [.spawn],
      useService gfxDomain, [.sendTo blockDomain], useService netstackDomain,
      [.net 12345 12399], useService wifiDomain]),
    (mfsDomain, [useService blockDomain, [.ioPort 0x70 2, .sendTo mountDomain]]),
    (ext2Domain, [useService blockDomain, [.sendTo mountDomain]]),
    (exfatDomain, [useService blockDomain, [.ioPort 0x70 2, .sendTo mountDomain]]),
    (initDomain, [[.spawn], useService fat32Domain, [.sendTo mountDomain, .sendTo echoDomain]]),
    (gfxDomain, [[.fb]]),
    (ahciDomain, [[.sendTo blockDomain]]),
    (xhciDomain, [[.sendTo blockDomain]]),
    (iso9660Domain, [useService blockDomain]),
    (netstackDomain, [useService netDomain, useService e1000eDomain, useService e1000Domain,
      useService wifiDomain]),
    (httpdDomain, [useService netstackDomain, [.net 80 80]])]

/-- The capability table after `cap::init` and the grants. -/
def bootCaps : List CapRow :=
  (bootGrants.foldlM (fun caps g => KernelState.grantAll caps g.1 g.2.flatten)
    (List.replicate BOOT_DOMAINS emptyCapRow)).getD []

/-- The domain that a capability is about. -/
def Capability.names : Capability → Option Nat
  | .sendTo d | .mapInto d => some d
  | _ => none

/-- What holds when the first task starts: the domains of the boot exist and no
others, nothing was sent or queued, and every name stands for a domain of the
boot. -/
structure Booted (s : KernelState) : Prop where
  alive : ∀ d, s.machine.alive d = decide (d < BOOT_DOMAINS)
  caps : ∀ d cap n, Holds s.caps d cap → cap.names = some n → n < BOOT_DOMAINS
  mailboxes : ∀ d, s.view.mailbox d = []
  pagers : ∀ d p, s.view.pager d = some p → p < BOOT_DOMAINS
  tasks : ∀ i t, s.view.task i = some t → t.domain < BOOT_DOMAINS ∧ t.live = true ∧
    t.replyTarget = none ∧ t.received = none ∧ t.call = none
  pending : s.pending = []
  log : s.log = []

theorem Booted.currentLive {s : KernelState} (booted : Booted s) : s.sched.CurrentLive :=
  fun t found => (booted.tasks s.sched.current t found).2.1

/-! ## A machine with some of the services -/

/-- A task that was just started. -/
def bootTask (state : TaskState) (domain : Nat) : Task where
  state := state
  domain := domain
  sleepUntil := 0
  waitOn := 0
  wakeDeadline := 0
  replyTarget := none
  frame := .user
  received := none

/-- Echo, block, application, shell, file system, supervisor and disk driver are
loaded; the idle task comes last.  Echo runs first. -/
def demoKernel : KernelState where
  machine :=
    { frames :=
        { bitmap := fun idx => decide (idx < 64)
          freeFrames := 1000
          pinned := []
          shared := List.replicate MAX_SHARED_FRAMES ⟨0, 0⟩ }
      domains := (List.range BOOT_DOMAINS).map fun d => some ⟨(16 + d) * FRAME_SIZE, none⟩
      kernelPages := fun _ => none }
  caps := bootCaps
  handles := List.replicate BOOT_DOMAINS emptyHandleRow
  mailboxes := List.replicate BOOT_DOMAINS []
  pagers := List.replicate BOOT_DOMAINS (some pagerDomain)
  handlers := List.replicate 16 none
  sched :=
    { tasks := [some (bootTask .running echoDomain), some (bootTask .ready blockDomain),
        some (bootTask .ready appDomain), some (bootTask .ready shellDomain),
        some (bootTask .ready mfsDomain), some (bootTask .ready initDomain),
        some (bootTask .ready ahciDomain), some (bootTask .ready senderDomain)]
        ++ List.replicate (MAX_TASKS - 8) none
      current := 0
      ticks := 0 }
  pending := []
  births := fun d => if d < BOOT_DOMAINS then 1 else 0
  serial := 0
  log := []

theorem exists_row_of_holds {caps : List CapRow} {d : Nat} {cap : Capability}
    (held : Holds caps d cap) : ∃ row ∈ caps, some cap ∈ row := by
  unfold Holds capRow Table.row at held
  cases found : caps[d]? with
  | none =>
    rw [found] at held
    exact absurd held (not_mem_emptyCapRow cap)
  | some row =>
    rw [found] at held
    exact ⟨row, mem_of_getElem? found, held⟩

theorem demoKernel_alive (d : Nat) : demoKernel.machine.alive d = decide (d < BOOT_DOMAINS) := by
  rcases Nat.lt_or_ge d BOOT_DOMAINS with inside | beyond
  · simp [Machine.alive, Machine.domain, demoKernel, inside]
  · simp [Machine.alive, Machine.domain, demoKernel, beyond]

theorem demoKernel_tasks {i : Nat} {t : TaskCore} (found : demoKernel.view.task i = some t) :
    t.domain < BOOT_DOMAINS ∧ t.live = true ∧ t.replyTarget = none ∧ t.received = none ∧
      t.call = none := by
  obtain ⟨task, atSlot, rfl⟩ := map_eq_some_iff.mp found
  have member : some task ∈ demoKernel.sched.tasks := mem_of_getElem? (join_eq_some_iff.mp atSlot)
  simp only [demoKernel, mem_append, mem_cons, some.injEq, not_mem_nil,
    or_false, mem_replicate, reduceCtorEq, and_false] at member
  rcases member with rfl | rfl | rfl | rfl | rfl | rfl | rfl | rfl <;>
    simp [Task.core, bootTask, Frame.pendingCall, BOOT_DOMAINS, echoDomain, blockDomain, appDomain,
      shellDomain, mfsDomain, initDomain, ahciDomain, senderDomain]

theorem demoKernel_booted : Booted demoKernel where
  alive := demoKernel_alive
  caps := by
    intro d cap n held named
    obtain ⟨row, member, slot⟩ := exists_row_of_holds held
    have all : bootCaps.all (fun row => row.all fun slot => slot.all fun cap =>
        cap.names.all fun n => decide (n < BOOT_DOMAINS)) = true := by decide +kernel
    have inRow := all_eq_true.mp (all_eq_true.mp all row member) _ slot
    rw [all_some, named, all_some] at inRow
    exact of_decide_eq_true inRow
  mailboxes := by
    intro d
    exact (Table.row_replicate [] [] BOOT_DOMAINS d).trans (ite_self _)
  pagers := by
    intro d p registered
    have row := (Table.row_replicate none (some pagerDomain) BOOT_DOMAINS d).symm.trans registered
    split at row
    · cases row; decide
    · cases row
  tasks := fun _ _ => demoKernel_tasks
  pending := rfl
  log := rfl

end MorionOS.Kernel
