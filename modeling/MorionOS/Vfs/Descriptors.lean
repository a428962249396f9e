import MorionOS.Kernel.Capability

/-!
# Descriptors of the file library

`vfs.rs` of `libmorion` gives its callers a number for every open file, which packs
a handle of the kernel, the domain of the file service and the slot of the service's
own table.  The handle is the capability: requests through a descriptor first look it
up, and `close` drops it.

A call of the library is a sequence of system calls, and other domains run between two
of them.  A client is therefore at a `Stage` of its call, and a step of the system is
one system call of one client; a request to a service and its answer are one system
call.  A domain has one task, so it has one call at a time.

The tables of all file services have the same shape; what a slot records about the
file is a parameter.  Serial numbers of opened files and the three lists at the end of
the state are ghosts.

Names are those of the source, in camel case.
-/

namespace MorionOS.Vfs

open Kernel

/-! ## Descriptors -/

/-- `MAX_FD` of the file services. -/
def MAX_FD : Nat := 16

def makeFd (handle domain slot : Nat) : Nat :=
  if slot = U64_MAX then U64_MAX
  else (handle <<< 48) % 2 ^ 64 ||| ((domain &&& 0xFFFF) <<< 32) ||| (slot &&& 0xFFFFFFFF)

def fdHandle (fd : Nat) : Nat := fd >>> 48

def fdDomain (fd : Nat) : Nat := (fd >>> 32) &&& 0xFFFF

def fdLocal (fd : Nat) : Nat := fd &&& 0xFFFFFFFF

/-- The object that `wrap_open` has a handle issued for. -/
def issuedObject (domain slot : Nat) : Nat := (domain <<< 32) ||| (slot &&& 0xFFFFFFFF)

/-- The object that `cap_guard` expects behind the handle. -/
def fdObject (fd : Nat) : Nat := (fdDomain fd <<< 32) ||| fdLocal fd

/-- `cap_guard`, called by a task of `client`. -/
def capGuard (handles : List HandleRow) (client fd : Nat) : Bool :=
  fd != U64_MAX && (handleLookup handles client (fdHandle fd)).getD U64_MAX == fdObject fd

/-! ## The tables of the services -/

/-- What a slot in use records: the file, and which opening of a file it stems from. -/
structure Opened (ν : Type) where
  node : ν
  serial : Nat

abbrev FdTable (ν : Type) := List (Option (Opened ν))

variable {ν : Type}

variable (fds : FdTable ν)

/-- `fd_alloc`: the first free slot, or `u64::MAX`. -/
def fdAlloc (new : Opened ν) : Nat × FdTable ν :=
  (Table.fill fds new).getD (U64_MAX, fds)

def fdGet (fd : Nat) : Option (Opened ν) := (fds[fd]?).join

def fdFree (fd : Nat) : FdTable ν :=
  match fdGet fds fd with
  | some _ => fds.set fd none
  | none => fds

/-! ## The system -/

/-- The requests that name a descriptor. -/
inductive Access where
  | read
  | write
  | readdir
  | truncate
  | close
deriving DecidableEq

/-- A call of `close` has returned, when so many files had been opened. -/
structure Close where
  domain : Nat
  fd : Nat
  opens : Nat
deriving DecidableEq

/-- A call of `open` or `creat` has returned a descriptor of this opening. -/
structure Handed where
  domain : Nat
  fd : Nat
  file : Nat
deriving DecidableEq

/-- A request of a call with this descriptor reached an opened file.  `earlier` are the
calls of `close` that had returned when the call began. -/
structure Touch where
  domain : Nat
  fd : Nat
  access : Access
  file : Nat
  earlier : List Close
deriving DecidableEq

/-- Where a client is: which system call comes next. -/
inductive Stage where
  | idle
  /-- `open` and `creat`: the request to the service. -/
  | opening (service : Nat)
  /-- `wrap_open`: the handle is issued. -/
  | issuing (service slot file : Nat)
  /-- `wrap_open` without a free handle: the slot is given back. -/
  | undoing (service slot file : Nat)
  /-- The request after `cap_guard`. -/
  | accessing (access : Access) (fd : Nat) (earlier : List Close)
  /-- `close`: the request to the service. -/
  | closing (fd : Nat) (earlier : List Close)
  /-- `close`: the handle is dropped. -/
  | dropping (fd : Nat)

/-- The kernel's handles, the services' tables by domain, and the clients. -/
structure System (ν : Type) where
  handles : List HandleRow
  services : List (FdTable ν)
  stage : Nat → Stage
  /-- How many files were opened; the serial number of the next one. -/
  opens : Nat
  closes : List Close
  handed : List Handed
  log : List Touch

namespace System

variable (s : System ν)

/-- The table of a domain; empty when the domain is no file service. -/
def table (service : Nat) : FdTable ν := Table.row [] s.services service

def setTable (service : Nat) (fds : FdTable ν) : System ν :=
  { s with services := s.services.set service fds }

def setStage (client : Nat) (stage : Stage) : System ν :=
  { s with stage := Function.update s.stage client stage }

/-- A request with a descriptor arrives at the service of the descriptor. -/
def touch (client fd : Nat) (access : Access) (earlier : List Close) : System ν :=
  match fdGet (s.table (fdDomain fd)) (fdLocal fd) with
  | none => s
  | some file => { s with log := s.log ++ [⟨client, fd, access, file.serial, earlier⟩] }

/-- The request of `open` and `creat`; `found` is the file that the service finds or
makes for the path. -/
def requestOpen (client service : Nat) (found : Option ν) : System ν :=
  match found with
  | none => s.setStage client .idle
  | some node =>
    let (slot, fds) := fdAlloc (s.table service) ⟨node, s.opens⟩
    if slot = U64_MAX then s.setStage client .idle
    else
      { (s.setTable service fds).setStage client (.issuing service slot s.opens) with
        opens := s.opens + 1 }

/-- `wrap_open` from `sys_cap_issue` on. -/
def issue (client service slot file : Nat) : System ν :=
  let (handle, handles) := handleIssue s.handles client (issuedObject service slot)
  if handle = U64_MAX then s.setStage client (.undoing service slot file)
  else
    { s.setStage client .idle with
      handles := handles
      handed := s.handed ++ [⟨client, makeFd handle service slot, file⟩] }

/-- The next system call of a client's call. -/
def resume (client : Nat) (found : Option ν) : System ν :=
  match s.stage client with
  | .idle => s
  | .opening service => s.requestOpen client service found
  | .issuing service slot file => s.issue client service slot file
  | .undoing service slot _ =>
    (s.setTable service (fdFree (s.table service) slot)).setStage client .idle
  | .accessing access fd earlier => (s.touch client fd access earlier).setStage client .idle
  | .closing fd earlier =>
    ((s.touch client fd .close earlier).setTable (fdDomain fd)
      (fdFree (s.table (fdDomain fd)) (fdLocal fd))).setStage client (.dropping fd)
  | .dropping fd =>
    { s.setStage client .idle with
      handles := (handleDrop s.handles client (fdHandle fd)).2
      closes := s.closes ++ [⟨client, fd, s.opens⟩] }

end System

/-- A step of the system.  A call begins with what the library does before its first
request: `open` and `creat` with the answer of `route`, the requests through a descriptor
with `cap_guard`. -/
inductive Act (ν : Type) where
  | openPath (client : Nat) (service : Option (Fin 256))
  | access (client : Nat) (access : Access) (fd : Nat)
  | resume (client : Nat) (found : Option ν)

namespace System

variable (s : System ν)

/-- The beginning of `open` and `creat`. -/
def beginOpen (client : Nat) (service : Option (Fin 256)) : System ν :=
  match s.stage client, service with
  | .idle, some service => s.setStage client (.opening service)
  | _, _ => s

/-- The beginning of `read_into`, `write_into`, `readdir_into`, `truncate` and `close`;
only `close` does without `cap_guard`. -/
def beginAccess (client : Nat) (access : Access) (fd : Nat) : System ν :=
  match s.stage client with
  | .idle =>
    if access = .close then
      if fd = U64_MAX then s else s.setStage client (.closing fd s.closes)
    else if capGuard s.handles client fd then
      s.setStage client (.accessing access fd s.closes)
    else s
  | _ => s

def step : Act ν → System ν
  | .openPath client service => s.beginOpen client service
  | .access client access fd => s.beginAccess client access fd
  | .resume client found => s.resume client found

end System

end MorionOS.Vfs
