import MorionOS.Kernel.Handles
import MorionOS.Vfs.Descriptors

/-!
# What a closed descriptor still reaches

As long as `close` is only called with descriptors that `cap_guard` accepts, every
request through a descriptor reaches the file that the descriptor was handed out for.
A closed descriptor is then dead until its number is handed out again.

The invariant ties the three tables together: a handle stands for a handed out
descriptor, whose slot holds the file it was handed out for, and no two descriptors or
unfinished calls of `open` stand for one opening of a file.  `closed_descriptor_is_dead` is
the result; closed twice, a number reaches the files of others
(`closed_descriptor_reaches_later_files`).
-/

namespace MorionOS.Vfs

open Kernel List

/-! ## Packed numbers -/

theorem and_low (n w : Nat) (small : n < 2 ^ w) : n &&& (2 ^ w - 1) = n := by
  rw [Nat.and_two_pow_sub_one_eq_mod, Nat.mod_eq_of_lt small]

theorem fdHandle_eq (fd : Nat) : fdHandle fd = fd / 2 ^ 48 := Nat.shiftRight_eq_div_pow fd 48

theorem fdDomain_eq (fd : Nat) : fdDomain fd = fd / 2 ^ 32 % 2 ^ 16 := by
  rw [fdDomain, Nat.shiftRight_eq_div_pow]
  exact Nat.and_two_pow_sub_one_eq_mod _ 16

theorem fdLocal_eq (fd : Nat) : fdLocal fd = fd % 2 ^ 32 := Nat.and_two_pow_sub_one_eq_mod fd 32

theorem fdObject_eq (fd : Nat) : fdObject fd = fd / 2 ^ 32 % 2 ^ 16 * 2 ^ 32 + fd % 2 ^ 32 := by
  rw [fdObject, fdLocal_eq, fdDomain_eq, ← Nat.shiftLeft_add_eq_or_of_lt (Nat.mod_lt _ (by decide)),
    Nat.shiftLeft_eq]

theorem fd_ext {a b : Nat} (handle : fdHandle a = fdHandle b) (object : fdObject a = fdObject b) :
    a = b := by
  rw [fdObject_eq, fdObject_eq] at object
  rw [fdHandle_eq, fdHandle_eq] at handle
  omega

theorem makeFd_eq {handle domain slot : Nat} (isHandle : handle < 2 ^ 16) (isDomain : domain < 2 ^ 16)
    (isSlot : slot < 2 ^ 32) :
    makeFd handle domain slot = handle * 2 ^ 48 + domain * 2 ^ 32 + slot := by
  have valid : slot ≠ U64_MAX := by unfold U64_MAX; omega
  have high : (handle <<< 48) % 2 ^ 64 = handle <<< 48 := by
    exact Nat.mod_eq_of_lt (by omega)
  have middle : domain &&& 0xFFFF = domain := and_low domain 16 isDomain
  have low : slot &&& 0xFFFFFFFF = slot := and_low slot 32 isSlot
  have below : domain <<< 32 < 2 ^ 48 := by
    omega
  rw [makeFd, if_neg valid, high, middle, low, ← Nat.shiftLeft_add_eq_or_of_lt below, Nat.or_comm,
    Nat.shiftLeft_eq, Nat.shiftLeft_eq, Nat.or_comm,
    show handle * 2 ^ 48 + domain * 2 ^ 32 = (handle * 2 ^ 16 + domain) <<< 32 by
      rw [Nat.shiftLeft_eq]; omega,
    ← Nat.shiftLeft_add_eq_or_of_lt isSlot]

/-- What a descriptor that `wrap_open` makes unpacks to. -/
theorem unpack_makeFd {handle domain slot : Nat} (isHandle : handle < 2 ^ 16)
    (isDomain : domain < 2 ^ 16) (isSlot : slot < 2 ^ 32) :
    fdHandle (makeFd handle domain slot) = handle ∧
      fdObject (makeFd handle domain slot) = issuedObject domain slot ∧
      fdDomain (makeFd handle domain slot) = domain ∧ fdLocal (makeFd handle domain slot) = slot := by
  have object : issuedObject domain slot = domain * 2 ^ 32 + slot := by
    have low : slot &&& 0xFFFFFFFF = slot := and_low slot 32 isSlot
    rw [issuedObject, low, ← Nat.shiftLeft_add_eq_or_of_lt isSlot, Nat.shiftLeft_eq]
  rw [makeFd_eq isHandle isDomain isSlot, fdHandle_eq, fdObject_eq, fdDomain_eq, fdLocal_eq, object]
  omega

/-! ## Handles and slots -/

variable {handles : List HandleRow}

theorem capGuard_iff {client fd : Nat} :
    capGuard handles client fd = true ↔
      handleLookup handles client (fdHandle fd) = some (fdObject fd) ∧ fd ≠ U64_MAX := by
  have small : fdObject fd ≠ U64_MAX := by
    rw [fdObject_eq, U64_MAX]
    omega
  unfold capGuard
  cases handleLookup handles client (fdHandle fd) with
  | none => simpa using fun _ => small.symm
  | some obj => simp [and_comm]

variable {ν : Type}

theorem fdAlloc_cases (fds : FdTable ν) (new : Opened ν) :
    fdAlloc fds new = (U64_MAX, fds) ∨
      ∃ slot, fds[slot]? = some none ∧ fdAlloc fds new = (slot, fds.set slot (some new)) := by
  unfold fdAlloc
  rcases filled : Table.fill fds new with _ | ⟨slot, fds'⟩
  · exact .inl rfl
  · obtain ⟨empty, rfl⟩ := Table.fill_eq_set filled
    exact .inr ⟨slot, empty, rfl⟩

namespace System

/-- The slot of the service is in use, for this opening of a file. -/
def Holds (s : System ν) (service slot file : Nat) : Prop :=
  ∃ node, fdGet (s.table service) slot = some ⟨node, file⟩

variable {s : System ν} {service slot file d k : Nat}

theorem Holds.same {a b : Nat} (first : s.Holds service slot a) (second : s.Holds service slot b) : a = b := by
  obtain ⟨node, found⟩ := first
  obtain ⟨node', found'⟩ := second
  rw [found] at found'
  cases found'
  rfl

theorem table_setTable (inside : service < s.services.length) (fds : FdTable ν) (d : Nat) :
    (s.setTable service fds).table d = if d = service then fds else s.table d :=
  Table.row_set inside d

theorem fdGet_isSome_inside {entry : Option (Opened ν)}
    (found : (s.table service)[slot]? = some entry) : service < s.services.length := by
  by_contra beyond
  have empty : s.table service = [] := by
    rw [table, Table.row, List.getElem?_eq_none (not_lt.mp beyond)]
    rfl
  rw [empty] at found
  cases found

theorem Holds.found (holds : s.Holds service slot file) :
    ∃ node, (s.table service)[slot]? = some (some ⟨node, file⟩) := by
  obtain ⟨node, found⟩ := holds
  exact ⟨node, Option.join_eq_some_iff.mp found⟩

/-- A slot that is set anew: the others hold what they held. -/
theorem Holds.set (inside : service < s.services.length)
    (holds : s.Holds d k file) (entry : Option (Opened ν)) (other : ¬ (d = service ∧ k = slot)) :
    (s.setTable service ((s.table service).set slot entry)).Holds d k file := by
  obtain ⟨node, found⟩ := holds
  refine ⟨node, ?_⟩
  rw [table_setTable inside]
  split_ifs with here
  · subst here
    have elsewhere : slot ≠ k := fun same => other ⟨rfl, same.symm⟩
    rw [fdGet, List.getElem?_set_ne elsewhere]
    exact found
  · exact found

/-- `fd_alloc` takes a slot that nobody holds. -/
theorem Holds.alloc (holds : s.Holds d k file) (empty : (s.table service)[slot]? = some none) (new : Opened ν) :
    (s.setTable service ((s.table service).set slot (some new))).Holds d k file := by
  refine holds.set (fdGet_isSome_inside empty) _ fun same => ?_
  obtain ⟨rfl, rfl⟩ := same
  obtain ⟨node, found⟩ := holds.found
  rw [empty] at found
  cases found

theorem holds_alloc (empty : (s.table service)[slot]? = some none) (new : Opened ν) :
    (s.setTable service ((s.table service).set slot (some new))).Holds service slot new.serial := by
  have inside : slot < (s.table service).length := (List.getElem?_eq_some_iff.mp empty).1
  refine ⟨new.node, ?_⟩
  rw [table_setTable (fdGet_isSome_inside empty), if_pos rfl, fdGet, List.getElem?_set_self inside]
  rfl

/-- `fd_free` takes the slot away from one opening only. -/
theorem Holds.free {freed : Nat} (holds : s.Holds d k file)
    (there : s.Holds service slot freed) (other : file ≠ freed) :
    (s.setTable service (fdFree (s.table service) slot)).Holds d k file := by
  obtain ⟨node, found⟩ := there.found
  have set : fdFree (s.table service) slot = (s.table service).set slot none := by
    simp [fdFree, fdGet, found]
  rw [set]
  refine holds.set (fdGet_isSome_inside found) none fun same => other ?_
  obtain ⟨rfl, rfl⟩ := same
  exact holds.same there

theorem length_fdFree (fds : FdTable ν) (slot : Nat) : (fdFree fds slot).length = fds.length := by
  unfold fdFree
  split
  · exact length_set
  · rfl

/-! ## The invariant -/

end System

/-- The opening that a call of `open` has not handed out yet. -/
def Stage.pending : Stage → Option Nat
  | .issuing _ _ file | .undoing _ _ file => some file
  | _ => none

namespace System

/-- What holds of a client at a stage of its call. -/
def Staged (s : System ν) (client : Nat) : Stage → Prop
  | .idle => True
  | .opening service => service < 256
  | .issuing service slot file | .undoing service slot file =>
    service < 256 ∧ s.Holds service slot file ∧ file < s.opens ∧ ∀ hd ∈ s.handed, hd.file ≠ file
  | .accessing _ fd _ | .closing fd _ =>
    handleLookup s.handles client (fdHandle fd) = some (fdObject fd)
  | .dropping _ => True

/-- A client has given the slot back and is about to drop this handle. -/
def Dropping (s : System ν) (client handle : Nat) : Prop :=
  ∃ fd, s.stage client = .dropping fd ∧ fdHandle fd = handle

/-- The handle stands for a descriptor that was handed out to the client, and unless it
is being dropped, the slot holds the file. -/
def Backed (s : System ν) (client handle obj : Nat) : Prop :=
  ∃ hd ∈ s.handed, hd.domain = client ∧ fdHandle hd.fd = handle ∧ fdObject hd.fd = obj ∧
    (¬ s.Dropping client handle → s.Holds (fdDomain hd.fd) (fdLocal hd.fd) hd.file)

structure Sound (s : System ν) : Prop where
  rows : ∀ row ∈ s.handles, row.length ≤ HANDLE_SLOTS
  tables : ∀ fds ∈ s.services, fds.length ≤ MAX_FD
  held : ∀ client handle obj,
    handleLookup s.handles client handle = some obj → s.Backed client handle obj
  old : ∀ hd ∈ s.handed, hd.file < s.opens
  unique : ∀ a ∈ s.handed, ∀ b ∈ s.handed, a.file = b.file → a = b
  staged : ∀ client, s.Staged client (s.stage client)
  apart : ∀ a b file,
    (s.stage a).pending = some file → (s.stage b).pending = some file → a = b
  own : ∀ t ∈ s.log, ⟨t.domain, t.fd, t.file⟩ ∈ s.handed

variable {s s' : System ν} {client handle file fd service slot : Nat} {stage : Stage} {earlier : List Close}

theorem Dropping.not_of_stage (stage : ∀ fd, s.stage client ≠ .dropping fd) : ¬ s.Dropping client handle :=
  fun dropping => stage _ dropping.choose_spec.1

theorem stage_setStage (s : System ν) (client : Nat) (stage : Stage) (c : Nat) :
    (s.setStage client stage).stage c = if c = client then stage else s.stage c :=
  Function.update_apply ..

/-- What a client at a stage depends on is its handles, the slots of its call and the
descriptors handed out. -/
theorem Staged.mono {c : Nat} (staged : s.Staged c stage)
    (lookup : ∀ h, handleLookup s'.handles c h = handleLookup s.handles c h)
    (kept : ∀ service slot file, stage.pending = some file → s.Holds service slot file →
      s'.Holds service slot file) (opens : s.opens ≤ s'.opens)
    (handed : ∀ hd ∈ s'.handed, hd ∈ s.handed ∨ stage.pending ≠ some hd.file) : s'.Staged c stage := by
  cases stage with
  | issuing service slot file | undoing service slot file =>
    obtain ⟨isService, holds, old, new⟩ := staged
    refine ⟨isService, kept _ _ _ rfl holds, old.trans_le opens, fun hd member same => ?_⟩
    rcases handed hd member with before | other
    · exact new hd before same
    · exact other (congrArg some same.symm)
  | accessing _ fd _ | closing fd _ => exact (lookup _).trans staged
  | _ => exact staged

/-- A client that goes to another stage: the others stay as they are, and it takes over no opening
that another call has to hand out. -/
theorem Sound.move (sound : s.Sound)
    (stages : ∀ c, s'.stage c = if c = client then stage else s.stage c)
    (rows : ∀ row ∈ s'.handles, row.length ≤ HANDLE_SLOTS)
    (tables : ∀ fds ∈ s'.services, fds.length ≤ MAX_FD)
    (held : ∀ c handle obj, handleLookup s'.handles c handle = some obj → s'.Backed c handle obj)
    (old : ∀ hd ∈ s'.handed, hd.file < s'.opens)
    (unique : ∀ a ∈ s'.handed, ∀ b ∈ s'.handed, a.file = b.file → a = b)
    (here : s'.Staged client stage)
    (others : ∀ c, c ≠ client → s.Staged c (s.stage c) → s'.Staged c (s.stage c))
    (pending : ∀ file, stage.pending = some file → ∀ c, c ≠ client → (s.stage c).pending ≠ some file)
    (own : ∀ t ∈ s'.log, ⟨t.domain, t.fd, t.file⟩ ∈ s'.handed) : s'.Sound where
  rows := rows
  tables := tables
  held := held
  old := old
  unique := unique
  staged := by
    intro c
    rw [stages]
    split_ifs with same
    · rw [same]
      exact here
    · exact others c same (sound.staged c)
  apart := by
    intro a b file first second
    rw [stages] at first second
    split_ifs at first second with isA isB isB
    · rw [isA, isB]
    · exact absurd second (pending file first b isB)
    · exact absurd first (pending file second a isA)
    · exact sound.apart a b file first second
  own := own

/-- A client that goes to another stage, with no change but of the slots: those that a
call or a handle depends on still hold their files. -/
theorem Sound.advance (sound : s.Sound)
    (handles : s'.handles = s.handles) (handed : s'.handed = s.handed) (opens : s'.opens = s.opens)
    (stages : ∀ c, s'.stage c = if c = client then stage else s.stage c)
    (tables : ∀ fds ∈ s'.services, fds.length ≤ MAX_FD) (here : s'.Staged client stage)
    (pending : ∀ file, stage.pending = some file → (s.stage client).pending = some file)
    (held : ∀ c handle obj, handleLookup s.handles c handle = some obj → s'.Backed c handle obj)
    (kept : ∀ c, c ≠ client → ∀ service slot file, (s.stage c).pending = some file →
      s.Holds service slot file → s'.Holds service slot file)
    (own : ∀ t ∈ s'.log, ⟨t.domain, t.fd, t.file⟩ ∈ s.handed) : s'.Sound := by
  refine sound.move stages (handles ▸ sound.rows) tables (handles ▸ held) ?_ (handed ▸ sound.unique)
    here (fun c same before => before.mono (fun h => by rw [handles]) (kept c same) opens.ge ?_) ?_
    (handed ▸ own)
  · rw [handed, opens]
    exact sound.old
  · exact fun hd member => .inl (handed ▸ member)
  · exact fun file isPending c same other =>
      same (sound.apart c client file other (pending file isPending))

theorem Dropping.of_stages {c : Nat}
    (dropping : s.Dropping c handle) (settled : ∀ fd, s.stage client ≠ .dropping fd)
    (stages : ∀ c, s'.stage c = if c = client then stage else s.stage c) : s'.Dropping c handle := by
  obtain ⟨fd, at', same⟩ := dropping
  have elsewhere : c ≠ client := fun isClient : c = client => settled fd (isClient ▸ at')
  exact ⟨fd, by rw [stages, if_neg elsewhere]; exact at', same⟩

section

variable (sound : s.Sound) (settled : ∀ fd, s.stage client ≠ .dropping fd)
include sound settled

theorem Sound.setStage (here : s.Staged client stage)
    (pending : ∀ file, stage.pending = some file → (s.stage client).pending = some file) :
    (s.setStage client stage).Sound := by
  refine sound.advance rfl rfl rfl (s.stage_setStage client stage) sound.tables here pending ?_
    (fun _ _ _ _ _ _ holds => holds) sound.own
  intro c handle obj found
  obtain ⟨hd, member, domain, isHandle, object, holds⟩ := sound.held c handle obj found
  refine ⟨hd, member, domain, isHandle, object, fun free => holds fun dropping => free ?_⟩
  exact dropping.of_stages settled (s.stage_setStage client stage)

/-! ## The steps -/

/-- The descriptor of a request: it was handed out to the client, for the file that the
service finds in the slot. -/
theorem Sound.reach (found : handleLookup s.handles client (fdHandle fd) = some (fdObject fd)) :
    ∃ file, ⟨client, fd, file⟩ ∈ s.handed ∧ s.Holds (fdDomain fd) (fdLocal fd) file := by
  obtain ⟨hd, member, domain, handle, object, holds⟩ := sound.held _ _ _ found
  have same : hd.fd = fd := fd_ext handle object
  subst same
  subst domain
  exact ⟨hd.file, member, holds (Dropping.not_of_stage settled)⟩

end

theorem log_touch (holds : s.Holds (fdDomain fd) (fdLocal fd) file)
    (client : Nat) (access : Access) (earlier : List Close) :
    s.touch client fd access earlier =
      { s with log := s.log ++ [⟨client, fd, access, file, earlier⟩] } := by
  obtain ⟨node, found⟩ := holds
  rw [touch, found]

theorem mem_setTable {fds : FdTable ν} {n : Nat}
    (short : ∀ fds ∈ s.services, fds.length ≤ n) (new : fds.length ≤ n) :
    ∀ other ∈ (s.setTable service fds).services, other.length ≤ n := by
  intro other member
  rcases mem_or_eq_of_mem_set member with old | rfl
  · exact short other old
  · exact new

section

variable (sound : s.Sound)
include sound

theorem Sound.at_stage (eq : s.stage client = stage) : s.Staged client stage := eq ▸ sound.staged client

/-- An opening that is not handed out yet is an old one, and no descriptor stands for it. -/
theorem Sound.pending (isPending : (s.stage client).pending = some file) :
    file < s.opens ∧ ∀ hd ∈ s.handed, hd.file ≠ file := by
  have staged := sound.staged client
  cases eq : s.stage client with
  | issuing | undoing =>
    rw [eq] at isPending staged
    cases isPending
    exact staged.2.2
  | _ =>
    rw [eq] at isPending
    cases isPending

theorem Sound.length_table (service : Nat) : (s.table service).length ≤ MAX_FD := by
  rw [table, Table.row]
  rcases found : s.services[service]? with _ | fds
  · exact Nat.zero_le _
  · exact sound.tables fds (mem_of_getElem? found)

/-- A slot is given back by the client whose call or descriptor it belongs to. -/
theorem Sound.free {freed : Nat} (settled : ∀ fd, s.stage client ≠ .dropping fd)
    (holds : s.Holds service slot freed)
    (services : s'.services = s.services.set service (fdFree (s.table service) slot))
    (handles : s'.handles = s.handles) (handed : s'.handed = s.handed) (opens : s'.opens = s.opens)
    (stages : ∀ c, s'.stage c = if c = client then stage else s.stage c)
    (here : s'.Staged client stage) (pending : stage.pending = none)
    (mine : ∀ hd ∈ s.handed, hd.file = freed → s'.Dropping hd.domain (fdHandle hd.fd))
    (alone : ∀ c, c ≠ client → (s.stage c).pending ≠ some freed)
    (own : ∀ t ∈ s'.log, ⟨t.domain, t.fd, t.file⟩ ∈ s.handed) : s'.Sound := by
  have kept : ∀ {d k file}, s.Holds d k file → file ≠ freed → s'.Holds d k file := by
    intro d k file before other
    have after := before.free holds other
    unfold Holds table at after ⊢
    rw [services]
    exact after
  refine sound.advance handles handed opens stages ?_ here (by rw [pending]; exact nofun) ?_ ?_ own
  · rw [services]
    have short := sound.length_table service
    rw [← length_fdFree _ slot] at short
    exact mem_setTable sound.tables short
  · intro c handle obj found
    obtain ⟨hd, member, domain, isHandle, object, before⟩ := sound.held c handle obj found
    refine ⟨hd, handed ▸ member, domain, isHandle, object, fun free => kept (before ?_) ?_⟩
    · exact fun dropping => free (dropping.of_stages settled stages)
    · intro isFreed
      exact free (domain ▸ isHandle ▸ mine hd member isFreed)
  · intro c other d k file isPending before
    exact kept before fun same => alone c other (same ▸ isPending)

theorem Sound.undo (stage : s.stage client = .undoing service slot file) :
    ((s.setTable service (fdFree (s.table service) slot)).setStage client .idle).Sound := by
  have here := sound.at_stage stage
  obtain ⟨-, holds, -, new⟩ := here
  refine sound.free (by simp [stage]) holds rfl rfl rfl rfl (stage_setStage _ client .idle) trivial
    rfl ?_ ?_ sound.own
  · intro hd member same
    exact absurd same (new hd member)
  · intro c other isPending
    exact other (sound.apart c client file isPending (by rw [stage]; rfl))

theorem Sound.close (stage : s.stage client = .closing fd earlier) :
    (((s.touch client fd .close earlier).setTable (fdDomain fd)
      (fdFree (s.table (fdDomain fd)) (fdLocal fd))).setStage client (.dropping fd)).Sound := by
  have here := sound.at_stage stage
  obtain ⟨file, member, holds⟩ := sound.reach (by simp [stage]) here
  rw [log_touch holds]
  refine sound.free (by simp [stage]) holds rfl rfl rfl rfl (stage_setStage _ client _) trivial rfl
    ?_ ?_ ?_
  · intro hd isHanded same
    have isThis : hd = ⟨client, fd, file⟩ := sound.unique hd isHanded _ member same
    rw [isThis]
    exact ⟨fd, by rw [stage_setStage, if_pos rfl], rfl⟩
  · exact fun c other isPending => (sound.pending isPending).2 _ member rfl
  · exact forall_mem_append.mpr ⟨sound.own, forall_mem_singleton.mpr member⟩

theorem Sound.access {access : Access} (stage : s.stage client = .accessing access fd earlier) :
    ((s.touch client fd access earlier).setStage client .idle).Sound := by
  have here := sound.at_stage stage
  obtain ⟨file, member, holds⟩ := sound.reach (by simp [stage]) here
  rw [log_touch holds]
  have logged : ({ s with log := s.log ++ [⟨client, fd, access, file, earlier⟩] } : System ν).Sound :=
    { sound with own := forall_mem_append.mpr ⟨sound.own, forall_mem_singleton.mpr member⟩ }
  exact logged.setStage (by simp [stage]) trivial nofun

theorem Sound.drop (stage : s.stage client = .dropping fd) :
    ({ s.setStage client .idle with
      handles := (handleDrop s.handles client (fdHandle fd)).2
      closes := s.closes ++ [⟨client, fd, s.opens⟩] } : System ν).Sound := by
  refine sound.move (s.stage_setStage client .idle) (rows_handleDrop sound.rows client (fdHandle fd))
    sound.tables ?_ sound.old sound.unique trivial ?_ nofun sound.own
  · intro c handle obj found
    rw [handleLookup_handleDrop] at found
    split_ifs at found with dropped
    obtain ⟨hd, member, domain, isHandle, object, holds⟩ := sound.held c handle obj found
    refine ⟨hd, member, domain, isHandle, object, fun free => holds fun dropping => ?_⟩
    obtain ⟨fd', at', same⟩ := dropping
    by_cases isClient : c = client
    · -- the only handle of the client without its slot is the one that goes away
      rw [isClient, stage] at at'
      cases at'
      exact dropped ⟨isClient, same.symm⟩
    · exact free ⟨fd', by dsimp only; rw [stage_setStage, if_neg isClient]; exact at', same⟩
  · intro c other before
    refine before.mono (fun h => ?_) (fun _ _ _ _ holds => holds) le_rfl fun hd member => .inl member
    rw [handleLookup_handleDrop, if_neg fun dropped => other dropped.1]

theorem Sound.opened (isService : service < 256) (stage : s.stage client = .opening service)
    (empty : (s.table service)[slot]? = some none) (node : ν) :
    ({ (s.setTable service ((s.table service).set slot (some ⟨node, s.opens⟩))).setStage client
        (.issuing service slot s.opens) with opens := s.opens + 1 } : System ν).Sound := by
  refine sound.move (stage_setStage _ client _) sound.rows
    (mem_setTable sound.tables (length_set.trans_le (sound.length_table service))) ?_
    (fun hd member => (sound.old hd member).trans (Nat.lt_succ_self _)) sound.unique ?_ ?_ ?_ sound.own
  · intro c handle obj found
    obtain ⟨hd, member, domain, isHandle, object, holds⟩ := sound.held c handle obj found
    refine ⟨hd, member, domain, isHandle, object, fun free => (holds fun dropping => free ?_).alloc empty _⟩
    exact dropping.of_stages (by simp [stage]) (stage_setStage _ client _)
  · refine ⟨isService, holds_alloc empty _, Nat.lt_succ_self _, fun hd member => ?_⟩
    exact (sound.old hd member).ne
  · intro c _ before
    exact before.mono (fun _ => rfl) (fun _ _ _ _ holds => holds.alloc empty _) (Nat.le_succ _)
      fun hd member => .inl member
  · -- the new opening is not one that another call still has to hand out
    rintro _ ⟨⟩ c _ isPending
    exact absurd (sound.pending isPending).1 (lt_irrefl _)

theorem Sound.requestOpen (stage : s.stage client = .opening service) (found : Option ν) :
    (s.requestOpen client service found).Sound := by
  have idle : (s.setStage client .idle).Sound := sound.setStage (by simp [stage]) trivial nofun
  have isService := sound.at_stage stage
  unfold System.requestOpen
  cases found with
  | none => exact idle
  | some node =>
    rcases fdAlloc_cases (s.table service) ⟨node, s.opens⟩ with full | ⟨slot, empty, eq⟩
    · simpa [full] using idle
    have short : slot < MAX_FD := by
      have inside : slot < (s.table service).length := (List.getElem?_eq_some_iff.mp empty).1
      exact inside.trans_le (sound.length_table service)
    have valid : slot ≠ U64_MAX := by
      unfold MAX_FD at short
      unfold U64_MAX
      omega
    simp only [eq, valid]
    exact sound.opened isService stage empty node

theorem Sound.handOut {slots : HandleRow} (stage : s.stage client = .issuing service slot file)
    (row : s.handles[client]? = some slots) (empty : slots[handle]? = some none)
    (isHandle : handle < HANDLE_SLOTS) :
    ({ s.setStage client .idle with
      handles := s.handles.set client (slots.set handle (some (issuedObject service slot)))
      handed := s.handed ++ [⟨client, makeFd handle service slot, file⟩] } : System ν).Sound := by
  have here := sound.at_stage stage
  obtain ⟨isService, holds, old, new⟩ := here
  have inside : handle < slots.length := (List.getElem?_eq_some_iff.mp empty).1
  have lookup := handleLookup_set row inside (some (issuedObject service slot))
  have isSlot : slot < MAX_FD := by
    obtain ⟨node, found⟩ := holds.found
    exact (List.getElem?_eq_some_iff.mp found).1.trans_le (sound.length_table service)
  have packs : handle < 2 ^ 16 ∧ service < 2 ^ 16 ∧ slot < 2 ^ 32 := by
    unfold HANDLE_SLOTS at isHandle
    unfold MAX_FD at isSlot
    omega
  obtain ⟨unHandle, unObject, unDomain, unSlot⟩ := unpack_makeFd packs.1 packs.2.1 packs.2.2
  have added : ∀ {hd : Handed}, hd ∈ s.handed ++ [⟨client, makeFd handle service slot, file⟩] →
      hd ∈ s.handed ∨ hd = ⟨client, makeFd handle service slot, file⟩ := by simp
  refine sound.move (s.stage_setStage client .idle) (rows_set sound.rows row handle _) sound.tables ?_ ?_ ?_ trivial ?_
    nofun fun t member => mem_append_left _ (sound.own t member)
  · intro c h obj found
    rw [lookup] at found
    split_ifs at found with isNew
    · obtain ⟨rfl, rfl⟩ := isNew
      cases found
      refine ⟨⟨c, makeFd h service slot, file⟩, by simp, rfl, unHandle, unObject, fun _ => ?_⟩
      rw [unDomain, unSlot]
      exact holds
    · obtain ⟨hd, member, domain, handle', object, before⟩ := sound.held c h obj found
      refine ⟨hd, mem_append_left _ member, domain, handle', object,
        fun free => before fun dropping => free ?_⟩
      exact dropping.of_stages (by simp [stage]) (stage_setStage _ client _)
  · intro hd member
    rcases added member with before | rfl
    · exact sound.old hd before
    · exact old
  · intro a memA b memB same
    rcases added memA with oldA | rfl <;> rcases added memB with oldB | rfl
    · exact sound.unique a oldA b oldB same
    · exact absurd same (new a oldA)
    · exact absurd same.symm (new b oldB)
    · rfl
  · intro c other before
    refine before.mono (fun h => ?_) (fun _ _ _ _ holds => holds) le_rfl fun hd member => ?_
    · exact (lookup c h).trans (if_neg fun isNew => other isNew.1)
    · rcases added member with before | rfl
      · exact .inl before
      · exact .inr fun isPending => other (sound.apart c client file isPending (by rw [stage]; rfl))

theorem Sound.issue (stage : s.stage client = .issuing service slot file) :
    (s.issue client service slot file).Sound := by
  have here := sound.at_stage stage
  unfold System.issue
  rcases handleIssue_cases client (issuedObject service slot) sound.rows with
    ⟨-, full⟩ | ⟨handle, slots, row, empty, -, isHandle, eq⟩
  · simp only [full]
    exact sound.setStage (by simp [stage]) here (by rw [stage]; exact fun _ isPending => isPending)
  · have valid : handle ≠ U64_MAX := by
      unfold HANDLE_SLOTS at isHandle
      unfold U64_MAX
      omega
    simp only [eq, valid]
    exact sound.handOut stage row empty isHandle

theorem Sound.resume (client : Nat) (found : Option ν) : (s.resume client found).Sound := by
  unfold System.resume
  split
  · exact sound
  next stage => exact sound.requestOpen stage found
  next stage => exact sound.issue stage
  next stage => exact sound.undo stage
  next stage => exact sound.access stage
  next stage => exact sound.close stage
  next stage => exact sound.drop stage

end

/-! ## Runs -/

/-- `close` is called with a descriptor that the other requests would accept. -/
def Guarded (s : System ν) : Act ν → Prop
  | .access client .close fd => capGuard s.handles client fd = true
  | _ => True

theorem Sound.step (sound : s.Sound) (act : Act ν) (guarded : s.Guarded act) : (s.step act).Sound := by
  cases act with
  | openPath client service =>
    change (s.beginOpen client service).Sound
    unfold beginOpen
    split
    next target idle =>
      exact sound.setStage (by simp [idle]) target.isLt nofun
    · exact sound
  | access client access fd =>
    change (s.beginAccess client access fd).Sound
    unfold beginAccess
    split
    next idle =>
      have settled : ∀ fd, s.stage client ≠ .dropping fd := by simp [idle]
      split_ifs with isClose invalid accepted
      · exact sound
      · rw [isClose] at guarded
        exact sound.setStage settled (capGuard_iff.mp guarded).1 nofun
      · exact sound.setStage settled (capGuard_iff.mp accepted).1 nofun
      · exact sound
    · exact sound
  | resume client found => exact sound.resume client found

/-- No file is open and no call is under way. -/
structure Fresh (s : System ν) : Prop where
  rows : ∀ row ∈ s.handles, row = emptyHandleRow
  tables : ∀ fds ∈ s.services, fds.length ≤ MAX_FD
  idle : ∀ client, s.stage client = .idle
  handed : s.handed = []
  log : s.log = []

theorem Fresh.sound (fresh : s.Fresh) : s.Sound where
  rows := fun row member => by rw [fresh.rows row member]; decide
  tables := fresh.tables
  held := by
    intro client handle obj found
    unfold handleLookup at found
    rcases row : s.handles[client]? with _ | slots
    · simp [row] at found
    · have empty := fresh.rows slots (mem_of_getElem? row)
      rw [row, empty] at found
      simp only [emptyHandleRow, Option.bind_some, List.getElem?_replicate] at found
      split_ifs at found <;> cases found
  old := by simp [fresh.handed]
  unique := by simp [fresh.handed]
  staged := fun client => by rw [fresh.idle]; trivial
  apart := fun a b file isPending _ => by rw [fresh.idle] at isPending; cases isPending
  own := by simp [fresh.log]

/-- The states that acts with a condition lead to. -/
inductive Run (allowed : System ν → Act ν → Prop) (start : System ν) : System ν → Prop where
  | nil : Run allowed start start
  | step {s : System ν} (run : Run allowed start s) (act : Act ν) (ok : allowed s act) :
      Run allowed start (s.step act)

theorem Run.sound {start : System ν} {allowed : System ν → Act ν → Prop}
    (guarded : ∀ s act, allowed s act → s.Guarded act) (fresh : start.Fresh)
    (run : Run allowed start s) : s.Sound := by
  induction run with
  | nil => exact fresh.sound
  | step _ act ok ih => exact ih.step act (guarded _ act ok)

/-- The number has not been handed out to the client again since it closed it. -/
def NotAgain (s : System ν) (client fd : Nat) (closes : List Close) : Prop :=
  ∀ cl ∈ closes, cl.domain = client → cl.fd = fd →
    ∀ hd ∈ s.handed, hd.domain = client → hd.fd = fd → hd.file < cl.opens

/-- What a client has to keep to: it closes descriptors that it holds, and does not use a
number that it has closed once the number names another file. -/
def Careful (s : System ν) : Act ν → Prop
  | .access client access fd =>
    (access = .close → capGuard s.handles client fd = true) ∧ s.NotAgain client fd s.closes
  | _ => True

theorem Careful.guarded {act : Act ν} (careful : s.Careful act) : s.Guarded act := by
  cases act with
  | access client access fd =>
    cases access with
    | close => exact careful.1 rfl
    | _ => trivial
  | _ => trivial

/-- No call with a number that its domain had closed before reaches a file that was opened
after the close. -/
def ClosedIsDead (s : System ν) : Prop :=
  ∀ t ∈ s.log, ∀ cl ∈ t.earlier, cl.domain = t.domain → cl.fd = t.fd → t.file < cl.opens

/-- A call under way does not use a number that was handed out again. -/
def Uses (s : System ν) (client : Nat) : Stage → Prop
  | .accessing _ fd earlier | .closing fd earlier => s.NotAgain client fd earlier
  | _ => True

structure Dead (s : System ν) : Prop where
  uses : ∀ client, s.Uses client (s.stage client)
  closed : s.ClosedIsDead

section

variable (dead : s.Dead)
include dead

/-- Only the client that makes the step can be handed a descriptor by it. -/
theorem Dead.advance (stages : ∀ c, s'.stage c = if c = client then stage else s.stage c)
    (handed : ∀ hd ∈ s'.handed, hd ∈ s.handed ∨ hd.domain = client) (here : s'.Uses client stage)
    (log : ∀ t ∈ s'.log, t ∈ s.log ∨ ∃ file access fd earlier, t = ⟨client, fd, access, file, earlier⟩ ∧
      ⟨client, fd, file⟩ ∈ s.handed ∧ s.NotAgain client fd earlier) : s'.Dead where
  uses := by
    intro c
    rw [stages]
    split_ifs with same
    · rw [same]
      exact here
    have before := dead.uses c
    have kept : ∀ fd earlier, s.NotAgain c fd earlier → s'.NotAgain c fd earlier := by
      intro fd earlier notAgain cl member domain isFd hd isHanded isClient
      rcases handed hd isHanded with old | isNew
      · exact notAgain cl member domain isFd hd old isClient
      · exact absurd (isClient.symm.trans isNew) same
    rcases eq : s.stage c with _ | _ | _ | _ | ⟨access, fd, earlier⟩ | ⟨fd, earlier⟩ | _ <;>
      rw [eq] at before
    case accessing => exact kept fd earlier before
    case closing => exact kept fd earlier before
    all_goals trivial
  closed := by
    intro t member
    rcases log t member with old | ⟨file, access, fd, earlier, rfl, isHanded, notAgain⟩
    · exact dead.closed t old
    · intro cl isEarlier domain isFd
      exact notAgain cl isEarlier domain isFd _ isHanded rfl rfl

theorem Dead.logged {access : Access} (member : ⟨client, fd, file⟩ ∈ s.handed)
    (notAgain : s.NotAgain client fd earlier)
    (stages : ∀ c, s'.stage c = if c = client then stage else s.stage c)
    (handed : s'.handed = s.handed) (here : s'.Uses client stage)
    (log : s'.log = s.log ++ [⟨client, fd, access, file, earlier⟩]) : s'.Dead := by
  refine dead.advance stages (fun hd isHanded => .inl (handed ▸ isHanded)) here fun t isLogged => ?_
  rw [log] at isLogged
  rcases mem_append.mp isLogged with old | new
  · exact .inl old
  · exact .inr ⟨file, access, fd, earlier, mem_singleton.mp new, member, notAgain⟩

theorem Dead.setStage (here : s.Uses client stage) : (s.setStage client stage).Dead :=
  dead.advance (s.stage_setStage client stage) (fun _ member => .inl member) here
    fun _ member => .inl member

theorem Dead.requestOpen (client service : Nat) (found : Option ν) :
    (s.requestOpen client service found).Dead := by
  unfold System.requestOpen
  cases found with
  | none => exact dead.setStage trivial
  | some node =>
    dsimp only
    split_ifs
    · exact dead.setStage trivial
    · exact dead.advance (stage_setStage _ client _) (fun _ member => .inl member) trivial
        fun _ member => .inl member

theorem Dead.issue (client service slot file : Nat) : (s.issue client service slot file).Dead := by
  unfold System.issue
  dsimp only
  split_ifs
  · exact dead.setStage trivial
  · refine dead.advance (stage_setStage _ client _) (fun hd member => ?_) trivial
      fun _ member => .inl member
    rcases mem_append.mp member with old | new
    · exact .inl old
    · rw [mem_singleton.mp new]
      exact .inr rfl

theorem Dead.resume (sound : s.Sound) (client : Nat)
    (found : Option ν) : (s.resume client found).Dead := by
  have staged := sound.staged client
  have uses := dead.uses client
  unfold System.resume
  split
  · exact dead
  · exact dead.requestOpen client _ found
  · exact dead.issue client _ _ _
  · exact dead.advance (stage_setStage _ client _) (fun _ member => .inl member) trivial
      fun _ member => .inl member
  next access fd earlier stage =>
    rw [stage] at staged uses
    obtain ⟨file, member, holds⟩ := sound.reach (by simp [stage]) staged
    rw [log_touch holds]
    exact dead.logged member uses (stage_setStage _ client .idle) rfl trivial rfl
  next fd earlier stage =>
    rw [stage] at staged uses
    obtain ⟨file, member, holds⟩ := sound.reach (by simp [stage]) staged
    rw [log_touch holds]
    exact dead.logged member uses (stage_setStage _ client (.dropping fd)) rfl trivial rfl
  · exact dead.advance (stage_setStage _ client _) (fun _ member => .inl member) trivial
      fun _ member => .inl member

theorem Dead.step (sound : s.Sound) (act : Act ν)
    (careful : s.Careful act) : (s.step act).Dead := by
  cases act with
  | openPath client service =>
    change (s.beginOpen client service).Dead
    unfold beginOpen
    split
    · exact dead.setStage trivial
    · exact dead
  | access client access fd =>
    have notAgain := careful.2
    change (s.beginAccess client access fd).Dead
    unfold beginAccess
    split
    · split_ifs
      · exact dead
      · exact dead.setStage notAgain
      · exact dead.setStage notAgain
      · exact dead
    · exact dead
  | resume client found => exact dead.resume sound client found

end

/-- A closed descriptor is dead for a client that closes only what it holds, as long as the
number does not name another file. -/
theorem closed_descriptor_is_dead {start s : System ν} (fresh : start.Fresh)
    (run : Run Careful start s) : s.ClosedIsDead := by
  have dead : s.Dead := by
    induction run with
    | nil =>
      exact ⟨fun client => by rw [fresh.idle]; trivial, by simp [ClosedIsDead, fresh.log]⟩
    | step run act careful ih =>
      exact ih.step (run.sound (fun _ _ careful => careful.guarded) fresh) act careful
  exact dead.closed

/-- The clients with these numbers, and a file service with this number. -/
def demoSystem : System Unit where
  handles := List.replicate 4 emptyHandleRow
  services := [[], List.replicate MAX_FD none]
  stage := fun _ => .idle
  opens := 0
  closes := []
  handed := []
  log := []

/-- A whole call of `open`, and one of the others: the steps of one client in a row. -/
def openCall (client : Nat) : List (Act Unit) :=
  [.openPath client (some 1), .resume client (some ()), .resume client none]

def accessCall (client : Nat) (access : Access) (fd : Nat) : List (Act Unit) :=
  [.access client access fd, .resume client none, .resume client none]

def runActs (s : System ν) (acts : List (Act ν)) : System ν := acts.foldl step s

instance (s : System ν) (act : Act ν) : Decidable (s.Careful act) := by
  cases act <;> unfold Careful NotAgain <;> infer_instance

def carefulActs : System ν → List (Act ν) → Bool
  | _, [] => true
  | s, act :: acts => decide (s.Careful act) && carefulActs (s.step act) acts

theorem Run.acts {start : System ν} {acts : List (Act ν)} (run : Run Careful start s)
    (careful : carefulActs s acts = true) : Run Careful start (s.runActs acts) := by
  induction acts generalizing s with
  | nil => exact run
  | cons act acts ih =>
    obtain ⟨now, later⟩ := Bool.and_eq_true_iff.mp careful
    exact ih (run.step act (of_decide_eq_true now)) later

/-- Two clients open a file each; the first closes its own and tries it again. -/
def demoActs : List (Act Unit) :=
  openCall 2 ++ accessCall 2 .read (makeFd 0 1 0) ++ accessCall 2 .close (makeFd 0 1 0) ++
    openCall 3 ++ accessCall 2 .read (makeFd 0 1 0) ++ accessCall 3 .write (makeFd 0 1 0)

theorem demoSystem_fresh : demoSystem.Fresh where
  rows := by decide
  tables := by decide
  idle := fun _ => rfl
  handed := rfl
  log := rfl

theorem demoActs_dead :
    (demoSystem.runActs demoActs).log.map (fun t => (t.domain, t.file)) = [(2, 0), (2, 0), (3, 1)] ∧
      (demoSystem.runActs demoActs).ClosedIsDead :=
  ⟨by decide +kernel, closed_descriptor_is_dead demoSystem_fresh
    (Run.acts .nil (by decide +kernel))⟩

/-- Closed a second time, the number closes the file of another client that was given the
slot in between; used after `open` has returned it again, it reads the new file. -/
theorem closed_descriptor_reaches_later_files :
    ¬ (demoSystem.runActs (openCall 2 ++ accessCall 2 .close (makeFd 0 1 0) ++ openCall 3 ++
        accessCall 2 .close (makeFd 0 1 0))).ClosedIsDead ∧
      ¬ (demoSystem.runActs (openCall 2 ++ accessCall 2 .close (makeFd 0 1 0) ++ openCall 2 ++
        accessCall 2 .read (makeFd 0 1 0))).ClosedIsDead := by
  refine ⟨fun dead => ?_, fun dead => ?_⟩
  · have late := dead ⟨2, makeFd 0 1 0, .close, 1, [⟨2, makeFd 0 1 0, 1⟩]⟩ (by decide +kernel)
    exact absurd late (by decide)
  · have late := dead ⟨2, makeFd 0 1 0, .read, 1, [⟨2, makeFd 0 1 0, 1⟩]⟩ (by decide +kernel)
    exact absurd late (by decide)

end System

end MorionOS.Vfs
