import MorionOS.Mfs.Service
import MorionOS.Mfs.Mounting

/-!
# Descriptors over runs of requests

A descriptor is a record of an earlier OPEN or CREAT: volume, path, permissions.
The theorems follow a descriptor through an arbitrary sequence of requests of any
domains.  What a request through a descriptor works on is whatever the recorded
path names when the request is served; the domain of the request plays no part
(`descriptor_acts_on_recorded_path`).
-/

namespace MorionOS.Mfs

open StateAct Layered Option Srv

/-! ## The descriptor table -/

variable {f : MfsFd} {fd : Nat}

theorem fdGet_fdAlloc {fds : List MfsFd} {new : MfsFd} (h : fdGet (fdAlloc fds new).2 fd = some f) :
    fdGet fds fd = some f ∨ (f = new ∧ (fdAlloc fds new).1 = fd) := by
  rw [fdAlloc] at h ⊢
  rcases free : fds.findIdx? fun s => !s.used with _ | i
  · rw [free] at h
    exact .inl h
  · rw [free] at h ⊢
    by_cases here : i = fd
    · right
      subst here
      have inside : i < fds.length := (List.findIdx?_eq_some_iff_getElem.mp free).1
      simp only [fdGet, List.getElem?_set_self inside, filter_eq_some_iff] at h
      exact ⟨(some.inj h.1).symm, rfl⟩
    · left
      simpa [fdGet, List.getElem?_set_ne here] using h

theorem fdGet_fdFree {fds : List MfsFd} {k : Nat}
    (h : fdGet (fdFree fds k).2 fd = some f) : fdGet fds fd = some f := by
  rw [fdFree] at h
  rcases found : fdGet fds k with _ | old
  · rw [found] at h
    exact h
  · rw [found] at h
    by_cases here : k = fd
    · subst here
      have inside : k < fds.length := by
        rw [fdGet, filter_eq_some_iff] at found
        exact (List.getElem?_eq_some_iff.mp found.1).1
      simp only [fdGet, List.getElem?_set_self inside, filter_eq_some_iff] at h
      obtain ⟨eq, used⟩ := h
      rw [← some.inj eq] at used
      cases used
    · simpa [fdGet, List.getElem?_set_ne here] using h

/-! ## One request -/

section Frames

variable {α : Type} (s : Srv)

@[simp] theorem Srv.fds_run (m : Fs → Except Nat α × Fs) (code : α → Nat) (page : α → Result) :
    (s.run m code page).2.fds = s.fds := by
  rw [run]
  split <;> rfl

@[simp] theorem Srv.fds_viaFd (fd : Nat) (isDir : Bool) (want : Nat)
    (act : Nat → Fs → Except Nat α × Fs) (code : α → Nat) (page : α → Result) :
    (s.viaFd fd isDir want act code page).2.fds = s.fds := by
  rw [viaFd]
  split
  · rfl
  · split
    · rfl
    · split
      · rfl
      · exact s.fds_run _ _ _

@[simp] theorem Srv.fds_twoPaths (a b : List UInt8) (m : Op Nat Nat) :
    (s.twoPaths a b m).2.fds = s.fds := by
  rw [twoPaths]
  split
  · rfl
  · exact s.fds_run _ _ _

theorem Srv.fds_prepared (msg : Message) : (s.prepared msg).2.fds = s.fds := by
  rw [prepared, onVolume]
  split <;> rfl

end Frames

/-- Request `msg`, served in state `s`, is an OPEN or CREAT that hands out slot `fd` with the record
`f`: path and permissions are what opening or creating the path has computed. -/
def HandedOut (s : Srv) (msg : Message) (fd : Nat) (f : MfsFd) : Prop :=
  ∃ t fs, s.prepared msg = (.ok (), t) ∧ (s.handle msg).1.code = fd ∧
    f.cred = credOf msg.sender ∧ f.vol = fs.mem.curVol ∧
    ((∃ path, msg.req = .openPath path ∧
        (openNode path f.cred).run t.fs = (.ok (f.path, f.isDir, f.perm), fs)) ∨
      (∃ path, msg.req = .creat path ∧ f.isDir = false ∧
        (mfsCreate path false (msg.sender % 65536) f.cred).run t.fs =
          (.ok (some (f.path, f.perm)), fs)))

theorem mfsCreate_dir {path : List UInt8} {owner : Nat} {cred : Cred} {s s' : Fs}
    {r : Option (Canon × Nat)} (ran : (mfsCreate path true owner cred).run s = (.ok r, s')) :
    r = none := by
  obtain ⟨canon, s₁, -, ran⟩ := Act.after_eq_ok ran
  obtain ⟨existing, s₂, -, ran⟩ := Act.after_eq_ok ran
  rcases existing with _ | ino
  · obtain ⟨_, s₃, -, ran⟩ := Act.after_eq_ok ran
    simpa using (congrArg Prod.fst ran).symm
  · rw [run_bind] at ran
    obtain ⟨_, s₃, opened, -⟩ := Act.after_eq_ok ran
    cases opened

/-- The descriptors after a dispatched request: those from before, and the one handed out. -/
theorem fdGet_dispatch {t : Srv} {sender : Nat} {cred : Cred} {req : Request}
    (h : fdGet (t.dispatch sender cred req).2.fds fd = some f) :
    fdGet t.fds fd = some f ∨
      ∃ fs, (t.dispatch sender cred req).1.code = fd ∧ f.cred = cred ∧ f.vol = fs.mem.curVol ∧
        ((∃ path, req = .openPath path ∧
            (openNode path cred).run t.fs = (.ok (f.path, f.isDir, f.perm), fs)) ∨
          (∃ path, req = .creat path ∧ f.isDir = false ∧
            (mfsCreate path false (sender % 65536) cred).run t.fs = (.ok (some (f.path, f.perm)), fs))) := by
  cases req with
  | openPath path =>
    simp only [dispatch, openPath] at h ⊢
    rcases ran : (openNode path cred).run t.fs with ⟨e | ⟨canon, isDir, perm⟩, fs⟩
    · rw [ran] at h
      exact .inl h
    · rw [ran] at h
      rcases fdGet_fdAlloc h with before | ⟨rfl, slot⟩
      · exact .inl before
      · exact .inr ⟨fs, slot, rfl, rfl, .inl ⟨path, rfl, ran⟩⟩
  | creat path =>
    simp only [dispatch, create] at h ⊢
    rcases ran : (mfsCreate path false (sender % 65536) cred).run t.fs with ⟨e | _ | ⟨canon, perm⟩, fs⟩
    · rw [ran] at h
      exact .inl h
    · rw [ran] at h
      exact .inl h
    · rw [ran] at h
      rcases fdGet_fdAlloc h with before | ⟨rfl, slot⟩
      · exact .inl before
      · exact .inr ⟨fs, slot, rfl, rfl, .inr ⟨path, rfl, rfl, ran⟩⟩
  | mkdir path =>
    left
    simp only [dispatch, create] at h
    rcases ran : (mfsCreate path true (sender % 65536) cred).run t.fs with ⟨e | _ | made, fs⟩
    · rw [ran] at h
      exact h
    · rw [ran] at h
      exact h
    · cases mfsCreate_dir ran
  | close k => exact .inl (fdGet_fdFree h)
  | _ => exact .inl (by simpa [dispatch, runCode] using h)

theorem fdGet_handle {s : Srv} {msg : Message}
    (h : fdGet (s.handle msg).2.fds fd = some f) : fdGet s.fds fd = some f ∨ HandedOut s msg fd f := by
  have kept := s.fds_prepared msg
  rcases ready : s.prepared msg with ⟨e | u, t⟩
  · rw [handle, ready] at h
    rw [ready] at kept
    exact .inl (kept ▸ h)
  · have reply : s.handle msg = t.dispatch msg.sender (credOf msg.sender) msg.req := by
      rw [handle, ready]
    rw [ready] at kept
    rw [reply] at h
    rcases fdGet_dispatch h with before | ⟨fs, slot, cred, vol, origin⟩
    · exact .inl (kept ▸ before)
    · refine .inr ⟨t, fs, ready, by rw [reply, slot], cred, vol, ?_⟩
      rw [cred]
      exact origin

/-! ## Runs -/

theorem Srv.handleAll_append (s : Srv) (ms ms' : List Message) :
    s.handleAll (ms ++ ms') = (s.handleAll ms).handleAll ms' := by
  induction ms generalizing s with
  | nil => rfl
  | cons m ms ih => exact ih _

/-- Every descriptor in use was handed out by an earlier request, and its slot has held the same
record ever since. -/
theorem fdGet_history {s₀ : Srv} (fresh : ∀ fd, fdGet s₀.fds fd = none) (msgs : List Message)
    (h : fdGet (s₀.handleAll msgs).fds fd = some f) :
    ∃ pre msg post, msgs = pre ++ msg :: post ∧ HandedOut (s₀.handleAll pre) msg fd f ∧
      ∀ mid, mid <+: post → fdGet (s₀.handleAll (pre ++ msg :: mid)).fds fd = some f := by
  induction msgs using List.reverseRecOn with
  | nil =>
    rw [handleAll, fresh] at h
    cases h
  | append_singleton msgs last ih =>
    have now := h
    rw [handleAll_append] at h
    rcases fdGet_handle h with before | handed
    · obtain ⟨pre, msg, post, rfl, handed, held⟩ := ih before
      refine ⟨pre, msg, post ++ [last], by simp, handed, fun mid part => ?_⟩
      rcases List.prefix_concat_iff.mp part with rfl | part
      · simpa using now
      · exact held mid part
    · refine ⟨msgs, last, [], rfl, handed, fun mid part => ?_⟩
      obtain rfl := List.prefix_nil.mp part
      exact now

/-! ## Requests through a descriptor -/

/-- READ, WRITE and TRUNCATE: the descriptor and the permission that is needed. -/
def Request.access : Request → Option (Nat × Nat)
  | .read fd _ _ => some (fd, MFS_ACC_R)
  | .write fd _ _ _ => some (fd, MFS_ACC_W)
  | .truncate fd _ => some (fd, MFS_ACC_W)
  | _ => none

/-- READ, WRITE and TRUNCATE performed on inode `ino`, where `fs` is the state in which the inode
was found. -/
def Srv.actOn (t : Srv) (ino : Nat) (fs : Fs) : Request → Reply × Srv
  | .read _ offset count =>
    t.run (fun _ => withMax (mfsReadFile ino offset count) fs) List.length .bytes
  | .write _ offset count src =>
    t.run (fun _ => withMax (mfsWriteFile ino offset count src).run fs) id fun _ => .none
  | .truncate _ size => t.run (fun _ => withMax (mfsTruncate ino size).run fs) id fun _ => .none
  | _ => (⟨U64_MAX, .none⟩, t)

theorem viaFd_ok {α : Type} {t : Srv} {want : Nat} {isDir : Bool} {act : Nat → Fs → Except Nat α × Fs}
    {code : α → Nat} {page : α → Result}
    (ok : mfsIsErr (t.viaFd fd isDir want act code page).1.code = false) :
    ∃ f ino fs, fdGet t.fds fd = some f ∧ f.isDir = isDir ∧ f.perm &&& want = want ∧
      (mfsResolve f.path).run t.fs = (.ok ino, fs) ∧
      t.viaFd fd isDir want act code page = t.run (fun _ => act ino fs) code page := by
  rw [viaFd] at ok ⊢
  rcases found : fdGet t.fds fd with _ | f
  · simp [found] at ok
  · rw [found] at ok
    dsimp only at ok ⊢
    by_cases kind : f.isDir = isDir
    · rw [if_neg (not_not.mpr kind)] at ok ⊢
      by_cases allowed : f.perm &&& want = want
      · rw [if_neg (not_not.mpr allowed)] at ok ⊢
        rcases ran : (mfsResolve f.path).run t.fs with ⟨e | ino, fs⟩
        · simp [Srv.run, ran] at ok
        · refine ⟨f, ino, fs, rfl, kind, allowed, ran, ?_⟩
          rw [Srv.run, run_orErr, ran]
          rfl
      · simp [allowed] at ok
    · simp [kind] at ok

theorem mfsSwitchVol_curVol {vol : Nat} {s s' : Fs} (ran : mfsSwitchVol vol s = (.ok (), s')) :
    s'.mem.curVol = vol := by
  obtain ⟨_, s₁, -, ran⟩ := Act.after_eq_ok ran
  obtain ⟨_, s₂, moved, ran⟩ := Act.after_eq_ok ran
  obtain rfl : (s₁.setCurVol vol ((s₁.env.findVolume vol).elim 0 (·.sectors))).clearLeaf = s₂ :=
    congrArg Prod.snd moved
  have kept := confined_of_via
    ((stays_of_tends (m := mfsLoadState)).keeps (s₁.setCurVol vol ((s₁.env.findVolume vol).elim 0 (·.sectors))).clearLeaf)
  rw [ran] at kept
  exact kept.curVol

/-- A request through a descriptor is dispatched on the volume of the descriptor. -/
theorem prepared_curVol {s t : Srv} {msg : Message}
    (ready : s.prepared msg = (.ok (), t)) (uses : msg.req.fd = some fd)
    (found : fdGet s.fds fd = some f) : t.fs.mem.curVol = f.vol := by
  have volume : s.collected.volumeOf msg = f.vol := by
    have same : fdGet s.collected.fds fd = some f := found
    rw [volumeOf, uses, bind_some, same]
  rw [prepared, volume, onVolume] at ready
  split at ready
  next current =>
    obtain rfl : s.collected = t := congrArg Prod.snd ready
    exact current.symm
  · obtain rfl : { s.collected with fs := (mfsSwitchVol f.vol s.collected.fs).2 } = t :=
      congrArg Prod.snd ready
    exact mfsSwitchVol_curVol (Act.eq_of_fst (congrArg Prod.fst ready))

/-- After the requests `msgs`, request `msg` is served through slot `fd` with the record `f`. -/
structure ServedThrough (s₀ : Srv) (msgs : List Message) (msg : Message) (fd want : Nat) (f : MfsFd) :
    Prop where
  /-- The record was handed out by an earlier OPEN or CREAT and has been in its slot ever since. -/
  opened : ∃ pre opening post, msgs = pre ++ opening :: post ∧
    HandedOut (s₀.handleAll pre) opening fd f ∧
    ∀ mid, mid <+: post → fdGet (s₀.handleAll (pre ++ opening :: mid)).fds fd = some f
  file : f.isDir = false
  /-- The permissions recorded then admit the request. -/
  allowed : f.perm &&& want = want
  /-- The request acts on the inode that the recorded path names now, on the same volume. -/
  acts : ∃ t ino fs, (s₀.handleAll msgs).prepared msg = (.ok (), t) ∧ t.fs.mem.curVol = f.vol ∧
    (mfsResolve f.path).run t.fs = (.ok ino, fs) ∧
    (s₀.handleAll msgs).handle msg = t.actOn ino fs msg.req

/-- Every READ, WRITE or TRUNCATE that succeeds is served through the record of its descriptor. -/
theorem descriptor_acts_on_recorded_path {s₀ : Srv} (fresh : ∀ fd, fdGet s₀.fds fd = none)
    (msgs : List Message) {msg : Message} {fd want : Nat} (access : msg.req.access = some (fd, want))
    (ok : mfsIsErr ((s₀.handleAll msgs).handle msg).1.code = false) :
    ∃ f, ServedThrough s₀ msgs msg fd want f := by
  have kept := (s₀.handleAll msgs).fds_prepared msg
  rcases ready : (s₀.handleAll msgs).prepared msg with ⟨e | u, t⟩
  · rw [handle, ready] at ok
    change mfsIsErr U64_MAX = false at ok
    exact absurd ok (by decide)
  · rw [ready] at kept
    have reply : (s₀.handleAll msgs).handle msg = t.dispatch msg.sender (credOf msg.sender) msg.req := by
      rw [handle, ready]
    rw [reply] at ok
    obtain ⟨f, ino, fs, found, kind, allowed, resolved, acted⟩ : ∃ f ino fs, fdGet t.fds fd = some f ∧
        f.isDir = false ∧ f.perm &&& want = want ∧ (mfsResolve f.path).run t.fs = (.ok ino, fs) ∧
        t.dispatch msg.sender (credOf msg.sender) msg.req = t.actOn ino fs msg.req := by
      revert ok access
      cases msg.req <;> intro access ok <;> cases access <;> exact viaFd_ok ok
    have uses : msg.req.fd = some fd := by
      revert access
      cases msg.req <;> intro access <;> cases access <;> rfl
    obtain ⟨pre, opening, post, split, handed, held⟩ := fdGet_history fresh msgs (kept ▸ found)
    exact ⟨f, ⟨pre, opening, post, split, handed, held⟩, kind, allowed, t, ino, fs, ready,
      prepared_curVol ready uses (kept ▸ found), resolved, reply.trans acted⟩

/-! ## A run of three domains -/

/-- The service on a freshly formatted volume. -/
def demoSrv : Srv := ⟨(mfsFormat.run (demoFs true [] [])).2, List.replicate MFS_MAX_FD MFS_FD_EMPTY, 0⟩

/-- The path of a file in the root directory. -/
def demoPath : List UInt8 := [SLASH, 0x61]

/-- Domain 30 writes one byte through slot 0. -/
def demoWrite : Message := ⟨30, 0, .write 0 0 1 fun _ => 0x41⟩

theorem demoWrite_replies : ((demoSrv.handleAll [⟨1, 0, .creat demoPath⟩]).handle demoWrite).1.code = 1 := by
  decide +kernel

theorem demoWrite_served_through_record :
    ∃ f, ServedThrough demoSrv [⟨1, 0, .creat demoPath⟩] demoWrite 0 MFS_ACC_W f := by
  apply descriptor_acts_on_recorded_path
  · intro fd
    rw [fdGet, filter_eq_none_iff]
    intro f mem
    have same := List.eq_of_mem_replicate (List.mem_of_getElem? mem)
    rw [same]
    decide
  · rfl
  · rw [demoWrite_replies]
    decide

/-- Domain 1 creates a file and removes it, domain 2 creates a file with the same path. -/
def demoRecreate : List Message :=
  [⟨1, 0, .creat demoPath⟩, ⟨1, 0, .unlink demoPath⟩, ⟨2, 0, .creat demoPath⟩]

/-- The inode that the path of the demonstration names, and the size of inode `ino`. -/
def demoInode (s : Srv) : Option Nat := ((mfsResolve [[0x61]]).run s.fs).1.toOption
def demoSize (s : Srv) (ino : Nat) : Option Nat := ((fileNode ino).run s.fs).1.toOption.map (·.size)

/-- Slot 0 is handed out to domain 1 for inode 2.  After the path was removed and created again,
domain 30 writes through slot 0 into inode 3. -/
theorem descriptor_follows_path_and_serves_any_domain :
    (demoSrv.handle ⟨1, 0, .creat demoPath⟩).1.code = 0 ∧
      demoInode (demoSrv.handleAll [⟨1, 0, .creat demoPath⟩]) = some 2 ∧
      demoWrite.sender = 30 ∧
      ((demoSrv.handleAll demoRecreate).handle demoWrite).1.code = 1 ∧
      demoInode (demoSrv.handleAll demoRecreate) = some 3 ∧
      demoSize (demoSrv.handleAll demoRecreate) 3 = some 0 ∧
      demoSize ((demoSrv.handleAll demoRecreate).handle demoWrite).2 3 = some 1 := by
  decide +kernel

end MorionOS.Mfs
