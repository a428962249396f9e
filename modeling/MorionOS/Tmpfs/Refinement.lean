import MorionOS.Tmpfs.Tree

/-!
# The memory file system stands for a tree of byte arrays

The service refers to a file by the number of its node, and a node is free again as
soon as its path is removed, also while descriptors are open on it.  As long as no
file is made in such a node, the service answers as the tree does
(`tmpfs_refines_tree`).  Otherwise a descriptor can reach another file
(`stale_descriptor_reads_other_file`).
-/

namespace MorionOS.Tmpfs

open Function List Option Srv
open Vfs (Path SLASH)
open Kernel (U64_MAX)

/-! ## Normalised paths -/

/-- What `tmp_normalize` has written fits into a node. -/
def Valid (out : Path) : Prop := out ≠ [] ∧ out.length ≤ TMP_PATH_MAX

theorem normalizeStep_valid {out out' seg : Path} (valid : Valid out) (step : normalizeStep out seg = some out') :
    Valid out' := by
  rw [normalizeStep] at step
  split at step
  · cases step
    exact valid
  split at step
  · cases step
    rw [dropComponent]
    split
    · refine ⟨?_, (length_take_le' _ _).trans valid.2⟩
      rw [ne_eq, take_eq_nil_iff, not_or]
      exact ⟨by split <;> omega, valid.1⟩
    · exact valid
  · obtain ⟨comp, -, step⟩ := bind_eq_some_iff.mp step
    have appended : ∀ {out₁ : Path}, out₁ ≠ [] →
        (if TMP_PATH_MAX < out₁.length + comp.length then none else some (out₁ ++ comp)) = some out' → Valid out' := by
      intro out₁ some_ step
      split at step <;> cases step
      exact ⟨by simp [some_], by rw [length_append]; omega⟩
    split at step
    · split at step
      · cases step
      · exact appended (by simp) step
    · exact appended valid.1 step

theorem foldlM_normalizeStep_valid {segs : List Path} {out out' : Path} (valid : Valid out)
    (steps : segs.foldlM normalizeStep out = some out') : Valid out' := by
  induction segs generalizing out with
  | nil =>
    cases steps
    exact valid
  | cons seg segs ih =>
    obtain ⟨out₁, step, steps⟩ := bind_eq_some_iff.mp steps
    exact ih (normalizeStep_valid valid step) steps

variable {path canon : Path} {nd : TmpNode} {s s' : Srv} {i : Slot} {offset : Nat} {bytes : List UInt8}

theorem tmpNormalize_valid (normal : tmpNormalize path = some canon) : Valid canon := by
  rw [tmpNormalize] at normal
  split at normal
  · cases normal
  · exact foldlM_normalizeStep_valid ⟨by decide, by decide⟩ normal

/-! ## The tables -/

/-- No two nodes in use have the same path. -/
def Srv.Distinct (s : Srv) : Prop :=
  ∀ i j, (s.nodes i).used = true → (s.nodes j).used = true → (s.nodes i).path = (s.nodes j).path → i = j

section Tables

variable {s : Srv} {i : Slot}

theorem find_some (found : s.find path = some i) : (s.nodes i).used = true ∧ (s.nodes i).path = path := by
  have here := List.find?_some found
  simpa using here

theorem find_none (none : s.find path = none) (used : (s.nodes i).used = true) :
    (s.nodes i).path ≠ path := by
  have all := List.find?_eq_none.mp none i (List.mem_finRange i)
  simpa [used] using all

theorem find_eq_some (distinct : s.Distinct) {p : Path} :
    s.find p = some i ↔ (s.nodes i).used = true ∧ (s.nodes i).path = p := by
  refine ⟨find_some, fun ⟨used, here⟩ => ?_⟩
  rcases found : s.find p with _ | j
  · exact absurd here (find_none found used)
  · obtain ⟨used', there⟩ := find_some found
    rw [distinct i j used used' (here.trans there.symm)]

theorem unusedNode_some (found : s.unusedNode = some i) : (s.nodes i).used = false := by
  have here := List.find?_some found
  simpa using here

/-- Somebody can reach the node: by a path or through a descriptor. -/
def Srv.Held (s : Srv) (i : Slot) : Prop := (s.nodes i).used = true ∨ ∃ fd, s.fds fd = some i

theorem nodes_setNode (i j : Slot) (nd : TmpNode) : (s.setNode i nd).nodes j = if j = i then nd else s.nodes j :=
  update_apply ..

/-- The paths stay apart when a node gets a path that no other node has. -/
theorem distinct_setNode (distinct : s.Distinct)
    (new : nd.used = true → ∀ j, j ≠ i → (s.nodes j).used = true → (s.nodes j).path ≠ nd.path) :
    (s.setNode i nd).Distinct := by
  intro j k
  have old := distinct j k
  simp only [nodes_setNode]
  grind

theorem find_setNode (distinct : s.Distinct) (after : (s.setNode i nd).Distinct) (p : Path) :
    (s.setNode i nd).find p = if nd.used = true ∧ nd.path = p then some i else (s.find p).filter (· ≠ i) := by
  ext j
  have old := find_eq_some (i := j) (p := p) distinct
  have apart := after i j
  simp only [nodes_setNode] at apart
  rw [find_eq_some after, nodes_setNode]
  by_cases here : nd.used = true ∧ nd.path = p
  · grind
  · rw [if_neg here, filter_eq_some_iff, old]
    grind

end Tables

/-! ## The data area -/

/-- The object that a node stands for. -/
def Srv.view (s : Srv) (i : Slot) : Object where
  isDir := (s.nodes i).isDir
  size := (s.nodes i).size
  byte j := if j < (s.nodes i).size then s.data ((s.nodes i).dataOff + j) else 0

/-- The data regions of two nodes do not overlap. -/
def Apart (a b : TmpNode) : Prop := a.dataOff + a.cap ≤ b.dataOff ∨ b.dataOff + b.cap ≤ a.dataOff

/-- Every node has a region of its own in the part of the data area that was handed out, and the rest
of the area is still zero. -/
structure Layout (s : Srv) : Prop where
  whole : ∀ i, (s.nodes i).cap = (s.nodes i).size
  inside : ∀ i, (s.nodes i).dataOff + (s.nodes i).cap ≤ s.dataUsed
  apart : ∀ i j, i ≠ j → Apart (s.nodes i) (s.nodes j)
  zero : ∀ j, s.dataUsed ≤ j → s.data j = 0
  fits : s.dataUsed ≤ TMP_DATA_CAP

theorem view_congr (node : s'.nodes i = s.nodes i)
    (bytes : ∀ j < (s.nodes i).size, s'.data ((s.nodes i).dataOff + j) = s.data ((s.nodes i).dataOff + j)) :
    s'.view i = s.view i := by
  simp only [view, node, Object.mk.injEq, true_and]
  funext j
  split
  next small => exact bytes j small
  · rfl

/-- A node that keeps its region, or has none, keeps the layout. -/
theorem Layout.setNode (lay : Layout s) (i : Slot) (whole : nd.cap = nd.size)
    (region : nd.cap = 0 ∧ nd.dataOff = 0 ∨ nd.cap = (s.nodes i).cap ∧ nd.dataOff = (s.nodes i).dataOff) :
    Layout (s.setNode i nd) := by
  refine ⟨fun j => ?_, fun j => ?_, fun j k ne => ?_, lay.zero, lay.fits⟩
  · have old := lay.whole j
    simp only [nodes_setNode]
    grind
  · have old := lay.inside j
    change _ ≤ s.dataUsed
    simp only [nodes_setNode]
    grind
  · have old := lay.apart j k ne
    simp only [nodes_setNode]
    grind [Apart]

/-- Node `i` stands for the object `o` now, and nothing else has changed. -/
structure Stored (s : Srv) (i : Slot) (o : Object) (s' : Srv) : Prop where
  layout : Layout s'
  fds : s'.fds = s.fds
  used : ∀ j, (s'.nodes j).used = (s.nodes j).used
  paths : ∀ j, (s'.nodes j).path = (s.nodes j).path
  here : s'.view i = o
  others : ∀ j, j ≠ i → s'.view j = s.view j

theorem Stored.trans {s₁ s₂ : Srv} {o₁ o₂ : Object} (h₁ : Stored s i o₁ s₁) (h₂ : Stored s₁ i o₂ s₂) :
    Stored s i o₂ s₂ where
  layout := h₂.layout
  fds := h₂.fds.trans h₁.fds
  used j := (h₂.used j).trans (h₁.used j)
  paths j := (h₂.paths j).trans (h₁.paths j)
  here := h₂.here
  others j ne := (h₂.others j ne).trans (h₁.others j ne)

section Write

variable {s : Srv} (lay : Layout s) (i : Slot)
include lay

theorem stored_bytes (room : offset + bytes.length ≤ (s.nodes i).cap) :
    Stored s i ((s.view i).write offset bytes)
      { s with data := copyTo s.data ((s.nodes i).dataOff + offset) (bytes.getD · 0) bytes.length } := by
  have whole := lay.whole i
  have inside := lay.inside i
  refine ⟨⟨lay.whole, lay.inside, lay.apart, fun j beyond => ?_, lay.fits⟩, rfl, fun _ => rfl, fun _ => rfl, ?_,
    fun j ne => ?_⟩
  · have outside : ¬((s.nodes i).dataOff + offset ≤ j ∧ j < (s.nodes i).dataOff + offset + bytes.length) := by
      change s.dataUsed ≤ j at beyond
      omega
    simp only [copyTo]
    rw [if_neg outside]
    exact lay.zero j beyond
  · simp only [view, Object.write, Object.mk.injEq, true_and]
    refine ⟨by omega, funext fun j => ?_⟩
    simp only [copyTo]
    by_cases new : offset ≤ j ∧ j < offset + bytes.length
    · rw [if_pos new, if_pos (by omega), if_pos (by omega)]
      congr 1
      omega
    · rw [if_neg new]
      split
      · rw [if_neg (by omega)]
      · rfl
  · refine view_congr rfl fun k small => if_neg ?_
    have apart := lay.apart i j (Ne.symm ne)
    have whole' := lay.whole j
    rw [Apart] at apart
    omega

/-- A region at the end of the area that takes over the bytes of a node. -/
theorem stored_grown {last : Nat} (more : (s.nodes i).cap < last) (room : s.dataUsed + last ≤ TMP_DATA_CAP) :
    Stored s i { s.view i with size := last } (Srv.setNode { s with
      dataUsed := s.dataUsed + last
      data := copyTo s.data s.dataUsed (fun j => s.data ((s.nodes i).dataOff + j)) (s.nodes i).cap } i
        { s.nodes i with dataOff := s.dataUsed, cap := last, size := last }) := by
  have whole := lay.whole i
  refine ⟨⟨fun j => ?_, fun j => ?_, fun j k ne => ?_, fun j beyond => ?_, room⟩, rfl, fun j => ?_, fun j => ?_, ?_,
    fun j ne => ?_⟩
  · have old := lay.whole j
    simp only [nodes_setNode]
    grind
  · have old := lay.inside j
    change _ ≤ s.dataUsed + last
    simp only [nodes_setNode]
    grind
  · have old := lay.apart j k ne
    have oldj := lay.inside j
    have oldk := lay.inside k
    simp only [nodes_setNode]
    grind [Apart]
  · change s.dataUsed + last ≤ j at beyond
    simp only [setNode, copyTo]
    rw [if_neg (by omega)]
    exact lay.zero j (by omega)
  · rw [nodes_setNode]
    grind
  · rw [nodes_setNode]
    grind
  · simp only [view, setNode, update_self, Object.mk.injEq, true_and]
    funext j
    simp only [copyTo]
    by_cases old : j < (s.nodes i).size
    · rw [if_pos (by omega), if_pos (by omega), if_pos old, Nat.add_sub_cancel_left]
    · rw [if_neg old]
      split
      · rw [if_neg (by omega)]
        exact lay.zero _ (by omega)
      · rfl
  · refine view_congr (update_of_ne ne _ _) fun k small => ?_
    have old := lay.inside j
    have whole' := lay.whole j
    simp only [setNode, copyTo]
    rw [if_neg (by omega)]

end Write

/-! ## Service and tree -/

/-- The service stands for the tree, with `ob` as the object of a node that can be reached. -/
structure Represents (s : Srv) (t : Tree) (ob : Slot → Nat) : Prop where
  layout : Layout s
  distinct : s.Distinct
  named : ∀ canon, t.named canon = (s.find canon).map ob
  objects : ∀ i, s.Held i → t.object (ob i) = s.view i
  opened : ∀ fd, t.opened fd = (s.fds fd).map ob
  apart : ∀ i j, s.Held i → s.Held j → ob i = ob j → i = j
  old : ∀ i, s.Held i → ob i < t.next

section Represents

variable {s : Srv} {t : Tree} {ob : Slot → Nat} (rep : Represents s t ob)
include rep

/-- A path leads to a node as it leads to an object. -/
theorem Represents.find_path (path : Path) : ((tmpNormalize path).bind s.find).map ob = t.resolve path := by
  rw [Tree.resolve]
  rcases tmpNormalize path with _ | canon
  · rfl
  · exact (rep.named canon).symm

theorem Represents.fdNode_eq (fd : Nat) : t.behind fd = (s.fdNode fd).map ob := by
  rw [Tree.behind, fdNode]
  split
  · exact rep.opened _
  · rfl

theorem Represents.isDir (held : s.Held i) : (t.object (ob i)).isDir = (s.nodes i).isDir := by
  rw [rep.objects i held]
  rfl

theorem Represents.size (held : s.Held i) : (t.object (ob i)).size = (s.nodes i).size := by
  rw [rep.objects i held]
  rfl

theorem Represents.parentIsDir_eq (canon : Path) : t.parentIsDir canon = s.parentIsDir canon := by
  rw [parentIsDir, Tree.parentIsDir, rep.named]
  rcases found : s.find (tmpParent canon) with _ | i
  · rfl
  · exact rep.isDir (.inl (find_some found).1)

/-! ## What the tables do to the tree -/

/-- Descriptors that are open on nodes that could be reached before. -/
theorem Represents.setFds {fds : Fd → Option Slot} {opened : Fd → Option Nat}
    (same : ∀ fd, opened fd = (fds fd).map ob) (known : ∀ fd i, fds fd = some i → s.Held i) :
    Represents { s with fds := fds } { t with opened := opened } ob := by
  have held : ∀ i, Srv.Held { s with fds := fds } i → s.Held i := by
    rintro i (used | ⟨fd, here⟩)
    · exact .inl used
    · exact known fd i here
  exact ⟨⟨rep.layout.whole, rep.layout.inside, rep.layout.apart, rep.layout.zero, rep.layout.fits⟩, rep.distinct,
    rep.named, fun i h => rep.objects i (held i h), same, fun i j hi hj => rep.apart i j (held i hi) (held j hj),
    fun i h => rep.old i (held i h)⟩

theorem Represents.fdAlloc (used : s.Held i) :
    t.GivesFd (.of (s.fdAlloc i).1) ∧ Represents (s.fdAlloc i).2 (t.opens (ob i) (.of (s.fdAlloc i).1)) ob := by
  rw [Srv.fdAlloc]
  rcases found : (List.finRange TMP_MAX_FD).find? fun fd => (s.fds fd).isNone with _ | fd
  · rw [List.find?_eq_none] at found
    refine ⟨.inl ⟨rfl, fun fd => ?_⟩, rep.setFds (fun fd => ?_) fun fd j here => .inr ⟨fd, here⟩⟩
    · rw [rep.opened]
      simpa using found fd (List.mem_finRange fd)
    · have other : Reply.of U64_MAX ≠ .of fd := by
        intro same
        have value : U64_MAX = fd.val := congrArg Reply.value same
        have small : fd.val < 16 := fd.isLt
        rw [← value] at small
        exact absurd small (by decide)
      rw [if_neg other, rep.opened]
  · have free : s.fds fd = none := by simpa using List.find?_some found
    refine ⟨.inr ⟨fd, by rw [rep.opened, free]; rfl, rfl⟩, rep.setFds (fun fd' => ?_) fun fd' j here => ?_⟩
    · have same : Reply.of fd.val = .of fd'.val ↔ fd' = fd :=
        ⟨fun h => Fin.ext (congrArg Reply.value h).symm, fun h => by rw [h]⟩
      simp only [same, update_apply, rep.opened]
      split <;> rfl
    · rw [update_apply] at here
      split at here
      · exact some.inj here ▸ used
      · exact .inr ⟨fd', here⟩

theorem Represents.fdFree (fd : Nat) :
    (s.fdFree fd).1 = (if (t.behind fd).isSome then 1 else 0) ∧ Represents (s.fdFree fd).2 (t.close fd) ob := by
  have closed : (s.fdFree fd).2 = { s with fds := fun x => if x.val = fd then none else s.fds x } := by
    have kept : (∀ x : Fd, x.val = fd → s.fds x = none) →
        s = { s with fds := fun x => if x.val = fd then none else s.fds x } := by
      intro free
      have same : (fun x : Fd => if x.val = fd then none else s.fds x) = s.fds := by
        funext x
        split
        · exact (free x ‹_›).symm
        · rfl
      rw [same]
    rw [Srv.fdFree]
    split
    next inside =>
      split
      · have fds : update s.fds ⟨fd, inside⟩ none = fun x => if x.val = fd then none else s.fds x := by
          funext x
          simp [update_apply, Fin.ext_iff]
        rw [fds]
      next free =>
        refine kept fun x here => ?_
        obtain rfl : x = ⟨fd, inside⟩ := Fin.ext here
        simpa using free
    next outside => exact kept fun x here => absurd (here ▸ x.isLt) outside
  refine ⟨?_, ?_⟩
  · rw [Srv.fdFree, rep.fdNode_eq, Srv.fdNode, isSome_map]
    split
    · split <;> rfl
    · rfl
  · rw [closed]
    refine rep.setFds (fun x => ?_) fun x i here => ?_
    · rw [rep.opened]
      split <;> rfl
    · split at here
      · cases here
      · exact .inr ⟨x, here⟩

/-- `tmp_alloc_node` at a node that no descriptor is open on. -/
theorem Represents.allocNode (fresh : s.find canon = none) (unused : s.unusedNode = some i)
    (unopened : ∀ fd, s.fds fd ≠ some i) (isDir : Bool) :
    Represents (s.setNode i ⟨true, isDir, 0, 0, 0, canon⟩) (t.create canon isDir)
      (update ob i t.next) := by
  have free := unusedNode_some unused
  have distinct := distinct_setNode (i := i) rep.distinct
    (show (⟨true, isDir, 0, 0, 0, canon⟩ : TmpNode).used = true → _ from fun _ j _ used => find_none fresh used)
  have held : ∀ j, (s.setNode i ⟨true, isDir, 0, 0, 0, canon⟩).Held j → j ≠ i → s.Held j := by
    rintro j (used | opened) ne
    · rw [nodes_setNode, if_neg ne] at used
      exact .inl used
    · exact .inr opened
  have objects : ∀ j, s.Held j → j ≠ i → update ob i t.next j = ob j ∧ ob j < t.next :=
    fun j h ne => ⟨update_of_ne ne _ _, rep.old j h⟩
  refine ⟨rep.layout.setNode i rfl (.inl ⟨rfl, rfl⟩), distinct, fun p => ?_, fun j h => ?_, fun fd => ?_,
    fun j k hj hk same => ?_, fun j h => ?_⟩
  · change update t.named canon (some t.next) p = _
    rw [find_setNode rep.distinct distinct, update_apply]
    by_cases same : p = canon
    · rw [if_pos same, if_pos ⟨rfl, same.symm⟩, map_some, update_self]
    · rw [if_neg same, if_neg fun h => same h.2.symm, rep.named]
      rcases found : s.find p with _ | j
      · rfl
      · have ne : j ≠ i := by
          rintro rfl
          simp [find_some found] at free
        simp [ne]
  · change update t.object t.next (.empty isDir) (update ob i t.next j) = _
    by_cases same : j = i
    · subst same
      rw [update_self, update_self, view, nodes_setNode, if_pos rfl]
      rfl
    · have before := held j h same
      rw [(objects j before same).1, update_of_ne (rep.old j before).ne, rep.objects j before]
      exact (view_congr ((nodes_setNode i j _).trans (if_neg same)) fun _ _ => rfl).symm
  · change t.opened fd = (s.fds fd).map _
    rw [rep.opened]
    refine map_congr fun j opened => ?_
    have ne : j ≠ i := by
      rintro rfl
      exact unopened fd opened
    rw [update_of_ne ne]
  · have := held j hj
    have := rep.apart j k
    grind
  · change _ < t.next + 1
    grind

/-- Taking a path away from its node. -/
theorem Represents.release (found : s.find canon = some i) :
    Represents (s.release i) (t.remove canon) ob := by
  obtain ⟨used, path⟩ := find_some found
  have distinct : (s.release i).Distinct := distinct_setNode rep.distinct nofun
  have held : ∀ j, (s.release i).Held j → s.Held j := by
    rintro j (live | opened)
    · rw [Srv.release, nodes_setNode] at live
      split at live
      · cases live
      · exact .inl live
    · exact .inr opened
  have view : ∀ j, (s.release i).view j = s.view j := by
    intro j
    simp only [Srv.view, Srv.release, nodes_setNode]
    split
    next same =>
      rw [same]
      rfl
    · rfl
  refine ⟨rep.layout.setNode i (rep.layout.whole i) (.inr ⟨rfl, rfl⟩), distinct, fun p => ?_, fun j h => ?_,
    rep.opened, fun j k hj hk => rep.apart j k (held j hj) (held k hk), fun j h => rep.old j (held j h)⟩
  · change update t.named canon none p = _
    have finds : (s.release i).find p = (s.find p).filter (· ≠ i) :=
      (find_setNode rep.distinct distinct p).trans (if_neg fun h => Bool.false_ne_true h.1)
    rw [finds, update_apply]
    by_cases same : p = canon
    · simp [same, found]
    · rw [if_neg same, rep.named]
      rcases found' : s.find p with _ | j
      · rfl
      · have ne : j ≠ i := by
          rintro rfl
          exact same ((find_some found').2.symm.trans path)
        simp [ne]
  · rw [view]
    exact rep.objects j (held j h)

theorem Represents.stored (held : s.Held i) {o : Object} (stored : Stored s i o s') :
    Represents s' { t with object := update t.object (ob i) o } ob := by
  have heldIff : ∀ j, s'.Held j ↔ s.Held j := fun j => by rw [Srv.Held, Srv.Held, stored.used, stored.fds]
  refine ⟨stored.layout, ?_, fun canon => ?_, fun j h => ?_, fun fd => ?_, fun j k hj hk => ?_,
    fun j h => rep.old j ((heldIff j).mp h)⟩
  · simp only [Srv.Distinct, stored.used, stored.paths]
    exact rep.distinct
  · simp only [find, stored.used, stored.paths]
    exact rep.named canon
  · have before := (heldIff j).mp h
    by_cases same : j = i
    · rw [same]
      exact (update_self _ _ _).trans stored.here.symm
    · have other : ob j ≠ ob i := fun eq => same (rep.apart j i before held eq)
      exact (update_of_ne other _ _).trans ((rep.objects j before).trans (stored.others j same).symm)
  · rw [stored.fds]
    exact rep.opened fd
  · exact rep.apart j k ((heldIff j).mp hj) ((heldIff k).mp hk)

/-! ## Requests -/

/-- The condition under which the service does not mix up two files: a new file gets a node that no
descriptor is open on. -/
def Srv.Careful (s : Srv) : Request → Prop
  | .creat path | .mkdir path => ∀ canon, tmpNormalize path = some canon → s.find canon = none →
      ∀ i, s.unusedNode = some i → ∀ fd, s.fds fd ≠ some i
  | _ => True

/-- There is a node for another path. -/
def Srv.room (s : Srv) : Bool := s.unusedNode.isSome

/-- The tree permits the answer to a request, and the service stands for the tree after it. -/
def Follows (s : Srv) (t : Tree) (req : Request) : Prop :=
  t.Allows s.room req (s.handle req).1 ∧ ∃ ob, Represents (s.handle req).2 (t.after s.room req (s.handle req).1) ob

theorem Represents.find_cases (path : Path) :
    ((tmpNormalize path).bind s.find = none ∧ t.resolve path = none) ∨
      ∃ i canon, (tmpNormalize path).bind s.find = some i ∧ (s.nodes i).used = true ∧
        tmpNormalize path = some canon ∧ s.find canon = some i ∧ t.resolve path = some (ob i) := by
  have same := rep.find_path path
  rcases found : (tmpNormalize path).bind s.find with _ | i
  · rw [found] at same
    exact .inl ⟨rfl, same.symm⟩
  · rw [found] at same
    obtain ⟨canon, normal, here⟩ := bind_eq_some_iff.mp found
    exact .inr ⟨i, canon, rfl, (find_some here).1, normal, here, same.symm⟩

theorem Represents.openPath (path : Path) : Follows s t (.openPath path) := by
  rcases rep.find_cases path with ⟨found, absent⟩ | ⟨i, canon, found, used, -, -, leads⟩
  · simp only [Follows, Srv.handle, Srv.openPath, Tree.Allows, Tree.after, found, absent]
    exact ⟨trivial, ob, rep⟩
  · simp only [Follows, Srv.handle, Srv.openPath, Tree.Allows, Tree.after, found, leads]
    obtain ⟨gives, after⟩ := rep.fdAlloc (.inl used)
    exact ⟨gives, ob, after⟩

theorem Represents.stat (path : Path) : Follows s t (.stat path) := by
  rcases rep.find_cases path with ⟨found, absent⟩ | ⟨i, canon, found, used, -, -, leads⟩
  · simp only [Follows, Srv.handle, Srv.stat, Tree.Allows, found, absent]
    exact ⟨trivial, ob, rep⟩
  · simp only [Follows, Srv.handle, Srv.stat, Tree.Allows, found, leads]
    exact ⟨by rw [rep.size (.inl used), rep.isDir (.inl used)], ob, rep⟩

theorem Represents.close (fd : Nat) : Follows s t (.close fd) := by
  obtain ⟨value, after⟩ := rep.fdFree fd
  exact ⟨congrArg Reply.of value, ob, after⟩

theorem Represents.fd_cases (fd : Nat) :
    (s.fdNode fd = none ∧ t.behind fd = none) ∨
      ∃ i, s.fdNode fd = some i ∧ s.Held i ∧ t.behind fd = some (ob i) := by
  have same := rep.fdNode_eq fd
  rcases found : s.fdNode fd with _ | i
  · rw [found] at same
    exact .inl ⟨rfl, same⟩
  · rw [found] at same
    refine .inr ⟨i, rfl, .inr ?_, same⟩
    rw [fdNode] at found
    split at found
    · exact ⟨_, found⟩
    · cases found

theorem Represents.read (fd offset count : Nat) : Follows s t (.read fd offset count) := by
  refine ⟨?_, ob, rep⟩
  simp only [Tree.Allows, Tree.readReply, Srv.handle, Srv.read]
  split
  · rfl
  rcases rep.fd_cases fd with ⟨found, absent⟩ | ⟨i, found, held, leads⟩
  · simp [found, absent]
  · simp only [found, leads, rep.isDir held, rep.size held]
    split
    · rfl
    split
    next beyond => simp [Nat.sub_eq_zero_of_le beyond]
    · simp only [Reply.mk.injEq, Page.bytes.injEq, true_and, rep.objects i held]
      refine map_congr_left fun j mem => ?_
      have small := mem_range.mp mem
      simp only [Srv.view]
      rw [if_pos (by omega), Nat.add_assoc]

theorem Represents.readdir (fd : Nat) : Follows s t (.readdir fd) := by
  refine ⟨fun listed => ?_, ob, rep⟩
  simp only [Srv.handle, Srv.readdir] at listed
  rcases rep.fd_cases fd with ⟨found, -⟩ | ⟨i, found, held, leads⟩
  · simp [found] at listed
  · refine ⟨ob i, leads, ?_⟩
    rw [rep.isDir held]
    by_contra file
    simp [found, file] at listed

theorem Represents.write_refused {fd : Nat} (refused : s.write fd offset bytes = (.fail, s))
    (allowed : t.Allows s.room (.write fd offset bytes) .fail) :
    Follows s t (.write fd offset bytes) := by
  simp only [Follows, handle, refused]
  refine ⟨allowed, ob, ?_⟩
  simp only [Tree.after]
  split <;> exact rep

theorem Represents.write_accepted {fd : Nat} (held : s.Held i) (behind : t.behind fd = some (ob i))
    (file : ¬(U32_MAX < offset ∨ (s.nodes i).isDir = true))
    (done : s.write fd offset bytes = (.of bytes.length, s')) (short : bytes.length ≤ TMP_DATA_CAP)
    (stored : Stored s i ((s.view i).write offset bytes) s') : Follows s t (.write fd offset bytes) := by
  have accepted : Reply.of bytes.length ≠ .fail := by
    intro same
    have value : bytes.length = U64_MAX := congrArg Reply.value same
    rw [value] at short
    exact absurd short (by decide)
  simp only [Follows, handle, done, Tree.Allows, Tree.after, behind, if_neg accepted, rep.isDir held, if_neg file]
  refine ⟨.inl trivial, ob, ?_⟩
  rw [Tree.write, rep.objects i held]
  exact rep.stored held stored

theorem Represents.write (fd offset : Nat) (bytes : List UInt8) : Follows s t (.write fd offset bytes) := by
  rcases rep.fd_cases fd with ⟨found, absent⟩ | ⟨i, found, held, leads⟩
  · refine rep.write_refused ?_ ?_
    · simp [Srv.write, found]
    · simp [Tree.Allows, absent]
  by_cases refused : U32_MAX < offset ∨ (s.nodes i).isDir = true
  · refine rep.write_refused ?_ ?_
    · simp only [Srv.write, found]
      rcases refused with far | dir
      · rw [if_pos far]
      · rw [if_pos dir, ite_self]
    · simp [Tree.Allows, leads, rep.isDir held, if_pos refused]
  have near : ¬U32_MAX < offset := fun far => refused (.inl far)
  have file : ¬(s.nodes i).isDir = true := fun dir => refused (.inr dir)
  have whole := rep.layout.whole i
  by_cases more : (s.nodes i).cap < offset + bytes.length
  · by_cases room : TMP_DATA_CAP < s.dataUsed + (offset + bytes.length)
    · refine rep.write_refused ?_ ?_
      · simp [Srv.write, found, Srv.place, if_pos more, Srv.dataAlloc, if_pos room]
      · simp only [Tree.Allows, leads, rep.isDir held, if_neg refused, rep.size held]
        exact .inr ⟨trivial, by omega⟩
    · have grown := stored_grown rep.layout i more (by omega)
      have stored := grown.trans (stored_bytes grown.layout i (show offset + bytes.length ≤ _ by
        rw [nodes_setNode, if_pos rfl]))
      have object : ({ s.view i with size := offset + bytes.length } : Object).write offset bytes =
          (s.view i).write offset bytes := by
        simp only [Object.write, Srv.view, Object.mk.injEq, and_true, true_and]
        omega
      rw [grown.here, object] at stored
      refine rep.write_accepted held leads refused ?_ (by omega) stored
      simp [Srv.write, found, if_neg near, if_neg file, Srv.place, if_pos more, Srv.dataAlloc,
        if_neg room, Srv.setNode, show max (s.nodes i).size (offset + bytes.length) = offset + bytes.length by omega]
  · have stored := stored_bytes rep.layout i (show offset + bytes.length ≤ _ by omega)
    have fits := rep.layout.fits
    have inside := rep.layout.inside i
    refine rep.write_accepted held leads refused ?_ (by omega) stored
    simp only [Srv.write, found, if_neg near, if_neg file, Srv.place, if_neg more, Srv.setNode,
      show max (s.nodes i).size (offset + bytes.length) = (s.nodes i).size by omega]
    congr 2
    exact update_eq_self _ _

/-- The node that a new path gets. -/
theorem Represents.allocNode_cases (valid : Valid canon) (new : s.find canon = none) (isDir : Bool) :
    (s.parentIsDir canon = true ∧ s.allocNode canon isDir = none ∧ t.mayCreate s.room canon = false) ∨
      (s.parentIsDir canon = false ∧ t.mayCreate s.room canon = false) ∨
      ∃ i, s.parentIsDir canon = true ∧ s.unusedNode = some i ∧ t.mayCreate s.room canon = true ∧
        s.allocNode canon isDir = some (i, s.setNode i ⟨true, isDir, 0, 0, 0, canon⟩) := by
  have may : t.mayCreate s.room canon = (s.parentIsDir canon && s.room) := by
    rw [Tree.mayCreate, rep.named, new, rep.parentIsDir_eq]
    rfl
  have fits : ¬(canon = [] ∨ TMP_PATH_MAX < canon.length) := by
    rintro (none | long)
    · exact valid.1 none
    · exact absurd valid.2 (by omega)
  rw [Srv.allocNode, if_neg fits, may, Srv.room]
  rcases s.parentIsDir canon with _ | _ <;> rcases s.unusedNode with _ | i <;> simp

theorem Represents.creat (path : Path) (careful : s.Careful (.creat path)) : Follows s t (.creat path) := by
  rcases normal : tmpNormalize path with _ | canon
  · simp only [Follows, Srv.handle, Srv.creat, Tree.Allows, Tree.after, normal]
    exact ⟨trivial, ob, rep⟩
  have named := rep.named canon
  rcases found : s.find canon with _ | i
  · rw [found] at named
    simp only [Follows, Srv.handle, Srv.creat, Tree.Allows, Tree.after, normal, found, named]
    rcases rep.allocNode_cases (tmpNormalize_valid normal) found false with
      ⟨parent, full, refused⟩ | ⟨orphan, refused⟩ | ⟨i, parent, unused, may, alloc⟩
    · simp only [parent, full, refused, if_true]
      exact ⟨trivial, ob, rep⟩
    · simp only [orphan, refused, Bool.false_eq_true, if_false]
      exact ⟨trivial, ob, rep⟩
    · have created := rep.allocNode found unused (careful _ normal found i unused) false
      have used : ((s.setNode i ⟨true, false, 0, 0, 0, canon⟩).nodes i).used = true := by simp [Srv.setNode]
      obtain ⟨gives, after⟩ := created.fdAlloc (.inl used)
      rw [update_self] at after
      simp only [parent, alloc, may]
      exact ⟨gives, _, after⟩
  · rw [found] at named
    obtain ⟨used, -⟩ := find_some found
    simp only [Follows, Srv.handle, Srv.creat, Tree.Allows, Tree.after, normal, found, named, map_some,
      rep.isDir (.inl used)]
    split
    · exact ⟨rfl, ob, rep⟩
    · obtain ⟨gives, after⟩ := rep.fdAlloc (.inl used)
      exact ⟨gives, ob, after⟩

theorem Represents.mkdir (path : Path) (careful : s.Careful (.mkdir path)) : Follows s t (.mkdir path) := by
  rcases normal : tmpNormalize path with _ | canon
  · simp only [Follows, Srv.handle, Srv.mkdir, Tree.Allows, Tree.after, normal]
    exact ⟨rfl, ob, rep⟩
  simp only [Follows, Srv.handle, Srv.mkdir, Tree.Allows, Tree.after, normal, any_some]
  by_cases fresh : 1 < canon.length ∧ s.find canon = none
  · obtain ⟨long, found⟩ := fresh
    rcases rep.allocNode_cases (tmpNormalize_valid normal) found true with
      ⟨parent, full, refused⟩ | ⟨orphan, refused⟩ | ⟨i, parent, unused, may, alloc⟩
    · simp only [full, refused, ite_self, Bool.and_false, Bool.false_eq_true, if_false]
      exact ⟨trivial, ob, rep⟩
    · simp only [orphan, refused, Bool.and_false, Bool.false_eq_true, and_false, if_false]
      exact ⟨trivial, ob, rep⟩
    · have created := rep.allocNode found unused (careful _ normal found i unused) true
      simp only [found, long, parent, alloc, may, and_self, decide_true, Bool.and_self, if_true]
      exact ⟨trivial, _, created⟩
  · have refused : (decide (1 < canon.length) && t.mayCreate s.room canon) = false := by
      rw [Tree.mayCreate, rep.named]
      by_contra may
      simp only [Bool.not_eq_false, Bool.and_eq_true, decide_eq_true_eq, isNone_iff_eq_none,
        map_eq_none_iff] at may
      exact fresh ⟨may.1, may.2.1.1⟩
    rw [if_neg fun all => fresh ⟨all.1, all.2.1⟩, refused]
    exact ⟨rfl, ob, rep⟩

theorem Represents.unlink (path : Path) : Follows s t (.unlink path) := by
  rcases rep.find_cases path with ⟨found, absent⟩ | ⟨i, canon, -, used, normal, here, leads⟩
  · simp only [Follows, Srv.handle, Srv.unlink, Tree.Allows, Tree.after, found, absent]
    refine ⟨trivial, ob, ?_⟩
    split <;> exact rep
  · simp only [Follows, Srv.handle, Srv.unlink, Tree.Allows, Tree.after, leads, normal, bind_some, here,
      rep.isDir (.inl used)]
    split
    · exact ⟨rfl, ob, rep⟩
    · exact ⟨rfl, ob, rep.release here⟩

theorem Represents.dirEmpty_iff (canon : Path) : s.dirEmpty canon = true ↔ t.Bare canon := by
  simp only [dirEmpty, usedNodes, List.all_eq_true, List.mem_filter, List.mem_finRange, true_and,
    TmpNode.childOf, Tree.Bare, rep.named, ne_eq, map_eq_none_iff]
  constructor
  · intro empty p live other parent
    obtain ⟨i, found⟩ := ne_none_iff_exists'.mp live
    obtain ⟨used, rfl⟩ := find_some found
    simpa [other, parent] using empty i used
  · intro bare i used
    have found : s.find (s.nodes i).path = some i := (find_eq_some rep.distinct).mpr ⟨used, rfl⟩
    have apart := bare (s.nodes i).path (by rw [found]; nofun)
    simpa [or_iff_not_imp_left] using apart

theorem Represents.rmdir (path : Path) : Follows s t (.rmdir path) := by
  have kept : Represents s (t.after s.room (.rmdir path) .fail) ob := by
    simp only [Tree.after]
    split <;> exact rep
  rcases rep.find_cases path with ⟨found, -⟩ | ⟨i, canon, found, used, normal, here, -⟩
  · have fails : s.rmdir path = (.fail, s) := by
      rw [Srv.rmdir]
      rcases normal : tmpNormalize path with _ | canon
      · rfl
      · have gone : s.find canon = none := by simpa [normal] using found
        simp [gone]
    simp only [Follows, handle, fails]
    refine ⟨.inr ⟨rfl, fun canon id normal named => ?_⟩, ob, kept⟩
    rw [normal, bind_some] at found
    rw [rep.named, found] at named
    cases named
  · have named : t.named canon = some (ob i) := by rw [rep.named, here]; rfl
    have may : t.MayRemove canon (ob i) ↔
        1 < canon.length ∧ ((s.nodes i).isDir && s.dirEmpty canon) = true := by
      rw [Tree.MayRemove, rep.isDir (.inl used), Bool.and_eq_true, rep.dirEmpty_iff]
    by_cases removes : t.MayRemove canon (ob i)
    · have ⟨long, empty⟩ := may.mp removes
      have done : s.rmdir path = (.of 1, s.release i) := by simp only [Srv.rmdir, normal, here, if_pos long, if_pos empty]
      have accepted : Reply.of 1 ≠ .fail := by decide
      simp only [Follows, handle, done, Tree.after, normal]
      exact ⟨.inl ⟨rfl, canon, ob i, normal, named, removes⟩, ob, rep.release here⟩
    · have fails : s.rmdir path = (.fail, s) := by
        simp only [Srv.rmdir, normal, here]
        split
        · rw [if_neg fun empty => removes (may.mpr ⟨‹_›, empty⟩)]
        · rfl
      simp only [Follows, handle, fails]
      refine ⟨.inr ⟨rfl, fun canon' id normal' named' => ?_⟩, ob, kept⟩
      obtain rfl := some.inj (normal.symm.trans normal')
      obtain rfl := some.inj (named.symm.trans named')
      exact removes

/-- **One request.** -/
theorem Represents.follows {req : Request} (careful : s.Careful req) : Follows s t req := by
  cases req with
  | openPath path => exact rep.openPath path
  | read fd offset count => exact rep.read fd offset count
  | write fd offset bytes => exact rep.write fd offset bytes
  | readdir fd => exact rep.readdir fd
  | close fd => exact rep.close fd
  | creat path => exact rep.creat path careful
  | mkdir path => exact rep.mkdir path careful
  | unlink path => exact rep.unlink path
  | rmdir path => exact rep.rmdir path
  | stat path => exact rep.stat path
  | other => exact ⟨rfl, ob, rep⟩

end Represents

/-! ## Runs -/

/-- One request to the service and to the tree. -/
def step (x : Srv × Tree) (req : Request) : Srv × Tree :=
  ((x.1.handle req).2, x.2.after x.1.room req (x.1.handle req).1)

/-- The service after a sequence of requests of any clients, with the tree that the requests and their
replies describe. -/
def play (reqs : List Request) : Srv × Tree := reqs.foldl step (boot, bootTree)

/-- Every request of the sequence meets the condition. -/
def CarefulFrom (x : Srv × Tree) : List Request → Prop
  | [] => True
  | req :: reqs => x.1.Careful req ∧ CarefulFrom (step x req) reqs

theorem boot_represents : Represents boot bootTree fun _ => 0 := by
  have held : ∀ i, boot.Held i → i = rootSlot := by
    rintro i (used | ⟨fd, opened⟩)
    · by_contra other
      have empty : boot.nodes i = TMP_NODE_EMPTY := update_of_ne other _ fun _ => TMP_NODE_EMPTY
      rw [empty] at used
      cases used
    · cases opened
  have distinct : boot.Distinct := fun i j hi hj _ => (held i (.inl hi)).trans (held j (.inl hj)).symm
  refine ⟨⟨by decide, by decide, ?_, fun _ _ => rfl, by decide⟩, distinct, fun canon => ?_, fun i h => ?_,
    fun _ => rfl, fun i j hi hj _ => (held i hi).trans (held j hj).symm, fun _ _ => by decide⟩
  · intro i j _
    have zero : ∀ i, (boot.nodes i).dataOff = 0 ∧ (boot.nodes i).cap = 0 := by decide
    rw [Apart, (zero i).1, (zero i).2, (zero j).1]
    omega
  · simp only [bootTree]
    split
    next root =>
      rw [(find_eq_some distinct).mpr (show (boot.nodes rootSlot).used = true ∧ (boot.nodes rootSlot).path = canon
        from ⟨rfl, root.symm⟩)]
      rfl
    next other =>
      rcases found : boot.find canon with _ | i
      · rfl
      · obtain ⟨used, path⟩ := find_some found
        rw [held i (.inl used)] at path
        exact absurd path.symm other
  · rw [held i h]
    rfl

/-- A careful run leads to a state that stands for its tree. -/
theorem foldl_step_represents {x : Srv × Tree} (start : ∃ ob, Represents x.1 x.2 ob) {reqs : List Request}
    (careful : CarefulFrom x reqs) : ∃ ob, Represents (reqs.foldl step x).1 (reqs.foldl step x).2 ob := by
  induction reqs generalizing x with
  | nil => exact start
  | cons req reqs ih =>
    obtain ⟨ob, rep⟩ := start
    exact ih (rep.follows careful.1).2 careful.2

/-- **The memory file system refines a tree of byte arrays.**  After every sequence of requests that
meet the condition, with `ob` as the object of a node: a path leads to the node of the object that it
names, a descriptor to the node of the object that it was opened on, these nodes hold the bytes of
their objects in regions that do not overlap, and the answer to the next request is one that the tree
permits. -/
theorem tmpfs_refines_tree {reqs : List Request} (careful : CarefulFrom (boot, bootTree) reqs) :
    let s := (play reqs).1
    let t := (play reqs).2
    (∃ ob : Slot → Nat, (∀ i j, s.Held i → s.Held j → ob i = ob j → i = j) ∧
      (∀ path, ((tmpNormalize path).bind s.find).map ob = t.resolve path) ∧
      (∀ fd, (s.fds fd).map ob = t.opened fd) ∧ ∀ i, s.Held i → s.view i = t.object (ob i)) ∧
    (∀ i j, i ≠ j → Apart (s.nodes i) (s.nodes j)) ∧
    ∀ req, s.Careful req → t.Allows s.room req (s.handle req).1 := by
  obtain ⟨ob, rep⟩ := foldl_step_represents ⟨_, boot_represents⟩ careful
  refine ⟨⟨ob, rep.apart, rep.find_path, fun fd => (rep.opened fd).symm, fun i held => (rep.objects i held).symm⟩,
    rep.layout.apart, fun req next => (rep.follows next).1⟩

/-- `/A` and `/B`. -/
def pathA : Path := [SLASH, 0x41]
def pathB : Path := [SLASH, 0x42]

/-- A file with a gap. -/
theorem gap_reads_zero :
    ((play [.creat pathA, .write 0 2 [0x78]]).1.handle (.read 0 0 8)).1 = ⟨3, .bytes [0, 0, 0x78]⟩ ∧
      (play [.creat pathA, .write 0 2 [0x78]]).2.readReply 0 0 8 = ⟨3, .bytes [0, 0, 0x78]⟩ := by
  have careful : CarefulFrom (boot, bootTree) [.creat pathA, .write 0 2 [0x78]] :=
    ⟨fun _ _ _ _ _ _ => nofun, trivial, trivial⟩
  have answer := (tmpfs_refines_tree careful).2.2 (.read 0 0 8) trivial
  have value : ((play [.creat pathA, .write 0 2 [0x78]]).1.handle (.read 0 0 8)).1 = ⟨3, .bytes [0, 0, 0x78]⟩ := by
    decide +kernel
  exact ⟨value, answer.symm.trans value⟩

/-- A file is removed while a descriptor is open on it, and the next file that is made gets its node:
the descriptor reads the bytes of the new file. -/
theorem stale_descriptor_reads_other_file :
    ¬(play [.creat pathA, .unlink pathA, .creat pathB, .write 1 0 [0x78]]).2.Allows true (.read 0 0 1)
      ((play [.creat pathA, .unlink pathA, .creat pathB, .write 1 0 [0x78]]).1.handle (.read 0 0 1)).1 := by
  change ¬_ = _
  decide +kernel

end MorionOS.Tmpfs
