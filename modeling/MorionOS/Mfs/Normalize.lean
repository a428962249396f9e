import MorionOS.Mfs.Path

/-!
# Canonical paths

`mfs_normalize` on the bytes of its buffer.  A component is put behind the others with a slash, and
`..` goes back to the last slash, so that the buffer always holds the text of the components that
`mfsNormalize` has at that point (`normalizeBytes_eq`).  `normalize_canonical` says which path comes
out: that of the usual stack of components.
-/

namespace MorionOS.Mfs

open List

/-! ## The buffer -/

/-- The loop that looks for the slash before the last component. -/
def slashBefore (out : List UInt8) : Nat → Nat
  | 0 => 0
  | k + 1 => if out[k]? = some SLASH then k + 1 else slashBefore out k

/-- What `..` leaves in the buffer. -/
def popBytes (out : List UInt8) : List UInt8 :=
  let k := slashBefore out (out.length - 1)
  out.take (if 1 < k then k - 1 else 1)

/-- One round of `mfs_normalize` on what is in the buffer. -/
def pushBytes (out : List UInt8) (seg : Name) : Option (List UInt8) :=
  if seg = [DOT] then some out
  else if seg = [DOT, DOT] then some (if 1 < out.length then popBytes out else out)
  else if MFS_NAME_MAX < seg.length then none
  else
    let sep := if 1 < out.length then 1 else 0
    if MFS_PATH_MAX < out.length + sep + seg.length then none
    else some (out ++ replicate sep SLASH ++ seg)

/-- `mfs_normalize` into a buffer of `MFS_PATH_MAX` bytes. -/
def normalizeBytes (path : List UInt8) : Option (List UInt8) :=
  if path.head? = some SLASH then (segments path).foldlM pushBytes [SLASH] else none

/-! ## The stack of components -/

/-- The text of a canonical path. -/
def render (cs : Canon) : List UInt8 := if cs = [] then [SLASH] else cs.flatMap (SLASH :: ·)

def pile (acc : Canon) (seg : Name) : Canon :=
  if seg = [DOT] then acc else if seg = [DOT, DOT] then acc.dropLast else acc ++ [seg]

/-- The components that a path stands for. -/
def canonical (path : List UInt8) : Canon := (segments path).foldl pile []

/-- What can stand between slashes. -/
def IsName (seg : Name) : Prop := seg ≠ [] ∧ SLASH ∉ seg

/-- What stands for itself. -/
def IsComponent (seg : Name) : Prop := IsName seg ∧ seg ≠ [DOT] ∧ seg ≠ [DOT, DOT]

variable {cs : Canon} {seg : Name} {path : List UInt8}

theorem segments_append (a b : List UInt8) : segments (a ++ SLASH :: b) = segments a ++ segments b := by
  rw [segments, splitOn_append_cons_self, filter_append]
  rfl

theorem not_mem_splitOn (path : List UInt8) : ∀ part ∈ path.splitOn SLASH, SLASH ∉ part := by
  induction path with
  | nil => simp
  | cons b path ih =>
    rw [splitOn_cons_eq_if_modifyHead]
    split
    · exact forall_mem_cons.mpr ⟨not_mem_nil, ih⟩
    next other =>
      obtain ⟨part, parts, eq⟩ := exists_cons_of_ne_nil (splitOn_ne_nil SLASH path)
      rw [eq, forall_mem_cons] at ih
      rw [eq, modifyHead_cons, forall_mem_cons, mem_cons, not_or]
      exact ⟨⟨fun same => other (beq_iff_eq.mpr same.symm), ih.1⟩, ih.2⟩

theorem isName_of_mem_segments (member : seg ∈ segments path) : IsName seg := by
  obtain ⟨part, nonempty⟩ := mem_filter.mp member
  exact ⟨of_decide_eq_true nonempty, not_mem_splitOn path seg part⟩

theorem segments_render (names : ∀ c ∈ cs, IsName c) : segments (render cs) = cs := by
  have text : segments (cs.flatMap (SLASH :: ·)) = cs := by
    induction cs using reverseRecOn with
    | nil => rfl
    | append_singleton cs c ih =>
      rw [forall_mem_append, forall_mem_singleton] at names
      rw [flatMap_append, flatMap_singleton, segments_append, ih names.1, segments, splitOn_eq_singleton names.2.2]
      simp [names.2.1]
  rw [render]
  split
  next root => exact root ▸ rfl
  · exact text

theorem length_render : (render cs).length = canonLen cs := by
  rw [render, canonLen]
  split
  · rfl
  · simp [bytesLen, Nat.add_comm]

theorem one_lt_canonLen (names : ∀ c ∈ cs, IsName c) : 1 < canonLen cs ↔ cs ≠ [] := by
  cases cs with
  | nil => simp [canonLen]
  | cons c cs =>
    have := length_pos_iff.mpr (names c mem_cons_self).1
    simp [canonLen, bytesLen]
    omega

theorem render_push (cs : Canon) (seg : Name) :
    render (cs ++ [seg]) = render cs ++ replicate (if cs = [] then 0 else 1) SLASH ++ seg := by
  by_cases root : cs = [] <;> simp [render, root]

/-! ## Rounds -/

/-- Between the last slash and the end there is no other one. -/
theorem slashBefore_last {a b : List UInt8} (clean : SLASH ∉ b) {j : Nat} (inside : j < b.length) :
    slashBefore (a ++ SLASH :: b) (a.length + j + 1) = a.length + 1 := by
  induction j with
  | zero => simp [slashBefore]
  | succ j ih =>
    have here : (a ++ SLASH :: b)[a.length + (j + 1)]? = some b[j] := by
      rw [getElem?_append_right (by omega), Nat.add_sub_cancel_left, getElem?_cons_succ, getElem?_eq_getElem]
    have other : b[j] ≠ SLASH := fun same => clean (same ▸ getElem_mem _)
    rw [slashBefore, here, if_neg (by simpa using other)]
    exact ih (by omega)

theorem popBytes_render (name : IsName seg) : popBytes (render (cs ++ [seg])) = render cs := by
  obtain ⟨j, length⟩ := Nat.exists_eq_succ_of_ne_zero (length_pos_iff.mpr name.1).ne'
  have text : render (cs ++ [seg]) = cs.flatMap (SLASH :: ·) ++ SLASH :: seg := by simp [render]
  have start : (render (cs ++ [seg])).length - 1 = (cs.flatMap (SLASH :: ·)).length + j + 1 := by
    rw [text, length_append, length_cons, length]
    omega
  rw [popBytes, start, text, slashBefore_last name.2 (by omega)]
  cases cs with
  | nil => rfl
  | cons c cs => exact take_left' (by simp)

/-- A round on the text does what it does on the components. -/
theorem pushBytes_render (names : ∀ c ∈ cs, IsName c) :
    pushBytes (render cs) seg = (pushSeg cs seg).map render := by
  simp only [pushBytes, pushSeg, length_render, one_lt_canonLen names, apply_ite (Option.map render),
    Option.map_some, render_push]
  rcases eq_nil_or_concat' cs with rfl | ⟨cs, last, rfl⟩
  · rfl
  · simp [popBytes_render (names last (by simp))]

/-- A component whose path fits is taken. -/
theorem pushSeg_of_fits (fits : (render (pile cs seg)).length ≤ MFS_PATH_MAX) :
    pushSeg cs seg = some (pile cs seg) := by
  rw [pushSeg]
  rw [pile] at fits ⊢
  split
  · rfl
  split
  · rfl
  · simp only [*, if_false, render_push, length_append, length_render, length_replicate] at fits
    rw [if_neg (by simp only [MFS_NAME_MAX, MFS_PATH_MAX] at *; omega), if_neg (by omega)]

theorem pile_components (components : ∀ c ∈ cs, IsComponent c) (name : IsName seg) :
    ∀ c ∈ pile cs seg, IsComponent c := by
  rw [pile]
  split
  · exact components
  split
  · exact fun c member => components c (mem_of_mem_dropLast member)
  · exact forall_mem_append.mpr ⟨components, by simp [IsComponent, *]⟩

theorem pushSeg_some {cs' : Canon} (pushed : pushSeg cs seg = some cs') : cs' = pile cs seg := by
  rw [pushSeg] at pushed
  rw [pile]
  split_ifs at pushed ⊢ <;> exact (Option.some.inj pushed).symm

/-- The rounds on the text do what they do on the components. -/
theorem foldlM_pushBytes {segs : List Name} (components : ∀ c ∈ cs, IsComponent c)
    (names : ∀ seg ∈ segs, IsName seg) : segs.foldlM pushBytes (render cs) = (pushSegs cs segs).map render := by
  induction segs generalizing cs with
  | nil => rfl
  | cons seg segs ih =>
    rw [forall_mem_cons] at names
    rw [foldlM_cons, pushBytes_render fun c member => (components c member).1, pushSegs, foldlM_cons]
    rcases pushed : pushSeg cs seg with _ | cs'
    · rfl
    · obtain rfl := pushSeg_some pushed
      exact ih (pile_components components names.1) names.2

/-- The buffer holds the text of the components that the model works with. -/
theorem normalizeBytes_eq (path : List UInt8) : normalizeBytes path = (mfsNormalize path).map render := by
  rw [normalizeBytes, mfsNormalize]
  split
  · exact @foldlM_pushBytes [] _ nofun fun _ => isName_of_mem_segments
  · rfl

/-- The rounds follow the stack as long as it fits. -/
theorem pushSegs_of_fits {segs : List Name}
    (fits : ∀ i, (render ((segs.take i).foldl pile cs)).length ≤ MFS_PATH_MAX) :
    pushSegs cs segs = some (segs.foldl pile cs) := by
  induction segs generalizing cs with
  | nil => rfl
  | cons seg segs ih =>
    rw [pushSegs, foldlM_cons, pushSeg_of_fits (fits 1)]
    exact ih fun i => fits (i + 1)

theorem foldl_pile_components {segs : List Name} (components : ∀ c ∈ cs, IsComponent c)
    (names : ∀ seg ∈ segs, IsName seg) : ∀ c ∈ segs.foldl pile cs, IsComponent c := by
  induction segs generalizing cs with
  | nil => exact components
  | cons seg segs ih =>
    rw [forall_mem_cons] at names
    exact ih (pile_components components names.1) names.2

/-- Components are piled up as they are. -/
theorem foldl_pile {acc : Canon} (components : ∀ c ∈ cs, IsComponent c) : cs.foldl pile acc = acc ++ cs := by
  induction cs generalizing acc with
  | nil => simp
  | cons c cs ih =>
    rw [forall_mem_cons] at components
    rw [foldl_cons, ih components.2, pile, if_neg components.1.2.1, if_neg components.1.2.2, append_assoc]
    rfl

theorem length_render_le (cs more : Canon) : (render cs).length ≤ (render (cs ++ more)).length := by
  cases cs with
  | nil => cases more <;> simp [render]
  | cons c cs => simp [render]

theorem head_render (cs : Canon) : (render cs).head? = some SLASH := by
  cases cs <;> rfl

/-- **Paths become canonical.**  A path that is not absolute is refused.  An absolute path whose stack of
components always fits the buffer becomes the text of that stack, in which every component stands for itself,
and that text stays as it is. -/
theorem normalize_canonical (path : List UInt8) :
    (path.head? ≠ some SLASH → normalizeBytes path = none) ∧
    (path.head? = some SLASH →
      (∀ i, (render (((segments path).take i).foldl pile [])).length ≤ MFS_PATH_MAX) →
      normalizeBytes path = some (render (canonical path)) ∧
      (∀ c ∈ canonical path, IsComponent c) ∧
      normalizeBytes (render (canonical path)) = some (render (canonical path))) := by
  refine ⟨fun relative => if_neg relative, fun absolute fits => ?_⟩
  have components : ∀ c ∈ canonical path, IsComponent c :=
    foldl_pile_components nofun fun _ => isName_of_mem_segments
  have stays (i : Nat) : ((canonical path).take i).foldl pile [] = (canonical path).take i :=
    foldl_pile fun c member => components c (mem_of_mem_take member)
  have short : (render (canonical path)).length ≤ MFS_PATH_MAX := by
    rw [canonical, ← take_length (l := segments path)]
    exact fits _
  refine ⟨?_, components, ?_⟩
  · rw [normalizeBytes_eq, mfsNormalize, if_pos absolute, pushSegs_of_fits fits]
    rfl
  · rw [normalizeBytes_eq, mfsNormalize, if_pos (head_render _),
      segments_render fun c member => (components c member).1, pushSegs_of_fits fun i => ?_,
      foldl_pile components]
    · rfl
    · rw [stays]
      have := length_render_le ((canonical path).take i) ((canonical path).drop i)
      rw [take_append_drop] at this
      exact this.trans short

/-- Dots and slashes: `/a/./b//../c`. -/
theorem demo_path_canonical :
    normalizeBytes [0x2F, 0x61, 0x2F, 0x2E, 0x2F, 0x62, 0x2F, 0x2F, 0x2E, 0x2E, 0x2F, 0x63] =
      some [0x2F, 0x61, 0x2F, 0x63] := by
  have segs : segments [0x2F, 0x61, 0x2F, 0x2E, 0x2F, 0x62, 0x2F, 0x2F, 0x2E, 0x2E, 0x2F, 0x63] =
    [[0x61], [0x2E], [0x62], [0x2E, 0x2E], [0x63]] := by decide
  refine ((normalize_canonical _).2 rfl fun i => ?_).1.trans ?_
  · rw [segs]
    rcases i with _ | _ | _ | _ | _ | i <;> simp <;> decide
  · decide

/-- A path that is not absolute is refused, however short. -/
theorem relative_path_refused :
    normalizeBytes [0x61] = none ∧ ∀ i, (render (((segments [0x61]).take i).foldl pile [])).length ≤ MFS_PATH_MAX := by
  have segs : segments [0x61] = [[0x61]] := by decide
  refine ⟨rfl, fun i => ?_⟩
  rw [segs]
  cases i <;> simp <;> decide

end MorionOS.Mfs
