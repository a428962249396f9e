import MorionOS.Vfs.Paths

/-!
# Which path a service works on

A call is meant for the service and the volume of the longest mount point of its path,
with the rest of the path (`Call.intended`).  `call_acts_on_given_path` says when the
service's operation is the intended one (`Call.Carried`): the reply of the mount service
must have room for the service and the volume, a path must have no zero byte, and one
that is carried in a payload or as a page string must fit into the payload, while pairs of
paths that are too long are refused.  A longer name is cut and taken for another
(`long_name_unlinks_another`).
-/

namespace MorionOS.Vfs

open List Option Call
open Kernel (U64_MAX)

/-! ## What is left of a path on its way -/

/-- A path up to its first zero byte or the end of a payload. -/
def cut (path : Path) : Path := (path.take (PAYLOAD_LEN - 1)).takeWhile (· != 0)

theorem takeWhile_append_zero (xs zs : List UInt8) :
    (xs ++ 0 :: zs).takeWhile (· != 0) = xs.takeWhile (· != 0) := by
  induction xs with
  | nil => rfl
  | cons x xs ih =>
    rw [cons_append, takeWhile_cons, takeWhile_cons, ih]

theorem take_min_length (path : Path) (n : Nat) : path.take (min path.length n) = path.take n := by
  rcases Nat.le_total path.length n with short | long
  · rw [Nat.min_eq_left short, take_length, take_of_length_le short]
  · rw [Nat.min_eq_right long]

theorem payloadPath_pathPayload (path : Path) : payloadPath (pathPayload path) = cut path := by
  have zeros : ∃ k, PAYLOAD_LEN - min path.length (PAYLOAD_LEN - 1) = k + 1 :=
    ⟨PAYLOAD_LEN - 1 - min path.length (PAYLOAD_LEN - 1), by unfold PAYLOAD_LEN; omega⟩
  obtain ⟨k, zeros⟩ := zeros
  have shape : pathPayload path = path.take (PAYLOAD_LEN - 1) ++ 0 :: List.replicate k 0 := by
    rw [pathPayload, zeros, take_min_length, replicate_succ]
  have hasZero : ∃ x ∈ pathPayload path, (x == 0) = true := ⟨0, by simp [shape], rfl⟩
  rw [payloadPath, List.findIdx?_eq_some_of_exists hasZero, getD_some, cut,
    ← takeWhile_append_zero _ (List.replicate k 0), ← shape, takeWhile_eq_take_findIdx_not]
  simp [bne]

theorem pagePath_writeCstr (path : Path) (page : List UInt8) :
    pagePath (writeCstr path page) = cut path := by
  rw [pagePath, writeCstr, take_min_length, cut, take_append, take_take, Nat.min_self]
  rcases Nat.lt_or_ge path.length (PAYLOAD_LEN - 1) with short | long
  · obtain ⟨k, room⟩ : ∃ k, PAYLOAD_LEN - 1 - (path.take (PAYLOAD_LEN - 1)).length = k + 1 :=
      ⟨PAYLOAD_LEN - 1 - path.length - 1, by rw [length_take]; omega⟩
    rw [room, take_succ_cons]
    exact takeWhile_append_zero _ _
  · have full : PAYLOAD_LEN - 1 - (path.take (PAYLOAD_LEN - 1)).length = 0 := by
      rw [length_take]
      omega
    rw [full, take_zero, append_nil]

variable {path : Path} {table : MountTable} {r : Route}

theorem cut_of_clean (clean : 0 ∉ path) : cut path = path.take (PAYLOAD_LEN - 1) := by
  refine takeWhile_eq_self_iff.mpr fun x member => ?_
  have notZero : x ≠ 0 := fun zero => clean (zero ▸ mem_of_mem_take member)
  simpa using notZero

theorem cut_eq_self_iff (clean : 0 ∉ path) : cut path = path ↔ path.length < PAYLOAD_LEN := by
  rw [cut_of_clean clean, PAYLOAD_LEN]
  refine ⟨fun same => ?_, fun short => take_of_length_le (by omega)⟩
  have short := congrArg length same
  rw [length_take] at short
  omega

/-! ## The mount table -/

/-- Mount points are so short that the lookup of a longer path sees them whole. -/
theorem mountPrefixMatch_cut (clean : 0 ∉ path) (e : MountEntry) :
    mountPrefixMatch (cut path) e.point = mountPrefixMatch path e.point := by
  have short : e.point.length < 24 := e.short
  rw [cut_of_clean clean]
  rcases Nat.lt_or_ge path.length (PAYLOAD_LEN - 1) with fits | long
  · rw [take_of_length_le (by omega)]
  · unfold PAYLOAD_LEN at long ⊢
    have head : (path.take (96 - 1)).head? = path.head? := by
      cases path with
      | nil | cons => rfl
    have len : (path.take (96 - 1)).length = 95 := by
      rw [length_take]
      omega
    have start : (path.take (96 - 1)).take e.point.length = path.take e.point.length := by
      rw [take_take, Nat.min_eq_left (by omega)]
    have next : (path.take (96 - 1))[e.point.length]? = path[e.point.length]? := by
      rw [List.getElem?_take, if_pos (by omega)]
    have inside : ¬ path.length < e.point.length ∧ ¬ path.length = e.point.length := by omega
    have inside' : ¬ 95 < e.point.length ∧ ¬ 95 = e.point.length := by omega
    simp [mountPrefixMatch, head, len, start, next, inside, inside']

theorem mountResolve_cut (clean : 0 ∉ path) (table : MountTable) :
    mountResolve table (cut path) = mountResolve table path := by
  unfold mountResolve
  congr 1
  funext best entry
  cases entry with
  | none => rfl
  | some e => simp [longer, mountPrefixMatch_cut clean e]

/-- What holds of every answer of `mount_resolve`: the mount point is a part of the path, and there is a
service behind it. -/
structure Route.Valid (r : Route) (path : Path) : Prop where
  real : r.domain ≠ 0
  pos : 0 < r.len
  short : r.len < MOUNT_PREFIX_MAX
  inside : r.len ≤ path.length

theorem mountPrefixMatch_valid {e : MountEntry} {len : Nat} (found : mountPrefixMatch path e.point = some len) :
    Route.Valid ⟨e.domain, e.volEnc, len⟩ path := by
  unfold mountPrefixMatch at found
  split_ifs at found with relative root absent boundary
  · cases found
    have head : path.head? = some SLASH := not_not.mp relative
    obtain ⟨rest, rfl⟩ : ∃ rest, path = SLASH :: rest := List.head?_eq_some_iff.mp head
    exact ⟨e.real, Nat.one_pos, (by decide : 1 < MOUNT_PREFIX_MAX), by simp⟩
  · cases found
    push Not at absent
    have nonempty : e.point ≠ [] := fun empty => by
      have absolute := e.absolute
      rw [empty] at absolute
      cases absolute
    exact ⟨e.real, length_pos_iff.mpr nonempty, e.short, absent.1⟩

/-- The answer of `mount_resolve` is one of the entries that match. -/
theorem mountResolve_of_match {P : Route → Prop}
    (each : ∀ e len, some e ∈ table → mountPrefixMatch path e.point = some len →
      P ⟨e.domain, e.volEnc, len⟩) (found : mountResolve table path = some r) : P r := by
  have keep : ∀ (entries : MountTable) (best : Option Route),
      (∀ e, some e ∈ entries → some e ∈ table) → (∀ r, best = some r → P r) →
      ∀ r, entries.foldl (longer path) best = some r → P r := by
    intro entries
    induction entries with
    | nil => exact fun best _ before => before
    | cons entry entries ih =>
      intro best inTable before
      refine ih _ (fun e member => inTable e (mem_cons_of_mem _ member)) fun r next => ?_
      unfold longer at next
      split at next
      · exact before r next
      next e =>
        split at next
        · exact before r next
        next len isMatch =>
          split_ifs at next
          · cases next
            exact each e len (inTable e mem_cons_self) isMatch
          · exact before r next
  exact keep table none (fun _ member => member) (fun _ none => by cases none) r found

theorem mountResolve_valid (found : mountResolve table path = some r) : r.Valid path :=
  mountResolve_of_match (P := fun r => r.Valid path)
    (fun _ _ _ isMatch => mountPrefixMatch_valid isMatch) found

/-! ## The lookup -/

theorem and_byte (n : Nat) : n &&& 0xFF = n % 2 ^ 8 := Nat.and_two_pow_sub_one_eq_mod n 8

theorem and_word (n : Nat) : n &&& 0xFFFFFFFF = n % 2 ^ 32 := Nat.and_two_pow_sub_one_eq_mod n 32

/-- The reply has a byte for the service and one for the volume. -/
def Route.Coded (r : Route) : Prop := r.domain < 256 ∧ r.volEnc < 256

theorem mountReply_eq (coded : r.Coded) (short : r.len < MOUNT_PREFIX_MAX) :
    mountReply (some r) = (r.volEnc * 256 + r.domain) * 2 ^ 32 + r.len := by
  obtain ⟨isDomain, isVolume⟩ := coded
  unfold MOUNT_PREFIX_MAX at short
  have domain : r.domain <<< 32 < 2 ^ 40 := by
    rw [Nat.shiftLeft_eq]
    omega
  have both : r.volEnc <<< 40 ||| r.domain <<< 32 = (r.volEnc * 256 + r.domain) <<< 32 := by
    rw [← Nat.shiftLeft_add_eq_or_of_lt domain]
    simp only [Nat.shiftLeft_eq]
    omega
  rw [mountReply, Nat.mod_eq_of_lt (by rw [Nat.shiftLeft_eq]; omega), Nat.mod_eq_of_lt (by omega), both,
    ← Nat.shiftLeft_add_eq_or_of_lt (by omega), Nat.shiftLeft_eq]

/-- The lookup of a path without zero byte leads where the mount table says. -/
theorem mountLookup_eq (clean : 0 ∉ path) (coded : ∀ r, mountResolve table path = some r → r.Coded) :
    mountLookup table path = mountResolve table path := by
  unfold mountLookup
  rw [payloadPath_pathPayload, mountResolve_cut clean]
  rcases found : mountResolve table path with _ | r
  · rfl
  · obtain ⟨real, pos, short, inside⟩ := mountResolve_valid found
    obtain ⟨isDomain, isVolume⟩ := coded r found
    have isLen : r.len < 24 := short
    have reply : normalizeReply (mountReply (some r)) = (r.volEnc * 256 + r.domain) * 2 ^ 32 + r.len := by
      rw [mountReply_eq ⟨isDomain, isVolume⟩ short, normalizeReply, Nat.shiftRight_eq_div_pow]
      exact if_neg (by omega)
    simp only [reply, and_byte, and_word, Nat.shiftRight_eq_div_pow, U64_MAX]
    rw [if_neg (by omega), if_neg (by omega)]
    congr 2 <;> omega

theorem route_eq (clean : 0 ∉ path) (coded : ∀ r, mountResolve table path = some r → r.Coded) :
    route table path = (mountResolve table path).map fun r => (r, below r.len path) := by
  unfold route
  rw [mountLookup_eq clean coded]
  rcases found : mountResolve table path with _ | r
  · rfl
  · dsimp only
    rw [if_neg (Nat.not_lt.mpr (mountResolve_valid found).inside)]
    rfl

theorem unpack_withVol {tag volEnc : Nat} (isTag : tag < 2 ^ 32) (isVolume : volEnc < 256) :
    tagVol (withVol tag volEnc) = volEnc ∧ tagBody (withVol tag volEnc) = tag := by
  have packed : withVol tag volEnc = volEnc * 2 ^ 32 + tag := by
    rw [withVol, and_byte, Nat.mod_eq_of_lt (b := 2 ^ 8) isVolume, Nat.or_comm,
      ← Nat.shiftLeft_add_eq_or_of_lt isTag, Nat.shiftLeft_eq]
  rw [tagVol, tagBody, and_byte, and_word, packed, Nat.shiftRight_eq_div_pow]
  omega

/-! ## The operation of a service -/

/-- What a call is meant to make a service do: the operation on the rest of the path, at
the service and the volume of the longest mount point of the whole path. -/
def Call.intended (table : MountTable) : Call → Option Operation
  | .payload op path | .page op path _ => do
      let r ← mountResolve table path
      some ⟨r.domain, r.volEnc, op.tag, [below r.len path]⟩
  | .pair op src dst _ => do
      let s ← mountResolve table src
      let d ← mountResolve table dst
      if s.domain = d.domain ∧ s.volEnc = d.volEnc then
        some ⟨s.domain, s.volEnc, op.tag, [below s.len src, below d.len dst]⟩
      else none

/-- The call fails, or the service does what was meant. -/
def Call.ActsOnGivenPath (table : MountTable) (page : List UInt8) (call : Call) : Prop :=
  ∀ operation, call.operation table page = some operation → call.intended table = some operation

/-! ## When the operation is the intended one -/

/-- No path of the call has a zero byte. -/
def Call.Clean : Call → Prop
  | .payload _ path | .page _ path _ => 0 ∉ path
  | .pair _ src dst _ => 0 ∉ src ∧ 0 ∉ dst

/-- The mount points of the call's paths have codes of one byte. -/
def Call.Coded (table : MountTable) : Call → Prop
  | .payload _ path | .page _ path _ => ∀ r, mountResolve table path = some r → r.Coded
  | .pair _ src dst _ => (∀ r, mountResolve table src = some r → r.Coded) ∧
      ∀ r, mountResolve table dst = some r → r.Coded

/-- What is left of a single path fits into a payload; of two paths that the service does not refuse the
lengths are as they were told. -/
def Call.Fits (table : MountTable) : Call → Prop
  | .payload _ path | .page _ path _ => ∀ r, mountResolve table path = some r →
      (below r.len path).length < PAYLOAD_LEN
  | .pair _ src dst buf => ∀ s d, mountResolve table src = some s → mountResolve table dst = some d →
      s.domain = d.domain → s.volEnc = d.volEnc → buf ≠ 0 →
      (below s.len src).length % 2 ^ 32 + 1 + (below d.len dst).length % 2 ^ 32 ≤ PAYLOAD_LEN →
      (below s.len src).length < 2 ^ 32 ∧ (below d.len dst).length < 2 ^ 32

theorem zero_notMem_below (clean : 0 ∉ path) (len : Nat) : 0 ∉ below len path := by
  unfold below
  split_ifs
  · exact clean
  · simp [SLASH]
  · exact fun zero => clean (mem_of_mem_drop zero)

/-- A call with one path whose rest is cut on its way. -/
theorem acts_single {tag : Nat} (clean : 0 ∉ path) :
    (∀ o, (mountResolve table path).map (fun r =>
        (⟨r.domain, r.volEnc, tag, [cut (below r.len path)]⟩ : Operation)) = some o →
      (mountResolve table path).bind (fun r =>
        some ⟨r.domain, r.volEnc, tag, [below r.len path]⟩) = some o) ↔
      ∀ r, mountResolve table path = some r → (below r.len path).length < PAYLOAD_LEN := by
  rcases mountResolve table path with _ | r
  · simp
  · have whole := cut_eq_self_iff (zero_notMem_below clean r.len)
    simp [← whole, eq_comm]

theorem withTwoPaths_writeTwoPaths {a b : Path} {aLen bLen buf : Nat} (page : List UInt8)
    (isA : aLen ≤ a.length) (fits : aLen + 1 + bLen ≤ PAYLOAD_LEN) (mapped : buf ≠ 0) :
    withTwoPaths aLen bLen buf (writeTwoPaths a b page) =
      some (a.take aLen, ((writeTwoPaths a b page).drop (aLen + 1)).take bLen) := by
  rw [withTwoPaths, if_neg (by omega)]
  rw [writeTwoPaths, append_assoc, take_append_of_le_length isA]

theorem second_of_writeTwoPaths (a b : Path) (page : List UInt8) :
    ((writeTwoPaths a b page).drop (a.length + 1)).take b.length = b := by
  rw [writeTwoPaths, append_assoc, drop_append, drop_eq_nil_of_le (by omega),
    Nat.add_sub_cancel_left, nil_append, cons_append, drop_succ_cons, drop_zero,
    take_left]

/-- A pair of paths arrives, unless it is refused, just when its lengths fit their fields. -/
theorem pair_arrives_iff {a b : Path} {buf : Nat} (page : List UInt8) :
    (∀ paths, withTwoPaths (a.length % 2 ^ 32) (b.length % 2 ^ 32) buf (writeTwoPaths a b page) = some paths →
        (a, b) = paths) ↔
      (buf ≠ 0 → a.length % 2 ^ 32 + 1 + b.length % 2 ^ 32 ≤ PAYLOAD_LEN →
        a.length < 2 ^ 32 ∧ b.length < 2 ^ 32) := by
  by_cases refused : a.length % 2 ^ 32 + 1 + b.length % 2 ^ 32 > PAYLOAD_LEN ∨ buf = 0
  · rw [withTwoPaths, if_pos refused]
    refine iff_of_true nofun fun mapped fits => ?_
    omega
  push Not at refused
  rw [withTwoPaths_writeTwoPaths page (Nat.mod_le _ _) refused.1 refused.2]
  constructor
  · intro arrives _ _
    obtain ⟨first, second⟩ := Prod.mk.inj (arrives _ rfl)
    have shortA := congrArg length first
    have shortB := congrArg length second
    rw [length_take] at shortA shortB
    omega
  · rintro told paths same
    obtain ⟨isA, isB⟩ := told refused.2 refused.1
    rw [Nat.mod_eq_of_lt isA, Nat.mod_eq_of_lt isB, second_of_writeTwoPaths, take_length] at same
    exact some.inj same

/-- The calls whose paths arrive. -/
structure Call.Carried (table : MountTable) (call : Call) : Prop where
  clean : call.Clean
  coded : call.Coded table
  fits : call.Fits table

/-- The root and `/mfs`, as `mounts_init` mounts them. -/
def demoMounts : MountTable :=
  [some ⟨0, 6, [SLASH], by decide, rfl, by decide, by decide⟩,
   some ⟨0, 11, [SLASH, 0x6D, 0x66, 0x73], by decide, rfl, by decide, by decide⟩]

/-- `unlink` of `/mfs/a`. -/
example : (Call.payload .unlink [SLASH, 0x6D, 0x66, 0x73, SLASH, 0x61]).Carried demoMounts :=
  ⟨(by decide : 0 ∉ [SLASH, 0x6D, 0x66, 0x73, SLASH, 0x61]), by rintro r ⟨⟩; exact ⟨by decide, by decide⟩,
    by rintro r ⟨⟩; decide⟩

end MorionOS.Vfs
