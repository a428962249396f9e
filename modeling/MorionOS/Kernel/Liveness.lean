import MorionOS.Kernel.AddressSpace

/-!
# Which domains are alive

The memory system calls map and unmap pages of domains; only `create` and
`destroy` change which domain numbers are in use.  One lemma per function says so.
-/

namespace MorionOS.Kernel

open Function Option

/-- The domain numbers in use. -/
def Machine.alive (m : Machine) (id : Nat) : Bool := (m.domain id).isSome

namespace Machine

variable {mp : Mapper} {m m' : Machine}

variable {id vaddr code current target : Nat} {mapped : Bool}

theorem alive_withDomain {d d' : Domain} {f : Frames} (live : m.domain id = some d) :
    (m.withDomain id d' f).alive = m.alive := by
  funext j
  rw [alive, withDomain, domain_set live, alive]
  split
  next here => rw [here, live, isSome_some, isSome_some]
  · rfl

theorem alive_mapUserPage {paddr : Nat} {perm : UserPagePerm}
    (mapped : mapUserPage mp m id vaddr paddr perm = some m') : m'.alive = m.alive := by
  obtain ⟨d, f, t, live, -, rfl⟩ := mapUserPage_cases mapped
  exact alive_withDomain live

theorem alive_unmapUserPage {frame : Option Nat}
    (unmapped : unmapUserPage mp m id vaddr = some (frame, m')) : m'.alive = m.alive := by
  obtain ⟨d, live, ⟨-, rfl⟩ | ⟨frame, t, -, -, rfl⟩ | ⟨frame, -, -, -, rfl⟩⟩ :=
    unmapUserPage_cases unmapped
  · rfl
  · exact alive_withDomain live
  · rfl

theorem alive_dropUnmapped (frame : Option Nat) : (dropUnmapped m frame).alive = m.alive := by
  cases frame <;> rfl

theorem alive_mapFreshPage (mapped : mapFreshPage mp m id vaddr = some (code, m')) : m'.alive = m.alive := by
  unfold mapFreshPage at mapped
  split at mapped
  · cases mapped; rfl
  · obtain ⟨m₁, done, eq⟩ := bind_eq_some_iff.mp mapped
    cases eq
    have same := alive_mapUserPage done
    exact same

theorem alive_sysAllocPage (done : sysAllocPage mp m current vaddr = some (code, m')) : m'.alive = m.alive := by
  unfold sysAllocPage at done
  split at done
  · exact alive_mapFreshPage done
  · cases done; rfl

theorem alive_sysMapAnon {allowed : Bool}
    (done : sysMapAnon mp m allowed target vaddr = some (code, m')) : m'.alive = m.alive := by
  unfold sysMapAnon at done
  split at done
  · cases done; rfl
  split at done
  · exact alive_mapFreshPage done
  · cases done; rfl

theorem alive_sysUnmap (done : sysUnmap mp m current vaddr = some (code, m')) : m'.alive = m.alive := by
  obtain ⟨⟨frame, m₁⟩, unmapped, eq⟩ := bind_eq_some_iff.mp done
  cases eq
  exact (alive_dropUnmapped frame).trans (alive_unmapUserPage unmapped)

theorem alive_clearTarget {old : Option Nat}
    (done : clearTarget mp m target vaddr old = some m') : m'.alive = m.alive := by
  cases old with
  | none => cases done; rfl
  | some _ =>
    obtain ⟨⟨frame, m₁⟩, unmapped, eq⟩ := bind_eq_some_iff.mp done
    cases eq
    exact (alive_dropUnmapped frame).trans (alive_unmapUserPage unmapped)

theorem alive_sysSharePage {allowed : Bool}
    (done : sysSharePage mp m allowed current vaddr target = some (code, m')) :
    m'.alive = m.alive := by
  unfold sysSharePage at done
  split at done
  · cases done; rfl
  split at done
  · cases done; rfl
  obtain ⟨found, -, done⟩ := bind_eq_some_iff.mp done
  cases found with
  | none => cases done; rfl
  | some paddr =>
    obtain ⟨old, -, done⟩ := bind_eq_some_iff.mp done
    split at done
    · cases done; rfl
    obtain ⟨m₁, cleared, done⟩ := bind_eq_some_iff.mp done
    obtain ⟨m₂, mapped, eq⟩ := bind_eq_some_iff.mp done
    cases eq
    exact (alive_mapUserPage mapped).trans (alive_clearTarget cleared)

theorem alive_mapImage {segments : List Segment}
    (done : mapImage mp segments id m = some (mapped, m')) : m'.alive = m.alive :=
  LoadRule.mapImage (R := fun m m' => m'.alive = m.alive)
    ⟨fun _ => rfl, fun first second => second.trans first, fun {m _ _ _ f _} _ done =>
      alive_mapUserPage (m := { m with frames := f }) done⟩ done

theorem alive_destroyDomain (id : Nat) :
    (destroyDomain m id).2.alive = update m.alive id false := by
  funext j
  unfold destroyDomain
  split
  next dead =>
    by_cases here : j = id
    · rw [here, update_self, alive, dead, isSome_none]
    · rw [update_of_ne here]
  next d live =>
    rw [alive, domain_set live, update_apply]
    split <;> rfl

theorem alive_resetDomain (id : Nat) : (resetDomain m id).2.alive = m.alive := by
  unfold resetDomain
  split
  next => rfl
  next d live => exact alive_withDomain live

/-- A created domain takes a number that was not in use. -/
theorem alive_createDomain (created : createDomain m = some (id, m')) :
    m.alive id = false ∧ m'.alive = update m.alive id true := by
  obtain ⟨unused, pml4, domains⟩ := createDomain_domain created
  refine ⟨by rw [alive, unused, isSome_none], funext fun other => ?_⟩
  rw [alive, domains]
  by_cases here : other = id
  · rw [if_pos here, here, update_self, isSome_some]
  · rw [if_neg here, update_of_ne here, alive]

end Machine

end MorionOS.Kernel
