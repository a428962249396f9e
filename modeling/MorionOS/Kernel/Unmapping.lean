import MorionOS.Kernel.RamOnly

/-!
# What `SYS_UNMAP` can reach

`SYS_UNMAP` hands its argument to `unmap_user_page` without asking `is_user_address`, as the
other memory calls do.  The levels of the kernel half are shared by all domains, and a page of
the kernel heap is a 4 KiB page that the walk finds like any other (`unmap_removes_heap_page`).
`unmap_stays_in_user_half_iff` says for which arguments the call stays in the user half.
-/

namespace MorionOS.Kernel

open Option

/-- Between the two states only the user half of the domain changed, and every frame that
became free was mapped there. -/
structure UserHalfOnly (current : Nat) (m m' : Machine) : Prop where
  kernelPages : m'.kernelPages = m.kernelPages
  others : ∀ id, id ≠ current → m'.domain id = m.domain id
  pml4 : (m'.domain current).map Domain.pml4 = (m.domain current).map Domain.pml4
  freed : ∀ idx, m.frames.bitmap idx = true → m'.frames.bitmap idx = false →
    ∃ d, m.domain current = some d ∧ ∃ frame ∈ d.user.frames, frame / FRAME_SIZE = idx

variable {mp : Mapper} {m : Machine} {current vaddr : Nat}

theorem UserHalfOnly.refl (current : Nat) (m : Machine) : UserHalfOnly current m m :=
  ⟨rfl, fun _ _ => rfl, rfl, fun _ used clear => by rw [used] at clear; cases clear⟩

theorem dropFrame_bitmap_of_ne {f : Frames} {frame idx : Nat} (differs : idx ≠ frame / FRAME_SIZE) :
    (f.dropFrame frame).bitmap idx = f.bitmap idx := by
  rw [Frames.dropFrame]
  split
  · exact Frames.freeFrame_bitmap_of_ne _ differs
  · rfl

/-- A page of the user half goes, and its frame if it was the last mapping. -/
theorem UserHalfOnly.unmapped {d : Domain} (live : m.domain current = some d) {frame : Nat}
    {t : UserHalf} (found : mp.unmap d.user (pageOf vaddr) = some (frame, t)) :
    UserHalfOnly current m (dropUnmapped (m.withDomain current { d with user := t } m.frames)
      (some frame)) where
  kernelPages := rfl
  others := fun id differs => (domain_set live _ _ _ id).trans (if_neg differs)
  pml4 := by
    have now := (domain_set live (some { d with user := t }) (m.frames.dropFrame frame)
      m.kernelPages current).trans (if_pos rfl)
    exact (congrArg (Option.map Domain.pml4) now).trans (congrArg (Option.map Domain.pml4) live).symm
  freed := fun idx used clear => by
    obtain ⟨bound3, bound2, bound1⟩ := pageOf_lt vaddr
    have frames := (mp.unmap_spec bound3 bound2 bound1 found).1
    refine ⟨d, live, frame, frames.mem_iff.mpr List.mem_cons_self, ?_⟩
    by_contra differs
    have same : (m.frames.dropFrame frame).bitmap idx = m.frames.bitmap idx :=
      dropFrame_bitmap_of_ne (Ne.symm differs)
    exact absurd ((used.symm.trans same.symm).trans clear) (by decide)

/-- **`SYS_UNMAP` stays in the user half** exactly when its argument is not the address of a
4 KiB page of the kernel half. -/
theorem unmap_stays_in_user_half_iff (mp : Mapper) (m : Machine) (current vaddr : Nat) :
    (∀ code m', sysUnmap mp m current vaddr = some (code, m') → UserHalfOnly current m m') ↔
      (m.domain current ≠ none → isCanonical vaddr = true → isUserAddress vaddr = false →
        m.kernelPages (vaddr / FRAME_SIZE) = none) := by
  constructor
  · intro only alive canonical kernel
    obtain ⟨d, live⟩ := ne_none_iff_exists'.mp alive
    by_contra mapped
    obtain ⟨frame, mapped⟩ := ne_none_iff_exists'.mp mapped
    have gone := (only 1 _ (by
      simp [sysUnmap, unmapUserPage, live, canonical, kernel, mapped]; rfl)).kernelPages
    have here := congrFun gone (vaddr / FRAME_SIZE)
    rw [mapped] at here
    simp [dropUnmapped] at here
  · intro noKernelPage code m' ran
    obtain ⟨⟨frame, m₁⟩, unmapped, pair⟩ := bind_eq_some_iff.mp ran
    cases pair
    obtain ⟨d, live, same | ⟨frame, t, found, rfl, rfl⟩ | ⟨frame, kernel, mapped, -, -⟩⟩ :=
      unmapUserPage_cases unmapped
    · obtain ⟨rfl, rfl⟩ := same
      exact .refl current m₁
    · exact .unmapped live found
    · have canonical : isCanonical vaddr = true := by
        by_contra other
        simp [unmapUserPage, other] at unmapped
      have absent := noKernelPage (by simp [live]) canonical kernel
      exact absurd (mapped.symm.trans absent) (by simp)

/-- A domain unmaps a page of its own. -/
theorem demo_unmap_stays_in_user_half : ∃ m m',
    runDev Mapper.fourLevel demoInfo demoInit [.mem .createDomain,
      .mem (.allocPage 0 USER_SPACE_BASE)] = some m ∧
      sysUnmap Mapper.fourLevel m 0 USER_SPACE_BASE = some (1, m') ∧ UserHalfOnly 0 m m' := by
  obtain ⟨m, ran, ⟨_, m'⟩, unmapped, rfl⟩ : ∃ m ∈ runDev Mapper.fourLevel demoInfo demoInit
      [.mem .createDomain, .mem (.allocPage 0 USER_SPACE_BASE)],
        ∃ answer ∈ sysUnmap Mapper.fourLevel m 0 USER_SPACE_BASE, answer.1 = 1 := by decide +kernel
  refine ⟨m, m', ran, unmapped, (unmap_stays_in_user_half_iff Mapper.fourLevel m 0
    USER_SPACE_BASE).mpr (fun _ _ kernel => ?_) 1 m' unmapped⟩
  exact absurd kernel (by decide)

/-- The first page of the kernel heap. -/
def HEAP_START : Nat := 0x444444440000

/-- **A domain unmaps a page of the kernel heap.** -/
theorem unmap_removes_heap_page : ∃ m m',
    runDev Mapper.fourLevel demoInfo demoInit
      [.heapPage (HEAP_START / FRAME_SIZE), .mem .createDomain] = some m ∧
      sysUnmap Mapper.fourLevel m 0 HEAP_START = some (1, m') ∧
      m.kernelPages (HEAP_START / FRAME_SIZE) ≠ none ∧ m'.kernelPages (HEAP_START / FRAME_SIZE) = none := by
  obtain ⟨m, ran, there, ⟨_, m'⟩, unmapped, rfl, gone⟩ : ∃ m ∈ runDev Mapper.fourLevel demoInfo demoInit
      [.heapPage (HEAP_START / FRAME_SIZE), .mem .createDomain],
        m.kernelPages (HEAP_START / FRAME_SIZE) ≠ none ∧
        ∃ answer ∈ sysUnmap Mapper.fourLevel m 0 HEAP_START, answer.1 = 1 ∧
          answer.2.kernelPages (HEAP_START / FRAME_SIZE) = none := by decide +kernel
  exact ⟨m, m', ran, unmapped, there, gone⟩

end MorionOS.Kernel
