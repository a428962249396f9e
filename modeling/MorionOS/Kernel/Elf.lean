import MorionOS.Kernel.AddressSpace

/-!
# Parsing an executable

`elf::parse` decides which byte strings are loaded; every field it reads is the caller's.  A `?`
that finds nothing and a failed test reject the image (`Stop.reject`); an index out of range and
a sum or product beyond 64 bits would be a panic (`Stop.panic`).  `parse_eq` says which strings
are accepted, with which image, and that there is no panic.
-/

namespace MorionOS.Kernel.Elf

open List

def MAX_SEGMENTS : Nat := 32
def PHENT_SIZE : Nat := 56

/-- Why `parse` returns no image. -/
inductive Stop where
  | reject
  | panic
deriving DecidableEq

/-- A byte slice; no slice has `isize::MAX` bytes or more. -/
structure Slice where
  bytes : List UInt8
  len_lt : bytes.length < 2 ^ 63

structure Segment where
  offset : Nat
  vaddr : Nat
  filesz : Nat
  memsz : Nat
  flags : Nat
deriving DecidableEq

/-- `Image`; the array of segments is the list of those in use. -/
structure Image where
  entry : Nat
  segments : List Segment
deriving DecidableEq

/-! ## The functions -/

/-- A test that rejects the image. -/
def require (c : Prop) [Decidable c] : Except Stop Unit := if c then .ok () else .error .reject

/-- `checked_add` followed by `?`. -/
def checkedAdd (a b : Nat) : Except Stop Nat := if a + b < 2 ^ 64 then .ok (a + b) else .error .reject

/-- `checked_mul` followed by `?`. -/
def checkedMul (a b : Nat) : Except Stop Nat := if a * b < 2 ^ 64 then .ok (a * b) else .error .reject

/-- A sum that must not overflow. -/
def add (a b : Nat) : Except Stop Nat := if a + b < 2 ^ 64 then .ok (a + b) else .error .panic

/-- A product that must not overflow. -/
def mul (a b : Nat) : Except Stop Nat := if a * b < 2 ^ 64 then .ok (a * b) else .error .panic

/-- `from_le_bytes`. -/
def leValue (bytes : List UInt8) : Nat := bytes.foldr (fun byte rest => byte.toNat + 256 * rest) 0

namespace Slice

def len (b : Slice) : Nat := b.bytes.length

/-- The number in `width` bytes from an offset on. -/
def field (b : Slice) (off width : Nat) : Nat := leValue ((b.bytes.drop off).take width)

/-- `bytes[i]`. -/
def index (b : Slice) (i : Nat) : Except Stop Nat := if i < b.len then .ok (b.field i 1) else .error .panic

/-- `bytes.get(off..off + width)?` as a number: the body of `u16le`, `u32le` and `u64le`. -/
def read (width : Nat) (b : Slice) (off : Nat) : Except Stop Nat := do
  let last ← add off width
  if last ≤ b.len then .ok (b.field off width) else .error .reject

def u16le : Slice → Nat → Except Stop Nat := read 2
def u32le : Slice → Nat → Except Stop Nat := read 4
def u64le : Slice → Nat → Except Stop Nat := read 8

end Slice

def inUserSpace (vaddr : Nat) : Bool := isUserAddress vaddr && decide (USER_SPACE_BASE ≤ vaddr)

/-- The tests of a loadable segment. -/
def checkSegment (len : Nat) (s : Segment) : Except Stop Unit := do
  require ¬ (s.flags &&& PF_W ≠ 0 ∧ s.flags &&& PF_X ≠ 0)
  require ((← checkedAdd s.offset s.filesz) ≤ len)
  require (s.filesz ≤ s.memsz)
  if s.memsz = 0 then .ok ()
  else do
    require (inUserSpace s.vaddr)
    require ((← checkedAdd s.vaddr s.memsz) ≤ USER_SPACE_END)

/-- The body of the loop over the program headers. -/
def programHeader (b : Slice) (phoff phentsize : Nat) (segments : List Segment) (i : Nat) :
    Except Stop (List Segment) := do
  let ph ← add phoff (← mul i phentsize)
  if (← b.u32le ph) ≠ 1 then .ok segments
  else do
    let flags ← b.u32le (← add ph 4)
    let offset ← b.u64le (← add ph 8)
    let vaddr ← b.u64le (← add ph 16)
    let filesz ← b.u64le (← add ph 32)
    let memsz ← b.u64le (← add ph 40)
    checkSegment b.len ⟨offset, vaddr, filesz, memsz, flags⟩
    if memsz = 0 then .ok segments
    else if segments.length < MAX_SEGMENTS then
      .ok (segments ++ [⟨offset, vaddr, filesz, memsz, flags⟩])
    else .error .panic

/-- The entry point lies in one of the segments. -/
def entryInSegment (entry : Nat) : List Segment → Except Stop Bool
  | [] => .ok false
  | s :: rest =>
    if s.vaddr ≤ entry then do
      if entry < (← add s.vaddr s.memsz) then .ok true else entryInSegment entry rest
    else entryInSegment entry rest

def parse (b : Slice) : Except Stop Image := do
  require (64 ≤ b.len)
  require (b.bytes.take 4 = [0x7F, 0x45, 0x4C, 0x46])
  require ((← b.index 4) = 2)
  require ((← b.index 5) = 1)
  require ((← b.index 6) = 1)
  require ((← b.u16le 16) = 2)
  require ((← b.u16le 18) = 62)
  let entry ← b.u64le 24
  let phoff ← b.u64le 32
  let phentsize ← b.u16le 54
  let phnum ← b.u16le 56
  require (phentsize = PHENT_SIZE)
  require (phnum ≠ 0 ∧ phnum ≤ MAX_SEGMENTS)
  require ((← checkedAdd phoff (← checkedMul phentsize phnum)) ≤ b.len)
  require (inUserSpace entry)
  let segments ← (List.range phnum).foldlM (programHeader b phoff phentsize) []
  require (segments ≠ [])
  require ((← entryInSegment entry segments) = true)
  .ok ⟨entry, segments⟩

/-! ## The safe images -/

namespace Slice

/-- The address of the program header. -/
def header (b : Slice) (i : Nat) : Nat := b.field 32 8 + i * PHENT_SIZE

def isLoad (b : Slice) (i : Nat) : Bool := b.field (b.header i) 4 == 1

/-- What the program header describes. -/
def segment (b : Slice) (i : Nat) : Segment where
  offset := b.field (b.header i + 8) 8
  vaddr := b.field (b.header i + 16) 8
  filesz := b.field (b.header i + 32) 8
  memsz := b.field (b.header i + 40) 8
  flags := b.field (b.header i + 4) 4

def phnum (b : Slice) : Nat := b.field 56 2

def entry (b : Slice) : Nat := b.field 24 8

/-- A supported header: 64-bit, little-endian, `ET_EXEC` for x86-64, and its table of one to 32
program headers of the standard size lies inside the input. -/
structure Supported (b : Slice) : Prop where
  long : 64 ≤ b.len
  magic : b.bytes.take 4 = [0x7F, 0x45, 0x4C, 0x46]
  class64 : b.field 4 1 = 2
  little : b.field 5 1 = 1
  version : b.field 6 1 = 1
  exec : b.field 16 2 = 2
  machine : b.field 18 2 = 62
  size : b.field 54 2 = PHENT_SIZE
  count : b.phnum ≠ 0 ∧ b.phnum ≤ MAX_SEGMENTS
  table : b.field 32 8 + PHENT_SIZE * b.phnum ≤ b.len

end Slice

/-- A loadable segment that may be loaded from a file of the length. -/
structure Segment.Safe (s : Segment) (len : Nat) : Prop where
  notBoth : ¬ (s.flags &&& PF_W ≠ 0 ∧ s.flags &&& PF_X ≠ 0)
  file : s.offset + s.filesz ≤ len
  fits : s.filesz ≤ s.memsz
  user : s.memsz ≠ 0 → USER_SPACE_BASE ≤ s.vaddr ∧ s.vaddr + s.memsz ≤ USER_SPACE_END

namespace Slice

/-- The program header asks for nothing unsafe. -/
def HeaderSafe (b : Slice) (i : Nat) : Prop := b.isLoad i = true → (b.segment i).Safe b.len

/-- The segment that the loader gets from a program header. -/
def loaded (b : Slice) (i : Nat) : Option Segment :=
  if b.isLoad i = true ∧ (b.segment i).memsz ≠ 0 then some (b.segment i) else none

/-- The image that the file describes. -/
def image (b : Slice) : Image := ⟨b.entry, (List.range b.phnum).filterMap b.loaded⟩

/-- **The safe images.** -/
structure Accepts (b : Slice) : Prop where
  supported : b.Supported
  headers : ∀ i < b.phnum, b.HeaderSafe i
  entry : ∃ s ∈ b.image.segments, s.vaddr ≤ b.entry ∧ b.entry < s.vaddr + s.memsz

end Slice

/-! ## What the functions return -/

theorem ok_bind {α β : Type} {a : α} {next : α → Except Stop β} : (Except.ok a >>= next) = next a := rfl

/-- A test rejects what it should, and the rest decides for what it lets pass. -/
theorem require_bind {α : Type} {c : Prop} [Decidable c] {next : Unit → Except Stop α}
    {result : Except Stop α} (passes : c → next () = result) (fails : ¬ c → result = .error .reject) :
    (require c >>= next) = result := by
  unfold require
  split
  next holds => exact passes holds
  next bad => exact (fails bad).symm

/-- `checked_add` and the comparison behind it. -/
theorem checkedAdd_bind {α : Type} {a c limit : Nat} {next : Unit → Except Stop α}
    {result : Except Stop α} (small : limit < 2 ^ 64) (passes : a + c ≤ limit → next () = result)
    (fails : ¬ a + c ≤ limit → result = .error .reject) :
    (checkedAdd a c >>= fun sum => require (sum ≤ limit) >>= next) = result := by
  unfold checkedAdd
  split
  · exact require_bind passes fails
  · exact (fails (by omega)).symm

variable {b : Slice} {off width i : Nat} {segments : List Segment} {s : Segment}

theorem add_eq {a c : Nat} (small : a + c < 2 ^ 64) : add a c = .ok (a + c) := if_pos small

theorem Slice.read_eq (inside : off + width ≤ b.len) : b.read width off = .ok (b.field off width) := by
  have := b.len_lt
  rw [Slice.read, add_eq (by rw [Slice.len] at inside; omega), ok_bind, if_pos inside]

theorem inUserSpace_iff {vaddr memsz : Nat} (some : memsz ≠ 0) (upper : vaddr + memsz ≤ USER_SPACE_END) :
    inUserSpace vaddr = true ↔ USER_SPACE_BASE ≤ vaddr := by
  unfold inUserSpace isUserAddress USER_SPACE_END USER_SPACE_BASE at *
  rw [Bool.and_eq_true, decide_eq_true_eq, beq_iff_eq]
  omega

open Classical in
theorem checkSegment_eq {len : Nat} (short : len < 2 ^ 64) :
    checkSegment len s = if s.Safe len then .ok () else .error .reject := by
  refine require_bind (fun notBoth => ?_) fun bad => if_neg fun safe => bad safe.notBoth
  refine checkedAdd_bind short (fun file => ?_) fun bad => if_neg fun safe => bad safe.file
  refine require_bind (fun fits => ?_) fun bad => if_neg fun safe => bad safe.fits
  split
  next empty => exact (if_pos ⟨notBoth, file, fits, absurd empty⟩).symm
  next some =>
    refine require_bind (fun lower => ?_) fun bad => if_neg fun safe =>
      bad ((inUserSpace_iff some (safe.user some).2).mpr (safe.user some).1)
    rw [← bind_pure (checkedAdd _ _ >>= _), bind_assoc]
    refine checkedAdd_bind (by decide) (fun upper => ?_) fun bad => if_neg fun safe =>
      bad (safe.user some).2
    exact (if_pos ⟨notBoth, file, fits, fun _ => ⟨(inUserSpace_iff some upper).mp lower, upper⟩⟩).symm

open Classical in
/-- The loop body takes what it may and rejects the rest. -/
theorem programHeader_eq (inside : b.header i + PHENT_SIZE ≤ b.len) (room : segments.length < MAX_SEGMENTS) :
    programHeader b (b.field 32 8) PHENT_SIZE segments i =
      if b.HeaderSafe i then .ok (segments ++ (b.loaded i).toList) else .error .reject := by
  have short : b.len < 2 ^ 63 := b.len_lt
  have sum : ∀ k ≤ 40, add (b.header i) k = .ok (b.header i + k) := fun k small =>
    add_eq (by unfold PHENT_SIZE at inside; omega)
  have word : ∀ k ≤ 4, b.u32le (b.header i + k) = .ok (b.field (b.header i + k) 4) := fun k small =>
    Slice.read_eq (by unfold PHENT_SIZE at inside; omega)
  have long : ∀ k ≤ 40, b.u64le (b.header i + k) = .ok (b.field (b.header i + k) 8) := fun k small =>
    Slice.read_eq (by unfold PHENT_SIZE at inside; omega)
  have product : mul i PHENT_SIZE = .ok (i * PHENT_SIZE) :=
    if_pos (by unfold Slice.header at inside; omega)
  have start : add (b.field 32 8) (i * PHENT_SIZE) = .ok (b.header i) :=
    add_eq (by unfold Slice.header at inside; omega)
  have kind : b.u32le (b.header i) = .ok (b.field (b.header i) 4) := word 0 (Nat.zero_le _)
  simp only [programHeader, product, start, kind, ok_bind]
  split
  next other =>
    have skipped : ¬ b.isLoad i = true := by simpa [Slice.isLoad] using other
    have safe : b.HeaderSafe i := fun load => absurd load skipped
    rw [if_pos safe, Slice.loaded, if_neg fun both => skipped both.1]
    simp
  next load =>
    have load : b.isLoad i = true := by simpa [Slice.isLoad] using load
    simp only [sum 4 (by decide), sum 8 (by decide), sum 16 (by decide), sum 32 (by decide),
      sum 40 (by decide), word 4 (by decide), long 8 (by decide), long 16 (by decide),
      long 32 (by decide), long 40 (by decide), ok_bind]
    change (checkSegment b.len (b.segment i) >>= _) = _
    rw [checkSegment_eq (by omega)]
    by_cases safe : (b.segment i).Safe b.len
    · have header : b.HeaderSafe i := fun _ => safe
      rw [if_pos safe, ok_bind, if_pos header, Slice.loaded]
      by_cases empty : (b.segment i).memsz = 0
      · rw [if_neg fun both : b.isLoad i = true ∧ (b.segment i).memsz ≠ 0 => both.2 empty,
          Option.toList_none, append_nil]
        exact if_pos empty
      · rw [if_pos (⟨load, empty⟩ : b.isLoad i = true ∧ (b.segment i).memsz ≠ 0)]
        exact if_neg empty
    · have header : ¬ b.HeaderSafe i := fun header => safe (header load)
      rw [if_neg safe, if_neg header]
      rfl

open Classical in
theorem programHeaders_eq {is : List Nat} (inside : ∀ i ∈ is, b.header i + PHENT_SIZE ≤ b.len)
    (room : segments.length + is.length ≤ MAX_SEGMENTS) :
    is.foldlM (programHeader b (b.field 32 8) PHENT_SIZE) segments =
      if ∀ i ∈ is, b.HeaderSafe i then .ok (segments ++ is.filterMap b.loaded) else .error .reject := by
  induction is generalizing segments with
  | nil => simp [pure, Except.pure]
  | cons i is ih =>
    obtain ⟨here, later⟩ := forall_mem_cons.mp inside
    rw [length_cons] at room
    rw [foldlM_cons, programHeader_eq here (by omega)]
    simp only [forall_mem_cons]
    by_cases safe : b.HeaderSafe i
    · have one : (b.loaded i).toList.length ≤ 1 := by cases b.loaded i <;> simp
      rw [if_pos safe, ok_bind, ih later (by rw [length_append]; omega)]
      simp only [safe, true_and, filterMap_cons, append_assoc]
      cases b.loaded i <;> rfl
    · rw [if_neg safe, if_neg fun both => safe both.1]
      rfl

/-- No end of a safe segment overflows. -/
theorem entryInSegment_eq {entry : Nat} (safe : ∀ s ∈ segments, s.vaddr + s.memsz ≤ USER_SPACE_END) :
    entryInSegment entry segments =
      .ok (segments.any fun s => decide (s.vaddr ≤ entry ∧ entry < s.vaddr + s.memsz)) := by
  induction segments with
  | nil => rfl
  | cons s rest ih =>
    obtain ⟨here, later⟩ := forall_mem_cons.mp safe
    have small : USER_SPACE_END < 2 ^ 64 := by decide
    rw [entryInSegment, ih later, add_eq (by omega), ok_bind, any_cons]
    by_cases lower : s.vaddr ≤ entry <;> by_cases upper : entry < s.vaddr + s.memsz <;> simp [lower, upper]

theorem Slice.mem_image : s ∈ b.image.segments ↔
    ∃ i < b.phnum, b.isLoad i = true ∧ (b.segment i).memsz ≠ 0 ∧ b.segment i = s := by
  simp only [Slice.image, Slice.loaded, mem_filterMap]
  grind

/-- The segments of an image with safe headers lie in the user space. -/
theorem Slice.image_safe (safe : ∀ i < b.phnum, b.HeaderSafe i) (member : s ∈ b.image.segments) :
    USER_SPACE_BASE ≤ s.vaddr ∧ s.vaddr + s.memsz ≤ USER_SPACE_END := by
  obtain ⟨i, inside, load, some, rfl⟩ := Slice.mem_image.mp member
  exact (safe i inside load).user some

theorem Slice.Accepts.entry_user (accepts : b.Accepts) : inUserSpace b.entry = true := by
  obtain ⟨s, member, lower, upper⟩ := accepts.entry
  obtain ⟨base, limit⟩ := Slice.image_safe accepts.headers member
  exact (inUserSpace_iff one_ne_zero (by omega)).mpr (by omega)

open Classical in
/-- **`parse` accepts exactly the safe images**, whatever bytes it is given, and never
panics. -/
theorem parse_eq (b : Slice) : parse b = if b.Accepts then .ok b.image else .error .reject := by
  have reject : ∀ {c : Prop}, ¬ c → (b.Accepts → c) →
      (if b.Accepts then .ok b.image else .error .reject : Except Stop Image) = .error .reject :=
    fun bad need => if_neg fun accepts => bad (need accepts)
  refine require_bind (fun long => ?_) fun bad => reject bad (·.supported.long)
  have index : ∀ i < 64, b.index i = .ok (b.field i 1) := fun i small => if_pos (by omega)
  have half : ∀ off ≤ 62, b.u16le off = .ok (b.field off 2) := fun off small => Slice.read_eq (by omega)
  have word : ∀ off ≤ 56, b.u64le off = .ok (b.field off 8) := fun off small => Slice.read_eq (by omega)
  simp only [index 4 (by decide), index 5 (by decide), index 6 (by decide), half 16 (by decide),
    half 18 (by decide), half 54 (by decide), half 56 (by decide), word 24 (by decide),
    word 32 (by decide), ok_bind]
  refine require_bind (fun magic => ?_) fun bad => reject bad (·.supported.magic)
  refine require_bind (fun class64 => ?_) fun bad => reject bad (·.supported.class64)
  refine require_bind (fun little => ?_) fun bad => reject bad (·.supported.little)
  refine require_bind (fun version => ?_) fun bad => reject bad (·.supported.version)
  refine require_bind (fun exec => ?_) fun bad => reject bad (·.supported.exec)
  refine require_bind (fun machine => ?_) fun bad => reject bad (·.supported.machine)
  refine require_bind (fun size => ?_) fun bad => reject bad (·.supported.size)
  refine require_bind (fun count => ?_) fun bad => reject bad (·.supported.count)
  have short : b.len < 2 ^ 63 := b.len_lt
  have product : checkedMul (b.field 54 2) (b.field 56 2) = .ok (PHENT_SIZE * b.phnum) := by
    rw [size]
    refine if_pos ?_
    have := count.2
    unfold MAX_SEGMENTS at this
    unfold PHENT_SIZE
    omega
  rw [product, ok_bind]
  refine checkedAdd_bind (by omega) (fun table => ?_) fun bad => reject bad (·.supported.table)
  have supported : b.Supported :=
    ⟨long, magic, class64, little, version, exec, machine, size, count, table⟩
  refine require_bind (fun _ => ?_) fun bad => reject bad (·.entry_user)
  have headers : ∀ i ∈ range b.phnum, b.header i + PHENT_SIZE ≤ b.len := by
    intro i inside
    have := mem_range.mp inside
    unfold Slice.header PHENT_SIZE at *
    omega
  have room : ([] : List Segment).length + (range b.phnum).length ≤ MAX_SEGMENTS := by
    rw [length_nil, length_range, Nat.zero_add]
    exact count.2
  have loop := programHeaders_eq headers room
  rw [← size] at loop
  rw [show b.field 56 2 = b.phnum from rfl, loop]
  by_cases safe : ∀ i ∈ range b.phnum, b.HeaderSafe i
  · have safe' : ∀ i < b.phnum, b.HeaderSafe i := fun i inside => safe i (mem_range.mpr inside)
    rw [if_pos safe, ok_bind, nil_append]
    change (require (b.image.segments ≠ []) >>= _) = _
    refine require_bind (fun _ => ?_) fun bad => reject bad fun accepts => ?_
    · change (entryInSegment b.entry b.image.segments >>= _) = _
      rw [entryInSegment_eq fun s member => (Slice.image_safe safe' member).2, ok_bind]
      have found : (b.image.segments.any fun s =>
          decide (s.vaddr ≤ b.entry ∧ b.entry < s.vaddr + s.memsz)) = true ↔
          ∃ s ∈ b.image.segments, s.vaddr ≤ b.entry ∧ b.entry < s.vaddr + s.memsz := by simp
      exact require_bind (fun inside => (if_pos ⟨supported, safe', found.mp inside⟩).symm)
        fun bad => reject bad fun accepts => found.mpr accepts.entry
    · obtain ⟨s, member, -⟩ := accepts.entry
      exact ne_nil_of_mem member
  · rw [if_neg safe]
    exact (reject safe fun accepts i inside => accepts.headers i (mem_range.mp inside)).symm

/-- A file of a header and one program header, which loads the file at the start of user space. -/
def demoSlice : Slice where
  bytes := [0x7F, 0x45, 0x4C, 0x46, 2, 1, 1] ++ replicate 9 0 ++ [2, 0, 62, 0, 1, 0, 0, 0] ++
    [0x78, 0, 0, 0, 0x80, 0, 0, 0] ++ [64, 0, 0, 0, 0, 0, 0, 0] ++ replicate 14 0 ++ [56, 0, 1, 0] ++ replicate 6 0 ++
    [1, 0, 0, 0, 5, 0, 0, 0] ++ replicate 8 0 ++ [0, 0, 0, 0, 0x80, 0, 0, 0] ++ replicate 8 0 ++
    [0x78, 0, 0, 0, 0, 0, 0, 0] ++ [0, 0x10, 0, 0, 0, 0, 0, 0] ++ replicate 8 0
  len_lt := by decide

example : parse demoSlice = .ok ⟨USER_SPACE_BASE + 0x78, [⟨0, USER_SPACE_BASE, 0x78, 0x1000, 5⟩]⟩ := by
  decide +kernel

end MorionOS.Kernel.Elf
