import MorionOS.Kernel.Ipc
import MorionOS.Kernel.Klog

/-!
# Pointer arguments of system calls

Some system calls read or write memory through an address that the caller passes.  The
kernel runs with the caller's address space and with the rights of ring 0, so it has to
look at the address itself before it follows it.  `accesses` is the list of accesses that
`syscall_dispatch` makes through its arguments, with the checks that each call makes
before.  They differ:

* `SYS_RECV`, `SYS_TRY_RECV` and `SYS_PUTS` follow the pointer as it is;
* `read_user_payload` looks at the first byte of the payload and not at the last;
* the others look at both ends, with `is_user_address`, which reads bits 39 to 47 only, so
  that an address with other bits set above them passes.

`pointer_accesses_confined` says for every call and all arguments when the accesses stay
inside the user region.
-/

namespace MorionOS.Kernel

/-! ## The accesses -/

/-- An access of the kernel to `len` bytes from `addr` on. -/
structure UserAccess where
  write : Bool
  addr : UInt64
  len : Nat
deriving DecidableEq

variable (access : UserAccess)

/-- The address of byte `k`. -/
def UserAccess.byte (k : Nat) : Nat := (access.addr.toNat + k) % 2 ^ 64

/-- The caller's half of the address space. -/
def InUserRegion (vaddr : Nat) : Prop := USER_SPACE_BASE ≤ vaddr ∧ vaddr < USER_SPACE_END

/-- `size_of::<Message>()`: three words and the payload. -/
def MESSAGE_SIZE : Nat := 24 + PAYLOAD_LEN
/-- `size_of::<FbInfo>()`. -/
def FB_INFO_SIZE : Nat := 24
def MAX_ELF_LEN : Nat := 1024 * 1024
def UNAME_MAX : Nat := 96
def LOG_READ_MAX : Nat := 2 ^ 20
def REC_BYTES : Nat := 3 * 8

/-- The system calls that follow a pointer. -/
inductive PointerCall where
  | send
  | recv
  | puts
  | call
  | spawnElf
  | spawnElfAt
  | fbInfo
  | uname
  | tryRecv
  | logRead
  | pciInfo
deriving DecidableEq

/-- The numbers of these system calls; no other call follows an argument. -/
def pointerCall (num : UInt64) : Option PointerCall :=
  match num.toNat with
  | 2 => some .send
  | 3 => some .recv
  | 4 => some .puts
  | 12 => some .call
  | 37 => some .spawnElf
  | 41 => some .spawnElfAt
  | 44 => some .fbInfo
  | 51 => some .uname
  | 55 => some .tryRecv
  | 59 => some .logRead
  | 60 => some .pciInfo
  | _ => none

/-- What the calls look up besides their arguments. -/
structure CallEnv where
  /-- the caller has the `Spawn` capability -/
  spawn : Bool
  /-- the caller has the `Fb` capability -/
  fb : Bool
  /-- a message waits in the caller's mailbox -/
  message : Bool
  /-- the caller's address space -/
  space : UserHalf
  /-- `LOG_TOTAL` -/
  logTotal : Nat
  /-- there is an entry with this index in `PCI_TABLE` -/
  pciEntry : Nat → Bool
  /-- `VARIANT` -/
  variant : String
  /-- `BUILD` -/
  build : String

/-- `is_user_address` for an argument. -/
def userArg (addr : UInt64) : Bool := isUserAddress addr.toNat

/-- The test of both ends that several calls make. -/
def userRange (addr : UInt64) (len : Nat) : Bool :=
  userArg addr && userArg (addr + UInt64.ofNat len - 1)

def readUserPayload (ptr : UInt64) : List UserAccess :=
  if ptr = 0 || !userArg ptr then [] else [⟨false, ptr, PAYLOAD_LEN⟩]

/-- Writing a message back in `SYS_RECV` and `SYS_TRY_RECV`. -/
def writeMessage (ptr : UInt64) : List UserAccess :=
  if ptr ≠ 0 then [⟨true, ptr, MESSAGE_SIZE⟩] else []

variable (env : CallEnv)

/-- The checks of `user_elf_image`: the length, both ends, and that every page from the
first to the last is mapped. -/
def userElfImage (ptr len : UInt64) : Bool :=
  userArg ptr && decide (64 ≤ len.toNat) && decide (len.toNat ≤ MAX_ELF_LEN) &&
    decide (ptr.toNat + len.toNat < 2 ^ 64) && userArg (ptr + len - 1) &&
    (List.range ((ptr.toNat % 4096 + len.toNat + 4095) / 4096)).all fun i =>
      (env.space.resolve (ptr.toNat / 4096 * 4096 + 4096 * i)).isSome

/-- The image that `SYS_SPAWN_ELF` and `SYS_SPAWN_ELF_AT` read. -/
def readImage (ptr len : UInt64) : List UserAccess :=
  if env.spawn && userElfImage env ptr len then [⟨false, ptr, len.toNat⟩] else []

/-- The checks of `SYS_FB_INFO`. -/
def fbInfoPasses (ptr : UInt64) : Bool :=
  env.fb && ptr != 0 && userRange ptr FB_INFO_SIZE

/-- `push` of `version.rs`, for the number of bytes in the buffer. -/
def unamePush (n : Nat) (s : String) : Option Nat :=
  if n + s.utf8ByteSize > UNAME_MAX then none else some (n + s.utf8ByteSize)

/-- The length of the text that `SYS_UNAME` is asked for. -/
def unameText (which : UInt64) : Option Nat :=
  match which.toNat with
  | 0 => ["MorionOS", " ", "0.4.0", env.variant, " ", "x86_64"].foldlM unamePush 0
  | 1 => ["0.4.0", env.variant].foldlM unamePush 0
  | 2 => [env.build].foldlM unamePush 0
  | _ => none

/-- The length of the answer of `SYS_UNAME`, with the final zero. -/
def unameTotal (which : UInt64) : Option Nat := do
  let n ← unameText env which
  if n + 1 > UNAME_MAX then none else some (n + 1)

/-- The checks of `SYS_UNAME` for an answer of this length. -/
def unamePasses (ptr len : UInt64) (total : Nat) : Bool :=
  ptr != 0 && decide (total ≤ len.toNat) && userRange ptr total

/-- The number of bytes that `klog::read` copies. -/
def logCopied (start : UInt64) (len : Nat) : Nat :=
  min len (env.logTotal - max start.toNat (env.logTotal - LOG_CAP))

/-- The checks of `SYS_LOG_READ`. -/
def logReadPasses (ptr len : UInt64) : Bool :=
  ptr != 0 && len != 0 && userRange ptr (min len.toNat LOG_READ_MAX)

/-- The checks of `SYS_PCI_INFO`. -/
def pciInfoPasses (index ptr : UInt64) : Bool :=
  env.pciEntry index.toNat && ptr != 0 && userRange ptr REC_BYTES

/-- The accesses of `syscall_dispatch` through its arguments. -/
def accesses (num a1 a2 a3 : UInt64) : List UserAccess :=
  match pointerCall num with
  | none => []
  | some .send | some .call => readUserPayload a3
  | some .recv => writeMessage a1
  | some .tryRecv => if env.message then writeMessage a1 else []
  | some .puts => [⟨false, a1, a2.toNat⟩]
  | some .spawnElf => readImage env a1 a2
  | some .spawnElfAt => readImage env a2 a3
  | some .fbInfo => if fbInfoPasses env a1 then [⟨true, a1, FB_INFO_SIZE⟩] else []
  | some .uname =>
    match unameTotal env a3 with
    | none => []
    | some total => if unamePasses a1 a2 total then [⟨true, a1, total⟩] else []
  | some .logRead =>
    if logReadPasses a1 a2 then [⟨true, a1, logCopied env a3 (min a2.toNat LOG_READ_MAX)⟩] else []
  | some .pciInfo => if pciInfoPasses env a1 a2 then [⟨true, a2, REC_BYTES⟩] else []

/-! ## When they stay in the user region -/

/-- Every byte of the access is in the user region. -/
def UserAccess.Confined : Prop := ∀ k < access.len, InUserRegion (access.byte k)

/-- The bytes from `addr` on are in the user region. -/
def Inside (addr : UInt64) (len : Nat) : Prop :=
  USER_SPACE_BASE ≤ addr.toNat ∧ addr.toNat + len ≤ USER_SPACE_END

/-- The part of the address that `is_user_address` does not look at is zero. -/
def HighClear (addr : UInt64) : Prop := addr.toNat < 2 ^ 48

/-- The arguments for which a call stays in the user region. -/
def ProperArguments (num a1 a2 a3 : UInt64) : Prop :=
  match pointerCall num with
  | none => True
  | some .send | some .call =>
    a3 ≠ 0 → userArg a3 = true → a3.toNat + PAYLOAD_LEN ≤ USER_SPACE_END
  | some .recv => a1 ≠ 0 → Inside a1 MESSAGE_SIZE
  | some .tryRecv => env.message = true → a1 ≠ 0 → Inside a1 MESSAGE_SIZE
  | some .puts => a2 ≠ 0 → Inside a1 a2.toNat
  | some .spawnElf => env.spawn = true → userElfImage env a1 a2 = true → HighClear a1
  | some .spawnElfAt => env.spawn = true → userElfImage env a2 a3 = true → HighClear a2
  | some .fbInfo => fbInfoPasses env a1 = true → HighClear a1
  | some .uname => ∀ total, unameTotal env a3 = some total → unamePasses a1 a2 total = true →
      HighClear a1
  | some .logRead => logReadPasses a1 a2 = true →
      max a3.toNat (env.logTotal - LOG_CAP) < env.logTotal → HighClear a1
  | some .pciInfo => pciInfoPasses env a1 a2 = true → HighClear a2

theorem userSpaceBase_eq : USER_SPACE_BASE = 2 ^ 39 := rfl
theorem userSpaceEnd_eq : USER_SPACE_END = 2 ^ 40 := rfl

theorem confined_iff {write : Bool} {addr : UInt64} {len : Nat} (some_ : 0 < len) :
    UserAccess.Confined ⟨write, addr, len⟩ ↔ Inside addr len := by
  have bound : addr.toNat < 2 ^ 64 := addr.toNat_lt
  simp only [UserAccess.Confined, UserAccess.byte, InUserRegion, Inside, userSpaceEnd_eq]
  constructor
  · intro confined
    have first := confined 0 some_
    refine ⟨by omega, ?_⟩
    -- otherwise the byte right after the region is accessed
    by_contra beyond
    have after := confined (2 ^ 40 - addr.toNat) (by omega)
    omega
  · rintro ⟨low, high⟩ k within
    omega

theorem last_toNat (addr : UInt64) {len : Nat} (some_ : 0 < len) (small : len ≤ 2 ^ 20) :
    (addr + UInt64.ofNat len - 1).toNat = (addr.toNat + len - 1) % 2 ^ 64 := by
  rw [UInt64.toNat_sub, UInt64.toNat_add, UInt64.toNat_ofNat', UInt64.toNat_one]
  omega

/-- A range whose ends pass `is_user_address` is in the user region exactly if the
address has nothing above bit 47; so is every part of it that starts with it. -/
theorem checked_confined_iff {write : Bool} {addr : UInt64} {len n : Nat} (some_ : 0 < n)
    (within : n ≤ len) (small : len ≤ 2 ^ 20) (ends : userRange addr len = true) :
    UserAccess.Confined ⟨write, addr, n⟩ ↔ HighClear addr := by
  rw [userRange, Bool.and_eq_true, userArg, userArg, last_toNat addr (by omega) small] at ends
  simp only [isUserAddress, beq_iff_eq] at ends
  rw [confined_iff some_, Inside, HighClear, userSpaceBase_eq, userSpaceEnd_eq]
  omega

/-! ## The calls -/

/-- All accesses in the list stay in the user region. -/
def AllConfined (made : List UserAccess) : Prop := ∀ access ∈ made, access.Confined

@[simp] theorem allConfined_nil : AllConfined [] := fun _ member => nomatch member

@[simp] theorem allConfined_singleton :
    AllConfined [access] ↔ access.Confined :=
  ⟨fun all => all access (List.mem_singleton.mpr rfl), fun confined _ member =>
    List.mem_singleton.mp member ▸ confined⟩

theorem allConfined_ite (passes : Bool) (access : UserAccess) :
    AllConfined (if passes = true then [access] else []) ↔ (passes = true → access.Confined) := by
  cases passes <;> simp

theorem readUserPayload_confined (ptr : UInt64) :
    AllConfined (readUserPayload ptr) ↔
      (ptr ≠ 0 → userArg ptr = true → ptr.toNat + PAYLOAD_LEN ≤ USER_SPACE_END) := by
  unfold readUserPayload
  split
  next refused =>
    simp only [Bool.or_eq_true, decide_eq_true_eq] at refused
    refine iff_of_true allConfined_nil fun given user => ?_
    rcases refused with zero | refused
    · exact absurd zero given
    · rw [user] at refused
      cases refused
  next passes =>
    simp only [Bool.or_eq_true, decide_eq_true_eq, Bool.not_eq_true', not_or,
      Bool.not_eq_false] at passes
    rw [allConfined_singleton, confined_iff (by decide)]
    refine ⟨fun inside _ _ => inside.2, fun high => ⟨?_, high passes.1 passes.2⟩⟩
    have user := passes.2
    rw [userArg, isUserAddress, beq_iff_eq] at user
    rw [userSpaceBase_eq]
    omega

theorem writeMessage_confined (ptr : UInt64) :
    AllConfined (writeMessage ptr) ↔ (ptr ≠ 0 → Inside ptr MESSAGE_SIZE) := by
  unfold writeMessage
  split
  next given => rw [allConfined_singleton, confined_iff (by decide), imp_iff_right given]
  next null => exact iff_of_true allConfined_nil fun given => absurd given null

theorem readImage_confined (ptr len : UInt64) :
    AllConfined (readImage env ptr len) ↔
      (env.spawn = true → userElfImage env ptr len = true → HighClear ptr) := by
  rw [readImage, allConfined_ite, Bool.and_eq_true, and_imp]
  refine imp_congr_right fun _ => imp_congr_right fun passes => ?_
  simp only [userElfImage, Bool.and_eq_true, decide_eq_true_eq] at passes
  obtain ⟨⟨⟨⟨⟨first, least⟩, most⟩, -⟩, last⟩, -⟩ := passes
  have ends : userRange ptr len.toNat = true := by
    rw [userRange, UInt64.ofNat_toNat, first, last, Bool.and_self]
  exact checked_confined_iff (by omega) (Nat.le_refl _) most ends

theorem unameTotal_spec {env : CallEnv} {which : UInt64} {total : Nat}
    (told : unameTotal env which = some total) : 0 < total ∧ total ≤ UNAME_MAX := by
  rw [unameTotal, Option.bind_eq_bind, Option.bind_eq_some_iff] at told
  obtain ⟨n, -, told⟩ := told
  split at told
  · cases told
  · cases told
    omega

/-- **Pointer arguments**: for every system call number and all arguments, the accesses
that the call makes through its arguments stay inside the caller's user region exactly if
the arguments are proper. -/
theorem pointer_accesses_confined (env : CallEnv) (num a1 a2 a3 : UInt64) :
    AllConfined (accesses env num a1 a2 a3) ↔ ProperArguments env num a1 a2 a3 := by
  unfold accesses ProperArguments
  split
  · exact iff_of_true allConfined_nil trivial
  · exact readUserPayload_confined a3
  · exact readUserPayload_confined a3
  · exact writeMessage_confined a1
  · split
    next waits => rw [writeMessage_confined, imp_iff_right waits]
    next empty => exact iff_of_true allConfined_nil fun waits => absurd waits empty
  · rw [allConfined_singleton]
    by_cases some_ : 0 < a2.toNat
    · have given : a2 ≠ 0 := by
        rintro rfl
        exact absurd some_ (by decide)
      rw [confined_iff some_, imp_iff_right given]
    · have none_ : a2 = 0 := UInt64.toNat_inj.mp (by simpa using some_)
      exact iff_of_true (fun k within => absurd within (by simp at some_ ⊢; omega))
        (absurd none_)
  · exact readImage_confined env a1 a2
  · exact readImage_confined env a2 a3
  · rw [allConfined_ite]
    refine imp_congr_right fun passes => ?_
    rw [fbInfoPasses, Bool.and_eq_true] at passes
    exact checked_confined_iff (by decide) (Nat.le_refl _) (by decide) passes.2
  · split
    next silent =>
      refine iff_of_true allConfined_nil fun total told => ?_
      rw [silent] at told
      cases told
    next total told =>
      obtain ⟨some_, small⟩ := unameTotal_spec told
      rw [allConfined_ite]
      have exact_ : unamePasses a1 a2 total = true →
          (UserAccess.Confined ⟨true, a1, total⟩ ↔ HighClear a1) := fun passes => by
        rw [unamePasses, Bool.and_eq_true] at passes
        exact checked_confined_iff some_ (Nat.le_refl _) (Nat.le_trans small (by decide)) passes.2
      constructor
      · intro confined total' told' passes
        obtain rfl : total = total' := Option.some.inj (told.symm.trans told')
        exact (exact_ passes).mp (confined passes)
      · exact fun clear passes => (exact_ passes).mpr (clear total told passes)
  · rw [allConfined_ite]
    refine imp_congr_right fun passes => ?_
    rw [logReadPasses, Bool.and_eq_true, Bool.and_eq_true, bne_iff_ne, bne_iff_ne] at passes
    obtain ⟨⟨-, given⟩, ends⟩ := passes
    have some_ : 0 < a2.toNat := by
      refine Nat.pos_of_ne_zero fun zero => given (UInt64.toNat_inj.mp zero)
    have small : min a2.toNat LOG_READ_MAX ≤ 2 ^ 20 := Nat.min_le_right _ _
    by_cases left : max a3.toNat (env.logTotal - LOG_CAP) < env.logTotal
    · have copied : 0 < logCopied env a3 (min a2.toNat LOG_READ_MAX) := by
        have read : 0 < LOG_READ_MAX := by decide
        unfold logCopied
        omega
      rw [imp_iff_right left]
      exact checked_confined_iff copied (Nat.min_le_left _ _) small ends
    · have nothing : logCopied env a3 (min a2.toNat LOG_READ_MAX) = 0 := by
        unfold logCopied
        omega
      rw [nothing]
      exact iff_of_true (fun k within => absurd within (Nat.not_lt_zero k))
        fun more => absurd more left
  · rw [allConfined_ite]
    refine imp_congr_right fun passes => ?_
    rw [pciInfoPasses, Bool.and_eq_true] at passes
    exact checked_confined_iff (by decide) (Nat.le_refl _) (by decide) passes.2

/-- A caller without capabilities in an empty system. -/
def idleCall : CallEnv where
  spawn := false
  fb := false
  message := false
  space := none
  logTotal := 0
  pciEntry := fun _ => false
  variant := ""
  build := "dev"

/-- `SYS_RECV` writes the message to kernel memory, `SYS_SEND` reads a payload that begins
with the last byte of the user region, and `SYS_UNAME` writes to an address that is not
canonical. -/
theorem pointers_leave_user_region :
    ¬ AllConfined (accesses idleCall 3 0x100000 0 0) ∧
      ¬ AllConfined (accesses idleCall 2 0 0 0xffffffffff) ∧
      ¬ AllConfined (accesses idleCall 51 0x1008000000000 96 1) := by
  refine ⟨fun confined => ?_, fun confined => ?_, fun confined => ?_⟩
  · have inside := (writeMessage_confined 0x100000).mp confined (by decide)
    exact absurd inside.1 (by decide)
  · have inside := (readUserPayload_confined 0xffffffffff).mp confined (by decide) (by decide)
    exact absurd inside (by decide)
  · have made : accesses idleCall 51 0x1008000000000 96 1 = [⟨true, 0x1008000000000, 6⟩] := by
      decide +kernel
    rw [made, allConfined_singleton, confined_iff (by decide)] at confined
    exact absurd confined.2 (by decide)

end MorionOS.Kernel
