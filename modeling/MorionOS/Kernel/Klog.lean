import MorionOS.Lib.Ring

/-!
# The kernel log

`klog.rs` keeps the last `LOG_CAP` bytes of all console output in a ring and reads them by absolute
position.  The ring is a window on the history of captured bytes: the slots from the oldest retained
position on hold what the history has there (`log_is_window`).
-/

namespace MorionOS.Kernel

open List Function

def LOG_CAP : Nat := 64 * 1024

structure Klog where
  buf : Nat → UInt8 := fun _ => 0
  head : Nat := 0
  total : Nat := 0

namespace Klog

def captureByte (k : Klog) (b : UInt8) : Klog where
  buf := update k.buf k.head b
  head := (k.head + 1) % LOG_CAP
  total := k.total + 1

def captureBytes (k : Klog) (bytes : List UInt8) : Klog := bytes.foldl captureByte k

/-- The log after these outputs. -/
def captured (captures : List (List UInt8)) : Klog := captures.foldl captureBytes {}

variable (k : Klog)

def oldest : Nat := k.total - LOG_CAP

/-- The loop of `read`: the bytes from position `s` on while there is room in the buffer. -/
def readLoop : Nat → Nat → List UInt8
  | 0, _ => []
  | room + 1, s => if s < k.total then k.buf (s % LOG_CAP) :: readLoop room (s + 1) else []

/-- The bytes that `read` puts into a buffer of length `len`. -/
def read (start len : Nat) : List UInt8 :=
  let s := if start < k.oldest then k.oldest else start
  if k.total ≤ s then [] else k.readLoop len s

/-- Reading on from a position until nothing comes, at most `turns` times. -/
def readOn (len : Nat) : Nat → Nat → List UInt8
  | 0, _ => []
  | turns + 1, start =>
    let got := k.read start len
    if got = [] then [] else got ++ readOn len turns (start + got.length)

/-- The ring after these bytes, from the first one on. -/
structure Window (k : Klog) (history : List UInt8) : Prop where
  total : k.total = history.length
  head : k.head = k.total % LOG_CAP
  holds : SlotRing.Holds LOG_CAP k.buf k.oldest (history.drop k.oldest)

variable {k} {history : List UInt8}

theorem Window.captureByte (w : k.Window history) (b : UInt8) :
    (k.captureByte b).Window (history ++ [b]) where
  total := by simp [Klog.captureByte, w.total]
  head := by
    rw [Klog.captureByte, w.head]
    exact SlotRing.succ_mod_mod _
  holds := by
    -- a full ring loses its oldest byte, whose slot the new one takes
    have total := w.total
    have lost : k.total + 1 - LOG_CAP = k.oldest ∨
        k.total + 1 - LOG_CAP = k.oldest + 1 ∧ k.oldest < history.length := by
      simp only [oldest, LOG_CAP]
      omega
    have kept : SlotRing.Holds LOG_CAP k.buf (k.total + 1 - LOG_CAP)
        (history.drop (k.total + 1 - LOG_CAP)) := by
      rcases lost with same | ⟨next, inside⟩
      · rw [same]
        exact w.holds
      · have all := w.holds
        rw [drop_eq_getElem_cons inside] at all
        rw [next]
        exact all.rest
    have room : (history.drop (k.total + 1 - LOG_CAP)).length < LOG_CAP := by
      rw [length_drop, LOG_CAP]
      omega
    have more := kept.write room b
    rwa [length_drop, ← total, Nat.add_sub_cancel' (by rw [LOG_CAP]; omega), ← w.head,
      ← drop_append_of_le_length (by rw [LOG_CAP]; omega)] at more

theorem Window.captureBytes (w : k.Window history) (bytes : List UInt8) :
    (k.captureBytes bytes).Window (history ++ bytes) := by
  induction bytes generalizing k history with
  | nil => rwa [append_nil]
  | cons b rest ih =>
    rw [append_cons]
    exact ih (w.captureByte b)

theorem Window.readLoop (w : k.Window history) (room s : Nat) (old : k.oldest ≤ s) :
    k.readLoop room s = (history.drop s).take room := by
  induction room generalizing s with
  | zero => rfl
  | succ room ih =>
    rw [Klog.readLoop, w.total]
    split
    next inside =>
      have here := w.holds (s - k.oldest) history[s] (by simp [Nat.add_sub_cancel' old, inside])
      rw [Nat.add_sub_cancel' old] at here
      rw [here, ih (s + 1) (by omega), drop_eq_getElem_cons inside, take_succ_cons]
    next outside => rw [drop_eq_nil_of_le (Nat.not_lt.mp outside), take_nil]

theorem Window.read (w : k.Window history) (start len : Nat) :
    k.read start len = (history.drop (max start k.oldest)).take len := by
  have clamped : (if start < k.oldest then k.oldest else start) = max start k.oldest := by
    split <;> omega
  rw [Klog.read, clamped]
  split
  next beyond => rw [drop_eq_nil_of_le (w.total ▸ beyond), take_nil]
  next => exact w.readLoop len _ (Nat.le_max_right ..)

theorem Window.readOn (w : k.Window history) (len turns start : Nat) (old : k.oldest ≤ start)
    (enough : history.length ≤ start + turns) :
    k.readOn (len + 1) turns start = history.drop start := by
  induction turns generalizing start with
  | zero => exact (drop_eq_nil_of_le enough).symm
  | succ turns ih =>
    rw [Klog.readOn, w.read, Nat.max_eq_left old]
    split
    next empty => exact ((take_eq_nil_iff.mp empty).resolve_left (Nat.succ_ne_zero len)).symm
    next nonempty =>
      have pos : 0 < ((history.drop start).take (len + 1)).length := length_pos_iff.mpr nonempty
      rw [ih _ (by omega) (by omega), ← drop_drop]
      exact prefix_iff_eq_append.mp ( take_prefix ..)

end Klog

/-- **The log is an exact window on the history**: the last `LOG_CAP` bytes of all that was captured. -/
theorem log_is_window (captures : List (List UInt8)) :
    (Klog.captured captures).total = captures.flatten.length ∧
      (Klog.captured captures).oldest = captures.flatten.length - LOG_CAP ∧
      (∀ start len, (Klog.captured captures).read start len =
        (captures.flatten.drop (max start (Klog.captured captures).oldest)).take len) ∧
      ∀ len more, (Klog.captured captures).readOn (len + 1) (LOG_CAP + more) (Klog.captured captures).oldest =
        captures.flatten.drop (Klog.captured captures).oldest := by
  have start : Klog.Window {} [] := ⟨rfl, (Nat.zero_mod _).symm, SlotRing.holds_nil⟩
  have w := start.captureBytes captures.flatten
  rw [Klog.captureBytes, foldl_flatten] at w
  change (Klog.captured captures).Window captures.flatten at w
  refine ⟨w.total, congrArg (· - LOG_CAP) w.total, w.read, fun len more => w.readOn len _ _ le_rfl ?_⟩
  rw [← w.total, Klog.oldest]
  omega

end MorionOS.Kernel
