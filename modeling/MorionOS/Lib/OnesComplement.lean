import Mathlib.Tactic

/-!
# Checksums in one's complement

The sum of the 16-bit words of a string of bytes, with the carries folded back in.  Folding
keeps the sum modulo `2 ^ 16 - 1`, so data that contains its own checksum is recognised by a
sum that is a multiple of `2 ^ 16 - 1` (and not zero, which only zero bytes have).
-/

namespace OnesComplement

/-- The sum of the words, high byte first; an odd byte at the end is a high byte. -/
def wordSum : List UInt8 → Nat
  | hi :: lo :: rest => hi.toNat * 256 + lo.toNat + wordSum rest
  | [hi] => hi.toNat * 256
  | [] => 0

/-- Add the carries until 16 bits are left. -/
def fold (s : Nat) : Nat :=
  if s < 2 ^ 16 then s else fold (s % 2 ^ 16 + s / 2 ^ 16)
termination_by s

/-- The bytes contain the checksum of the rest. -/
def Verifies (bytes : List UInt8) : Prop := wordSum bytes ≠ 0 ∧ wordSum bytes % (2 ^ 16 - 1) = 0

instance (bytes : List UInt8) : Decidable (Verifies bytes) := inferInstanceAs (Decidable (_ ∧ _))

theorem fold_lt (s : Nat) : fold s < 2 ^ 16 := by
  fun_induction fold s with
  | case1 s small => exact small
  | case2 s _ ih => exact ih

theorem fold_mod (s : Nat) : fold s % (2 ^ 16 - 1) = s % (2 ^ 16 - 1) := by
  fun_induction fold s with
  | case1 s _ => rfl
  | case2 s _ ih =>
    omega

theorem fold_eq_zero (s : Nat) : fold s = 0 ↔ s = 0 := by
  fun_induction fold s with
  | case1 s _ => rfl
  | case2 s large ih =>
    omega

/-- All 16 bits are set exactly when the sum is a multiple of `2 ^ 16 - 1`. -/
theorem fold_eq_ones (s : Nat) : fold s = 2 ^ 16 - 1 ↔ s ≠ 0 ∧ s % (2 ^ 16 - 1) = 0 := by
  have small := fold_lt s
  have same := fold_mod s
  have zero := fold_eq_zero s
  constructor
  · intro ones
    exact ⟨fun none => by omega, by omega⟩
  · rintro ⟨some, multiple⟩
    omega

/-- The words of two strings in a row, when the first has no odd byte. -/
theorem wordSum_append (rest : List UInt8) :
    ∀ bytes : List UInt8, bytes.length % 2 = 0 → wordSum (bytes ++ rest) = wordSum bytes + wordSum rest
  | [], _ => by simp [wordSum]
  | hi :: lo :: more, even => by
      have ih := wordSum_append rest more (by simp only [List.length_cons] at even; omega)
      simp only [List.cons_append, wordSum]
      omega

end OnesComplement
