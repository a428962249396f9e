import Mathlib.Tactic.IntervalCases
import Mathlib.Tactic.Linarith
import Mathlib.Algebra.Order.Ring.Int

/-!
# Days and dates

The services count days since 1970 and convert them to dates with the era arithmetic
of `civil_from_days` and `days_from_civil`.  A `Date` is a day of the Gregorian calendar,
and `Date.next` the day after it.  `days_and_dates_correspond` says that the two
conversions are inverse to each other and that consecutive numbers are consecutive dates.

The source computes in `i64` and divides towards zero, as `Int.tdiv` does.  No number that
occurs is further from 0 than the day number and 10⁶, or than 366 times the year and 10⁶:
the day numbers are those of 64-bit seconds, the years have at most five digits, and so
nothing overflows.
-/

namespace MorionOS.Calendar

open Int

def civilFromDays (days : Int) : Int × Int × Int :=
  let z := days + 719468
  let era := (if 0 ≤ z then z else z - 146096).tdiv 146097
  let doe := z - era * 146097
  let yoe := (doe - doe.tdiv 1460 + doe.tdiv 36524 - doe.tdiv 146096).tdiv 365
  let y := yoe + era * 400
  let doy := doe - (365 * yoe + yoe.tdiv 4 - yoe.tdiv 100)
  let mp := (5 * doy + 2).tdiv 153
  let d := doy - (153 * mp + 2).tdiv 5 + 1
  let m := if mp < 10 then mp + 3 else mp - 9
  (if m ≤ 2 then y + 1 else y, m, d)

def daysFromCivil (y m d : Int) : Int :=
  let y := if m ≤ 2 then y - 1 else y
  let era := (if 0 ≤ y then y else y - 399).tdiv 400
  let yoe := y - era * 400
  let mp := if 2 < m then m - 3 else m + 9
  let doy := (153 * mp + 2).tdiv 5 + d - 1
  let doe := yoe * 365 + yoe.tdiv 4 - yoe.tdiv 100 + doy
  era * 146097 + doe - 719468

/-! ## The Gregorian calendar -/

def monthLength (y m : Int) : Int :=
  if m = 2 then if y % 4 = 0 ∧ (y % 100 ≠ 0 ∨ y % 400 = 0) then 29 else 28
  else if m = 4 ∨ m = 6 ∨ m = 9 ∨ m = 11 then 30 else 31

theorem monthLength_pos (y m : Int) : 1 ≤ monthLength y m := by
  rw [monthLength]
  split_ifs <;> decide

structure Date where
  year : Int
  month : Int
  day : Int
  inYear : 1 ≤ month ∧ month ≤ 12
  inMonth : 1 ≤ day ∧ day ≤ monthLength year month

namespace Date

variable (v : Date)

def civil : Int × Int × Int := (v.year, v.month, v.day)

def days : Int := daysFromCivil v.year v.month v.day

def next : Date :=
  if more : v.day < monthLength v.year v.month then
    { v with day := v.day + 1, inMonth := ⟨by have := v.inMonth; omega, more⟩ }
  else if more : v.month < 12 then
    ⟨v.year, v.month + 1, 1, by have := v.inYear; omega, le_rfl, monthLength_pos _ _⟩
  else ⟨v.year + 1, 1, 1, by decide, le_rfl, monthLength_pos _ _⟩

end Date

/-! ## Era arithmetic -/

/-- The two conversions divide towards minus infinity. -/
theorem floor_tdiv (z : Int) {n : Int} (pos : 0 < n) :
    (if 0 ≤ z then z else z - (n - 1)).tdiv n = z / n := by
  split
  next nonneg => exact tdiv_eq_ediv_of_nonneg nonneg
  next neg =>
    have low := emod_nonneg z pos.ne'
    have high := emod_lt_of_pos z pos
    have split := emod_add_mul_ediv z n
    have quotient : (n - 1 - z) / n = -(z / n) :=
      ((Int.ediv_emod_unique pos).mpr ⟨by linarith, by omega, by omega⟩ :
        _ ∧ (n - 1 - z) % n = n - 1 - z % n).1
    rw [← neg_sub (n - 1) z, Int.neg_tdiv, tdiv_eq_ediv_of_nonneg (by omega), quotient, neg_neg]

/-- A year in its era, century and cycle of four years. -/
theorem year_split (y : Int) : ∃ era a c e : Int, y = 400 * era + (100 * a + 4 * c + e) ∧
    (0 ≤ a ∧ a ≤ 3) ∧ (0 ≤ c ∧ c ≤ 24) ∧ 0 ≤ e ∧ e ≤ 3 :=
  ⟨y / 400, y % 400 / 100, y % 100 / 4, y % 4, by omega, by omega, by omega, by omega⟩

/-- Years start in March: the leap day is the last one of a year. -/
theorem yearOfEra {a c e doy : Int} (century : 0 ≤ a ∧ a ≤ 3) (cycle : 0 ≤ c ∧ c ≤ 24)
    (year : 0 ≤ e ∧ e ≤ 3) (first : 0 ≤ doy) (last : doy ≤ 364 ∨ doy = 365 ∧ e = 3 ∧ (c = 24 → a = 3)) :
    let doe := 36524 * a + 1461 * c + 365 * e + doy
    (doe - doe / 1460 + doe / 36524 - doe / 146096) / 365 = 100 * a + 4 * c + e := by
  intro doe
  have centuries : doe / 36524 = if a = 3 ∧ c = 24 ∧ e = 3 ∧ doy = 365 then 4 else a := by
    split <;> omega
  have eras : doe / 146096 = if a = 3 ∧ c = 24 ∧ e = 3 ∧ doy = 365 then 1 else 0 := by
    split <;> omega
  have cycles : doe / 1460 = 25 * a + c + if 24 * a + c + 365 * e + doy < 1460 then 0 else 1 := by
    split <;> omega
  rw [cycles, centuries, eras]
  split <;> split <;> omega

/-- The days before the year `y` when years start in March. -/
def daysBefore (y : Int) : Int := 365 * y + y / 4 - y / 100 + y / 400

theorem civilFromDays_eq {y doy : Int} (first : 0 ≤ doy)
    (last : doy ≤ 364 ∨ doy = 365 ∧ (y + 1) % 4 = 0 ∧ ((y + 1) % 100 ≠ 0 ∨ (y + 1) % 400 = 0)) :
    civilFromDays (daysBefore y + doy - 719468) =
      let mp := (5 * doy + 2) / 153
      let m := if mp < 10 then mp + 3 else mp - 9
      (if m ≤ 2 then y + 1 else y, m, doy - (153 * mp + 2) / 5 + 1) := by
  obtain ⟨era, a, c, e, rfl, century, cycle, cycleYear⟩ := year_split y
  have short : doy ≤ 364 ∨ doy = 365 ∧ e = 3 ∧ (c = 24 → a = 3) := by omega
  obtain ⟨doe, here⟩ : ∃ doe, doe = 36524 * a + 1461 * c + 365 * e + doy := ⟨_, rfl⟩
  have low : 0 ≤ doe := by omega
  have shift : daysBefore (400 * era + (100 * a + 4 * c + e)) + doy - 719468 + 719468 =
      146097 * era + doe := by
    rw [daysBefore]
    omega
  have eras : (if 0 ≤ 146097 * era + doe then 146097 * era + doe
      else 146097 * era + doe - 146096).tdiv 146097 = era :=
    (floor_tdiv _ (by decide : (0 : Int) < 146097)).trans (by omega)
  have rest : 146097 * era + doe - era * 146097 = doe := by omega
  have days : doe - (365 * (100 * a + 4 * c + e) + (100 * a + 4 * c + e) / 4 -
      (100 * a + 4 * c + e) / 100) = doy := by omega
  have nonneg : 0 ≤ doe - doe / 1460 + doe / 36524 - doe / 146096 := by omega
  have year : 0 ≤ 100 * a + 4 * c + e := by omega
  have months : 0 ≤ 153 * ((5 * doy + 2) / 153) + 2 := by omega
  have yoe := yearOfEra century cycle cycleYear first short
  rw [← here] at yoe
  simp only [civilFromDays, shift, eras, rest, tdiv_eq_ediv_of_nonneg low,
    tdiv_eq_ediv_of_nonneg nonneg, yoe, tdiv_eq_ediv_of_nonneg year, days,
    tdiv_eq_ediv_of_nonneg (by omega : 0 ≤ 5 * doy + 2), tdiv_eq_ediv_of_nonneg months]
  rw [Int.mul_comm era, Int.add_comm _ (400 * era)]

theorem daysFromCivil_eq {m : Int} (month : 1 ≤ m) (y d : Int) :
    daysFromCivil y m d = daysBefore (if m ≤ 2 then y - 1 else y) +
      ((153 * (if 2 < m then m - 3 else m + 9) + 2) / 5 + d - 1) - 719468 := by
  obtain ⟨y, here⟩ : ∃ y', y' = if m ≤ 2 then y - 1 else y := ⟨_, rfl⟩
  have eras : (if 0 ≤ y then y else y - 399).tdiv 400 = y / 400 :=
    floor_tdiv _ (by decide : (0 : Int) < 400)
  have low : 0 ≤ y - y / 400 * 400 := by omega
  have months : 0 ≤ 153 * (if 2 < m then m - 3 else m + 9) + 2 := by split <;> omega
  simp only [daysFromCivil, daysBefore, ← here, eras, tdiv_eq_ediv_of_nonneg low,
    tdiv_eq_ediv_of_nonneg months]
  omega

/-! ## Dates -/

namespace Date

theorem civil_days (v : Date) : civilFromDays v.days = v.civil := by
  obtain ⟨y, m, d, ⟨low, high⟩, inMonth⟩ := v
  rw [days, daysFromCivil_eq low, civil]
  simp only [monthLength] at inMonth
  rw [civilFromDays_eq]
  all_goals interval_cases m <;> simp at inMonth ⊢ <;> omega

theorem days_next (v : Date) : v.next.days = v.days + 1 := by
  obtain ⟨y, m, d, ⟨low, high⟩, inMonth⟩ := v
  simp only [next, days]
  split
  · simp only [daysFromCivil_eq low]
    omega
  · split
    · simp only [daysFromCivil_eq low, daysFromCivil_eq (by omega : 1 ≤ m + 1)]
      simp only [monthLength] at *
      interval_cases m <;> simp [daysBefore] at * <;> omega
    · obtain rfl : m = 12 := by omega
      simp only [daysFromCivil_eq low, daysFromCivil_eq le_rfl]
      simp [monthLength] at *
      omega

theorem days_iterate (k : Nat) (v : Date) : (next^[k] v).days = v.days + k := by
  induction k generalizing v with
  | zero => simp
  | succ k ih =>
    rw [Function.iterate_succ_apply, ih, days_next]
    omega

/-- Every day is the day of a date: it comes after a first of January of some era. -/
theorem days_surjective (n : Int) : ∃ v : Date, v.days = n := by
  let start : Date := ⟨1970 - 400 * n.natAbs, 1, 1, by decide, le_rfl, monthLength_pos _ _⟩
  have early : start.days = -146097 * n.natAbs := by
    rw [days, daysFromCivil_eq le_rfl, daysBefore]
    simp only [start]
    omega
  refine ⟨next^[(n - start.days).toNat] start, ?_⟩
  rw [days_iterate]
  omega

end Date

/-- **Days and dates correspond**: every day number is the one of the date it is converted to, every
date is the one its day number is converted to, and the next day number gives the next date. -/
theorem days_and_dates_correspond (n : Int) (v : Date) :
    (∃ w : Date, civilFromDays n = w.civil ∧ w.days = n ∧ civilFromDays (n + 1) = w.next.civil) ∧
      civilFromDays v.days = v.civil := by
  obtain ⟨w, rfl⟩ := Date.days_surjective n
  refine ⟨⟨w, w.civil_days, rfl, ?_⟩, v.civil_days⟩
  rw [← w.days_next]
  exact w.next.civil_days

end MorionOS.Calendar
