import MultifunctionClock.Clock.CTime
import MultifunctionClock.Lib.Gregorian

/-! The loops of `gmtime_r` compute Gregorian dates, and `mktime` counts the same days back. -/

namespace MultifunctionClock

open Gregorian

/-- Values that fit an `int` are converted unchanged. -/
theorem int32_eq {value : ℤ} (lower : -2 ^ 31 ≤ value) (upper : value < 2 ^ 31) :
    int32 value = value := by
  unfold int32
  exact Int.bmod_eq_of_le (by omega) (by omega)

/-- The leap-year test of the source is the calendar's. -/
theorem isleap_eq (year : ℕ) : isleap year = isLeap year := by
  -- On a non-negative year the remainders of C are the ordinary ones.
  have remainder (divisor : ℤ) : (year : ℤ).tmod divisor = year % divisor :=
    Int.tmod_eq_emod_of_nonneg (by omega)
  simp only [isleap, isLeap, remainder]
  rw [Bool.eq_iff_iff]
  simp only [Bool.and_eq_true, Bool.or_eq_true, beq_iff_eq, bne_iff_ne, decide_eq_true_eq,
    Bool.not_eq_true', decide_eq_false_iff_not]
  omega

/-- A year that fits an `int` has the length the calendar gives it. -/
theorem yearDays_eq {year : ℕ} (fits : year < 2 ^ 31) : yearDays year = yearLength year := by
  -- The conversion to `int` does not change the year, and the leap-year tests agree.
  unfold yearDays yearLength
  rw [int32_eq (by omega) (by exact_mod_cast fits), isleap_eq]
  split <;> rfl

/-- The first loop of `gmtime_r` splits a day number into its year and the days left over. -/
theorem gmtimeYear_eq (year days : ℕ) (fits : yearStart year + days < yearStart (2 ^ 31)) :
    ∃ reached left : ℕ, gmtimeYear year days = ((reached : ℤ), (left : ℤ)) ∧
      left < yearLength reached ∧ yearStart year + days = yearStart reached + left := by
  -- Each turn moves one whole year from the days into the year, until less than a year is left.
  induction days using Nat.strongRecOn generalizing year with
  | _ days ih =>
    have inside : year < 2 ^ 31 := by
      by_contra beyond
      have := yearStart_le (show 2 ^ 31 ≤ year by omega)
      omega
    rw [gmtimeYear, yearDays_eq inside]
    by_cases more : yearLength year ≤ days
    · have positive : 0 < yearLength year := by unfold yearLength; split <;> omega
      have next : ((days : ℤ) - yearLength year) = ((days - yearLength year : ℕ) : ℤ) := by omega
      rw [if_pos (by omega), next, show (year : ℤ) + 1 = ((year + 1 : ℕ) : ℤ) by omega]
      obtain ⟨reached, left, result, short, same⟩ :=
        ih (days - yearLength year) (by omega) (year + 1) (by simp only [yearStart]; omega)
      exact ⟨reached, left, result, short, by simp only [yearStart] at same; omega⟩
    · rw [if_neg (by omega)]
      exact ⟨year, days, rfl, by omega, rfl⟩

/-- The month search stops at the month whose table interval holds the day. -/
theorem gmtimeMonth_spec (work : ℤ) (positive : 0 ≤ work) (top : ℕ) (below : work < spm (top + 1)) :
    gmtimeMonth work top ≤ top ∧ spm (gmtimeMonth work top) ≤ work ∧
      work < spm (gmtimeMonth work top + 1) := by
  -- The search goes down from a month whose end lies behind the day, and keeps that end behind it.
  induction top with
  | zero => exact ⟨le_refl 0, positive, below⟩
  | succ top ih =>
    rw [gmtimeMonth]
    split
    · rename_i later
      obtain ⟨bound, rest⟩ := ih later
      exact ⟨by omega, rest⟩
    · exact ⟨le_refl _, by omega, below⟩

/--
The month table is the common year's month starts, one day behind a leap year's from March on.
-/
theorem monthStart_spm (leap : Bool) {month : ℕ} (inside : month < 13) :
    (monthStart leap (month + 1) : ℤ) = spm month + if leap &&
      decide (month > 1) then 1 else 0 := by
  -- Thirteen entries for each kind of year.
  cases leap <;> interval_cases month <;> rfl

/-- No table entry is negative. -/
theorem spm_nonneg (month : ℕ) : 0 ≤ spm month := by
  -- The thirteen entries are counts of days, and a subscript past them reads as zero here.
  by_cases inside : month < 13
  · interval_cases month <;> decide
  · have outside : spmTable[month]? = none :=
      List.getElem?_eq_none (by simp only [spmTable, List.length_cons, List.length_nil]; omega)
    simp [spm, List.getD_eq_getElem?_getD, outside]

/-- Neighbouring table entries are a month of the common year apart. -/
theorem spm_succ {month : ℕ} (inside : month < 12) :
    spm (month + 1) = spm month + monthLength false (month + 1) := by
  interval_cases month <;> rfl

/-- Only February is longer in a leap year. -/
theorem monthLength_true {month : ℕ} (inside : month < 12) :
    monthLength true (month + 1) = monthLength false (month + 1) + if month = 1 then 1 else 0 := by
  interval_cases month <;> rfl

/-- March begins fifty-nine days into the table. -/
theorem spm_march {month : ℕ} (inside : month < 12) :
    month = 0 ∧ spm (month + 1) = 31 ∨ month = 1 ∧ spm (month + 1) = 59 ∨
      1 < month ∧ 59 ≤ spm month := by
  interval_cases month <;> decide

/-- The month and day that `gmtime_r` finds exist, and lie at the day of the year it was given. -/
theorem gmtimeMonthDay_spec (leap : Bool) (left : ℕ) (inside : left < if leap then 366 else 365) :
    (gmtimeMonthDay leap left).1 ≤ 11 ∧ 1 ≤ (gmtimeMonthDay leap left).2 ∧
      (gmtimeMonthDay leap left).2 ≤ monthLength leap ((gmtimeMonthDay leap left).1 + 1) ∧
      monthStart leap ((gmtimeMonthDay leap left).1 + 1) +
        ((gmtimeMonthDay leap left).2 - 1) = left := by
  simp only [gmtimeMonthDay]
  by_cases ahead : leap && decide ((left : ℤ) > 58)
  · -- A leap year after February looks the previous day up in the common year's table.
    simp only [ahead, if_true, Bool.true_and]
    simp only [Bool.and_eq_true, decide_eq_true_eq] at ahead
    obtain ⟨rfl, late⟩ := ahead
    simp only [if_true] at inside
    obtain ⟨bound, low, high⟩ := gmtimeMonth_spec (left - 1) (by omega) 11
      (by simp [spm, spmTable]; omega)
    rw [monthStart_spm true (by omega)]
    generalize gmtimeMonth (left - 1) 11 = month at *
    have entry := spm_nonneg month
    have next := spm_succ (show month < 12 by omega)
    rw [int32_eq (by split <;> omega) (by split <;> omega), monthLength_true (by omega)]
    -- The leap day itself is the last of February, and all later days are in later months.
    simp only [Bool.true_and, decide_eq_true_eq]
    rcases spm_march (show month < 12 by omega) with
      ⟨january, first⟩ | ⟨february, first⟩ | ⟨later, first⟩
    · omega
    · rw [if_pos (show (left : ℤ) = 59 by omega), if_pos february, if_neg (by omega)]
      push_cast
      omega
    · rw [if_neg (show ¬(left : ℤ) = 59 by omega), if_neg (by omega), if_pos later]
      push_cast
      omega
  · -- Otherwise the table is the calendar's own.
    simp only [ahead, if_false, Bool.false_and, Bool.false_eq_true]
    have short : left < 365 := by
      cases leap <;> simp at ahead inside <;> omega
    obtain ⟨bound, low, high⟩ := gmtimeMonth_spec left (by omega) 11
      (by simp [spm, spmTable]; omega)
    rw [monthStart_spm leap (by omega)]
    generalize gmtimeMonth left 11 = month at *
    have entry := spm_nonneg month
    have next := spm_succ (show month < 12 by omega)
    rw [int32_eq (by omega) (by omega)]
    cases leap with
    | false =>
      simp only [Bool.false_and, Bool.false_eq_true, if_false]
      omega
    | true =>
      -- The day lies before the leap day, so its month is January or February.
      simp only [Bool.true_and, decide_eq_true_eq] at ahead ⊢
      rw [monthLength_true (by omega)]
      rcases spm_march (show month < 12 by omega) with
        ⟨january, -⟩ | ⟨february, -⟩ | ⟨-, first⟩
      · rw [if_neg (by omega), if_neg (by omega)]
        push_cast
        omega
      · rw [if_pos february, if_neg (by omega)]
        push_cast
        omega
      · omega

/-- The first day whose year is too large for the `int` parameter of `__isleap`. -/
def yearLimit : ℕ := yearStart (2 ^ 31)

/-- `gmtime_r` finds the date a number of days after the first of January 1970. -/
theorem gmtimeR_date (t : ℤ) (positive : 0 ≤ t)
    (fits : yearStart 1970 + (t / 86400).toNat < yearLimit) :
    (gmtimeR t).year + 1900 = ((newYear 1970).after (t / 86400).toNat).year ∧
    (gmtimeR t).mon + 1 = ((newYear 1970).after (t / 86400).toNat).month ∧
    (gmtimeR t).mday = ((newYear 1970).after (t / 86400).toNat).day := by
  have whole : t.tdiv SPD = ((t / 86400).toNat : ℤ) := by
    rw [Int.tdiv_eq_ediv_of_nonneg positive, SPD]
    omega
  obtain ⟨year, left, split, inside, number⟩ := gmtimeYear_eq 1970 (t / 86400).toNat fits
  have small : year < 2 ^ 31 := by
    by_contra beyond
    have := yearStart_le (show 2 ^ 31 ≤ year by omega)
    unfold yearLimit at fits
    omega
  -- The month search finds a date of that year at the days left over.
  obtain ⟨monthLe, dayPos, dayLe, position⟩ := gmtimeMonthDay_spec (isLeap year) left
    (by simpa [yearLength] using inside)
  set found := gmtimeMonthDay (isLeap year) left with foundEq
  let date : Date :=
    { year := year, month := found.1 + 1, day := found.2.toNat
      month_pos := by omega, month_le := by omega, day_pos := by omega, day_le := by omega }
  have reached : date = (newYear 1970).after (t / 86400).toNat := by
    apply Date.dayNumber_injective
    have ordinal : date.ordinal = left := by
      simp only [date, Date.ordinal]
      omega
    rw [Date.dayNumber_after, Date.dayNumber, ordinal, dayNumber_newYear, number]
  rw [← reached]
  have leapEq : isleap (int32 year) = isLeap year := by
    rw [int32_eq (by omega) (by omega), isleap_eq]
  rw [show ((1970 : ℕ) : ℤ) = 1970 from rfl] at split
  simp only [gmtimeR, whole, split, leapEq, ← foundEq]
  refine ⟨?_, ?_, ?_⟩
  · rw [int32_eq (by omega) (by omega)]
    simp only [date]
    omega
  · simp [date]
  · simp only [date]
    omega

/-- The time of day that `gmtime_r` splits off a second count. -/
theorem gmtimeR_clock (t : ℤ) (positive : 0 ≤ t) :
    (gmtimeR t).sec = t % 60 ∧ (gmtimeR t).min = t / 60 % 60 ∧ (gmtimeR t).hour = t / 3600 % 24 ∧
      (gmtimeR t).wday = (t / 86400 + 4) % 7 := by
  -- No operand is negative, so every truncating division is the ordinary one.
  have second : 0 ≤ t.tmod 86400 := Int.tmod_nonneg _ positive
  have minute : 0 ≤ (t.tmod 86400).tdiv 60 := Int.tdiv_nonneg second (by omega)
  have day : 0 ≤ t.tdiv 86400 := Int.tdiv_nonneg positive (by omega)
  simp only [gmtimeR, SPD, show (24 * 60 * 60 : ℤ) = 86400 from rfl]
  rw [Int.tmod_eq_emod_of_nonneg second, Int.tmod_eq_emod_of_nonneg minute,
    Int.tdiv_eq_ediv_of_nonneg minute, Int.tdiv_eq_ediv_of_nonneg second,
    Int.tmod_eq_emod_of_nonneg positive, Int.tmod_eq_emod_of_nonneg (by omega),
    Int.tdiv_eq_ediv_of_nonneg positive]
  omega

end MultifunctionClock
