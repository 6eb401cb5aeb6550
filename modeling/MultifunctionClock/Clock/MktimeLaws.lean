import MultifunctionClock.Clock.CTimeLaws

/-! What `mktime` counts, and that it inverts `gmtime_r` half by
    half: date fields and time fields. -/

namespace MultifunctionClock

open Gregorian

/-- Fields on which `mktime` has nothing to carry. The time of day may be negative. -/
structure Tm.Settled (t : Tm) : Prop where
  sec : t.sec ≤ 60
  min : t.min ≤ 60
  hour : t.hour ≤ 24
  mday : t.mday ≤ 31
  mon_nonneg : 0 ≤ t.mon
  mon_le : t.mon ≤ 11
  year : 70 ≤ t.year

/-- The days since 1970 that the date fields stand for. -/
def Tm.days (t : Tm) : ℤ :=
  mktimeYears (t.year - 70) +
    (spm t.mon.toNat + t.mday - 1 + if isleap (t.year + 1900) &&
      decide (t.mon.toNat > 1) then 1 else 0)

/-- The seconds that the time fields stand for. -/
def Tm.seconds (t : Tm) : ℤ := (t.hour * 60 + t.min) * 60 + t.sec

/--
Without carries, `mktime` counts the days of the date fields and the seconds of the time fields.
-/
theorem mktime_settled {t : Tm} (settled : t.Settled) :
    mktime t = some (t.days * SPD + t.seconds) := by
  obtain ⟨sec, min, hour, mday, nonneg, le, year⟩ := settled
  have month : t.mon.toNat < 12 := by omega
  -- The carrying loop compares the day with the end of the month at the earliest.
  have first : ¬t.mday > spm (t.mon.toNat + 1) := by
    have := spm_succ_ge month
    omega
  simp only [mktime]
  rw [if_neg (by omega : ¬t.sec > 60), if_neg (by omega : ¬t.sec > 60),
    if_neg (by omega : ¬t.min > 60),
    if_neg (by omega : ¬t.min > 60), if_neg (by omega : ¬t.hour > 24),
      if_neg (by omega : ¬t.hour > 24)]
  simp only [if_neg (by omega : ¬t.mon > 12)]
  rw [dif_pos ⟨nonneg, le⟩, mktimeCarry, if_neg first]
  dsimp only
  rw [if_neg (by omega), Option.some.injEq, Tm.days, Tm.seconds, SPD]
  ring

/-- The year count of `mktime` is the calendar's, centuries included. -/
theorem mktimeYears_eq {year : ℕ} (late : 1970 ≤ year) :
    mktimeYears (year - 1970) = (yearStart year : ℤ) - yearStart 1970 := by
  have starts := yearStart_eq year
  have epoch := yearStart_eq 1970
  simp only [mktimeYears]
  rw [Int.tdiv_eq_ediv_of_nonneg (by omega)]
  split
  · -- Every hundred years from 2101 on skip one leap day, except each fourth time.
    rw [Int.tdiv_eq_ediv_of_nonneg (by omega)]
    split <;> omega
  · omega

/-- The time fields of `gmtime_r` stand for the remainder of the day, with the sign of the count. -/
theorem gmtimeR_seconds (t : ℤ) : (gmtimeR t).seconds = t.tmod SPD := by
  -- Each division of the source gives quotient and remainder of the same number.
  have minutes := Int.tdiv_mul_add_tmod ((t.tmod SPD).tdiv 60) 60
  have seconds := Int.tdiv_mul_add_tmod (t.tmod SPD) 60
  simp only [gmtimeR, Tm.seconds]
  rw [minutes, seconds]

/-- The time fields of `gmtime_r` never carry, whatever the sign of the second count. -/
theorem gmtimeR_clock_range (t : ℤ) : (-60 ≤ (gmtimeR t).sec ∧ (gmtimeR t).sec ≤ 60) ∧
    (-60 ≤ (gmtimeR t).min ∧ (gmtimeR t).min ≤ 60) ∧
    (-24 ≤ (gmtimeR t).hour ∧ (gmtimeR t).hour ≤ 24) := by
  -- Remainders lie between plus and minus their divisor, and the quotients follow.
  have above := Int.lt_tmod_of_pos t (show 0 < SPD by decide)
  have day := Int.tmod_lt_of_pos t (show 0 < SPD by decide)
  have minutes := Int.tdiv_mul_add_tmod ((t.tmod SPD).tdiv 60) 60
  have seconds := Int.tdiv_mul_add_tmod (t.tmod SPD) 60
  have minuteLow := Int.lt_tmod_of_pos ((t.tmod SPD).tdiv 60) (show (0 : ℤ) < 60 by decide)
  have minuteHigh := Int.tmod_lt_of_pos ((t.tmod SPD).tdiv 60) (show (0 : ℤ) < 60 by decide)
  have secondLow := Int.lt_tmod_of_pos (t.tmod SPD) (show (0 : ℤ) < 60 by decide)
  have secondHigh := Int.tmod_lt_of_pos (t.tmod SPD) (show (0 : ℤ) < 60 by decide)
  simp only [gmtimeR]
  rw [show SPD = 86400 from rfl] at *
  omega

/-- A converted value fits an `int`. -/
theorem int32_range (value : ℤ) : -2 ^ 31 ≤ int32 value ∧ int32 value < 2 ^ 31 := by
  have lower := Int.le_bmod (x := value) (show 0 < 2 ^ 32 by decide)
  have upper := Int.bmod_lt (x := value) (show 0 < 2 ^ 32 by decide)
  unfold int32
  omega

/-- The date fields of `gmtime_r` are the converted values of its loops. -/
theorem gmtimeR_date_range (t : ℤ) : (-2 ^ 31 ≤ (gmtimeR t).year ∧ (gmtimeR t).year < 2 ^ 31) ∧
    (-2 ^ 31 ≤ (gmtimeR t).mday ∧ (gmtimeR t).mday < 2 ^ 31) :=
  ⟨int32_range _, int32_range _⟩

/--
Second counts that the calendar functions can split.

Their year fits an `int`, and so does the number of days that they lie before 1970.
-/
structure Datable (t : ℤ) : Prop where
  lower : -2 ^ 31 * SPD < t
  upper : yearStart 1970 + (t / 86400).toNat < yearLimit

/-- Every second count of the first five million years can be split. -/
theorem datable_of_nonneg {t : ℤ} (positive : 0 ≤ t) (early : t < 2 ^ 31 * SPD) : Datable t where
  lower := by
    rw [SPD]
    omega
  upper := by
    -- A year has at least 365 days, so the limit lies far behind that many days.
    have limit := yearStart_eq (2 ^ 31)
    have epoch := yearStart_eq 1970
    rw [SPD] at early
    unfold yearLimit
    generalize yearStart (2 ^ 31) = last at *
    omega

/-- A second count from 1970 on is split into the date of its day. -/
theorem gmtimeR_days_of_nonneg {t : ℤ} (positive : 0 ≤ t) (fits : Datable t) :
    (gmtimeR t).Settled ∧ (gmtimeR t).days = t.tdiv SPD := by
  obtain ⟨⟨-, sec⟩, ⟨-, min⟩, ⟨-, hour⟩⟩ := gmtimeR_clock_range t
  obtain ⟨year, mon, mday⟩ := gmtimeR_date t positive fits.upper
  have number := (newYear 1970).dayNumber_after (t / 86400).toNat
  rw [dayNumber_newYear] at number
  generalize (newYear 1970).after (t / 86400).toNat = date at *
  -- The date lies in 1970 or later, where `mktime` counts.
  have late : 1970 ≤ date.year := (Date.year_bounds (show yearStart 1970 ≤ date.dayNumber by omega)
    (show date.dayNumber < yearStart (date.year + 1) by
      have := date.ordinal_lt
      simp only [Date.dayNumber, yearStart]
      omega)).1
  have monthPos := date.month_pos
  have monthLe := date.month_le
  have dayPos := date.day_pos
  have dayLe := date.day_le_31
  refine ⟨⟨sec, min, hour, by omega, by omega, by omega, by omega⟩, ?_⟩
  -- The table of `mktime` and the leap day after February give the calendar's month starts.
  have month : (gmtimeR t).mon.toNat + 1 = date.month := by omega
  have leap : isleap ((gmtimeR t).year + 1900) = isLeap date.year := by rw [year, isleap_eq]
  have start := monthStart_spm (isLeap date.year) (show (gmtimeR t).mon.toNat < 13 by omega)
  rw [month] at start
  have years := mktimeYears_eq late
  rw [show (date.year : ℤ) - 1970 = (gmtimeR t).year - 70 by omega] at years
  simp only [Date.dayNumber, Date.ordinal] at number
  rw [Tm.days, leap, years, mday, Int.tdiv_eq_ediv_of_nonneg positive, show SPD = 86400 from rfl]
  omega

/-- The month search gives January for days before the epoch. -/
theorem gmtimeMonth_of_nonpos {work : ℤ} (before : work ≤ 0) {top : ℕ} (inside : top < 12) :
    gmtimeMonth work top = 0 := by
  -- Every table entry behind January is positive, so the search goes all the way down.
  induction top with
  | zero => rfl
  | succ top ih =>
    have entry := spm_succ_ge (show top < 12 by omega)
    rw [gmtimeMonth, if_pos (by omega), ih (by omega)]

/-- A count of days before the epoch is taken off the first of January 1970. -/
theorem gmtimeMonthDay_of_nonpos {work : ℤ} (before : work ≤ 0) (fits : -2 ^ 31 ≤ work)
    (leap : Bool) :
    gmtimeMonthDay leap work = (0, 1 + work) := by
  -- The leap day only matters from day 59 on.
  have early : (leap && decide (work > 58)) = false := by
    rw [decide_eq_false (by omega), Bool.and_false]
  have january : spm 0 = 0 := rfl
  simp only [gmtimeMonthDay, early, Bool.false_and, Bool.false_eq_true, if_false,
    gmtimeMonth_of_nonpos before (show 11 < 12 by omega), january, sub_zero]
  rw [int32_eq (by omega) (by omega)]

/-- A second count before 1970 is split into January 1970, with a day that may be negative. -/
theorem gmtimeR_days_of_neg {t : ℤ} (negative : t < 0) (fits : Datable t) :
    (gmtimeR t).Settled ∧ (gmtimeR t).days = t.tdiv SPD := by
  obtain ⟨⟨-, sec⟩, ⟨-, min⟩, ⟨-, hour⟩⟩ := gmtimeR_clock_range t
  have lower := fits.lower
  have whole := Int.tdiv_mul_add_tmod t SPD
  have low := Int.lt_tmod_of_pos t (show 0 < SPD by decide)
  have high := Int.tmod_lt_of_pos t (show 0 < SPD by decide)
  have before : t.tdiv SPD ≤ 0 := by
    rw [show SPD = 86400 from rfl] at *
    omega
  have bounded : -2 ^ 31 ≤ t.tdiv SPD := by
    rw [show SPD = 86400 from rfl] at *
    omega
  -- The year loop does not subtract a year from a day count that is not positive.
  have year : gmtimeYear 1970 (t.tdiv SPD) = (1970, t.tdiv SPD) := by
    have := yearDays_ge 1970
    rw [gmtimeYear, if_neg (by omega)]
  have date : (gmtimeR t).mday = 1 + t.tdiv SPD ∧ (gmtimeR t).mon = 0 ∧ (gmtimeR t).year = 70 := by
    simp [gmtimeR, year, gmtimeMonthDay_of_nonpos before bounded]
    decide
  obtain ⟨mday, mon, year⟩ := date
  refine ⟨⟨sec, min, hour, by omega, by omega, by omega, by omega⟩, ?_⟩
  have epoch : mktimeYears (70 - 70) = 0 := by decide
  have january : spm (0 : ℤ).toNat = 0 := rfl
  rw [Tm.days, mday, mon, year, epoch, january]
  simp

/--
The date fields of `gmtime_r` stand for the whole days of the count, rounded towards the epoch.
-/
theorem gmtimeR_days {t : ℤ} (fits : Datable t) :
    (gmtimeR t).Settled ∧ (gmtimeR t).days = t.tdiv SPD := by
  -- The two sides of the epoch are split in different ways, with the same meaning.
  rcases lt_or_ge t 0 with negative | positive
  · exact gmtimeR_days_of_neg negative fits
  · exact gmtimeR_days_of_nonneg positive fits

/-- `mktime` inverts `gmtime_r`, also before the epoch. -/
theorem mktime_gmtimeR {t : ℤ} (fits : Datable t) : mktime (gmtimeR t) = some t := by
  -- The days and the seconds are quotient and remainder of the second count.
  obtain ⟨settled, days⟩ := gmtimeR_days fits
  rw [mktime_settled settled, days, gmtimeR_seconds, Int.tdiv_mul_add_tmod]

end MultifunctionClock
