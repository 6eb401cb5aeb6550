import Mathlib.Tactic

/-! The proleptic Gregorian calendar: dates, their successors, and the numbering of days. -/

namespace Gregorian

/-- Leap years come every fourth year, except centuries that are not multiples of four hundred. -/
def isLeap (year : ℕ) : Bool :=
  -- A century is a leap year only when it is also a multiple of four hundred.
  decide (4 ∣ year) && (!decide (100 ∣ year) || decide (400 ∣ year))

/-- Days in a year. -/
def yearLength (year : ℕ) : ℕ := if isLeap year then 366 else 365

/-- Days in a month, numbered from one. -/
def monthLength (leap : Bool) : ℕ → ℕ
  | 2 => if leap then 29 else 28
  | 4 | 6 | 9 | 11 => 30
  | _ => 31

/-- A calendar date. Only days that exist in their month can be written down. -/
@[ext] structure Date where
  year : ℕ
  month : ℕ
  day : ℕ
  month_pos : 1 ≤ month
  month_le : month ≤ 12
  day_pos : 1 ≤ day
  day_le : day ≤ monthLength (isLeap year) month
deriving DecidableEq

/-- Every month has at least twenty-eight days. -/
theorem monthLength_pos (leap : Bool) (month : ℕ) : 1 ≤ monthLength leap month := by
  unfold monthLength
  split <;> try split
  all_goals omega

/-- No month has more than thirty-one days. -/
theorem monthLength_le (leap : Bool) (month : ℕ) : monthLength leap month ≤ 31 := by
  unfold monthLength
  split <;> try split
  all_goals omega

/-- No date goes past the thirty-first. -/
theorem Date.day_le_31 (date : Date) : date.day ≤ 31 := date.day_le.trans (monthLength_le _ _)

/-- The first of January of a year. -/
def newYear (year : ℕ) : Date where
  year := year
  month := 1
  day := 1
  month_pos := le_refl 1
  month_le := by omega
  day_pos := le_refl 1
  day_le := monthLength_pos _ _

/-- The date that follows a date. -/
def Date.tomorrow (date : Date) : Date :=
  -- The day moves on inside the month, then the month inside the year, and then the year.
  if within : date.day < monthLength (isLeap date.year) date.month then
    { date with
      day := date.day + 1
      day_pos := by omega
      day_le := within }
  else if inside : date.month < 12 then
    { date with
      month := date.month + 1
      day := 1
      month_pos := by omega
      month_le := inside
      day_pos := le_refl 1
      day_le := monthLength_pos _ _ }
  else newYear (date.year + 1)

/-- The date a number of days after another. -/
def Date.after (date : Date) (days : ℕ) : Date := Date.tomorrow^[days] date

/-- Days of a year that precede the first of a month. -/
def monthStart (leap : Bool) (month : ℕ) : ℕ :=
  -- Months are numbered from one, so a month has one fewer before it than its number.
  ((List.range (month - 1)).map fun earlier => monthLength leap (earlier + 1)).sum

/-- Days from the start of year zero to the start of a year. -/
def yearStart : ℕ → ℕ
  | 0 => 0
  | year + 1 => yearStart year + yearLength year

/-- Position of a date within its year, counted from zero. -/
def Date.ordinal (date : Date) : ℕ :=
  monthStart (isLeap date.year) date.month + (date.day - 1)

/-- Days from the start of year zero to a date. -/
def Date.dayNumber (date : Date) : ℕ := yearStart date.year + date.ordinal

/-- A month starts where the month before it ends. -/
theorem monthStart_succ (leap : Bool) (month : ℕ) (positive : 1 ≤ month) :
    monthStart leap (month + 1) = monthStart leap month + monthLength leap month := by
  -- The range of earlier months grows by exactly the month that just ended.
  obtain ⟨earlier, rfl⟩ : ∃ earlier, month = earlier + 1 := ⟨month - 1, by omega⟩
  simp [monthStart, List.range_succ]

/-- The twelve months add up to the year. -/
theorem monthStart_thirteen (year : ℕ) : monthStart (isLeap year) 13 = yearLength year := by
  -- Both kinds of year are added up.
  unfold yearLength
  cases isLeap year <;> rfl

/-- Later months start later. -/
theorem monthStart_le (leap : Bool) {early late : ℕ} (positive : 1 ≤ early)
    (ordered : early ≤ late) :
    monthStart leap early ≤ monthStart leap late := by
  -- Each month adds its length to the start of the next.
  induction late, ordered using Nat.le_induction with
  | base => exact le_refl _
  | succ late ordered ih =>
    rw [monthStart_succ leap late (by omega)]
    omega

/-- A date lies before the start of the month after its own. -/
theorem Date.ordinal_lt_next_month (date : Date) :
    date.ordinal < monthStart (isLeap date.year) (date.month + 1) := by
  -- The day exists in its month, and the next month starts behind the last day.
  have shape := date.day_le
  have positive := date.day_pos
  rw [monthStart_succ _ _ date.month_pos, Date.ordinal]
  omega

/-- A date lies inside its own year. -/
theorem Date.ordinal_lt (date : Date) : date.ordinal < yearLength date.year := by
  -- The last month ends with the year, and every other month ends before it.
  have next := date.ordinal_lt_next_month
  have last : monthStart (isLeap date.year) (date.month + 1) ≤ monthStart (isLeap date.year) 13 :=
    monthStart_le _ (by omega) (by have := date.month_le; omega)
  rw [monthStart_thirteen] at last
  omega

/-- Tomorrow is the next day in the numbering. -/
theorem Date.dayNumber_tomorrow (date : Date) : date.tomorrow.dayNumber = date.dayNumber + 1 := by
  have positive := date.day_pos
  have upper := date.day_le
  -- The three branches stay in the month, open the next month, or open the next year.
  unfold Date.tomorrow
  split
  · simp only [dayNumber, ordinal]
    omega
  · rename_i ended
    have full : date.day = monthLength (isLeap date.year) date.month := by omega
    split
    · simp only [dayNumber, ordinal, monthStart_succ _ _ date.month_pos]
      omega
    · rename_i december
      -- The thirty-first of December is the last day of the year.
      have month : date.month = 12 := by have := date.month_le; omega
      have whole := monthStart_thirteen date.year
      rw [monthStart_succ _ 12 (by omega)] at whole
      have first : monthStart (isLeap (date.year + 1)) 1 = 0 := by simp [monthStart]
      simp only [dayNumber, ordinal, newYear, yearStart, first]
      rw [month] at full ⊢
      omega

/-- Moving a number of days forward adds them to the day number. -/
theorem Date.dayNumber_after (date : Date) (days : ℕ) :
    (date.after days).dayNumber = date.dayNumber + days := by
  -- Each day forward is one step of the numbering.
  induction days with
  | zero => rfl
  | succ days ih =>
    have unfolded : date.after (days + 1) = (date.after days).tomorrow :=
      Function.iterate_succ_apply' Date.tomorrow days date
    rw [unfolded, dayNumber_tomorrow, ih]
    omega

/-- Later years start later. -/
theorem yearStart_le {early late : ℕ} (ordered : early ≤ late) :
    yearStart early ≤ yearStart late := by
  -- Each year adds its length to the start of the next.
  induction late, ordered using Nat.le_induction with
  | base => exact le_refl _
  | succ late ordered ih =>
    simp only [yearStart]
    omega

/-- A day number belongs to one year only. -/
theorem yearStart_unique {first second a b : ℕ} (inFirst : a < yearLength first)
    (inSecond : b < yearLength second) (same : yearStart first + a = yearStart second + b) :
    first = second ∧ a = b := by
  -- An earlier year ends before a later one starts, so neither order is possible.
  rcases Nat.lt_trichotomy first second with before | equal | before
  · have := yearStart_le (show first + 1 ≤ second from before)
    simp only [yearStart] at this
    omega
  · subst equal
    exact ⟨rfl, by omega⟩
  · have := yearStart_le (show second + 1 ≤ first from before)
    simp only [yearStart] at this
    omega

/-- A position in the year belongs to one month only. -/
theorem monthStart_unique {leap : Bool} {first second a b : ℕ} (firstPos : 1 ≤ first)
    (secondPos : 1 ≤ second) (inFirst : a < monthLength leap first)
    (inSecond : b < monthLength leap second)
    (same : monthStart leap first + a = monthStart leap second + b) : first = second ∧ a = b := by
  -- An earlier month ends before a later one starts, so neither order is possible.
  rcases Nat.lt_trichotomy first second with before | equal | before
  · have := monthStart_le leap (show 1 ≤ first + 1 by omega) before
    rw [monthStart_succ leap first firstPos] at this
    omega
  · subst equal
    exact ⟨rfl, by omega⟩
  · have := monthStart_le leap (show 1 ≤ second + 1 by omega) before
    rw [monthStart_succ leap second secondPos] at this
    omega

/-- The day number determines the date. -/
theorem Date.dayNumber_injective : Function.Injective Date.dayNumber := by
  intro first second same
  obtain ⟨years, ordinals⟩ := yearStart_unique first.ordinal_lt second.ordinal_lt same
  -- Both dates now use the same month lengths.
  have firstDay := first.day_le
  have secondDay := second.day_le
  have firstPos := first.day_pos
  have secondPos := second.day_pos
  simp only [ordinal, years] at ordinals firstDay
  obtain ⟨months, days⟩ := monthStart_unique first.month_pos second.month_pos
    (show first.day - 1 < _ by omega) (show second.day - 1 < _ by omega) ordinals
  exact Date.ext years months (by omega)

/-- Counting leap years gives the start of a year in closed form. -/
theorem yearStart_eq (year : ℕ) :
    yearStart year + (year + 99) / 100 = 365 * year + (year + 3) / 4 + (year + 399) / 400 := by
  induction year with
  | zero => rfl
  | succ year ih =>
    simp only [yearStart, yearLength, isLeap]
    -- Each rounding-up division advances exactly when the finished
    -- year is a multiple of its divisor.
    by_cases fourth : 4 ∣ year <;> by_cases century :
      100 ∣ year <;> by_cases fourCenturies : 400 ∣ year
    all_goals simp [fourth, century, fourCenturies]; omega

/-- A date whose day number lies between the starts of two years lies between those years. -/
theorem Date.year_bounds {date : Date} {early late : ℕ} (lower : yearStart early ≤ date.dayNumber)
    (upper : date.dayNumber < yearStart late) : early ≤ date.year ∧ date.year < late := by
  -- A day number belongs to its year, so it lies on neither side of the two limits.
  have inside := date.ordinal_lt
  constructor
  · by_contra before
    have := yearStart_le (show date.year + 1 ≤ early by omega)
    simp only [yearStart, dayNumber] at this lower
    omega
  · by_contra beyond
    have := yearStart_le (show late ≤ date.year by omega)
    simp only [dayNumber] at upper
    omega

/-- The first of January is the day its year starts. -/
theorem dayNumber_newYear (year : ℕ) : (newYear year).dayNumber = yearStart year := by
  simp [Date.dayNumber, Date.ordinal, newYear, monthStart]

end Gregorian
