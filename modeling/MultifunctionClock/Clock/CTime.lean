import MultifunctionClock.Lib.Bytes

/-!
The calendar functions of the C library: `gmtime_r`, `mktime`, `asctime_r` and `ctime`.

A `time_t` is a signed 64-bit second count and is an integer here.
Conversions to a 32-bit `int` are written out where a value could exceed it.
-/

namespace MultifunctionClock

open Bytes

/-- Conversion of a wider value to a 32-bit `int`. -/
def int32 (value : ℤ) : ℤ := Int.bmod value (2 ^ 32)

/-- The fields of `struct tm`, each an `int`. -/
@[ext] structure Tm where
  sec : ℤ
  min : ℤ
  hour : ℤ
  mday : ℤ
  mon : ℤ
  year : ℤ
  wday : ℤ
  yday : ℤ
deriving DecidableEq, Repr

/-- `__spm`: days before each month of a common year, and the whole year last. -/
def spmTable : List ℤ := [0, 31, 59, 90, 120, 151, 181, 212, 243, 273, 304, 334, 365]

/-- An entry of `__spm`. The callers below index it with a month, or the month after it. -/
def spm (index : ℕ) : ℤ := spmTable.getD index 0

/-- The table passes 31 days with its first month. -/
theorem spm_succ_ge {month : ℕ} (inside : month < 12) : 31 ≤ spm (month + 1) := by
  interval_cases month <;> decide

/-- Every entry after the first is at least 31. -/
theorem spm_ge {month : ℕ} (inside : month < 12) : spm month = 0 ∧ month = 0 ∨ 31 ≤ spm month := by
  interval_cases month <;> decide

/-- `days`, the weekday names with a space after each. -/
def days : Bytes := ofText "Sun Mon Tue Wed Thu Fri Sat ".toList

/-- `months`, the month names with a space after each. -/
def months : Bytes := ofText "Jan Feb Mar Apr May Jun Jul Aug Sep Oct Nov Dec ".toList

/-- Seconds per day. -/
def SPD : ℤ := 24 * 60 * 60

/-- `__isleap`. The remainders are those of C, which take the sign of the year. -/
def isleap (year : ℤ) : Bool :=
  year.tmod 4 == 0 && (year.tmod 100 != 0 || year.tmod 400 == 0)

/-- Days in the year the counter of `gmtime_r` has reached. -/
def yearDays (i : ℤ) : ℤ :=
  -- `__isleap` takes an `int`, so the 64-bit counter is converted on the call.
  if isleap (int32 i) then 366 else 365

/-- Every year has at least 365 days. -/
theorem yearDays_ge (i : ℤ) : 365 ≤ yearDays i := by
  -- Both lengths are long enough.
  unfold yearDays
  split <;> omega

/-- The first loop of `gmtime_r`: subtract whole years, returning the year and the days left. -/
def gmtimeYear (i work : ℤ) : ℤ × ℤ :=
  if work ≥ yearDays i then gmtimeYear (i + 1) (work - yearDays i) else (i, work)
termination_by work.toNat
decreasing_by
  have := yearDays_ge i
  omega

/-- The second loop of `gmtime_r`: search the months downwards from `i`. -/
def gmtimeMonth (work : ℤ) : ℕ → ℕ
  | 0 => 0
  | i + 1 => if spm (i + 1) > work then gmtimeMonth work i else i + 1

/-- Month and day of the month that `gmtime_r` finds for a day of the year. -/
def gmtimeMonthDay (leap : Bool) (left : ℤ) : ℕ × ℤ :=
  -- From the twenty-ninth of February on, a leap year is one day ahead of the table.
  let ahead := leap && decide (left > 58)
  let mday : ℤ := if ahead && decide (left = 59) then 2 else 1
  let work := if ahead then left - 1 else left
  let mon := gmtimeMonth work 11
  (mon, int32 (mday + (work - spm mon)))

/-- `gmtime_r`. -/
def gmtimeR (timep : ℤ) : Tm :=
  let clock := timep.tmod SPD
  let minutes := clock.tdiv 60
  let work := timep.tdiv SPD
  let (i, left) := gmtimeYear 1970 work
  let (mon, mday) := gmtimeMonthDay (isleap (int32 i)) left
  { sec := clock.tmod 60
    min := minutes.tmod 60
    hour := minutes.tdiv 60
    mday := mday
    mon := mon
    year := int32 (i - 1900)
    wday := (4 + work).tmod 7
    yday := int32 left }

/-- `localtime_r`, which knows no time zone. -/
def localtimeR (t : ℤ) : Tm := gmtimeR t

/-- The two digits of `num2str`, each truncated to a `char`. -/
def digitPair (i : ℤ) : Bytes := [UInt8.ofInt (i.tdiv 10 + 48), UInt8.ofInt (i.tmod 10 + 48)]

/-- `num2str`, writing at an offset of the buffer. -/
def num2str (offset : ℕ) (i : ℤ) (buf : Bytes) : Bytes := store offset (digitPair i) buf

/-- The leading zero of the day of the month is blanked. -/
def blankZero (buf : Bytes) : Bytes := if buf.getD 8 0 = 48 then store 8 [32] buf else buf

/-- Four bytes of a name table. A subscript outside the table has no defined result. -/
def nameAt (table : Bytes) (index : ℤ) : Option Bytes :=
  if 0 ≤ index ∧ 4 * index.toNat + 4 ≤ table.length then
    some ((table.drop (4 * index.toNat)).take 4)
  else none

/-- `asctime_r`, writing into a buffer that holds whatever the previous call left there. -/
def asctimeR (t : Tm) (buf : Bytes) : Option Bytes := do
  let day ← nameAt days t.wday
  let month ← nameAt months t.mon
  let buf := store 0 day buf
  let buf := store 4 month buf
  let buf := num2str 8 t.mday buf
  let buf := blankZero buf
  let buf := store 10 [32] buf
  let buf := num2str 11 t.hour buf
  let buf := store 13 [58] buf
  let buf := num2str 14 t.min buf
  let buf := store 16 [58] buf
  let buf := num2str 17 t.sec buf
  let buf := store 19 [32] buf
  let buf := num2str 20 ((t.year + 1900).tdiv 100) buf
  let buf := num2str 22 ((t.year + 1900).tmod 100) buf
  return store 24 [10] buf

/-- `ctime`, with the static buffer of `asctime` as it was left by the previous call. -/
def ctime (timep : ℤ) (buf : Bytes) : Option Bytes := asctimeR (localtimeR timep) buf

/-- One turn of the carrying loop of `mktime` takes these days off the day of the month. -/
def carryDays (year mday : ℤ) (mon : Fin 12) : ℤ :=
  let mday := if mon.val = 1 && isleap (year + 1900) then mday - 1 else mday
  mday - spm mon.val

/-- January takes nothing off, and every other month at least 31 days. -/
theorem carryDays_le (year mday : ℤ) (mon : Fin 12) :
    carryDays year mday mon = mday ∧ mon.val = 0 ∨ carryDays year mday mon ≤ mday - 31 := by
  -- The table entry of January is zero, and every other entry is at least 31.
  unfold carryDays
  rcases spm_ge mon.isLt with ⟨entry, january⟩ | entry
  · left
    rw [january] at entry
    simp [entry, january]
  · right
    dsimp only
    split <;> omega

/--
The carrying loop of `mktime`: days beyond the next table entry move the month on.

The month is a table subscript, so it never leaves the twelve months.
-/
def mktimeCarry (year mday : ℤ) (mon : Fin 12) : ℤ × ℤ × Fin 12 :=
  if mday > spm (mon.val + 1) then
    if last : mon.val + 1 > 11 then mktimeCarry (year + 1) (carryDays year mday mon) 0
    else mktimeCarry year (carryDays year mday mon) ⟨mon.val + 1, by omega⟩
  else (year, mday, mon)
termination_by 2 * mday.toNat + (if mon.val = 0 then 1 else 0)
decreasing_by
  all_goals
    have positive := spm_succ_ge mon.isLt
    -- A turn in January leaves January, and every other turn shortens the day count.
    rcases carryDays_le year mday mon with ⟨same, january⟩ | shorter
    · simp_all
    · split <;> simp_all
      omega

/--
Days from the first of January 1970 to the first of January of a later year, as `mktime` counts.
-/
def mktimeYears (years : ℤ) : ℤ :=
  let day := years * 365 + (years + 1).tdiv 4
  if years ≥ 131 then
    let centuries := (years - 131).tdiv 100
    let day := day - (centuries / 4 * 3 + 1)
    let rest := centuries % 4
    let rest := if rest = 3 then rest - 1 else rest
    day - rest
  else day

/--
`mktime`. A month outside the twelve makes it read `__spm` out of bounds, with no defined result.
-/
def mktime (t : Tm) : Option ℤ :=
  let years := t.year - 70
  let min := if t.sec > 60 then t.min + t.sec.tdiv 60 else t.min
  let sec := if t.sec > 60 then t.sec.tmod 60 else t.sec
  let hour := if min > 60 then t.hour + min.tdiv 60 else t.hour
  let min := if min > 60 then min.tmod 60 else min
  let mday := if hour > 24 then t.mday + hour.tdiv 24 else t.mday
  let hour := if hour > 24 then hour.tmod 24 else hour
  let year := if t.mon > 12 then t.year + t.mon.tdiv 12 else t.year
  let mon := if t.mon > 12 then t.mon.tmod 12 else t.mon
  if inside : 0 ≤ mon ∧ mon ≤ 11 then
    let (year, mday, mon) := mktimeCarry year mday ⟨mon.toNat, by omega⟩
    if year < 70 then some (-1)
    else
      let leapDay : ℤ := if isleap (year + 1900) && decide (mon.val > 1) then 1 else 0
      -- The year count was taken before the carrying loop and is not taken again.
      let day := mktimeYears years + (spm mon.val + mday - 1 + leapDay)
      some (((day * 24 + hour) * 60 + min) * 60 + sec)
  else none

end MultifunctionClock
