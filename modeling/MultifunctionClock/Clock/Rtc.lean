import MultifunctionClock.Clock.MktimeLaws

/-! The soft RTC, and the functions of the RTC driver that set its date or its time of day. -/

namespace MultifunctionClock

/-- `RT_TICK_PER_SECOND`. -/
def rtTickPerSecond : ℕ := 1000

/-- The variables of the soft RTC: the tick of its start, and the time it would have read then. -/
structure SoftRtc where
  initTick : BitVec 32
  initTime : ℤ
deriving DecidableEq

namespace SoftRtc

section Control

variable (rtc : SoftRtc) (tick : BitVec 32)

/-- Whole seconds since the start, from a tick counter that wraps. -/
def elapsed : ℤ :=
  -- The difference is unsigned, so it is right across one wrap of the counter.
  ((tick - rtc.initTick).toNat / rtTickPerSecond : ℕ)

/-- `RT_DEVICE_CTRL_RTC_GET_TIME` of `soft_rtc_control`, which is what `time` returns. -/
def controlGet : ℤ := rtc.initTime + rtc.elapsed tick

/-- `RT_DEVICE_CTRL_RTC_SET_TIME` of `soft_rtc_control`. -/
def controlSet (t : ℤ) : SoftRtc := { rtc with initTime := t - rtc.elapsed tick }

/-- `set_date`: the date fields are replaced in what the RTC reads. -/
def setDate (year month day : BitVec 32) : Option SoftRtc := do
  let tm := localtimeR (rtc.controlGet tick)
  -- The arguments are unsigned, and the differences are converted to `int` on assignment.
  let now ← mktime { tm with
    year := (year - 1900).toInt
    mon := (month - 1).toInt
    mday := day.toInt }
  return rtc.controlSet tick now

/-- `set_time`: the time fields are replaced in what the RTC reads. -/
def setTime (hour minute second : BitVec 32) : Option SoftRtc := do
  let tm := localtimeR (rtc.controlGet tick)
  let now ← mktime { tm with hour := hour.toInt, min := minute.toInt, sec := second.toInt }
  return rtc.controlSet tick now

end Control

variable {rtc : SoftRtc} {tick : BitVec 32}

/-- The RTC reads what it was just set to. -/
@[simp] theorem controlGet_controlSet (t : ℤ) : (rtc.controlSet tick t).controlGet tick = t := by
  -- Both use the same tick, so the seconds since the start cancel.
  simp [controlGet, controlSet, elapsed]

/-- A second setting replaces the first. -/
@[simp] theorem controlSet_controlSet (first second : ℤ) :
    (rtc.controlSet tick first).controlSet tick second = rtc.controlSet tick second := by
  simp [controlSet, elapsed]

end SoftRtc

/-- An `int` comes back unchanged from an unsigned parameter. -/
theorem toInt_ofInt {value : ℤ} (lower : -2 ^ 31 ≤ value) (upper : value < 2 ^ 31) :
    (BitVec.ofInt 32 value).toInt = value := by
  rw [BitVec.toInt_ofInt]
  exact int32_eq lower upper

/-- A field that is moved up for the call and down again behind it comes back unchanged. -/
theorem toInt_ofInt_sub {value : ℤ} (shift : ℕ) (lower : -2 ^ 31 ≤ value) (upper : value < 2 ^ 31) :
    (BitVec.ofInt 32 (value + shift) - BitVec.ofNat 32 shift).toInt = value := by
  -- The shift cancels modulo the word size.
  rw [BitVec.ofInt_add, BitVec.ofInt_natCast, BitVec.add_sub_cancel, toInt_ofInt lower upper]

namespace SoftRtc

variable {rtc : SoftRtc} {tick : BitVec 32}

/-- `set_time` gives the RTC the time of day of a second count, on the day it reads. -/
theorem setTime_gmtimeR (t : ℤ) (fits : Datable (rtc.controlGet tick)) :
    rtc.setTime tick (BitVec.ofInt 32 (gmtimeR t).hour) (BitVec.ofInt 32 (gmtimeR t).min)
      (BitVec.ofInt 32 (gmtimeR t).sec) =
    some (rtc.controlSet tick ((rtc.controlGet tick).tdiv SPD * SPD + t.tmod SPD)) := by
  obtain ⟨sec, min, hour⟩ := gmtimeR_clock_range t
  obtain ⟨settled, days⟩ := gmtimeR_days fits
  rw [setTime, toInt_ofInt (by omega) (by omega), toInt_ofInt (by omega) (by omega),
    toInt_ofInt (by omega) (by omega)]
  -- The date fields come from the reading, and the time fields from the argument.
  have mixed : ({ localtimeR (rtc.controlGet tick) with
      hour := (gmtimeR t).hour, min := (gmtimeR t).min, sec := (gmtimeR t).sec } : Tm).Settled :=
    { settled with sec := sec.2, min := min.2, hour := hour.2 }
  rw [mktime_settled mixed, ← days, ← gmtimeR_seconds]
  rfl

/-- `set_date` gives the RTC the day of a second count, at the time of day it reads. -/
theorem setDate_gmtimeR {t : ℤ} (fits : Datable t) :
    rtc.setDate tick (BitVec.ofInt 32 ((gmtimeR t).year + 1900))
      (BitVec.ofInt 32 ((gmtimeR t).mon + 1))
      (BitVec.ofInt 32 (gmtimeR t).mday) =
    some (rtc.controlSet tick (t.tdiv SPD * SPD + (rtc.controlGet tick).tmod SPD)) := by
  obtain ⟨sec, min, hour⟩ := gmtimeR_clock_range (rtc.controlGet tick)
  obtain ⟨year, mday⟩ := gmtimeR_date_range t
  obtain ⟨settled, days⟩ := gmtimeR_days fits
  have early := settled.mon_nonneg
  have late := settled.mon_le
  have yearKept : (BitVec.ofInt 32 ((gmtimeR t).year + 1900) - 1900).toInt = (gmtimeR t).year :=
    toInt_ofInt_sub 1900 year.1 year.2
  have monKept : (BitVec.ofInt 32 ((gmtimeR t).mon + 1) - 1).toInt = (gmtimeR t).mon :=
    toInt_ofInt_sub 1 (by omega) (by omega)
  rw [setDate, toInt_ofInt mday.1 mday.2, yearKept, monKept]
  -- The time fields come from the reading, and the date fields from the argument.
  have mixed : ({ localtimeR (rtc.controlGet tick) with
      year := (gmtimeR t).year, mon := (gmtimeR t).mon, mday := (gmtimeR t).mday } : Tm).Settled :=
    { settled with sec := sec.2, min := min.2, hour := hour.2 }
  rw [mktime_settled mixed, ← days, ← gmtimeR_seconds]
  rfl

end SoftRtc

end MultifunctionClock
