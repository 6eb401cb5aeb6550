import MultifunctionClock.Clock.Message
import MultifunctionClock.Clock.NtpSync
import MultifunctionClock.Clock.Ticks

/-! The replies of a time server that the clock can show. -/

namespace MultifunctionClock

open Bytes Gregorian

/-- Every byte of a text is one that the clock page is made of. -/
def LegibleText (text : Bytes) : Prop := ∀ byte ∈ text, clockByte byte = true

/-- All four texts of a clock page are legible. -/
structure ClockFace.Legible (face : ClockFace) : Prop where
  week : LegibleText face.week
  mouth : LegibleText face.mouth
  year : LegibleText face.year
  hour : LegibleText face.hour

/-- The clock page of every second count below the year 10000 is legible. -/
theorem legible_clockFace {t : ℕ} (upper : t < 253402300800) : (clockFace t).Legible := by
  obtain ⟨week, mouth, year, hour⟩ := worded_clockFace upper
  exact ⟨week.2, mouth.2, year.2, hour.2⟩

/--
A reply of the time server gives a clock that can be shown.

The RTC is set to a second count from 1970 on that agrees with the timestamp, and every iteration of
`thread_entry_my_time` finds its names in their tables and builds legible texts, as long as the RTC
goes on from the value it was set to.
-/
def Displayable (rtc : SoftRtc) (tick txTmS : BitVec 32) : Prop :=
  let set := threadEntryMyTime rtc tick (some txTmS)
  0 ≤ set.controlGet tick ∧
  set.controlGet tick ≡ txTmS.toNat - 2208988800 [ZMOD 2 ^ 32] ∧
  ∀ elapsed, rtc.phase tick + elapsed < 2 ^ 32 → ∀ buf mes : Bytes, buf.length = 25 →
    mes.length = MesgTime.size →
      ∃ message, timeMessage (set.controlGet (tick + BitVec.ofNat 32 elapsed)) buf mes =
        some message ∧
        (readTime message).Legible

/-- Every message of a second count below the year 10000 is legible. -/
theorem legible_timeMessage {now : ℤ} {buf mes : Bytes} (lower : 0 ≤ now)
    (upper : now < 253402300800) (static : buf.length = 25) (block : mes.length = MesgTime.size) :
    ∃ message, timeMessage now buf mes = some message ∧ (readTime message).Legible := by
  have early : now.toNat < 253402300800 := by omega
  obtain ⟨week, mouth, year, hour⟩ := printable_clockFace early
  obtain ⟨-, weekRead, mouthRead, yearRead, hourRead⟩ := read_clockLine week mouth year hour block
  have printed : timeMessage now buf mes =
      some (fillMesgTime (clockLine (clockFace now.toNat)) mes) := by
    rw [timeMessage, ctime_eq lower upper static]
    rfl
  refine ⟨_, printed, ?_⟩
  -- What is drawn is the page that the calendar prescribes.
  have drawn : readTime (fillMesgTime (clockLine (clockFace now.toNat)) mes) =
      clockFace now.toNat := by
    rw [readTime, CharArray.cstring_of_read weekRead, CharArray.cstring_of_read mouthRead,
      CharArray.cstring_of_read yearRead, CharArray.cstring_of_read hourRead]
  rw [drawn]
  exact legible_clockFace early

/-- A reply gives a clock that can be shown exactly when its timestamp is not from before 1970. -/
theorem displayable_iff (rtc : SoftRtc) (tick txTmS : BitVec 32) :
    Displayable rtc tick txTmS ↔ 2208988800 ≤ txTmS.toNat := by
  have set : ∀ elapsed, (threadEntryMyTime rtc tick (some txTmS)).controlGet
      (tick + BitVec.ofNat 32 elapsed) = txTmS.toNat - 2208988800 - (rtc.phase tick / 1000 : ℕ) +
        ((rtc.phase tick + elapsed) % 2 ^ 32 / 1000 : ℕ) := by
    intro elapsed
    rw [threadEntryMyTime, controlGet_setAt, ntpGetTime_some]
  have written : (threadEntryMyTime rtc tick (some txTmS)).controlGet tick =
      txTmS.toNat - 2208988800 := by
    rw [threadEntryMyTime, SoftRtc.controlGet_controlSet, ntpGetTime_some]
  constructor
  · -- The count that is written has to be from 1970 on.
    rintro ⟨positive, -, -⟩
    omega
  · intro late
    refine ⟨by omega, by rw [written], ?_⟩
    intro elapsed unwrapped buf mes static block
    -- The timestamp has 32 bits, so the count stays far below the year 10000.
    have narrow := txTmS.isLt
    exact legible_timeMessage (by rw [set]; omega) (by rw [set]; omega) static block

/-- After the era of the timestamps ends in 2036, the clock has no weekday to show. -/
theorem undisplayable_rollover :
    (threadEntryMyTime ⟨0, 1514764800⟩ 12000 (some 0)).controlGet 12000 = -2208988800 ∧
      timeMessage (-2208988800) (List.replicate 25 0) (List.replicate 32 0) = none ∧
      ¬Displayable ⟨0, 1514764800⟩ 12000 0 := by
  refine ⟨by decide, by decide +kernel, ?_⟩
  -- The count is negative, so already the first requirement fails.
  rintro ⟨positive, -⟩
  revert positive
  decide

end MultifunctionClock
