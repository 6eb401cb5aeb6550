import MultifunctionClock.Clock.Rtc
import MultifunctionClock.Lib.Reach

/-! The two threads that set the RTC from the network, and what it reads after each attempt. -/

namespace MultifunctionClock

/-- `NTP_TIMESTAMP_DELTA`: the seconds from 1900 to 1970. -/
def ntpTimestampDelta : BitVec 64 := 2208988800

/-- `NETUTILS_NTP_TIMEZONE`, in hours. -/
def netutilsNtpTimezone : ℤ := 8

/--
`ntp_get_time`, given the transmit timestamp of the reply.

Without a socket, a server or a reply in time there is no timestamp.
-/
def ntpGetTime : Option (BitVec 32) → ℤ
  | none => 0
  -- The subtraction is unsigned, and its result is converted to a signed second count.
  | some txTmS => (txTmS.setWidth 64 - ntpTimestampDelta).toInt

/-- `ntp_get_local_time`. -/
def ntpGetLocalTime (reply : Option (BitVec 32)) : ℤ :=
  let curTime := ntpGetTime reply
  -- A failure is passed on as zero.
  if curTime ≠ 0 then curTime + netutilsNtpTimezone * 3600 else curTime

/-- `ntp_sync_to_rtc`, with the calls of one attempt at one tick. -/
def ntpSyncToRtc (rtc : SoftRtc) (tick : BitVec 32) (reply : Option (BitVec 32)) : Option SoftRtc :=
  let curTime := ntpGetLocalTime reply
  if curTime ≠ 0 then do
    let curTm := localtimeR curTime
    -- First the time of day on the old date, and then the date with the new time of day.
    let rtc ← rtc.setTime tick (BitVec.ofInt 32 curTm.hour) (BitVec.ofInt 32 curTm.min)
      (BitVec.ofInt 32 curTm.sec)
    rtc.setDate tick (BitVec.ofInt 32 (curTm.year + 1900)) (BitVec.ofInt 32 (curTm.mon + 1))
      (BitVec.ofInt 32 curTm.mday)
  else some rtc

/-- What `thread_entry_my_time` does with the RTC before its loop. -/
def threadEntryMyTime (rtc : SoftRtc) (tick : BitVec 32) (reply : Option (BitVec 32)) : SoftRtc :=
  -- The result of `ntp_get_time` is written without a test for failure.
  rtc.controlSet tick (ntpGetTime reply)

/-- The threads that set the RTC. -/
inductive Writer where
  | time
  | ntpSync
deriving DecidableEq

/-- One attempt to set the RTC, at some tick and with the reply of the server. -/
structure Attempt where
  writer : Writer
  tick : BitVec 32
  reply : Option (BitVec 32)

/-- What can be seen of an attempt: the result of `ntp_get_time`, and the readings around it. -/
structure Sync where
  writer : Writer
  utc : ℤ
  before : ℤ
  after : ℤ
deriving DecidableEq

/-- One attempt. -/
def SoftRtc.attempt (rtc : SoftRtc) (attempt : Attempt) : Option (SoftRtc × List Sync) := do
  let next ← match attempt.writer with
    | .time => some (threadEntryMyTime rtc attempt.tick attempt.reply)
    | .ntpSync => ntpSyncToRtc rtc attempt.tick attempt.reply
  return (next, [{
    writer := attempt.writer
    utc := ntpGetTime attempt.reply
    before := rtc.controlGet attempt.tick
    after := next.controlGet attempt.tick }])

/-- A successful attempt gives the RTC the local time, and a failed one leaves it alone. -/
def Sync.Agrees (sync : Sync) : Prop :=
  sync.after = if 0 < sync.utc then sync.utc + 8 * 3600 else sync.before

/-- The timestamp is not from before 1970, and the calendar functions can split the reading. -/
def Dated (rtc : SoftRtc) (attempt : Attempt) : Prop :=
  0 ≤ ntpGetTime attempt.reply ∧ Datable (rtc.controlGet attempt.tick)

/-- The attempts that keep the writers in agreement. -/
def Sync.Careful (sync : Sync) : Prop :=
  match sync.writer with
  -- The time thread writes what `ntp_get_time` returned, so it can only do no harm.
  | .time => sync.utc = 0 ∧ sync.before = 0
  -- The sync thread skips failures, and otherwise depends on the reading it starts from.
  | .ntpSync => sync.utc = 0 ∨ -SPD < sync.before ∨ SPD ∣ sync.utc + 8 * 3600

/-- `ntp_get_time` counts from 1970 what the server counts from 1900. -/
theorem ntpGetTime_some (txTmS : BitVec 32) :
    ntpGetTime (some txTmS) = txTmS.toNat - 2208988800 := by
  -- Both operands are far from the limits of 64 bits, so nothing wraps.
  have small := txTmS.isLt
  have wide : (txTmS.setWidth 64).toInt = txTmS.toNat := by
    rw [BitVec.toInt_eq_toNat_of_lt (by rw [BitVec.toNat_setWidth]; omega), BitVec.toNat_setWidth]
    omega
  rw [ntpGetTime, BitVec.toInt_sub, wide, show ntpTimestampDelta.toInt = 2208988800 from rfl]
  exact Int.bmod_eq_of_le (by omega) (by omega)

/-- No reply is later than the end of the first NTP era. -/
theorem ntpGetTime_lt (reply : Option (BitVec 32)) : ntpGetTime reply < 2 ^ 31 := by
  -- The timestamp has 32 bits, and more than half of its range lies before 1970.
  cases reply with
  | none => decide
  | some txTmS =>
    have small := txTmS.isLt
    rw [ntpGetTime_some]
    omega

/--
What `ntp_sync_to_rtc` writes for a local time when the RTC reads `reading`.

The time of day goes through the old reading, and only then is the day replaced.
-/
def throughReading (reading new : ℤ) : ℤ :=
  new.tdiv SPD * SPD + (reading.tdiv SPD * SPD + new.tmod SPD).tmod SPD

/-- A successful attempt of the sync thread. -/
theorem ntpSyncToRtc_of_pos {rtc : SoftRtc} {tick : BitVec 32} {reply : Option (BitVec 32)}
    (reached : 0 < ntpGetTime reply) (fits : Datable (rtc.controlGet tick)) :
    ntpSyncToRtc rtc tick reply =
      some (rtc.controlSet tick
        (throughReading (rtc.controlGet tick) (ntpGetTime reply + 8 * 3600))) := by
  -- The first call writes the time of day, and the second one reads it back and adds the day.
  have early := ntpGetTime_lt reply
  have here : ntpGetLocalTime reply = ntpGetTime reply + 8 * 3600 := by
    simp [ntpGetLocalTime, netutilsNtpTimezone, reached.ne']
  have inside : Datable (ntpGetTime reply + 8 * 3600) := by
    refine datable_of_nonneg (by omega) ?_
    rw [SPD]
    omega
  simp only [ntpSyncToRtc, here, localtimeR]
  rw [if_pos (by omega), SoftRtc.setTime_gmtimeR _ fits]
  simp only [Option.bind_eq_bind, Option.bind_some]
  rw [SoftRtc.setDate_gmtimeR inside, SoftRtc.controlGet_controlSet, SoftRtc.controlSet_controlSet,
    throughReading]

/-- A failed attempt of the sync thread. -/
theorem ntpSyncToRtc_of_zero {rtc : SoftRtc} {tick : BitVec 32} {reply : Option (BitVec 32)}
    (failed : ntpGetTime reply = 0) : ntpSyncToRtc rtc tick reply = some rtc := by
  -- A zero stays zero without the time zone, and the calls are skipped.
  simp [ntpSyncToRtc, ntpGetLocalTime, failed]

/-- Division of C rounds towards zero, so below zero it is the division of the opposite. -/
theorem tdiv_of_nonpos {value divisor : ℤ} (negative : value ≤ 0) :
    value.tdiv divisor = -(-value / divisor) := by
  rw [← Int.tdiv_eq_ediv_of_nonneg (by omega), Int.neg_tdiv, neg_neg]

/-- The remainder of C takes the sign of the dividend. -/
theorem tmod_of_nonpos {value divisor : ℤ} (negative : value ≤ 0) :
    value.tmod divisor = -(-value % divisor) := by
  rw [← Int.tmod_eq_emod_of_nonneg (by omega), Int.neg_tmod, neg_neg]

/-- The old reading disturbs the time of day only when it lies a day or more before the epoch. -/
theorem throughReading_eq_iff {reading new : ℤ} (positive : 0 ≤ new) :
    throughReading reading new = new ↔ -SPD < reading ∨ SPD ∣ new := by
  rw [throughReading, Int.tdiv_eq_ediv_of_nonneg positive, Int.tmod_eq_emod_of_nonneg positive,
    show SPD = 86400 from rfl]
  rcases lt_or_ge (-86400) reading with late | early
  · -- The day of the reading is then not before the epoch,
    -- and adding a time of day stays in that day.
    have day : 0 ≤ reading.tdiv 86400 := by
      rcases lt_or_ge reading 0 with negative | nonneg
      · rw [tdiv_of_nonpos negative.le]
        omega
      · exact Int.tdiv_nonneg nonneg (by decide)
    rw [Int.tmod_eq_emod_of_nonneg (by omega)]
    omega
  · -- Before that, the sum of the day and a time of day is split on the other side.
    rw [tdiv_of_nonpos (by omega), tmod_of_nonpos (by omega)]
    omega

/-- No attempt fails to return, and it keeps the writers in agreement exactly when it is careful. -/
theorem SoftRtc.attempt_spec {rtc : SoftRtc} {attempt : Attempt} (dated : Dated rtc attempt) :
    ∃ next sync, rtc.attempt attempt = some (next, [sync]) ∧ (sync.Agrees ↔ sync.Careful) := by
  -- Each thread succeeds or fails, and what it writes is compared with what it should write.
  obtain ⟨writer, tick, reply⟩ := attempt
  obtain ⟨positive, fits⟩ : 0 ≤ ntpGetTime reply ∧ Datable (rtc.controlGet tick) := dated
  cases writer with
  | time =>
    -- The time thread writes the result of `ntp_get_time` in either case.
    refine ⟨_, _, rfl, ?_⟩
    simp only [Sync.Agrees, Sync.Careful, threadEntryMyTime, controlGet_controlSet]
    split <;> omega
  | ntpSync =>
    rcases positive.eq_or_lt with failed | reached
    · refine ⟨_, _, by simp only [attempt, ntpSyncToRtc_of_zero failed.symm]; rfl, ?_⟩
      simp [Sync.Agrees, Sync.Careful, ← failed]
    · refine ⟨_, _, by simp only [attempt, ntpSyncToRtc_of_pos reached fits]; rfl, ?_⟩
      simp only [Sync.Agrees, Sync.Careful, controlGet_controlSet, if_pos reached,
        reached.ne', false_or]
      exact throughReading_eq_iff (by omega)

/--
The writers of the clock agree in a run exactly when every attempt of the run is careful.

An attempt of the time thread is careful only when it fails on an RTC that reads zero.
-/
theorem writers_agree_iff {start last : SoftRtc} {seen : List Sync}
    (run : Reach.Reaches SoftRtc.attempt Dated start last seen) :
    (∀ sync ∈ seen, sync.Agrees) ↔ ∀ sync ∈ seen, sync.Careful := by
  -- Every attempt of the run is one for which agreement and care are the same.
  have pointwise : ∀ sync ∈ seen, (sync.Agrees ↔ sync.Careful) := by
    refine run.invariant (fun _ seen => ∀ sync ∈ seen, (sync.Agrees ↔ sync.Careful)) (by simp) ?_
    intro rtc seen attempt next new past dated taken
    obtain ⟨after, sync, result, same⟩ := SoftRtc.attempt_spec dated
    rw [result] at taken
    cases taken
    simpa [or_imp, forall_and] using ⟨past, same⟩
  exact forall₂_congr pointwise

/-- The RTC as it starts, at the first of January 2018. -/
def startRtc : SoftRtc := ⟨0, 1514764800⟩

/-- A reply of the eighth of March 2023. -/
def marchReply : Option (BitVec 32) := some 3887222400

/-- The time thread writes UTC when it succeeds, and zero when it fails. -/
theorem writers_disagree :
    (∃ last, Reach.Reaches SoftRtc.attempt Dated startRtc last
        [⟨.time, 1678233600, 1514764812, 1678233600⟩]) ∧
      ¬Sync.Agrees ⟨.time, 1678233600, 1514764812, 1678233600⟩ ∧
      (∃ last, Reach.Reaches SoftRtc.attempt Dated startRtc last [⟨.time, 0, 1514764812, 0⟩]) ∧
      ¬Sync.Agrees ⟨.time, 0, 1514764812, 0⟩ := by
  -- Each run is one attempt of the time thread, twelve seconds after the start.
  have fits : Datable (startRtc.controlGet 12000) := datable_of_nonneg (by decide) (by decide)
  have reached : Dated startRtc ⟨.time, 12000, marchReply⟩ := ⟨by decide, fits⟩
  have failed : Dated startRtc ⟨.time, 12000, none⟩ := ⟨by decide, fits⟩
  exact ⟨⟨_, .step .refl reached rfl⟩, by simp [Sync.Agrees], ⟨_, .step .refl failed rfl⟩,
    by simp [Sync.Agrees]⟩

/-- A failed and then a successful attempt of the sync thread agree. -/
theorem writers_agree_march : ∃ last seen, Reach.Reaches SoftRtc.attempt Dated startRtc last seen ∧
    seen.length = 2 ∧ ∀ sync ∈ seen, sync.Agrees := by
  -- The RTC is untouched by the first attempt, an hour before the second.
  have first : startRtc.attempt ⟨.ntpSync, 12000, none⟩ =
      some (startRtc, [⟨.ntpSync, 0, 1514764812, 1514764812⟩]) := by decide +kernel
  have second : startRtc.attempt ⟨.ntpSync, 3612000, marchReply⟩ =
      some (⟨0, 1678258788⟩, [⟨.ntpSync, 1678233600, 1514768412, 1678262400⟩]) := by decide +kernel
  have failed : Dated startRtc ⟨.ntpSync, 12000, none⟩ :=
    ⟨by decide, datable_of_nonneg (by decide) (by decide)⟩
  have reached : Dated startRtc ⟨.ntpSync, 3612000, marchReply⟩ :=
    ⟨by decide, datable_of_nonneg (by decide) (by decide)⟩
  have run : Reach.Reaches SoftRtc.attempt Dated startRtc _ _ :=
    .step (.step .refl failed first) reached second
  refine ⟨_, _, run, rfl, (writers_agree_iff run).mpr ?_⟩
  simp [Sync.Careful, SPD]

end MultifunctionClock
