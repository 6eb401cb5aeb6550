import MultifunctionClock.Clock.Rtc
import MultifunctionClock.Lib.Reach

/-! The time that the clock reads from the RTC between two settings,
    on a tick counter that wraps. -/

namespace MultifunctionClock

/-- The RTC and the tick counter, with the ticks that have passed since the RTC was set. -/
structure Ticking where
  rtc : SoftRtc
  tick : BitVec 32
  elapsed : ℕ

/--
What `time` gave to one iteration of `thread_entry_my_time`, and the ticks from the setting to it.
-/
structure Reading where
  elapsed : ℕ
  now : ℤ
deriving DecidableEq

/-- The RTC right after `RT_DEVICE_CTRL_RTC_SET_TIME` with the value `t`. -/
def SoftRtc.setAt (rtc : SoftRtc) (tick : BitVec 32) (t : ℤ) : Ticking :=
  ⟨rtc.controlSet tick t, tick, 0⟩

/-- Some ticks pass, and then an iteration of `thread_entry_my_time` calls `time`. -/
def Ticking.read (s : Ticking) (ticks : ℕ) : Option (Ticking × List Reading) :=
  -- The kernel's counter has 32 bits, and the count of elapsed ticks is the true one.
  let tick := s.tick + BitVec.ofNat 32 ticks
  let elapsed := s.elapsed + ticks
  some (⟨s.rtc, tick, elapsed⟩, [⟨elapsed, s.rtc.controlGet tick⟩])

/-- The ticks from the start of the RTC to a tick, as its 32-bit difference gives them. -/
def SoftRtc.phase (rtc : SoftRtc) (tick : BitVec 32) : ℕ := (tick - rtc.initTick).toNat

/--
A reading shows the time that was set, and the seconds since then up to the phase of the setting.
-/
def Reading.OnTime (t : ℤ) (reading : Reading) : Prop :=
  reading.now = t + (reading.elapsed / 1000 : ℕ) ∨
    reading.now = t + (reading.elapsed / 1000 : ℕ) + 1

/-- The two roundings of a reading, when the counter may have wrapped in between. -/
theorem controlGet_setAt (rtc : SoftRtc) (tick : BitVec 32) (t : ℤ) (elapsed : ℕ) :
    (rtc.controlSet tick t).controlGet (tick + BitVec.ofNat 32 elapsed) =
      t - (rtc.phase tick / 1000 : ℕ) + ((rtc.phase tick + elapsed) % 2 ^ 32 / 1000 : ℕ) := by
  -- The difference to the start is the phase of the setting, moved on by the elapsed ticks.
  have moved : (tick + BitVec.ofNat 32 elapsed - rtc.initTick).toNat =
      (rtc.phase tick + elapsed) % 2 ^ 32 := by
    simp only [SoftRtc.phase, BitVec.toNat_sub, BitVec.toNat_add, BitVec.toNat_ofNat]
    omega
  simp only [SoftRtc.controlGet, SoftRtc.controlSet, SoftRtc.elapsed, moved, rtTickPerSecond,
    SoftRtc.phase]

/--
A reading is on time exactly when the difference to the start has not wrapped since the setting.
-/
theorem onTime_iff (rtc : SoftRtc) (tick : BitVec 32) (t : ℤ) (elapsed : ℕ) :
    Reading.OnTime t ⟨elapsed,
      (rtc.controlSet tick t).controlGet (tick + BitVec.ofNat 32 elapsed)⟩ ↔
      rtc.phase tick + elapsed < 2 ^ 32 := by
  -- A wrap takes more than four million seconds off, which no rounding makes up for.
  have phase : rtc.phase tick < 2 ^ 32 := (tick - rtc.initTick).isLt
  simp only [Reading.OnTime, controlGet_setAt]
  generalize rtc.phase tick = phase at *
  omega

/-- What a run of readings has gone through. -/
structure Ticking.Kept (rtc : SoftRtc) (tick : BitVec 32) (t : ℤ) (s : Ticking)
    (seen : List Reading) :
    Prop where
  unset : s.rtc = rtc.controlSet tick t
  counted : s.tick = tick + BitVec.ofNat 32 s.elapsed
  now : ∀ reading ∈ seen,
    reading.now = (rtc.controlSet tick t).controlGet (tick + BitVec.ofNat 32 reading.elapsed)
  past : ∀ reading ∈ seen, reading.elapsed ≤ s.elapsed
  ordered : seen.Pairwise fun early late => early.elapsed ≤ late.elapsed

variable {rtc : SoftRtc} {tick : BitVec 32} {t : ℤ} {s : Ticking} {seen : List Reading}

/-- One more reading comes last. -/
theorem Ticking.Kept.read (kept : s.Kept rtc tick t seen) (ticks : ℕ) :
    Ticking.Kept rtc tick t ⟨s.rtc, s.tick + BitVec.ofNat 32 ticks, s.elapsed + ticks⟩
      (seen ++ [⟨s.elapsed + ticks, s.rtc.controlGet (s.tick + BitVec.ofNat 32 ticks)⟩]) := by
  have moved : s.tick + BitVec.ofNat 32 ticks = tick + BitVec.ofNat 32 (s.elapsed + ticks) := by
    rw [kept.counted, BitVec.ofNat_add, BitVec.add_assoc]
  refine ⟨kept.unset, moved, ?_, ?_, ?_⟩
  · intro reading member
    rcases List.mem_append.mp member with earlier | last
    · exact kept.now reading earlier
    · rw [List.mem_singleton.mp last, moved, kept.unset]
  · intro reading member
    rcases List.mem_append.mp member with earlier | last
    · exact (kept.past reading earlier).trans (Nat.le_add_right _ _)
    · rw [List.mem_singleton.mp last]
  · -- Every earlier reading was taken before the ticks that have passed since.
    refine List.pairwise_append.mpr ⟨kept.ordered, List.pairwise_singleton _ _, ?_⟩
    intro early earlier late last
    rw [List.mem_singleton.mp last]
    exact (kept.past early earlier).trans (Nat.le_add_right _ _)

/-- Every run of readings after a setting is one of the times that the RTC then gives. -/
theorem kept_of_run (run : Reach.Reaches Ticking.read Reach.free (rtc.setAt tick t) s seen) :
    s.Kept rtc tick t seen := by
  -- Nothing was read at the setting, and every reading adds its ticks.
  refine run.invariant (Ticking.Kept rtc tick t) ⟨rfl, ?_, by simp, by simp, .nil⟩ ?_
  · simp [SoftRtc.setAt]
  · intro state seen ticks next new kept _ taken
    cases taken
    exact kept.read ticks

/--
Between two settings the clock goes on with the time that was set, exactly until the counter wraps.

The readings never go back and follow the elapsed ticks, exactly when the 32-bit difference to the
start of the RTC does not pass its end between the setting and any of the readings.
-/
theorem readings_onTime_iff
    (run : Reach.Reaches Ticking.read Reach.free (rtc.setAt tick t) s seen) :
    (seen.Pairwise (fun early late => early.now ≤ late.now) ∧ ∀ reading ∈ seen, reading.OnTime t) ↔
      ∀ reading ∈ seen, rtc.phase tick + reading.elapsed < 2 ^ 32 := by
  have kept := kept_of_run run
  have timely : ∀ reading ∈ seen,
      (reading.OnTime t ↔ rtc.phase tick + reading.elapsed < 2 ^ 32) := by
    intro reading member
    rw [← onTime_iff rtc tick t, ← kept.now reading member]
  constructor
  · rintro ⟨-, onTime⟩ reading member
    exact (timely reading member).mp (onTime reading member)
  · intro early
    refine ⟨?_, fun reading member => (timely reading member).mpr (early reading member)⟩
    -- Without a wrap the readings grow with the elapsed ticks.
    refine kept.ordered.imp_of_mem ?_
    intro first second firstMember secondMember ordered
    rw [kept.now first firstMember, kept.now second secondMember, controlGet_setAt,
      controlGet_setAt]
    have := early first firstMember
    have := early second secondMember
    omega

/--
Readings two minutes and a day after a setting are on time, on a counter that started at zero.
-/
theorem readings_onTime_day :
    ∃ s, Reach.Reaches Ticking.read Reach.free (SoftRtc.setAt ⟨0, 1514764800⟩ 12700 1678233600) s
        [⟨120000, 1678233720⟩, ⟨86520000, 1678320120⟩] ∧
      List.Pairwise (fun early late : Reading => early.now ≤ late.now)
        [⟨120000, 1678233720⟩, ⟨86520000, 1678320120⟩] ∧
      ∀ reading ∈ [(⟨120000, 1678233720⟩ : Reading), ⟨86520000, 1678320120⟩],
        reading.OnTime 1678233600 := by
  -- Neither reading comes near the end of the counter.
  have run : Reach.Reaches Ticking.read Reach.free
    (SoftRtc.setAt ⟨0, 1514764800⟩ 12700 1678233600) _
      [⟨120000, 1678233720⟩, ⟨86520000, 1678320120⟩] :=
    Reach.reaches_of_exec (fun _ _ _ => trivial)
      (show Reach.exec Ticking.read (fun _ _ => true) _ [120000, 86400000] = some _ from rfl)
  exact ⟨_, run, (readings_onTime_iff run).mpr (by decide)⟩

/-- A second later the counter has wrapped, and the clock is back by more than seven weeks. -/
theorem readings_back :
    (∃ s, Reach.Reaches Ticking.read Reach.free
      (SoftRtc.setAt ⟨0, 1514764800⟩ 4294966296 1678233600) s
        [⟨500, 1678233600⟩, ⟨1500, 1673938634⟩]) ∧
      ¬List.Pairwise (fun early late : Reading => early.now ≤ late.now)
        [⟨500, 1678233600⟩, ⟨1500, 1673938634⟩] ∧
      ¬Reading.OnTime 1678233600 ⟨1500, 1673938634⟩ := by
  -- The second reading comes after the counter has wrapped.
  refine ⟨⟨_, Reach.reaches_of_exec (fun _ _ _ => trivial)
    (show Reach.exec Ticking.read (fun _ _ => true) _ [500, 1000] = some _ from rfl)⟩, by simp, ?_⟩
  simp [Reading.OnTime]

end MultifunctionClock
