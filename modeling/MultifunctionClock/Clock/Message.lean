import MultifunctionClock.Clock.CTimeLaws

/-! The clock page message that `thread_entry_my_time` slices out of `ctime`. -/

namespace MultifunctionClock

open Bytes Gregorian

namespace MesgTime

/-- `hour` of `struct mesg_time`. -/
def hour : CharArray := ⟨0, 10⟩

/-- `week` of `struct mesg_time`. -/
def week : CharArray := ⟨10, 6⟩

/-- `mouth` of `struct mesg_time`. -/
def mouth : CharArray := ⟨16, 8⟩

/-- `year` of `struct mesg_time`. -/
def year : CharArray := ⟨24, 8⟩

/-- Bytes of `struct mesg_time`. -/
def size : ℕ := 32

end MesgTime

/-- `memcpy` of a slice of the text into a field, and the terminator written behind it. -/
def copySlice (field : CharArray) (start count : ℕ) (str mes : Bytes) : Bytes :=
  -- The copy brings no terminator of its own.
  store (field.offset + count) [0] (store field.offset ((str.drop start).take count) mes)

/-- The message rewritten from the text of `ctime`, field by field. -/
def fillMesgTime (str mes : Bytes) : Bytes :=
  -- The offsets are those of a line such as "Wed Jun 30 21:49:08 1993".
  let mes := copySlice MesgTime.hour 11 8 str mes
  let mes := copySlice MesgTime.year 20 4 str mes
  let mes := copySlice MesgTime.week 0 3 str mes
  copySlice MesgTime.mouth 4 6 str mes

/-- The message of one iteration of `thread_entry_my_time` that reads the second count `now`. -/
def timeMessage (now : ℤ) (buf mes : Bytes) : Option Bytes := do
  let str ← ctime now buf
  return fillMesgTime str mes

/-- The day of the month as `asctime_r` leaves it. -/
def dayPair (i : ℤ) : Bytes :=
  [if UInt8.ofInt (i.tdiv 10 + 48) = 48 then 32 else UInt8.ofInt (i.tdiv 10 + 48),
    UInt8.ofInt (i.tmod 10 + 48)]

/-- Only the tens digit changes when a leading zero is blanked. -/
theorem blankZero_eq {front : Bytes} (ends : front.length = 8) (i : ℤ) (rest : Bytes) :
    blankZero (front ++ digitPair i ++ rest) = front ++ dayPair i ++ rest := by
  -- The tested byte is the tens digit, right behind the front.
  have stored : (front ++ digitPair i ++ rest).getD 8 0 = UInt8.ofInt (i.tdiv 10 + 48) := by
    simp [List.getD_eq_getElem?_getD, ends, digitPair]
  rw [blankZero, stored, List.append_assoc, store_append ends, dayPair, digitPair]
  split <;> simp

/-- Writing two digits behind a known front. -/
theorem num2str_append {offset : ℕ} {front : Bytes} (ends : front.length = offset) (i : ℤ)
    (rest : Bytes) : num2str offset i (front ++ rest) = front ++ digitPair i ++ rest.drop 2 :=
  store_append ends (digitPair i) rest

/-- The in-place writes of `asctime_r` fill the whole buffer, field after field. -/
theorem asctimeR_eq {t : Tm} {buf day month : Bytes} (size : buf.length = 25)
    (dayName : nameAt days t.wday = some day) (monthName : nameAt months t.mon = some month)
    (dayLength : day.length = 4) (monthLength : month.length = 4) :
    asctimeR t buf = some (day ++ month ++ dayPair t.mday ++ [32] ++ digitPair t.hour ++ [58] ++
      digitPair t.min ++ [58] ++ digitPair t.sec ++ [32] ++ digitPair ((t.year + 1900).tdiv 100) ++
      digitPair ((t.year + 1900).tmod 100) ++ [10]) := by
  have pair (i : ℤ) : (digitPair i).length = 2 := rfl
  have blanked (i : ℤ) : (dayPair i).length = 2 := rfl
  simp only [asctimeR, dayName, monthName, Option.bind_eq_bind, Option.bind_some, Option.pure_def,
    Option.some.injEq]
  -- Every write starts where the one before it ended,
  -- so the written front grows to the whole buffer.
  rw [store_zero, store_append dayLength, num2str_append (by simp [dayLength, monthLength]),
    blankZero_eq (by simp [dayLength, monthLength])]
  rw [store_append, num2str_append, store_append, num2str_append, store_append, num2str_append,
    store_append, num2str_append, num2str_append, store_append]
  all_goals simp [dayLength, monthLength, pair, blanked, size]

/-- The part of a text that `memcpy` of a slice makes readable as a string. -/
def textSlice (start count : ℕ) (str : Bytes) : Bytes :=
  ((str.drop start).take count).takeWhile (· ≠ 0)

/-- A copied slice becomes the string of its field, up to its first zero byte. -/
theorem read_copySlice_same {field : CharArray} {start count : ℕ} {str mes : Bytes}
    (whole : start + count ≤ str.length) (room : count < field.size)
    (inside : field.offset ≤ mes.length) :
    field.read (copySlice field start count str mes) = some (textSlice start count str) := by
  -- The slice and its terminator are one write at the start of the field.
  have width : ((str.drop start).take count).length = count := by simp; omega
  rw [copySlice, store_store inside (by rw [width]), CharArray.read]
  exact cstringIn_store_same inside (by omega)

/-- Filling one field leaves the fields beside it alone. -/
theorem read_copySlice_other {field other : CharArray} {start count : ℕ} {str mes : Bytes}
    (whole : start + count ≤ str.length) (fits : field.offset + count < mes.length)
    (disjoint : other.offset + other.size ≤ field.offset ∨ field.offset + count < other.offset) :
    other.read (copySlice field start count str mes) = other.read mes := by
  -- The one write of the slice and its terminator lies outside the other field.
  have width : ((str.drop start).take count).length = count := by simp; omega
  have inside : field.offset ≤ mes.length := by omega
  rw [copySlice, store_store inside (by rw [width]), CharArray.read, CharArray.read]
  exact cstringIn_store_of_disjoint (by simp [width]; omega) (by simp [width]; omega)

/-- Filling a field inside the message keeps its length. -/
theorem length_copySlice (field : CharArray) {start count : ℕ} {str mes : Bytes}
    (whole : start + count ≤ str.length) (fits : field.offset + count < mes.length) :
    (copySlice field start count str mes).length = mes.length := by
  -- The one write of the slice and its terminator ends inside the message.
  have width : ((str.drop start).take count).length = count := by simp; omega
  rw [copySlice, store_store (by omega) (by rw [width]), length_store (by simp [width]; omega)]

/-- The four fields of the message hold the four slices of the text. -/
theorem read_fillMesgTime {str mes : Bytes} (text : str.length = 25)
    (block : mes.length = MesgTime.size) :
    (fillMesgTime str mes).length = MesgTime.size ∧
    MesgTime.hour.read (fillMesgTime str mes) = some (textSlice 11 8 str) ∧
    MesgTime.year.read (fillMesgTime str mes) = some (textSlice 20 4 str) ∧
    MesgTime.week.read (fillMesgTime str mes) = some (textSlice 0 3 str) ∧
    MesgTime.mouth.read (fillMesgTime str mes) = some (textSlice 4 6 str) := by
  simp only [MesgTime.size] at block ⊢
  -- The writes go to four disjoint arrays, so each survives the ones after it.
  have hour := length_copySlice MesgTime.hour (show 11 + 8 ≤ str.length by omega)
    (show _ < mes.length by simp [MesgTime.hour, block])
  set afterHour := copySlice MesgTime.hour 11 8 str mes
  have year := length_copySlice MesgTime.year (show 20 + 4 ≤ str.length by omega)
    (show _ < afterHour.length by simp [MesgTime.year, hour, block])
  set afterYear := copySlice MesgTime.year 20 4 str afterHour
  have week := length_copySlice MesgTime.week (show 0 + 3 ≤ str.length by omega)
    (show _ < afterYear.length by simp [MesgTime.week, year, hour, block])
  set afterWeek := copySlice MesgTime.week 0 3 str afterYear
  have mouth := length_copySlice MesgTime.mouth (show 4 + 6 ≤ str.length by omega)
    (show _ < afterWeek.length by simp [MesgTime.mouth, week, year, hour, block])
  have filled : fillMesgTime str mes = copySlice MesgTime.mouth 4 6 str afterWeek := rfl
  rw [filled]
  refine ⟨by omega, ?_, ?_, ?_, ?_⟩
  · -- The hour is written first and passed over by the other three writes.
    rw [read_copySlice_other, read_copySlice_other, read_copySlice_other, read_copySlice_same]
    all_goals simp [MesgTime.hour, MesgTime.year, MesgTime.week, MesgTime.mouth, text, hour, year,
      week, block]
  · rw [read_copySlice_other, read_copySlice_other, read_copySlice_same]
    all_goals simp [MesgTime.year, MesgTime.week, MesgTime.mouth, text, hour, year, week, block]
  · rw [read_copySlice_other, read_copySlice_same]
    all_goals simp [MesgTime.week, MesgTime.mouth, text, hour, year, week, block]
  · rw [read_copySlice_same]
    all_goals simp [MesgTime.mouth, text, hour, year, week, block]

/-- Decimal digits of a number, padded on the left to a width. -/
def decimal (width : ℕ) (fill : Char) (n : ℕ) : List Char := (Nat.toDigits 10 n).leftpad width fill

/-- Three-letter name of a weekday, for days counted from a Thursday. -/
def weekdayName (day : ℕ) : String :=
  ["Sun", "Mon", "Tue", "Wed", "Thu", "Fri", "Sat"].getD ((day + 4) % 7) ""

/-- Three-letter name of a month, numbered from one. -/
def monthName (month : ℕ) : String :=
  ["Jan", "Feb", "Mar", "Apr", "May", "Jun", "Jul", "Aug", "Sep", "Oct", "Nov",
    "Dec"].getD (month - 1) ""

/-- The four texts of a clock page. -/
structure ClockFace where
  week : Bytes
  mouth : Bytes
  year : Bytes
  hour : Bytes
deriving DecidableEq

/-- The clock page that the calendar prescribes for a second count. -/
def clockFace (t : ℕ) : ClockFace :=
  let date := (newYear 1970).after (t / 86400)
  { week := ofText (weekdayName (t / 86400)).toList
    mouth := ofText ((monthName date.month).toList ++ [' '] ++ decimal 2 ' ' date.day)
    year := ofText (decimal 4 '0' date.year)
    hour := ofText (decimal 2 '0' (t / 3600 % 24) ++ [':'] ++
      decimal 2 '0' (t / 60 % 60) ++ [':'] ++
      decimal 2 '0' (t % 60)) }

/-- The line that `ctime` prints, from its four texts. -/
def clockLine (face : ClockFace) : Bytes :=
  face.week ++ [32] ++ face.mouth ++ [32] ++ face.hour ++ [32] ++ face.year ++ [10]

/-- Two digits of the source are a two-column decimal number. -/
theorem digitPair_eq {n : ℕ} (small : n < 100) : digitPair n = ofText (decimal 2 '0' n) := by
  interval_cases n <;> rfl

/-- The blanked day of the month is a right-aligned decimal number. -/
theorem dayPair_eq {n : ℕ} (small : n < 100) : dayPair n = ofText (decimal 2 ' ' n) := by
  interval_cases n <;> rfl

/-- A table byte for a digit is the digit's character. -/
theorem digitChar_byte {n : ℕ} (small : n < 10) :
    UInt8.ofNat (Nat.digitChar n).toNat = UInt8.ofInt ((n : ℤ) + 48) := by
  interval_cases n <;> rfl

/-- The two halves of a four-digit year are its decimal digits. -/
theorem yearPairs_eq {year : ℕ} (lower : 1000 ≤ year) (upper : year < 10000) :
    digitPair ((year : ℤ).tdiv 100) ++ digitPair ((year : ℤ).tmod 100) =
      ofText (decimal 4 '0' year) := by
  -- Peel the four digits off one by one, from the units up.
  have digits : Nat.toDigits 10 year =
      [Nat.digitChar (year / 10 / 10 / 10), Nat.digitChar (year / 10 / 10 % 10),
        Nat.digitChar (year / 10 % 10), Nat.digitChar (year % 10)] := by
    rw [Nat.toDigits_of_base_le (by omega) (by omega),
      Nat.toDigits_of_base_le (by omega) (by omega),
      Nat.toDigits_of_base_le (by omega) (by omega), Nat.toDigits_of_lt_base (by omega)]
    rfl
  have high : (year : ℤ).tdiv 100 = ((year / 100 : ℕ) : ℤ) := rfl
  have low : (year : ℤ).tmod 100 = ((year % 100 : ℕ) : ℤ) := rfl
  have tens (n : ℕ) : (n : ℤ).tdiv 10 = ((n / 10 : ℕ) : ℤ) := rfl
  have units (n : ℕ) : (n : ℤ).tmod 10 = ((n % 10 : ℕ) : ℤ) := rfl
  simp only [decimal, digits, digitPair, high, low, tens, units, ofText, List.leftpad,
    List.length_cons,
    List.length_nil, List.cons_append, List.nil_append]
  simp only [Nat.reduceAdd, Nat.sub_self, List.replicate_zero, List.nil_append, List.map_cons,
    List.map_nil]
  rw [digitChar_byte (by omega), digitChar_byte (by omega), digitChar_byte (by omega),
    digitChar_byte (by omega)]
  congr 5 <;> omega

/-- The weekday table of the source names the day of the week. -/
theorem nameAt_days (day : ℕ) :
    nameAt days (((day : ℤ) + 4) % 7) = some (ofText (weekdayName day).toList ++ [32]) := by
  -- Seven weekdays are looked up in the table.
  have residue : ((day : ℤ) + 4) % 7 = (((day + 4) % 7 : ℕ) : ℤ) := by omega
  have small : (day + 4) % 7 < 7 := Nat.mod_lt _ (by omega)
  rw [residue, weekdayName]
  generalize (day + 4) % 7 = index at small
  interval_cases index <;> rfl

/-- The month table of the source names the month. -/
theorem nameAt_months (date : Date) :
    nameAt months ((date.month : ℤ) - 1) = some (ofText (monthName date.month).toList ++ [32]) := by
  -- Twelve months are looked up in the table.
  have lower := date.month_pos
  have upper := date.month_le
  generalize date.month = month at lower upper
  interval_cases month <;> rfl

/-- A text of a known length whose bytes all meet a condition. -/
def Made (good : UInt8 → Prop) (length : ℕ) (text : Bytes) : Prop :=
  text.length = length ∧ ∀ byte ∈ text, good byte

/-- Such texts in a row make up such a text. -/
theorem Made.append {good : UInt8 → Prop} {m n : ℕ} {first second : Bytes}
    (head : Made good m first) (tail : Made good n second) :
    Made good (m + n) (first ++ second) := by
  -- Each byte comes from one of the two texts.
  refine ⟨by simp [head.1, tail.1], fun byte member => ?_⟩
  rcases List.mem_append.mp member with early | late
  · exact head.2 byte early
  · exact tail.2 byte late

/-- Text whose bytes are all printable: no zero byte, and a known length. -/
abbrev Printable : ℕ → Bytes → Prop := Made (· ≠ 0)

/-- Cutting a printable text out of a longer one gives the whole text. -/
theorem Printable.textSlice_append {start count : ℕ} {front middle : Bytes}
    (text : Printable count middle) (begins : front.length = start) (rest : Bytes) :
    textSlice start count (front ++ (middle ++ rest)) = middle := by
  rw [textSlice, slice_append begins text.1, takeWhile_plain text.2]

/-- The bytes of letters, digits, spaces and colons. -/
def clockByte (byte : UInt8) : Bool :=
  (65 ≤ byte && byte ≤ 90) || (97 ≤ byte && byte ≤ 122) || (48 ≤ byte && byte ≤ 58) || byte == 32

/-- Text of the bytes that a clock page is made of, with a known length. -/
abbrev Worded : ℕ → Bytes → Prop := Made (clockByte · = true)

/-- A zero byte is no byte of a clock page. -/
theorem Worded.printable {length : ℕ} {text : Bytes} (worded : Worded length text) :
    Printable length text := by
  refine ⟨worded.1, fun byte member zero => ?_⟩
  have tested := worded.2 byte member
  rw [zero] at tested
  cases tested

/-- A text of known bytes is tested by evaluation. -/
theorem worded_of_all {length : ℕ} {text : Bytes} (size : text.length = length)
    (tested : text.all clockByte) : Worded length text := ⟨size, List.all_eq_true.mp tested⟩

/-- Two-digit numbers have two digits. -/
theorem worded_digitPair {n : ℕ} (small : n < 100) : Worded 2 (digitPair n) := by
  refine worded_of_all rfl ?_
  interval_cases n <;> decide

/-- Blanked two-digit numbers have a blank or a digit, and a digit. -/
theorem worded_dayPair {n : ℕ} (small : n < 100) : Worded 2 (dayPair n) := by
  refine worded_of_all rfl ?_
  interval_cases n <;> decide

/-- Weekday names have three letters. -/
theorem worded_weekdayName (day : ℕ) : Worded 3 (ofText (weekdayName day).toList) := by
  -- The seven names are checked one by one.
  have small : (day + 4) % 7 < 7 := Nat.mod_lt _ (by omega)
  rw [weekdayName]
  generalize (day + 4) % 7 = index at small
  refine worded_of_all ?_ ?_ <;> interval_cases index <;> decide

/-- Month names have three letters. -/
theorem worded_monthName (date : Date) : Worded 3 (ofText (monthName date.month).toList) := by
  -- The twelve names are checked one by one.
  have lower := date.month_pos
  have upper := date.month_le
  generalize date.month = month at lower upper
  refine worded_of_all ?_ ?_ <;> interval_cases month <;> decide

/-- Days between the start of 1970 and the start of 10000 fall into four-digit years. -/
theorem year_of_day {day : ℕ} (upper : day < 2932897) :
    yearStart 1970 + day < yearLimit ∧ 1970 ≤ ((newYear 1970).after day).year ∧
      ((newYear 1970).after day).year < 10000 := by
  -- The limits are the first days of 1970 and of 10000 in the numbering of days.
  have start : yearStart 1970 = 719528 := by have := yearStart_eq 1970; omega
  have limit : yearStart 10000 = 3652425 := by have := yearStart_eq 10000; omega
  have later : yearStart 10000 ≤ yearLimit := yearStart_le (by norm_num)
  have number : ((newYear 1970).after day).dayNumber = yearStart 1970 + day := by
    rw [Date.dayNumber_after, dayNumber_newYear]
  exact ⟨by omega, Date.year_bounds (by omega) (by omega)⟩

/-- `ctime` prints the calendar's date and time of every second count below the year 10000. -/
theorem ctime_eq {t : ℤ} {buf : Bytes} (lower : 0 ≤ t) (upper : t < 253402300800)
    (static : buf.length = 25) :
    ctime t buf = some (clockLine (clockFace t.toNat)) := by
  obtain ⟨fits, early, late⟩ := year_of_day (show (t / 86400).toNat < 2932897 by omega)
  obtain ⟨year, month, day⟩ := gmtimeR_date t lower fits
  obtain ⟨sec, min, hour, wday⟩ := gmtimeR_clock t lower
  set date := (newYear 1970).after (t / 86400).toNat with dateEq
  have dayLe := date.day_le_31
  -- Both name tables are read at an entry that exists.
  have dayName : nameAt days (gmtimeR t).wday =
      some (ofText (weekdayName (t / 86400).toNat).toList ++ [32]) := by
    rw [wday, ← nameAt_days]
    congr 3
    omega
  have monthName : nameAt months (gmtimeR t).mon =
      some (ofText (monthName date.month).toList ++ [32]) := by
    rw [← nameAt_months]
    congr 1
    omega
  rw [ctime, localtimeR, asctimeR_eq static dayName monthName (by simp [(worded_weekdayName _).1])
    (by simp [(worded_monthName _).1]), year, day, sec, min, hour]
  -- Each number is a natural number of at most two digits, or the four-digit year.
  have hours : t / 3600 % 24 = ((t.toNat / 3600 % 24 : ℕ) : ℤ) := by omega
  have minutes : t / 60 % 60 = ((t.toNat / 60 % 60 : ℕ) : ℤ) := by omega
  have seconds : t % 60 = ((t.toNat % 60 : ℕ) : ℤ) := by omega
  have whole : (t / 86400).toNat = t.toNat / 86400 := by omega
  have years := yearPairs_eq (show 1000 ≤ date.year by omega) late
  rw [hours, minutes, seconds, digitPair_eq (by omega), digitPair_eq (by omega),
    digitPair_eq (by omega),
    dayPair_eq (by omega), List.append_assoc _ (digitPair _) (digitPair _), years]
  simp only [clockLine, clockFace, ← whole, ← dateEq, ofText_append]
  simp [ofText]

/-- The four texts of a clock page have fixed lengths and the bytes of a clock page. -/
theorem worded_clockFace {t : ℕ} (upper : t < 253402300800) :
    Worded 3 (clockFace t).week ∧ Worded 6 (clockFace t).mouth ∧ Worded 4 (clockFace t).year ∧
      Worded 8 (clockFace t).hour := by
  -- Each text is put together from names, two-digit numbers and separators.
  obtain ⟨-, early, late⟩ := year_of_day (show t / 86400 < 2932897 by omega)
  have dayLe := ((newYear 1970).after (t / 86400)).day_le_31
  have blank : Worded 1 (ofText [' ']) := worded_of_all rfl (by decide)
  have colon : Worded 1 (ofText [':']) := worded_of_all rfl (by decide)
  simp only [clockFace, ofText_append]
  refine ⟨worded_weekdayName _, ?_, ?_, ?_⟩
  · rw [← dayPair_eq (by omega)]
    exact ((worded_monthName _).append blank).append (worded_dayPair (by omega))
  · rw [← yearPairs_eq (by omega) late]
    set year := ((newYear 1970).after (t / 86400)).year
    exact (worded_digitPair (show year / 100 < 100 by omega)).append
      (worded_digitPair (show year % 100 < 100 by omega))
  · rw [← digitPair_eq (by omega), ← digitPair_eq (by omega), ← digitPair_eq (by omega)]
    exact ((((worded_digitPair (by omega)).append colon).append
      (worded_digitPair (by omega))).append colon).append (worded_digitPair (by omega))

/-- The four texts of a clock page have no zero byte. -/
theorem printable_clockFace {t : ℕ} (upper : t < 253402300800) :
    Printable 3 (clockFace t).week ∧ Printable 6 (clockFace t).mouth ∧
      Printable 4 (clockFace t).year ∧ Printable 8 (clockFace t).hour := by
  obtain ⟨week, mouth, year, hour⟩ := worded_clockFace upper
  exact ⟨week.printable, mouth.printable, year.printable, hour.printable⟩

/-- The fixed offsets of the source cut a line back into its four texts. -/
theorem read_clockLine {face : ClockFace} {mes : Bytes} (week : Printable 3 face.week)
    (mouth : Printable 6 face.mouth) (year : Printable 4 face.year) (hour : Printable 8 face.hour)
    (block : mes.length = MesgTime.size) :
    (fillMesgTime (clockLine face) mes).length = MesgTime.size ∧
      MesgTime.week.read (fillMesgTime (clockLine face) mes) = some face.week ∧
      MesgTime.mouth.read (fillMesgTime (clockLine face) mes) = some face.mouth ∧
      MesgTime.year.read (fillMesgTime (clockLine face) mes) = some face.year ∧
      MesgTime.hour.read (fillMesgTime (clockLine face) mes) = some face.hour := by
  obtain ⟨weekText, mouthText, yearText, hourText⟩ := face
  simp only [clockLine] at *
  have blank : Printable 1 [32] := ⟨rfl, plain_of_all (by decide)⟩
  have newline : Printable 1 [10] := ⟨rfl, plain_of_all (by decide)⟩
  -- The line is the four texts with one separator behind each.
  have throughMouth := ((week.append blank).append mouth).append blank
  have throughHour := (throughMouth.append hour).append blank
  have line := (throughHour.append year).append newline
  obtain ⟨kept, hourRead, yearRead, weekRead, mouthRead⟩ := read_fillMesgTime line.1 block
  refine ⟨kept, ?_, ?_, ?_, ?_⟩
  · have cut := week.textSlice_append (show ([] : Bytes).length = 0 from rfl)
      ([32] ++ (mouthText ++ ([32] ++ (hourText ++ ([32] ++ (yearText ++ [10]))))))
    simp only [List.append_assoc, List.nil_append] at cut weekRead ⊢
    rw [weekRead, cut]
  · have cut := mouth.textSlice_append (week.append blank).1
      ([32] ++ (hourText ++ ([32] ++ (yearText ++ [10]))))
    simp only [List.append_assoc] at cut mouthRead ⊢
    rw [mouthRead, cut]
  · have cut := year.textSlice_append throughHour.1 [10]
    simp only [List.append_assoc] at cut yearRead ⊢
    rw [yearRead, cut]
  · have cut := hour.textSlice_append throughMouth.1 ([32] ++ (yearText ++ [10]))
    simp only [List.append_assoc] at cut hourRead ⊢
    rw [hourRead, cut]

/-- The strings that drawing the clock page reads from the message. -/
def readTime (mes : Bytes) : ClockFace where
  week := cstring MesgTime.week.offset mes
  mouth := cstring MesgTime.mouth.offset mes
  year := cstring MesgTime.year.offset mes
  hour := cstring MesgTime.hour.offset mes

/-- The strings that one iteration of `thread_entry_my_time` makes of the text of `ctime`. -/
def timeStrings (str : Bytes) : ClockFace where
  week := textSlice 0 3 str
  mouth := textSlice 4 6 str
  year := textSlice 20 4 str
  hour := textSlice 11 8 str

/-- Nothing of the old message is left in the strings of a rewritten one. -/
theorem readTime_fillMesgTime {str mes : Bytes} (text : str.length = 25)
    (block : mes.length = MesgTime.size) :
    readTime (fillMesgTime str mes) = timeStrings str := by
  -- Every string ends inside its field, so the scans that draw them stop there as well.
  obtain ⟨-, hour, year, week, mouth⟩ := read_fillMesgTime text block
  rw [readTime, CharArray.cstring_of_read hour, CharArray.cstring_of_read year,
    CharArray.cstring_of_read week, CharArray.cstring_of_read mouth, timeStrings]

/-- Every entry of a name table takes four bytes. -/
theorem length_nameAt {table name : Bytes} {index : ℤ} (found : nameAt table index = some name) :
    name.length = 4 := by
  -- An entry is looked up only when all four of its bytes lie inside the table.
  unfold nameAt at found
  split at found
  · simp only [Option.some.injEq] at found
    rw [← found]
    simp
    omega
  · cases found

/-- The text of `ctime` fills its static buffer. -/
theorem length_ctime {now : ℤ} {buf str : Bytes} (static : buf.length = 25)
    (printed : ctime now buf = some str) : str.length = 25 := by
  -- The text exists only when both names do, and then its parts add up.
  rw [ctime] at printed
  cases dayName : nameAt days (localtimeR now).wday with
  | none => simp [asctimeR, dayName] at printed
  | some day =>
    cases monthName : nameAt months (localtimeR now).mon with
    | none => simp [asctimeR, dayName, monthName] at printed
    | some month =>
      have dayLength := length_nameAt dayName
      have monthLength := length_nameAt monthName
      rw [asctimeR_eq static dayName monthName dayLength monthLength, Option.some.injEq] at printed
      simp [← printed, dayLength, monthLength, digitPair, dayPair]

/--
The clock message holds the Gregorian date and time of every second count before the year 10000.

Each of the four texts is terminated inside its own array.
-/
theorem timeMessage_clockFace (t : ℤ) (buf mes : Bytes) (lower : 0 ≤ t) (upper : t < 253402300800)
    (static : buf.length = 25) (block : mes.length = MesgTime.size) :
    ∃ message, timeMessage t buf mes = some message ∧ message.length = MesgTime.size ∧
      MesgTime.week.read message = some (clockFace t.toNat).week ∧
      MesgTime.mouth.read message = some (clockFace t.toNat).mouth ∧
      MesgTime.year.read message = some (clockFace t.toNat).year ∧
      MesgTime.hour.read message = some (clockFace t.toNat).hour := by
  -- The line of `ctime` is the one that the offsets of the message cut apart.
  obtain ⟨week, mouth, year, hour⟩ := printable_clockFace (show t.toNat < 253402300800 by omega)
  have printed : timeMessage t buf mes =
      some (fillMesgTime (clockLine (clockFace t.toNat)) mes) := by
    rw [timeMessage, ctime_eq lower upper static]
    rfl
  exact ⟨_, printed, read_clockLine week mouth year hour block⟩

/--
The last second of February 1970, on a message block and a buffer that were never written before.
-/
theorem timeMessage_february :
    clockFace 5097599 = ⟨ofText "Sat".toList, ofText "Feb 28".toList, ofText "1970".toList,
      ofText "23:59:59".toList⟩ ∧
    ∃ message, timeMessage 5097599 (List.replicate 25 0) (List.replicate 32 0) = some message ∧
      message.length = MesgTime.size ∧
      MesgTime.week.read message = some (clockFace 5097599).week ∧
      MesgTime.mouth.read message = some (clockFace 5097599).mouth ∧
      MesgTime.year.read message = some (clockFace 5097599).year ∧
      MesgTime.hour.read message = some (clockFace 5097599).hour :=
  ⟨by decide +kernel,
    timeMessage_clockFace 5097599 _ _ (by decide) (by decide) (by decide) (by decide)⟩

end MultifunctionClock
