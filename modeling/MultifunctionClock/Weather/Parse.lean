import MultifunctionClock.Lib.Json

/-! The weather message: what `cJSON_NowWeatherParse` writes into it, and the calls it makes. -/

namespace MultifunctionClock

open Bytes

/--
The cJSON functions that the parser calls.

The library is a package outside the repository, so it is a parameter here.
A pointer that may be null is an option, and the laws are those its documentation gives for null
pointers and for C strings.
-/
structure CJson where
  /-- A parsed item. -/
  Item : Type
  /-- `cJSON_Parse`, given the memory from its argument on. -/
  parse : Bytes → Option Item
  /-- `cJSON_GetObjectItem`. -/
  getObjectItem : Option Item → String → Option Item
  /-- `cJSON_GetArrayItem`. -/
  getArrayItem : Option Item → ℕ → Option Item
  /-- The `valuestring` of an item, null when the item is not a string. -/
  valuestring : Item → Option Bytes
  getObjectItem_null : ∀ name, getObjectItem none name = none
  getArrayItem_null : ∀ index, getArrayItem none index = none
  valuestring_plain : ∀ item text, valuestring item = some text → ∀ byte ∈ text, byte ≠ 0

/-- The members that the parser copies, each absent when its lookup gives null. -/
structure Report where
  name : Option Bytes
  weather : Option Bytes
  temp : Option Bytes
deriving DecidableEq

/-- What `sprintf` prints for `%s`. The C library prints a fixed text for a null pointer. -/
def printedString : Option Bytes → Bytes
  | some text => text
  | none => ofText "(null)".toList

/-- A member of an object, as the text that `sprintf` copies from it. -/
def CJson.member (cjson : CJson) (object : Option cjson.Item) (name : String) : Option Bytes :=
  (cjson.getObjectItem object name).map fun item => printedString (cjson.valuestring item)

/-- A text that is parsed to one value whatever follows it in memory. -/
def CJson.Complete (cjson : CJson) (body : Bytes) (json : cjson.Item) : Prop :=
  ∀ rest, cjson.parse (body ++ rest) = some json

/-- What is assumed of `cJSON_Parse`. -/
structure CJson.Lawful (cjson : CJson) : Prop where
  /-- It succeeds exactly when the memory begins with a complete JSON value. -/
  parse_isSome : ∀ memory, (cjson.parse memory).isSome = (Json.read memory).isSome
  /-- It reads no further than to the end of that value, to an error or to a zero byte. -/
  parse_append : ∀ text rest, Json.Stops text → cjson.parse (text ++ rest) = cjson.parse text

/-- A value that ends inside a text is complete. -/
theorem CJson.Lawful.complete {cjson : CJson} (lawful : cjson.Lawful) {text : Bytes}
    {json : cjson.Item} (stops : Json.Stops text) (parsed : cjson.parse text = some json) :
    cjson.Complete text json := fun rest => (lawful.parse_append text rest stops).trans parsed

/-- A memory that does not begin with a complete value is not parsed. -/
theorem CJson.Lawful.parse_eq_none {cjson : CJson} (lawful : cjson.Lawful) {memory : Bytes}
    (incomplete : (Json.read memory).isSome = false) : cjson.parse memory = none := by
  rw [← lawful.parse_isSome, Option.isSome_eq_false_iff, Option.isNone_iff_eq_none] at incomplete
  exact incomplete

/-- The library on top of the reader of JSON texts. -/
def standardJson : CJson where
  Item := Json
  parse := Json.read
  getObjectItem
    | some json, name => json.member (ofText name.toList)
    | none, _ => none
  -- The elements of an array and the members of an object are in lists of the same kind.
  getArrayItem
    | some json, index => json.children[index]?
    | none, _ => none
  valuestring
    | .string text => some (text.takeWhile (· ≠ 0))
    | _ => none
  getObjectItem_null _ := rfl
  getArrayItem_null _ := rfl
  valuestring_plain := by
    intro item text held byte member
    cases item with
    | string whole =>
      -- An escaped zero byte ends the C string.
      obtain rfl := Option.some.inj held
      simpa using List.mem_takeWhile_imp member
    | _ => cases held

/-- The reader is what the assumption speaks of. -/
theorem standardJson_lawful : standardJson.Lawful where
  parse_isSome _ := rfl
  parse_append _ rest stops := Json.read_append stops rest

/-- The members that `cJSON_NowWeatherParse` finds in a parsed value. -/
def CJson.report (cjson : CJson) (json : cjson.Item) : Report :=
  -- A stray semicolon ends the test on "results", so the block behind it always runs.
  let arrayItem := cjson.getObjectItem (some json) "results"
  match cjson.getArrayItem arrayItem 0 with
  | none => ⟨none, none, none⟩
  | some object =>
    let location := cjson.getObjectItem (some object) "location"
    let now := cjson.getObjectItem (some object) "now"
    { name := if location.isSome then cjson.member location "name" else none
      weather := if now.isSome then cjson.member now "text" else none
      temp := if now.isSome then cjson.member now "temperature" else none }

namespace MesgWeather

/-- `name` of `struct mesg_weather`. -/
def name : CharArray := ⟨0, 16⟩

/-- `weather` of `struct mesg_weather`. -/
def weather : CharArray := ⟨16, 12⟩

/-- `temp` of `struct mesg_weather`. -/
def temp : CharArray := ⟨28, 6⟩

/-- Bytes of `struct mesg_weather`. -/
def size : ℕ := 34

end MesgWeather

/-- `sprintf` with the format `%s` into an array, when there is an item to print. -/
def sprintfInto (field : CharArray) (text : Option Bytes) (mes : Bytes) : Bytes :=
  match text with
  | none => mes
  | some text => store field.offset (text ++ [0]) mes

/-- The three writes of the parser, in its order. -/
def fillMesgWeather (report : Report) (mes : Bytes) : Bytes :=
  -- None of the calls knows the size of its array, and an absent item leaves its array as it was.
  let mes := sprintfInto MesgWeather.name report.name mes
  let mes := sprintfInto MesgWeather.weather report.weather mes
  sprintfInto MesgWeather.temp report.temp mes

/-- The three strings of a weather page. -/
@[ext] structure WeatherTexts where
  name : Bytes
  weather : Bytes
  temp : Bytes
deriving DecidableEq

/-- The strings that drawing a weather message reads. -/
def readWeather (mes : Bytes) : WeatherTexts where
  name := cstring MesgWeather.name.offset mes
  weather := cstring MesgWeather.weather.offset mes
  temp := cstring MesgWeather.temp.offset mes

/-- The calls of the weather thread that other threads can notice. -/
inductive WeatherCall where
  /-- `mes = rt_malloc(sizeof(struct mesg_weather))`. -/
  | malloc
  /-- The writes into `mes`. -/
  | fill (report : Report)
  /-- `rt_mb_send(&mb_oled_weather, mes)`. -/
  | send
  /-- `rt_free(mes)`. -/
  | free
deriving DecidableEq

/-- The calls of `cJSON_NowWeatherParse` on the memory it is given. -/
def nowWeatherParse (cjson : CJson) (memory : Bytes) : List WeatherCall :=
  match cjson.parse memory with
  -- The message is allocated before the result is tested, and is not freed on this path.
  | none => [.malloc]
  | some json => [.malloc, .fill (cjson.report json), .send, .free]

/-- Strings that fit their arrays with their terminators. -/
structure WeatherTexts.Fits (texts : WeatherTexts) : Prop where
  name_length : texts.name.length ≤ 15
  weather_length : texts.weather.length ≤ 11
  temp_length : texts.temp.length ≤ 5
  name_plain : ∀ byte ∈ texts.name, byte ≠ 0
  weather_plain : ∀ byte ∈ texts.weather, byte ≠ 0
  temp_plain : ∀ byte ∈ texts.temp, byte ≠ 0

/-- A report that has all three strings. -/
def WeatherTexts.report (texts : WeatherTexts) : Report :=
  ⟨some texts.name, some texts.weather, some texts.temp⟩

/-- The texts of a report are C strings. -/
structure Report.Plain (report : Report) : Prop where
  name : ∀ text, report.name = some text → ∀ byte ∈ text, byte ≠ 0
  weather : ∀ text, report.weather = some text → ∀ byte ∈ text, byte ≠ 0
  temp : ∀ text, report.temp = some text → ∀ byte ∈ text, byte ≠ 0

/-- What `sprintf` prints for an item of a parsed value is a C string. -/
theorem CJson.member_plain (cjson : CJson) (object : Option cjson.Item) (name : String)
    (text : Bytes) (found : cjson.member object name = some text) : ∀ byte ∈ text, byte ≠ 0 := by
  -- A string item is a C string, and the fixed text for a null pointer is one as well.
  obtain ⟨item, -, rfl⟩ := Option.map_eq_some_iff.mp found
  cases held : cjson.valuestring item with
  | none => exact plain_of_all (by decide)
  | some text => exact cjson.valuestring_plain item text held

/-- Every report of a parsed value consists of C strings. -/
theorem CJson.report_plain (cjson : CJson) (json : cjson.Item) : (cjson.report json).Plain := by
  -- Each text is absent or printed from a member.
  have printed : ∀ (present : Bool) (object : Option cjson.Item) (name : String) (text : Bytes),
      (if present then cjson.member object name else none) = some text →
        ∀ byte ∈ text, byte ≠ 0 := by
    intro present object name text found
    cases present with
    | false => simp at found
    | true => exact cjson.member_plain object name text found
  unfold CJson.report
  dsimp only
  split
  · exact ⟨by simp, by simp, by simp⟩
  · exact ⟨printed _ _ _, printed _ _ _, printed _ _ _⟩

/-- A text that fits its array is the string of that array after printing. -/
theorem read_sprintfInto_same {field : CharArray} {text mes : Bytes}
    (plain : ∀ byte ∈ text, byte ≠ 0) (inside : field.offset ≤ mes.length)
    (room : text.length < field.size) :
    field.read (sprintfInto field (some text) mes) = some text := by
  rw [CharArray.read, sprintfInto, cstringIn_store_same inside room, takeWhile_plain plain]

/-- Printing never makes a message shorter. -/
theorem length_sprintfInto_ge {field : CharArray} {text : Option Bytes} {mes : Bytes}
    (inside : field.offset ≤ mes.length) : mes.length ≤ (sprintfInto field text mes).length := by
  -- A text that runs past the end makes the memory longer.
  cases text with
  | none => exact le_refl _
  | some text =>
    simp only [sprintfInto, store, List.length_append, List.length_take, List.length_drop]
    omega

/-- Printing leaves the bytes in front of it alone. -/
theorem slice_sprintfInto_before {field : CharArray} {text : Option Bytes} {mes : Bytes}
    {start size : ℕ} (before : start + size ≤ field.offset) (inside : field.offset ≤ mes.length) :
    ((sprintfInto field text mes).drop start).take size = (mes.drop start).take size := by
  -- Without an item nothing is written, and otherwise the write lies behind the range.
  cases text with
  | none => rfl
  | some text => exact slice_store_before before inside

/-- The three texts are C strings. -/
structure WeatherTexts.Plain (texts : WeatherTexts) : Prop where
  name : ∀ byte ∈ texts.name, byte ≠ 0
  weather : ∀ byte ∈ texts.weather, byte ≠ 0
  temp : ∀ byte ∈ texts.temp, byte ≠ 0

/--
What is drawn of three texts: each one runs on into the next when its array has no terminator.
-/
def drawnTexts (texts : WeatherTexts) : WeatherTexts :=
  let weather :=
    if texts.weather.length < 12 then texts.weather else texts.weather.take 12 ++ texts.temp
  { name := if texts.name.length < 16 then texts.name else texts.name.take 16 ++ weather
    weather := weather
    temp := texts.temp }

/-- Nothing of the old message is left in the strings of a filled one. -/
theorem readWeather_fill_eq {texts : WeatherTexts} (plain : texts.Plain) {mes : Bytes}
    (block : MesgWeather.size ≤ mes.length) :
    readWeather (fillMesgWeather texts.report mes) = drawnTexts texts := by
  simp only [MesgWeather.size] at block
  set named := sprintfInto MesgWeather.name (some texts.name) mes with namedEq
  set told := sprintfInto MesgWeather.weather (some texts.weather) named with toldEq
  set filled := sprintfInto MesgWeather.temp (some texts.temp) told with filledEq
  have namedLength : 34 ≤ named.length := block.trans (length_sprintfInto_ge (Nat.zero_le _))
  have weatherInside : MesgWeather.weather.offset ≤ named.length := le_trans (by decide) namedLength
  have toldLength : 34 ≤ told.length := namedLength.trans (length_sprintfInto_ge weatherInside)
  have tempInside : MesgWeather.temp.offset ≤ told.length := le_trans (by decide) toldLength
  -- Each array keeps what was printed into it, since the later writes lie behind it.
  have nameKept : (filled.drop 0).take 16 = ((store 0 (texts.name ++ [0]) mes).drop 0).take 16 :=
    (slice_sprintfInto_before (by decide) tempInside).trans
      (slice_sprintfInto_before (by decide) weatherInside)
  have weatherKept :
      (filled.drop 16).take 12 = ((store 16 (texts.weather ++ [0]) named).drop 16).take 12 :=
    slice_sprintfInto_before (by decide) tempInside
  -- The last text is read back, and the others are read back or run on.
  have temp : cstring 28 filled = texts.temp :=
    (cstring_store_same _ tempInside).trans (takeWhile_plain plain.temp)
  have weather : cstring 16 filled = if texts.weather.length < 12 then texts.weather
      else texts.weather.take 12 ++ cstring 28 filled :=
    MesgWeather.weather.cstring_of_store plain.weather weatherInside weatherKept
  have name : cstring 0 filled = if texts.name.length < 16 then texts.name
      else texts.name.take 16 ++ cstring 16 filled :=
    MesgWeather.name.cstring_of_store plain.name (Nat.zero_le _) nameKept
  rw [temp] at weather
  rw [weather] at name
  exact WeatherTexts.ext name weather temp

/-- Strings that fit survive the three writes. -/
theorem readWeather_fill {texts : WeatherTexts} (fits : texts.Fits) {mes : Bytes}
    (block : mes.length = MesgWeather.size) :
    readWeather (fillMesgWeather texts.report mes) = texts := by
  obtain ⟨nameLength, weatherLength, tempLength, namePlain, weatherPlain, tempPlain⟩ := fits
  rw [readWeather_fill_eq ⟨namePlain, weatherPlain, tempPlain⟩ block.ge]
  -- Each array holds its text with the terminator, so no text runs on.
  rw [drawnTexts, if_pos (by omega), if_pos (by omega)]

/--
An array without a zero byte shows a short string only if exactly that string was printed into it.
-/
theorem sprintfInto_short (field : CharArray) {text : Option Bytes} (mes : Bytes)
    {later shown : Bytes} (plain : ∀ printed, text = some printed → ∀ byte ∈ printed, byte ≠ 0)
    (raw : (mes.drop field.offset).take field.size = List.replicate field.size 1)
    (inside : field.offset ≤ mes.length)
    (kept : (later.drop field.offset).take field.size =
      ((sprintfInto field text mes).drop field.offset).take field.size)
    (read : cstring field.offset later = shown) (short : shown.length < field.size) :
    text = some shown := by
  subst read
  -- A full array of nonzero bytes would be read to its end.
  have blocked : ∀ bytes : Bytes, bytes.length = field.size → (∀ byte ∈ bytes, byte ≠ 0) →
      (later.drop field.offset).take field.size ≠ bytes := by
    intro bytes width nonzero held
    have := length_cstring_ge nonzero (by rw [width]; exact held)
    omega
  cases text with
  | none => exact absurd (kept.trans raw) (blocked _ (by simp) (by simp))
  | some printed =>
    have nonzero := plain printed rfl
    by_cases room : printed.length < field.size
    · -- The text fits with its terminator, so the scan gives it back.
      have read : field.read later = some printed := by
        have same := read_sprintfInto_same nonzero inside room
        simp only [CharArray.read, cstringIn, kept] at same ⊢
        exact same
      rw [CharArray.cstring_of_read read]
    · -- The text fills the array without a terminator inside it.
      refine absurd kept (blocked _ ?_ ?_)
      · rw [sprintfInto, drop_store_same inside]
        simp
        omega
      · intro byte member
        rw [sprintfInto, drop_store_same inside, List.append_assoc,
          List.take_append_of_le_length (by omega)] at member
        exact nonzero byte (List.mem_of_mem_take member)

/-- Printing a text that ends in front of a range leaves the range alone. -/
theorem slice_sprintfInto_behind {field : CharArray} {text mes : Bytes} {start size : ℕ}
    (behind : field.offset + text.length < start) (inside : start ≤ mes.length) :
    ((sprintfInto field (some text) mes).drop start).take size = (mes.drop start).take size :=
  slice_store_of_disjoint (by simp; omega) (by simp; omega)

/-- A message that shows strings that fit on every block was filled from those strings. -/
theorem report_of_readWeather {texts : WeatherTexts} (fits : texts.Fits) {report : Report}
    (plain : report.Plain)
    (shown : ∀ mes, mes.length = MesgWeather.size →
      readWeather (fillMesgWeather report mes) = texts) :
    report = texts.report := by
  obtain ⟨name, weather, temp⟩ := report
  -- A block without any zero byte shows an array that was not written as a string that is too long.
  set blank : Bytes := List.replicate 34 1 with blankEq
  have width : blank.length = 34 := by simp [blankEq]
  have shown := shown blank width
  simp only [fillMesgWeather, readWeather] at shown
  set named := sprintfInto MesgWeather.name name blank with namedEq
  set told := sprintfInto MesgWeather.weather weather named with toldEq
  have namedLength : 34 ≤ named.length := width ▸ length_sprintfInto_ge (by simp [MesgWeather.name])
  have toldLength : 34 ≤ told.length :=
    namedLength.trans (length_sprintfInto_ge (by simp [MesgWeather.weather]; omega))
  obtain ⟨nameText, weatherText, tempText⟩ := texts
  obtain ⟨nameLength, weatherLength, tempLength, -, -, -⟩ := fits
  dsimp only at nameLength weatherLength tempLength
  obtain ⟨nameRead, weatherRead, tempRead⟩ := WeatherTexts.mk.injEq .. ▸ shown
  -- The arrays are settled in the order of the writes, so that each earlier text is known to fit.
  have first : name = some nameText := by
    -- The name is written into the raw block, and both later writes lie behind it.
    refine sprintfInto_short MesgWeather.name blank plain.name ?_ (Nat.zero_le _) ?_ nameRead
      (Nat.lt_succ_of_le nameLength)
    · simp [MesgWeather.name, blankEq]
    · rw [slice_sprintfInto_before (by decide) (by simp [MesgWeather.temp]; omega), toldEq,
        slice_sprintfInto_before (by decide) (by simp [MesgWeather.weather]; omega)]
  have second : weather = some weatherText := by
    -- The name is short, so the second array is still raw when it is written.
    refine sprintfInto_short MesgWeather.weather named plain.weather ?_ ?_ ?_ weatherRead
      (Nat.lt_succ_of_le weatherLength)
    · rw [namedEq, first, slice_sprintfInto_behind]
      all_goals simp [MesgWeather.name, MesgWeather.weather, blankEq]; try omega
    · simp [MesgWeather.weather]; omega
    · rw [slice_sprintfInto_before (by decide) (by simp [MesgWeather.temp]; omega)]
  have third : temp = some tempText := by
    -- Both earlier texts are short, and nothing is written after this one.
    refine sprintfInto_short MesgWeather.temp told plain.temp ?_ ?_ rfl tempRead
      (Nat.lt_succ_of_le tempLength)
    · rw [toldEq, second, slice_sprintfInto_behind, namedEq, first, slice_sprintfInto_behind]
      all_goals simp [MesgWeather.name, MesgWeather.weather, MesgWeather.temp, blankEq]; try omega
    · simp [MesgWeather.temp]; omega
  rw [first, second, third, WeatherTexts.report]

end MultifunctionClock
