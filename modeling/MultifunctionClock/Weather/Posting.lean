import MultifunctionClock.Kernel.Mailbox
import MultifunctionClock.Weather.Fetch

/-! Which values the parser posts, and what its mails depend on. -/

namespace MultifunctionClock

open Bytes

section Complete

/-- The text of a member of an object, when the member is a string. -/
def CJson.stringMember (cjson : CJson) (object : cjson.Item) (name : String) : Option Bytes :=
  (cjson.getObjectItem (some object) name).bind cjson.valuestring

/--
A complete report: the first element of the array `results` has all three strings.

Only the test for an array is not among the functions that the parser calls.
-/
def CJson.Carries (cjson : CJson) (isArray : cjson.Item → Bool) (json : cjson.Item)
    (texts : WeatherTexts) : Prop :=
  ∃ results first location now,
    cjson.getObjectItem (some json) "results" = some results ∧ isArray results = true ∧
    cjson.getArrayItem (some results) 0 = some first ∧
    cjson.getObjectItem (some first) "location" = some location ∧
    cjson.getObjectItem (some first) "now" = some now ∧
    cjson.stringMember location "name" = some texts.name ∧
    cjson.stringMember now "text" = some texts.weather ∧
    cjson.stringMember now "temperature" = some texts.temp

/-- The text in memory is parsed to a complete report. -/
def CJson.Reported (cjson : CJson) (isArray : cjson.Item → Bool) (memory : Bytes) : Prop :=
  ∃ json texts, cjson.parse memory = some json ∧ cjson.Carries isArray json texts

/-- The weather mailbox after one call of the parser on a mailbox. -/
def afterCall (mes : ℕ) (mb : Mailbox ℕ) : WeatherCall → Mailbox ℕ
  -- A send that is refused, or whose assertion fails, leaves the mailbox as it is.
  | .send => ((rtMbSend mb mes).map Prod.snd).getD mb
  | _ => mb

/-- The weather mailbox after `cJSON_NowWeatherParse`, when `rt_malloc` gave it the block `mes`. -/
def afterParse (cjson : CJson) (memory : Bytes) (mes : ℕ) (mb : Mailbox ℕ) : Mailbox ℕ :=
  (nowWeatherParse cjson memory).foldl (afterCall mes) mb

/-- The mailbox is attached and has room for a mail. -/
def Mailbox.Takes (mb : Mailbox ℕ) : Prop := mb.attached = true ∧ mb.entry ≠ mb.size

variable {cjson : CJson} {isArray : cjson.Item → Bool}

/-- A string member is printed as it is. -/
theorem CJson.member_of_stringMember {object : cjson.Item} {name : String} {text : Bytes}
    (held : cjson.stringMember object name = some text) :
    cjson.member (some object) name = some text := by
  -- The member is found, and its string is not null.
  obtain ⟨item, found, value⟩ := Option.bind_eq_some_iff.mp held
  simp [CJson.member, found, value, printedString]

/-- All three fields of the message are written from a complete report. -/
theorem CJson.Carries.report {json : cjson.Item} {texts : WeatherTexts}
    (carries : cjson.Carries isArray json texts) : cjson.report json = texts.report := by
  obtain ⟨results, first, location, now, array, -, element, place, today, name, weather, temp⟩ :=
    carries
  -- Every lookup of the parser finds what the report has there.
  simp [CJson.report, array, element, place, today, CJson.member_of_stringMember name,
    CJson.member_of_stringMember weather, CJson.member_of_stringMember temp, WeatherTexts.report]

/-- A text that cannot be parsed leaves the mailbox alone. -/
theorem afterParse_of_none {memory : Bytes} (failed : cjson.parse memory = none) (mes : ℕ)
    (mb : Mailbox ℕ) : afterParse cjson memory mes mb = mb := by
  simp [afterParse, nowWeatherParse, failed, afterCall]

/-- Every value that is parsed is posted to a mailbox that takes it. -/
theorem mails_afterParse {memory : Bytes} {json : cjson.Item}
    (parsed : cjson.parse memory = some json) (mes : ℕ) {mb : Mailbox ℕ} (takes : mb.Takes) :
    (afterParse cjson memory mes mb).mails = mb.mails ++ [mes] := by
  -- The send is reached whatever members the value has.
  obtain ⟨attached, room⟩ := takes
  simp [afterParse, nowWeatherParse, parsed, afterCall, rtMbSend, attached, room, Mailbox.mails_put]

/-- A mailbox that takes no mail stays as it is. -/
theorem afterParse_of_not_takes (memory : Bytes) (mes : ℕ) {mb : Mailbox ℕ} (refuses : ¬mb.Takes) :
    afterParse cjson memory mes mb = mb := by
  -- A detached mailbox stops the send, and a full one refuses it.
  have unsent : ((rtMbSend mb mes).map Prod.snd).getD mb = mb := by
    cases sent : rtMbSend mb mes with
    | none => rfl
    | some result =>
      obtain ⟨err, next⟩ := result
      obtain ⟨attached, -, -, ⟨-, -, rfl⟩ | ⟨-, room, -⟩⟩ := rtMbSend_cases sent
      · rfl
      · exact absurd ⟨attached, room.ne⟩ refuses
  unfold afterParse nowWeatherParse
  split
  · rfl
  · simp [afterCall, unsent]

/--
The parser posts exactly the complete reports, on exactly these texts and mailboxes.

A text that cannot be parsed is never posted, and any other is posted whenever the mailbox takes it,
so a mailbox with room must be given complete reports only.
A complete report gives all three fields of its message.
-/
theorem parse_posts_iff (cjson : CJson) (isArray : cjson.Item → Bool) (memory : Bytes) (mes : ℕ)
    (mb : Mailbox ℕ) :
    ((cjson.Reported isArray memory → (afterParse cjson memory mes mb).mails = mb.mails ++ [mes]) ∧
        (¬cjson.Reported isArray memory → afterParse cjson memory mes mb = mb) ↔
      cjson.parse memory = none ∨ (cjson.Reported isArray memory ↔ mb.Takes)) ∧
    ∀ json texts, cjson.Carries isArray json texts → cjson.report json = texts.report := by
  refine ⟨?_, fun _ _ carries => carries.report⟩
  cases parsed : cjson.parse memory with
  | none =>
    -- Nothing is reported and nothing is posted.
    have unreported : ¬cjson.Reported isArray memory := by
      rintro ⟨json, texts, found, -⟩
      rw [parsed] at found
      cases found
    simp [unreported, afterParse_of_none parsed]
  | some json =>
    by_cases takes : mb.Takes
    · -- The value is posted, so it had better be complete.
      have posted := mails_afterParse parsed mes takes
      have changed : afterParse cjson memory mes mb ≠ mb := by
        intro same
        rw [same] at posted
        simpa using congrArg List.length posted
      simp [posted, changed, takes]
    · -- Nothing can be posted, so there had better be nothing to post.
      simp [afterParse_of_not_takes memory mes takes, takes]

/-- The error answer of the weather service to a wrong key. -/
def errorBody : Bytes :=
  ofText "\x7b\"status\":\"The API key is invalid.\",\"status_code\":\"AP010003\"\x7d".toList

/-- The error answer is posted, with whatever bytes the allocator left in the message. -/
theorem parse_posts_error :
    (afterParse standardJson (errorBody ++ [0]) 1 (rtMbInit [0] (by decide) (by decide))).mails =
      [1] ∧
    posts (fun _ => ⟨List.replicate 34 35, rfl⟩) 0 []
      (nowWeatherParse standardJson (errorBody ++ [0])) =
      [⟨List.replicate 34 35, List.replicate 18 35, List.replicate 6 35⟩] ∧
    ∀ isArray, ¬standardJson.Reported isArray (errorBody ++ [0]) := by
  refine ⟨by decide +kernel, by decide +kernel, ?_⟩
  -- The one value that is parsed has no member of the name `results`.
  have absent : (standardJson.parse (errorBody ++ [0])).map
      (fun json => (standardJson.getObjectItem (some json) "results").isSome) = some false := by
    decide +kernel
  rintro isArray ⟨json, texts, parsed, results, first, location, now, array, -⟩
  simp [parsed, array] at absent

end Complete

section Received

/-- The response buffer and the memory behind it. -/
abbrev RespMemory := { memory : Bytes // getRespBufsz ≤ memory.length }

/-- The fetch with given bytes in and behind its response buffer. -/
def Fetch.into (fetch : Fetch) (memory : RespMemory) : Fetch := { fetch with buffer := some memory }

/--
The bytes that the reads of a fetch have brought after each read, the later over the earlier ones.
-/
def Fetch.received (fetch : Fetch) : List Bytes :=
  if fetch.session ∧ fetch.respStatus = 200 ∧ 0 ≤ fetch.contentLength then
    overlays [] (arrivals fetch.contentLength 0 fetch.reads)
  else []

/--
Some bytes settle the mail of the parser.

It stops inside them, and a value that it completes there has all three members.
-/
def CJson.Settles (cjson : CJson) (text : Bytes) : Prop :=
  Json.Stops text ∧
    ∀ json, cjson.parse text = some json → ∃ texts : WeatherTexts, cjson.report json = texts.report

/-- All mails that `weather_get_comm` posts. -/
def mailsOf (cjson : CJson) (fresh : ℕ → MesgWeather.Block) (fetch : Fetch) : List WeatherTexts :=
  posts fresh 0 [] ((weatherGetComm fetch).flatMap (nowWeatherParse cjson))

variable {cjson : CJson}

/-- What the reads brought lies in front of what the memory held before. -/
theorem overlays_eq (memory : Bytes) (pieces : List Bytes) (front : Bytes) :
    overlays (front ++ memory.drop front.length) pieces =
      (overlays front pieces).map fun text => text ++ memory.drop text.length := by
  induction pieces generalizing front with
  | nil => rfl
  | cons piece pieces ih =>
    -- A piece covers the front, and then some more of the memory if it is the longer one.
    have laid : store 0 piece (front ++ memory.drop front.length) =
        store 0 piece front ++ memory.drop (store 0 piece front).length := by
      rw [store_zero, store_zero, List.drop_append, List.drop_drop, List.append_assoc,
        List.length_append, List.length_drop]
      congr 3
      omega
    rw [overlays, overlays, laid, ih, List.map_cons]

/-- The parser is given what the reads brought, followed by the old bytes of the memory. -/
theorem weatherGetComm_into (fetch : Fetch) (memory : RespMemory) :
    weatherGetComm (fetch.into memory) =
      fetch.received.map fun text => text ++ memory.val.drop text.length := by
  -- Without any read the memory is all that there is.
  have laid := overlays_eq memory.val (arrivals fetch.contentLength 0 fetch.reads) []
  rw [List.nil_append, List.length_nil, List.drop_zero] at laid
  simp only [weatherGetComm, Fetch.into, Fetch.received, parsedBuffers_eq]
  cases session : fetch.session with
  | false => simp
  | true =>
    by_cases ok : fetch.respStatus = 200
    · by_cases known : 0 ≤ fetch.contentLength
      · simp [ok, known, not_lt.mpr known, laid]
      · simp [ok, known, not_le.mp known]
    · simp [ok]

/-- A report with all three members shows the same strings in every block. -/
theorem CJson.readWeather_report {json : cjson.Item} {texts : WeatherTexts}
    (carried : cjson.report json = texts.report) (mes : MesgWeather.Block) :
    readWeather (fillMesgWeather (cjson.report json) mes) = drawnTexts texts := by
  -- The members are C strings, since the library printed them.
  have plain := cjson.report_plain json
  rw [carried] at plain ⊢
  exact readWeather_fill_eq ⟨plain.name _ rfl, plain.weather _ rfl, plain.temp _ rfl⟩
    mes.property.ge

/-- Once its bytes are settled, a fetch posts what the parser finds in them. -/
theorem mailsOf_into (lawful : cjson.Lawful) {fetch : Fetch}
    (settled : ∀ text ∈ fetch.received, cjson.Settles text) (fresh : ℕ → MesgWeather.Block)
    (memory : RespMemory) (blank : MesgWeather.Block) :
    mailsOf cjson fresh (fetch.into memory) = (fetch.received.filterMap cjson.parse).map
      fun json => readWeather (fillMesgWeather (cjson.report json) blank) := by
  -- The old bytes of the memory lie behind the place where the parser stops.
  have same : (weatherGetComm (fetch.into memory)).filterMap cjson.parse =
      fetch.received.filterMap cjson.parse := by
    rw [weatherGetComm_into, List.filterMap_map]
    refine List.filterMap_congr fun text member => ?_
    exact lawful.parse_append text _ (settled text member).1
  rw [mailsOf, posts_flatMap _ _ ?_, same]
  -- No string of a value depends on the block that it is printed into.
  intro json member count
  rw [same] at member
  obtain ⟨text, received, parsed⟩ := List.mem_filterMap.mp member
  obtain ⟨texts, carried⟩ := (settled text received).2 json parsed
  rw [cjson.readWeather_report carried, cjson.readWeather_report carried]

/-- The answer of a sunny day, with an empty line behind it that comes in a second read. -/
def sunnyTrailer : Fetch where
  uri := true
  buffer := none
  session := true
  respStatus := 200
  contentLength := (sunnyFront ++ sunnyBack ++ lineEnd).length
  reads := [.data (sunnyFront ++ sunnyBack), .data lineEnd]

/-- A response of known length whose first read fails. -/
def brokenRead : Fetch where
  uri := true
  buffer := none
  session := true
  respStatus := 200
  contentLength := 100
  reads := [.stopped]

end Received

end MultifunctionClock
