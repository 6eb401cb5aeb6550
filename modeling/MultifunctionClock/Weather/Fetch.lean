import MultifunctionClock.Weather.Parse

/-! The weather thread: one HTTP request,
    whose response is parsed after every read into one buffer. -/

namespace MultifunctionClock

open Bytes

/-- `GET_RESP_BUFSZ`. -/
def getRespBufsz : ℤ := 1024

/-- A result of `webclient_read`. -/
inductive WebRead where
  /-- Bytes that arrive. No more of them than requested are copied to the buffer. -/
  | data (bytes : Bytes)
  /-- Zero or an error code. The buffer stays as it was. -/
  | stopped
deriving DecidableEq

/-- The bytes that a read copies to the start of the buffer. -/
def WebRead.piece (request : ℤ) : WebRead → Bytes
  -- `webclient_read` never copies more than it was asked for.
  | .data bytes => bytes.take request.toNat
  | .stopped => []

/-- What the network and the allocator answer during one fetch. -/
structure Fetch where
  /-- `web_strdup` gives a copy of the address. -/
  uri : Bool
  /-- What `web_malloc` gives: the bytes in the response buffer and behind it, or a null pointer. -/
  buffer : Option Bytes
  /-- `webclient_session_create` gives a session. -/
  session : Bool
  /-- The result of `webclient_get`. -/
  respStatus : ℤ
  /-- The result of `webclient_content_length_get`, negative when no length is announced. -/
  contentLength : ℤ
  /-- The results of `webclient_read`. Once they are used up the server has disconnected. -/
  reads : List WebRead
deriving DecidableEq

/-- The number of bytes that the loop asks for at a position. -/
def request (contentLength contentPos : ℤ) : ℤ :=
  -- The rest of the body, but no more than the buffer takes.
  if contentLength - contentPos > getRespBufsz then getRespBufsz else contentLength - contentPos

/-- The memory that each call of the parser is given by the loop over a body of known length. -/
def parsedBuffers (contentLength : ℤ) : ℤ → Bytes → List WebRead → List Bytes
  -- After the disconnect one more read gives zero, and the old bytes are parsed once more.
  | _, buffer, [] => [buffer]
  | contentPos, buffer, read :: reads =>
    let piece := read.piece (request contentLength contentPos)
    -- Every read starts at the front of the buffer,
    -- and the parser runs before the result is tested.
    let buffer := store 0 piece buffer
    buffer ::
      if piece.length ≤ 0 then []
      else if contentPos + piece.length < contentLength then
        parsedBuffers contentLength (contentPos + piece.length) buffer reads
      else []

/-- The memory that each call of the parser is given by `weather_get_comm`. -/
def weatherGetComm (fetch : Fetch) : List Bytes :=
  match fetch.buffer with
  | none => []
  | some buffer =>
    if !fetch.session then []
    else if fetch.respStatus ≠ 200 then []
    -- Without a length the body is read and printed, and the parser is never called.
    else if fetch.contentLength < 0 then []
    else parsedBuffers fetch.contentLength 0 buffer fetch.reads

/-- The calls of `thread_entry_weather`. -/
def threadEntryWeather (cjson : CJson) (fetch : Fetch) : List WeatherCall :=
  if fetch.uri then (weatherGetComm fetch).flatMap (nowWeatherParse cjson) else []

/-- A block of the size of a weather message, with whatever the allocator left in it. -/
abbrev MesgWeather.Block := { mes : Bytes // mes.length = MesgWeather.size }

/-- The strings of the mails that a list of calls posts, each as it is when it is posted. -/
def posts (fresh : ℕ → MesgWeather.Block) : ℕ → Bytes → List WeatherCall → List WeatherTexts
  | _, _, [] => []
  | count, _, .malloc :: calls => posts fresh (count + 1) (fresh count) calls
  | count, mes, .fill report :: calls => posts fresh count (fillMesgWeather report mes) calls
  | count, mes, .send :: calls => readWeather mes :: posts fresh count mes calls
  | count, mes, .free :: calls => posts fresh count mes calls

/--
When the strings of each value do not depend on the block, the posts are those strings in turn.
-/
theorem posts_flatMap {cjson : CJson} {fresh : ℕ → MesgWeather.Block}
    (shown : cjson.Item → WeatherTexts) (buffers : List Bytes)
    (stable : ∀ json ∈ buffers.filterMap cjson.parse, ∀ count,
      readWeather (fillMesgWeather (cjson.report json) (fresh count)) = shown json)
    (count : ℕ) (mes : Bytes) :
    posts fresh count mes (buffers.flatMap (nowWeatherParse cjson)) =
      (buffers.filterMap cjson.parse).map shown := by
  -- The induction is on the buffers: one that cannot be parsed posts nothing, any other posts once.
  induction buffers generalizing count mes with
  | nil => rfl
  | cons buffer buffers ih =>
    cases parsed : cjson.parse buffer with
    | none =>
      -- The block is allocated and lost.
      simp only [List.filterMap_cons, parsed] at stable
      simpa [nowWeatherParse, parsed, posts] using ih stable _ _
    | some json =>
      -- The block is filled and posted, and the strings of its value do not depend on it.
      simp only [List.filterMap_cons, parsed, List.mem_cons, forall_eq_or_imp] at stable
      simpa [nowWeatherParse, parsed, posts, stable.1 count] using ih stable.2 _ _

/-- The memory after each of some pieces is laid over the start of the one before. -/
def overlays (memory : Bytes) : List Bytes → List Bytes
  | [] => []
  | piece :: pieces => store 0 piece memory :: overlays (store 0 piece memory) pieces

/-- The bytes that the reads of a body of known length bring, up to the read that ends the loop. -/
def arrivals (contentLength : ℤ) : ℤ → List WebRead → List Bytes
  | _, [] => [[]]
  | contentPos, read :: reads =>
    let piece := read.piece (request contentLength contentPos)
    piece ::
      if piece ≠ [] ∧ contentPos + piece.length < contentLength then
        arrivals contentLength (contentPos + piece.length) reads
      else []

/--
What the response buffer holds after each read of a fetch.

It is read only when every request before it succeeds and the response announces a length.
-/
def Fetch.contents (fetch : Fetch) : List Bytes :=
  match fetch.buffer with
  | none => []
  | some memory =>
    if fetch.uri ∧ fetch.session ∧ fetch.respStatus = 200 ∧ 0 ≤ fetch.contentLength then
      overlays memory (arrivals fetch.contentLength 0 fetch.reads)
    else []

/-- The loop gives the parser the buffer after each read. -/
theorem parsedBuffers_eq (contentLength contentPos : ℤ) (memory : Bytes) (reads : List WebRead) :
    parsedBuffers contentLength contentPos memory reads =
      overlays memory (arrivals contentLength contentPos reads) := by
  -- Each turn of the loop lays one arrival over the buffer, and both stop at the same read.
  induction reads generalizing contentPos memory with
  | nil => simp [parsedBuffers, arrivals, overlays, store_zero]
  | cons read reads ih =>
    simp only [parsedBuffers, arrivals, overlays, ih, List.cons.injEq, true_and]
    by_cases nothing : read.piece (request contentLength contentPos) = []
    · simp [nothing, overlays]
    · have some_bytes := List.length_pos_iff.mpr nothing
      rw [if_neg (by omega)]
      split
      · rename_i more
        rw [if_pos ⟨nothing, more⟩]
      · rename_i ended
        rw [if_neg fun both => ended both.2, overlays]

/-- The weather thread parses what the response buffer holds after each read. -/
theorem threadEntryWeather_eq (cjson : CJson) (fetch : Fetch) :
    threadEntryWeather cjson fetch = fetch.contents.flatMap (nowWeatherParse cjson) := by
  simp only [threadEntryWeather, weatherGetComm, Fetch.contents, parsedBuffers_eq]
  cases fetch.buffer with
  | none => simp
  | some memory =>
    dsimp only
    -- The nested tests of the source are one test of all that has to go well.
    cases uri : fetch.uri with
    | false => simp
    | true =>
      cases session : fetch.session with
      | false => simp
      | true =>
        by_cases ok : fetch.respStatus = 200
        · by_cases known : 0 ≤ fetch.contentLength
          · simp [ok, known, not_lt.mpr known]
          · simp [ok, known, not_le.mp known]
        · simp [ok]

/--
A way in which a successful response can bring a body.

The pieces are what the successive reads give.
No read gives nothing, or more than the buffer takes, and a body is not empty.
-/
structure Delivery where
  /-- The response announces no length. -/
  chunked : Bool
  pieces : List Bytes
  pieces_ne : pieces ≠ []
  piece_ne : ∀ piece ∈ pieces, piece ≠ []
  piece_le : ∀ piece ∈ pieces, (piece.length : ℤ) ≤ getRespBufsz

/-- The fetch of a delivery, given what the response buffer held before. -/
def Delivery.fetch (delivery : Delivery) (memory : Bytes) : Fetch where
  uri := true
  buffer := some memory
  session := true
  respStatus := 200
  contentLength := if delivery.chunked then -1 else delivery.pieces.flatten.length
  reads := delivery.pieces.map .data

/-- The reads of a body of known length bring its pieces, and then the loop ends. -/
theorem arrivals_pieces {contentLength contentPos : ℤ} {pieces : List Bytes}
    (some_left : pieces ≠ []) (piece_ne : ∀ piece ∈ pieces, piece ≠ [])
    (piece_le : ∀ piece ∈ pieces, (piece.length : ℤ) ≤ getRespBufsz)
    (ends : contentPos + pieces.flatten.length = contentLength) :
    arrivals contentLength contentPos (pieces.map .data) = pieces := by
  induction pieces generalizing contentPos with
  | nil => exact absurd rfl some_left
  | cons piece pieces ih =>
    have nonempty := piece_ne piece (by simp)
    have small := piece_le piece (by simp)
    simp only [List.flatten_cons, List.length_append, Nat.cast_add] at ends
    -- The request covers the piece, because no more than the rest of the body is left to ask for.
    have covered : (WebRead.data piece).piece (request contentLength contentPos) = piece := by
      refine List.take_of_length_le ?_
      unfold request
      split <;> omega
    simp only [List.map_cons, arrivals, covered]
    congr 1
    cases pieces with
    | nil => exact if_neg (by simp at ends; omega)
    | cons second rest =>
      -- More of the body is to come, so the loop goes on.
      have more := List.length_pos_iff.mpr (piece_ne second (by simp))
      simp only [List.flatten_cons, List.length_append, Nat.cast_add] at ends
      rw [if_pos ⟨nonempty, by omega⟩]
      refine ih (by simp) (fun other member => piece_ne other (by simp [member]))
        (fun other member => piece_le other (by simp [member])) ?_
      simp only [List.flatten_cons, List.length_append, Nat.cast_add]
      omega

/-- The parser sees the overlays of a delivery of known length, and nothing of any other. -/
theorem contents_delivery (delivery : Delivery) (memory : Bytes) :
    (delivery.fetch memory).contents =
      if delivery.chunked then [] else overlays memory delivery.pieces := by
  -- The reads of a delivery bring its pieces, and a chunked one is never parsed.
  have walked := arrivals_pieces delivery.pieces_ne delivery.piece_ne delivery.piece_le
    (Int.zero_add _)
  cases announced : delivery.chunked with
  | true => simp [Fetch.contents, Delivery.fetch, announced]
  | false => simp [Fetch.contents, Delivery.fetch, announced, walked, -List.length_flatten]

/-- One mail with given strings is posted exactly when one buffer is parsed and carries them. -/
theorem posts_eq_singleton_iff {cjson : CJson} {texts : WeatherTexts} (fits : texts.Fits)
    (buffers : List Bytes) :
    (∀ fresh, posts fresh 0 [] (buffers.flatMap (nowWeatherParse cjson)) = [texts]) ↔
      ∃ json, buffers.filterMap cjson.parse = [json] ∧ cjson.report json = texts.report := by
  constructor
  · intro posted
    -- Blocks that all hold the same bytes show which value was parsed.
    have same : ∀ mes : MesgWeather.Block, (buffers.filterMap cjson.parse).map
        (fun json => readWeather (fillMesgWeather (cjson.report json) mes)) = [texts] := by
      intro mes
      rw [← posted fun _ => mes, posts_flatMap _ _ fun _ _ _ => rfl]
    obtain ⟨json, single, -⟩ :=
      List.map_eq_singleton_iff.mp (same ⟨List.replicate 34 0, by simp [MesgWeather.size]⟩)
    refine ⟨json, single, report_of_readWeather fits (cjson.report_plain json) ?_⟩
    intro mes block
    simpa [single] using same ⟨mes, block⟩
  · rintro ⟨json, single, carried⟩ fresh
    rw [posts_flatMap (fun _ => texts), single]
    · simp
    · intro other member count
      rw [single, List.mem_singleton] at member
      rw [member, carried]
      exact readWeather_fill fits (fresh count).property

/--
The weather mails of a fetch depend on how the body arrives.

A complete body gives its one mail exactly when its length is announced, exactly one of the buffers
between the reads can be parsed, and that one carries the strings.
In particular it does when one read brings the whole body.
-/
theorem posts_delivery {cjson : CJson} {body : Bytes} {json : cjson.Item} {texts : WeatherTexts}
    (complete : cjson.Complete body json) (carried : cjson.report json = texts.report)
    (fits : texts.Fits)
    (delivery : Delivery) (whole : delivery.pieces.flatten = body) (memory : Bytes) :
    ((∀ fresh, posts fresh 0 [] (threadEntryWeather cjson (delivery.fetch memory)) = [texts]) ↔
      delivery.chunked = false ∧
        ∃ value, (overlays memory delivery.pieces).filterMap cjson.parse = [value] ∧
          cjson.report value = texts.report) ∧
    (delivery.chunked = false → delivery.pieces.length = 1 →
      ∀ fresh, posts fresh 0 [] (threadEntryWeather cjson (delivery.fetch memory)) = [texts]) := by
  -- The parser runs on the overlays of the pieces, and each value it finds is one mail.
  have exactly :
      (∀ fresh, posts fresh 0 [] (threadEntryWeather cjson (delivery.fetch memory)) = [texts]) ↔
      delivery.chunked = false ∧
        ∃ value, (overlays memory delivery.pieces).filterMap cjson.parse = [value] ∧
          cjson.report value = texts.report := by
    rw [threadEntryWeather_eq, posts_eq_singleton_iff fits, contents_delivery]
    cases delivery.chunked with
    | true => simp
    | false => simp
  refine ⟨exactly, fun announced one => exactly.mpr ⟨announced, json, ?_, carried⟩⟩
  -- One read brings the whole body, and what the buffer held behind it does not matter.
  obtain ⟨piece, single⟩ := List.length_eq_one_iff.mp one
  rw [single, List.flatten_singleton] at whole
  have read := complete (memory.drop body.length)
  simp [single, overlays, store_zero, whole, read]

/-- The strings of a sunny day. -/
def sunnyTexts : WeatherTexts where
  name := ofText "Nanyang".toList
  weather := ofText "Sunny".toList
  temp := ofText "25".toList

/-- The strings of a sunny day fit. -/
theorem sunnyTexts_fits : sunnyTexts.Fits where
  name_length := by decide
  weather_length := by decide
  temp_length := by decide
  name_plain := plain_of_all (by decide)
  weather_plain := plain_of_all (by decide)
  temp_plain := plain_of_all (by decide)

/-- The front of the service's answer on a sunny day. -/
def sunnyFront : Bytes :=
  ofText "\x7b\"results\":[\x7b\"location\":\x7b\"name\":\"Nanyang\"\x7d".toList

/-- The rest of the service's answer on a sunny day. -/
def sunnyBack : Bytes :=
  ofText ",\"now\":\x7b\"text\":\"Sunny\",\"temperature\":\"25\"\x7d\x7d]\x7d".toList

/-- The end of a line, which may stand around a document. -/
def lineEnd : Bytes := [13, 10]

/-- The answer is a complete value with its three strings. -/
theorem sunny_complete : ∃ json, standardJson.Complete (sunnyFront ++ sunnyBack) json ∧
    standardJson.report json = sunnyTexts.report := by
  have parsed : (standardJson.parse (sunnyFront ++ sunnyBack)).map standardJson.report =
      some sunnyTexts.report := by decide +kernel
  obtain ⟨json, found, carried⟩ := Option.map_eq_some_iff.mp parsed
  exact ⟨json, standardJson_lawful.complete (by decide +kernel) found, carried⟩

/-- The answer in one chunk. -/
def sunnyChunked : Delivery where
  chunked := true
  pieces := [sunnyFront ++ sunnyBack]
  pieces_ne := by simp
  piece_ne := by decide
  piece_le := by decide

/-- The answer in two reads of announced length. -/
def sunnySplit : Delivery where
  chunked := false
  pieces := [sunnyFront, sunnyBack]
  pieces_ne := by simp
  piece_ne := by decide
  piece_le := by decide

/-- The answer in one read of announced length. -/
def sunnyWhole : Delivery where
  chunked := false
  pieces := [sunnyFront ++ sunnyBack]
  pieces_ne := by simp
  piece_ne := by decide
  piece_le := by decide

/-- The answer between two empty lines, in three reads of announced length. -/
def sunnyLines : Delivery where
  chunked := false
  pieces := [lineEnd, sunnyFront ++ sunnyBack, lineEnd]
  pieces_ne := by simp
  piece_ne := by decide
  piece_le := by decide

/--
One complete answer gives no mail at all in a chunk, and none in two reads into a zeroed buffer.

The first half is no complete value, and the second half begins with a comma, so that no library
that keeps to its law parses either of them.
-/
theorem posts_lost :
    (∃ json, standardJson.Complete (sunnyFront ++ sunnyBack) json ∧
      standardJson.report json = sunnyTexts.report) ∧
    sunnyTexts.Fits ∧ standardJson.Lawful ∧
    sunnyChunked.pieces.flatten = sunnyFront ++ sunnyBack ∧
    sunnySplit.pieces.flatten = sunnyFront ++ sunnyBack ∧
    ∀ cjson : CJson, cjson.Lawful →
      (∀ memory fresh, posts fresh 0 [] (threadEntryWeather cjson (sunnyChunked.fetch memory)) =
        []) ∧
      ∀ fresh, posts fresh 0 [] (threadEntryWeather cjson
        (sunnySplit.fetch (List.replicate 1024 0))) = [] := by
  refine ⟨sunny_complete, sunnyTexts_fits, standardJson_lawful, by simp [sunnyChunked],
    by simp [sunnySplit], fun cjson lawful => ⟨fun memory fresh => rfl, fun fresh => ?_⟩⟩
  -- Neither of the two contents of the buffer begins with a complete value.
  have unparsed : (overlays (List.replicate 1024 0) sunnySplit.pieces).filterMap
      cjson.parse = [] := by
    rw [List.filterMap_eq_nil_iff]
    intro memory member
    have incomplete : ∀ memory ∈ overlays (List.replicate 1024 0) sunnySplit.pieces,
        (Json.read memory).isSome = false := by decide +kernel
    exact lawful.parse_eq_none (incomplete memory member)
  rw [threadEntryWeather_eq, contents_delivery]
  change posts fresh 0 [] ((overlays _ sunnySplit.pieces).flatMap _) = []
  rw [posts_flatMap (fun _ => sunnyTexts), unparsed, List.map_nil]
  intro json member
  rw [unparsed] at member
  cases member

/--
The answer of a sunny day between two empty lines is posted once, although it takes three reads.
-/
theorem posts_sunny :
    sunnyLines.pieces.flatten = lineEnd ++ (sunnyFront ++ sunnyBack) ++ lineEnd ∧
    ∀ fresh, posts fresh 0 [] (threadEntryWeather standardJson
      (sunnyLines.fetch (List.replicate 1024 0))) = [sunnyTexts] := by
  have whole : sunnyLines.pieces.flatten = lineEnd ++ (sunnyFront ++ sunnyBack) ++ lineEnd := by
    simp [sunnyLines]
  -- The empty lines belong to the body, which is a complete value as well.
  have parsed : (standardJson.parse (lineEnd ++ (sunnyFront ++ sunnyBack) ++ lineEnd)).map
      standardJson.report = some sunnyTexts.report := by decide +kernel
  obtain ⟨json, found, carried⟩ := Option.map_eq_some_iff.mp parsed
  have complete := standardJson_lawful.complete (by decide +kernel) found
  -- The second read brings the document to the start of the buffer, and the third one breaks it.
  obtain ⟨value, read, shown⟩ := sunny_complete
  have before : standardJson.parse (store 0 lineEnd (List.replicate 1024 0)) = none :=
    standardJson_lawful.parse_eq_none (by decide +kernel)
  have after : standardJson.parse (store 0 lineEnd (store 0 (sunnyFront ++ sunnyBack)
      (store 0 lineEnd (List.replicate 1024 0)))) = none :=
    standardJson_lawful.parse_eq_none (by decide +kernel)
  have between : standardJson.parse (store 0 (sunnyFront ++ sunnyBack)
      (store 0 lineEnd (List.replicate 1024 0))) = some value := by
    rw [store_zero]
    exact read _
  refine ⟨whole, (posts_delivery complete carried sunnyTexts_fits sunnyLines whole
    (List.replicate 1024 0)).1.mpr ⟨rfl, value, ?_, shown⟩⟩
  change List.filterMap standardJson.parse [_, _, _] = _
  rw [List.filterMap_cons_none before, List.filterMap_cons_some between,
    List.filterMap_cons_none after, List.filterMap_nil]

end MultifunctionClock
