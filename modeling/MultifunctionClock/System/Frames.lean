import MultifunctionClock.Lib.Shared
import MultifunctionClock.Lib.Trace
import MultifunctionClock.System.Blocks

/-! Frames of the clock page and of the sensor page are fresh, whatever is queued. -/

namespace MultifunctionClock

namespace System

open Shared Trace

variable {α : Type} [LinearOrder α] {env : Env α} {s next : System} {event : Event α}
  {new seen : List Obs}

/-- The text that an iteration of the time thread was made of. -/
def timeText : Obs → Option Bytes
  | .timeRewritten str => some str
  | _ => none

/-- The word that a successful iteration of the sensor thread was made of. -/
def dhtWord : Obs → Option (BitVec 32)
  | .dhtRewritten word => some word
  | _ => none

/-- A frame of the clock or sensor page draws the strings of its producer's latest iteration. -/
def FreshFrame (before : List Obs) : Obs → Prop
  | .timeFrame face => ∃ str, latest timeText before = some str ∧ face = timeStrings str
  | .dhtFrame texts => ∃ word, latest dhtWord before = some word ∧ texts = dhtStrings word
  | _ => True

/-- The message block of the time thread. -/
def timeBlock : TimeThread → Option ℕ
  | .start => none
  | .loop mes => some mes

/-- The time thread publishes its texts through its message block. -/
def TimePublished (s : System) (seen : List Obs) : Prop :=
  Published .time (fun bytes => bytes.length = MesgTime.size)
    (fun str bytes => readTime bytes = timeStrings str)
    s.heap (timeBlock s.time) s.mbOledTime.mails (latest timeText seen)

/--
The sensor thread publishes its words through its message block, which it keeps when it returns.
-/
def DhtPublished (s : System) (seen : List Obs) : Prop :=
  ∃ block, (s.dht = .start → block = none) ∧
    (∀ msg count, s.dht = .loop msg count → block = some msg) ∧
    -- An overlong text may have made the block longer, but never shorter.
    Published .dht (fun bytes => MesgDht.size ≤ bytes.length)
      (fun word bytes => readDht bytes = dhtStrings word)
      s.heap block s.mbOledDht.mails (latest dhtWord seen)

/-- A send leaves the queue as it was or appends its mail. -/
theorem mails_of_send {mb mb' : Mailbox ℕ} {mail : ℕ} {err : RtErr}
    (sent : rtMbSend mb mail = some (err, mb')) :
    mb'.mails = mb.mails ∨ mb'.mails = mb.mails ++ [mail] := by
  -- The result of the send says which of the two it was.
  obtain ⟨-, -, -, ⟨-, -, rfl⟩ | ⟨-, -, queued⟩⟩ := rtMbSend_cases sent
  · exact .inl rfl
  · exact .inr queued

/-- A successful receive takes the mail at the head of the queue. -/
theorem mails_of_recv {mb mb' : Mailbox ℕ} {mail : ℕ}
    (received : rtMbRecv mb = some ((.eok, mail), mb')) : mb.mails = mail :: mb'.mails := by
  obtain ⟨-, -, -, ⟨failed, -⟩ | ⟨-, queued⟩⟩ := rtMbRecv_cases received
  · cases failed
  · exact queued

/-- A step keeps the publication of the time thread, and a clock frame draws its latest text. -/
theorem TimePublished.move (owners : Owners s) (held : TimePublished s seen)
    (move : Move env s event next new) :
    TimePublished next (seen ++ new) ∧
      ∀ face, .timeFrame face ∈ new →
        ∃ str, latest timeText seen = some str ∧ face = timeStrings str := by
  have act := owners.act move
  cases move
  case timeStart handle mes here unused =>
    -- The block is new, and nothing was published before it.
    rw [TimePublished, here] at held
    refine ⟨?_, by simp⟩
    rw [TimePublished, List.append_nil]
    exact held.alloc mes.property
  case timeIterate now buf mes str err mb here printed sent =>
    -- The block is rewritten from the new text, and the mail for it is queued or refused.
    refine ⟨?_, by simp⟩
    rw [TimePublished, here] at held
    have text := length_ctime buf.property printed
    have block := held.sized mes rfl
    have newest : latest timeText (seen ++ [.timeRewritten str]) = some str :=
      latest_concat (show timeText (.timeRewritten str) = some str from rfl) seen
    rw [TimePublished, newest, here]
    exact held.rewrite (read_fillMesgTime text block).1 (readTime_fillMesgTime text block)
      (mails_of_send sent)
  case timeFrame mes mb here received =>
    -- Whatever mail is taken, the block behind it shows the latest text.
    rw [TimePublished, mails_of_recv received] at held
    obtain ⟨kept, str, latest, shown⟩ := held.receive
    refine ⟨?_, ?_⟩
    · rw [TimePublished, latest_append_silent (by simp [timeText])]
      exact kept
    · rintro face ⟨⟩
      · exact ⟨str, latest, shown⟩
      · contradiction
  all_goals
    refine ⟨?_, by simp⟩
    rw [TimePublished, latest_append_silent (by simp [timeText])]
    exact held.keeps act (by simp [Event.actor])

/-- A step keeps the publication of the sensor thread, and a sensor frame draws its latest word. -/
theorem DhtPublished.move (owners : Owners s) (held : DhtPublished s seen)
    (move : Move env s event next new) :
    DhtPublished next (seen ++ new) ∧
      ∀ texts, .dhtFrame texts ∈ new →
        ∃ word, latest dhtWord seen = some word ∧ texts = dhtStrings word := by
  have act := owners.act move
  obtain ⟨block, idle, running, held⟩ := held
  cases move
  case dhtStart handle msg here unused =>
    obtain rfl := idle here
    refine ⟨⟨some handle, ?_, ?_, ?_⟩, by simp⟩
    · dsimp only
      split <;> simp
    · dsimp only
      split <;> simp
    · rw [List.append_nil]
      exact held.alloc (le_of_eq msg.property.symm)
  case dhtFail msg count here failed =>
    -- The thread returns without freeing its block, so queued mails stay good.
    refine ⟨⟨block, by simp, by simp, ?_⟩, by simp⟩
    rwa [List.append_nil]
  case dhtSkip msg count word here read invalid =>
    obtain rfl := running msg count here
    refine ⟨⟨some msg, by simp, by simp, ?_⟩, by simp⟩
    rwa [List.append_nil]
  case dhtRewrite msg count word err mb here read valid sent =>
    -- The block is rewritten from the new word, and the mail for it is queued or refused.
    obtain rfl := running msg count here
    refine ⟨⟨some msg, by simp, by simp, ?_⟩, by simp⟩
    have block := held.sized msg rfl
    have newest : latest dhtWord (seen ++ [.dhtRewritten word]) = some word :=
      latest_concat (show dhtWord (.dhtRewritten word) = some word from rfl) seen
    rw [newest]
    exact held.rewrite (length_fillMesgDht block) (readDht_fillMesgDht block) (mails_of_send sent)
  case dhtFrame mes mb here received =>
    -- Whatever mail is taken, the block behind it shows the latest word.
    rw [mails_of_recv received] at held
    obtain ⟨kept, word, latest, shown⟩ := held.receive
    refine ⟨⟨block, idle, running, ?_⟩, ?_⟩
    · rw [latest_append_silent (by simp [dhtWord])]
      exact kept
    · rintro texts ⟨⟩
      · exact ⟨word, latest, shown⟩
      · contradiction
  all_goals
    refine ⟨⟨block, idle, running, ?_⟩, by simp⟩
    rw [latest_append_silent (by simp [dhtWord])]
    exact held.keeps act (by simp [Event.actor])

/-- A step shows at most one thing, except that an iteration may begin with a page mail. -/
theorem observed (move : Move env s event next new) :
    new = [] ∨ (∃ obs, new = [obs]) ∨ ∃ page, new = [.iterate, .pageReceived page] := by
  cases move <;> simp

/--
Frames of the clock page and of the sensor page are always fresh.

Each draws the strings of the latest iteration of its producer before it, however many older mails
are queued and however many sends were refused, and there is such an iteration.
-/
theorem frames_fresh (run : Run env Reach.free s seen) : Always FreshFrame seen := by
  -- The two publications and the ownership of blocks carry the freshness of the frames seen so far.
  have held := run.invariant
    (fun s seen => Owners s ∧ TimePublished s seen ∧ DhtPublished s seen ∧ Always FreshFrame seen)
    ⟨owners_of_run (Reach.Reaches.refl : Run env Reach.free _ _), Published.start _,
      ⟨none, fun _ => rfl, by simp [initial], Published.start _⟩, always_nil _⟩ ?_
  · exact held.2.2.2
  · rintro s next seen new event ⟨owners, time, dht, fresh⟩ - move
    obtain ⟨timeKept, timeFresh⟩ := time.move owners move
    obtain ⟨dhtKept, dhtFresh⟩ := dht.move owners move
    refine ⟨owners.move move, timeKept, dhtKept, ?_⟩
    rcases observed move with rfl | ⟨obs, rfl⟩ | ⟨page, rfl⟩
    · rwa [List.append_nil]
    · -- Only the two kinds of frames have something to show.
      refine fresh.concat ?_
      cases obs with
      | timeFrame face => exact timeFresh face (by simp)
      | dhtFrame texts => exact dhtFresh texts (by simp)
      | _ => trivial
    · refine fresh.append ?_
      simp [FreshFrame]

/-- A sunny day on which every reading of the sensor is one degree warmer. -/
def warmingEnv : Env ℤ :=
  { sunnyEnv with sensorRead := fun count => some (BitVec.ofNat 32 (0x00320000 + count)) }

/-- Thirty-four readings while the display waits for the weather, and then one sensor frame. -/
def warmingRun : List (Event ℤ) :=
  [.mpuStart true, .mpuIterate (-41), .dhtStart 3 zeroedDht] ++ List.replicate 34 .dhtIterate ++
    enterDisplay ++ [.oledStep, .oledStep]

/-- The frame shows the last of thirty-four readings, although only thirty-two mails were queued. -/
theorem frames_fresh_backlog : ∃ s seen, Run warmingEnv Reach.free s seen ∧
    seen.getLast? = some (.dhtFrame (dhtStrings 0x00320021#32)) ∧ Always FreshFrame seen := by
  have outcome : (Reach.exec (step warmingEnv) (fun _ _ => true) (initial warmingEnv)
      warmingRun).map (fun last => last.2.getLast?) =
        some (some (.dhtFrame (dhtStrings 0x00320021#32))) := by
        decide +kernel
  obtain ⟨⟨s, seen⟩, done, shown⟩ := Option.map_eq_some_iff.mp outcome
  have run : Run warmingEnv Reach.free s seen := Reach.reaches_of_exec (fun _ _ _ => trivial) done
  exact ⟨s, seen, run, shown, frames_fresh run⟩

end System

end MultifunctionClock
