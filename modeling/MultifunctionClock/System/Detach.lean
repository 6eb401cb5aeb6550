import MultifunctionClock.System.Runs

/-! The weather mailbox after it is detached: when the weather thread can still send to it. -/

namespace MultifunctionClock

namespace System

variable {α : Type} [LinearOrder α] {env : Env α} {s next : System} {event : Event α}
  {new seen : List Obs}

/-- At most one message is ever sent, so the mailbox is detached only after the last send. -/
structure OneMessage (s : System) : Prop where
  -- The message is still to be sent, queued, or received.
  budget : s.weather.todo.count .send + s.mbOledWeather.mails.length +
    (if s.control.received then 1 else 0) ≤ 1
  attached : s.control.received = false → s.mbOledWeather.attached = true

/-- With one message to send, no step fails the assertion. -/
theorem OneMessage.move (held : OneMessage s) (move : Move env s event next new) :
    OneMessage next ∧ .assertFailed ∉ new := by
  obtain ⟨budget, attached⟩ := held
  cases move
  case weatherMalloc call _ =>
    rw [call] at budget
    exact ⟨⟨by simpa using budget, attached⟩, by simp⟩
  case weatherFill call =>
    rw [call] at budget
    exact ⟨⟨by simpa using budget, attached⟩, by simp⟩
  case weatherFree call =>
    rw [call] at budget
    exact ⟨⟨by simpa using budget, attached⟩, by simp⟩
  case weatherSend mes todo err mb running mine call sent =>
    -- The message moves from the calls to the queue.
    rw [call, List.count_cons_self] at budget
    obtain ⟨-, still, -, ⟨-, -, rfl⟩ | ⟨-, -, queued⟩⟩ := rtMbSend_cases sent
    · exact ⟨⟨by dsimp only; omega, attached⟩, by simp⟩
    · refine ⟨⟨?_, fun _ => still⟩, by simp⟩
      rw [queued, List.length_append, List.length_singleton]
      dsimp only
      omega
  case weatherAssert mes todo running mine call detached =>
    -- A detached mailbox means that the only message was received.
    rw [call, List.count_cons_self] at budget
    cases received : s.control.received with
    | true => simp [received] at budget
    | false =>
      rw [attached received] at detached
      cases detached
  case oledReceive mes mb here received =>
    -- The message moves from the queue to the OLED thread.
    obtain ⟨-, -, -, ⟨failed, -⟩ | ⟨-, queued⟩⟩ := rtMbRecv_cases received
    · cases failed
    · rw [here, queued, List.length_cons] at budget
      refine ⟨⟨?_, by simp [OledControl.received]⟩, by simp⟩
      simp only [OledControl.received, if_true, Bool.false_eq_true, if_false] at budget ⊢
      omega
  case oledStart here _ =>
    refine ⟨⟨?_, fun _ => attached (by rw [here]; rfl)⟩, by simp⟩
    simpa [here, OledControl.received] using budget
  case oledDetach here =>
    refine ⟨⟨?_, by simp [OledControl.received]⟩, by simp⟩
    simpa [here, OledControl.received] using budget
  case oledPage mes mb here _ =>
    rw [here] at budget
    refine ⟨⟨?_, by simp [received_branch]⟩, by simp⟩
    rw [received_branch]
    exact budget
  case oledSame here _ _ =>
    rw [here] at budget
    refine ⟨⟨?_, by simp [received_branch]⟩, by simp⟩
    rw [received_branch]
    exact budget
  case timeFrame here _ =>
    rw [here] at budget
    exact ⟨⟨budget, by simp [OledControl.received]⟩, by simp⟩
  case dhtFrame here _ =>
    rw [here] at budget
    exact ⟨⟨budget, by simp [OledControl.received]⟩, by simp⟩
  case weatherFrame here =>
    rw [here] at budget
    exact ⟨⟨budget, by simp [OledControl.received]⟩, by simp⟩
  case delay here =>
    rw [here] at budget
    exact ⟨⟨budget, by simp [OledControl.received]⟩, by simp⟩
  all_goals exact ⟨⟨budget, attached⟩, by simp⟩

/-- A second value can always be sent after the OLED thread has detached the mailbox. -/
theorem assert_can_fail {first second : env.cjson.Item} {others : List env.cjson.Item}
    (parsed : parsedValues env = first :: second :: others) :
    ∃ s seen, Run env Reach.free s seen ∧ .assertFailed ∈ seen := by
  obtain ⟨heap, mb, mes, rest, finite, detached, remaining, ⟨early, displayed⟩⟩ :=
    leads_to_display parsed
  -- The weather thread frees its first message, and parses the next value.
  have free : Move env { initial env with
      heap := heap
      mbOledWeather := mb
      weather := ⟨.free :: callsFor env.cjson rest, some mes, false⟩
      control := .poll
      strWea := mes } .weatherCall _ _ := .weatherFree rfl rfl rfl
  obtain ⟨freed, parsing⟩ := Leads.move free
  -- Nothing stops it before the next send.
  obtain ⟨later, block, more, -, -, ⟨late, sending⟩⟩ := leads_to_send (s := { initial env with
    heap := heap.free mes
    mbOledWeather := mb
    weather := ⟨callsFor env.cjson rest, none, false⟩
    control := .poll
    strWea := mes }) (finite.set _ _) rfl rfl remaining
  have fails : Move env { initial env with
      heap := later
      mbOledWeather := mb
      weather := ⟨.send :: .free :: callsFor env.cjson more, some block, false⟩
      control := .poll
      strWea := mes } .weatherCall _ _ := .weatherAssert rfl rfl rfl detached
  refine ⟨_, _, ((displayed.trans parsing).trans sending).step trivial (step_of_move fails), ?_⟩
  simp

/--
The weather mailbox is never used after it is detached exactly when at most one of the contents of
the response buffer parses.

The buffer is parsed after every read, also after one that failed and left the old bytes in it.
-/
theorem assert_never_fails_iff (env : Env α) :
    (∀ s seen, Run env Reach.free s seen → .assertFailed ∉ seen) ↔
      (parsedValues env).length ≤ 1 := by
  constructor
  · -- Two values are enough for a run in which the assertion fails.
    intro safe
    by_contra many
    match values : parsedValues env with
    | [] => simp [values] at many
    | [value] => simp [values] at many
    | first :: second :: others =>
      obtain ⟨s, seen, run, failed⟩ := assert_can_fail values
      exact safe s seen run failed
  · -- One value is one send, and the mailbox is detached only after it was received.
    intro few s seen run
    refine (run.invariant (fun s seen => OneMessage s ∧ .assertFailed ∉ seen)
      ⟨⟨?_, fun _ => rfl⟩, by simp⟩ ?_).2
    · rw [initial_todo, count_send_callsFor, ← parsedValues]
      simpa [initial, OledControl.received, mainMailbox] using few
    · rintro s next seen new event ⟨held, past⟩ - move
      obtain ⟨kept, now⟩ := held.move move
      exact ⟨kept, by simp [past, now]⟩

/--
A sunny day on which the connection breaks after the document and before the announced length.
-/
def brokenEnv : Env ℤ :=
  { sunnyEnv with
    fetch := { sunnyWhole.fetch (List.replicate 1024 0) with
      contentLength := 200
      reads := [.data (sunnyFront ++ sunnyBack), .stopped] } }

/-- The OLED thread takes the first message and detaches, and the old bytes are parsed again. -/
def sendTwice : List (Event ℤ) :=
  enterDisplay ++ [.weatherCall, .weatherMalloc 3 zeroedWeather, .weatherCall, .weatherCall]

/-- A read that fails after the document makes the weather thread send to the detached mailbox. -/
theorem assert_fails_broken : ∃ s seen, Run brokenEnv Reach.free s seen ∧
    s.mbOledWeather.attached = false ∧ .assertFailed ∈ seen := by
  -- The run is executed up to the send on the detached mailbox.
  have outcome : (Reach.exec (step brokenEnv) (fun _ _ => true) (initial brokenEnv) sendTwice).map
      (fun last => (last.1.mbOledWeather.attached, last.2.getLast?)) =
        some (false, some .assertFailed) := by
    decide +kernel
  obtain ⟨⟨s, seen⟩, done, shown⟩ := Option.map_eq_some_iff.mp outcome
  simp only [Prod.mk.injEq] at shown
  obtain ⟨detached, failed⟩ := shown
  exact ⟨s, seen, Reach.reaches_of_exec (fun _ _ _ => trivial) done, detached,
    List.mem_of_getLast? failed⟩

/-- A document that arrives in one read is sent once, and the assertion never fails. -/
theorem assert_never_fails_sunny : (parsedValues sunnyEnv).length = 1 ∧
    ∀ s seen, Run sunnyEnv Reach.free s seen → .assertFailed ∉ seen := by
  have one : (parsedValues sunnyEnv).length = 1 := by decide +kernel
  exact ⟨one, (assert_never_fails_iff sunnyEnv).mpr one.le⟩

end System

end MultifunctionClock
