import MultifunctionClock.System.WeatherBlock

/-! Runs that can always be taken: to the next send of the weather thread,
    and to the display loop. -/

namespace MultifunctionClock

namespace System

variable {α : Type} [LinearOrder α] {env : Env α} {s next last : System} {event : Event α}
  {new : List Obs}

/-- Some run leads from one state to another. -/
def Leads (env : Env α) (s next : System) : Prop :=
  ∃ seen, Reach.Reaches (step env) Reach.free s next seen

/-- The empty run leads nowhere else. -/
theorem Leads.refl : Leads env s s := ⟨[], .refl⟩

/-- A move leads to its next state. -/
theorem Leads.move (move : Move env s event next new) : Leads env s next := by
  -- A run of one step.
  have begin : Reach.Reaches (step env) Reach.free s s [] := .refl
  exact ⟨_, begin.step trivial (step_of_move move)⟩

/-- Runs can be put together. -/
theorem Leads.trans (first : Leads env s next) (second : Leads env next last) :
    Leads env s last := by
  -- The observations of the two runs follow each other.
  obtain ⟨early, first⟩ := first
  obtain ⟨late, second⟩ := second
  exact ⟨early ++ late, first.trans second⟩

/-- The values that the contents of the response buffer hold, in the order of the reads. -/
def parsedValues (env : Env α) : List env.cjson.Item := env.fetch.contents.filterMap env.cjson.parse

/-- The weather thread starts with the calls for the contents of its response buffer. -/
theorem initial_todo (env : Env α) :
    (initial env).weather.todo = callsFor env.cjson env.fetch.contents :=
  threadEntryWeather_eq env.cjson env.fetch

/-- The weather thread sends once for each value that it parses. -/
theorem count_send_callsFor (cjson : CJson) (buffers : List Bytes) :
    (callsFor cjson buffers).count .send = (buffers.filterMap cjson.parse).length := by
  -- Each buffer adds one send if it can be parsed, and none otherwise.
  induction buffers with
  | nil => rfl
  | cons buffer rest ih =>
    rw [callsFor_cons]
    cases parsed : cjson.parse buffer with
    | none => simpa [List.filterMap_cons, parsed] using ih
    | some json => simpa [List.filterMap_cons, parsed] using ih

/-- The weather thread gets through buffers that cannot be parsed. -/
theorem leads_to_return {buffers : List Bytes} (finite : s.heap.Finite)
    (calls : s.weather.todo = callsFor env.cjson buffers) (running : s.weather.asserted = false)
    (unparsed : buffers.filterMap env.cjson.parse = []) :
    ∃ heap mes, Leads env s { s with heap := heap, weather := ⟨[], mes, false⟩ } := by
  induction buffers generalizing s with
  | nil =>
    -- No call is left, so the thread has returned already.
    refine ⟨s.heap, s.weather.mes, ?_⟩
    have here : s.weather = ⟨[], s.weather.mes, false⟩ := by
      rw [← running, ← show s.weather.todo = [] from calls]
    rw [← here]
    exact .refl
  | cons buffer rest ih =>
    -- Each of these buffers costs one allocation.
    have failed : env.cjson.parse buffer = none := by
      cases parsed : env.cjson.parse buffer with
      | none => rfl
      | some json => simp [parsed] at unparsed
    rw [callsFor_cons, failed] at calls
    obtain ⟨handle, unused⟩ := finite.exists_free
    have allocate : Move env s (.weatherMalloc handle zeroedWeather) _ _ :=
      .weatherMalloc calls unused
    rw [List.filterMap_cons_none failed] at unparsed
    obtain ⟨heap, mes, later⟩ := ih (s := { s with
      heap := s.heap.alloc handle .weather zeroedWeather
      weather := { s.weather with todo := callsFor env.cjson rest, mes := some handle } })
      (finite.set _ _) rfl running unparsed
    exact ⟨heap, mes, (Leads.move allocate).trans later⟩

/-- The weather thread can always get to its next send. -/
theorem leads_to_send {buffers : List Bytes} {value : env.cjson.Item} {values : List env.cjson.Item}
    (finite : s.heap.Finite) (calls : s.weather.todo = callsFor env.cjson buffers)
    (running : s.weather.asserted = false)
    (parsed : buffers.filterMap env.cjson.parse = value :: values) :
    ∃ heap mes rest, heap.Finite ∧ rest.filterMap env.cjson.parse = values ∧ Leads env s { s with
      heap := heap
      weather := ⟨.send :: .free :: callsFor env.cjson rest, some mes, false⟩ } := by
  induction buffers generalizing s with
  | nil => cases parsed
  | cons buffer rest ih =>
    rw [callsFor_cons] at calls
    obtain ⟨handle, unused⟩ := finite.exists_free
    have allocate : Move env s (.weatherMalloc handle zeroedWeather) _ _ :=
      .weatherMalloc calls unused
    cases result : env.cjson.parse buffer with
    | none =>
      -- The buffer is skipped, and the send comes from a later one.
      rw [List.filterMap_cons_none result] at parsed
      obtain ⟨heap, mes, later, bounded, remaining, goes⟩ := ih (s := { s with
        heap := s.heap.alloc handle .weather zeroedWeather
        weather := { s.weather with todo := callsFor env.cjson rest, mes := some handle } })
        (finite.set _ _) rfl running parsed
      rw [result] at allocate
      exact ⟨heap, mes, later, bounded, remaining, (Leads.move allocate).trans goes⟩
    | some json =>
      -- The block is allocated and filled, and the send is next.
      rw [List.filterMap_cons_some result, List.cons.injEq] at parsed
      rw [result] at allocate
      have fill : Move env { s with
          heap := s.heap.alloc handle .weather zeroedWeather
          weather := { s.weather with
            todo := .fill (env.cjson.report json) :: .send :: .free :: callsFor env.cjson rest
            mes := some handle } } .weatherCall _ _ := .weatherFill running rfl rfl
      refine ⟨(s.heap.alloc handle .weather zeroedWeather).write handle
        (fillMesgWeather (env.cjson.report json)
          ((s.heap.alloc handle .weather zeroedWeather) handle).bytes),
        handle, rest, (finite.set _ _).set _ _, parsed.2, ?_⟩
      have both := (Leads.move allocate).trans (Leads.move fill)
      dsimp only at both
      rwa [running] at both

/--
The OLED thread can always enter its display loop when the weather thread has a value to send.

The weather thread has then just sent its first value, and the mailbox is detached.
-/
theorem leads_to_display {value : env.cjson.Item} {values : List env.cjson.Item}
    (parsed : parsedValues env = value :: values) :
    ∃ heap mb mes rest, heap.Finite ∧ mb.attached = false ∧
      rest.filterMap env.cjson.parse = values ∧
      Leads env (initial env) { initial env with
        heap := heap
        mbOledWeather := mb
        weather := ⟨.free :: callsFor env.cjson rest, some mes, false⟩
        control := .poll
        strWea := mes } := by
  -- The OLED thread waits first, and the weather thread then comes to its send.
  have start : Move env (initial env) (.oledStart 0 zeroedWeather) _ _ := .oledStart rfl rfl
  have bounded : (initial env).heap.Finite := ⟨0, fun _ _ => rfl⟩
  obtain ⟨heap, mes, rest, finite, remaining, sending⟩ := leads_to_send (s := { initial env with
    heap := (initial env).heap.alloc 0 .oled zeroedWeather
    control := .waitWeather
    strWea := 0 }) (bounded.set _ _) (initial_todo env) rfl parsed
  -- The mailbox is new, so the send queues the message and the receive takes it.
  obtain ⟨⟨err, mb⟩, sent⟩ := exists_rtMbSend (show (mainMailbox ℕ).attached = true from rfl) mes
  have queued : mb.mails = [mes] := by
    obtain ⟨-, -, -, ⟨-, full, -⟩ | ⟨-, -, appended⟩⟩ := rtMbSend_cases sent
    · cases full
    · exact appended
  obtain ⟨mb', received⟩ := rtMbRecv_of_cons (rtMbSend_cases sent).2.1 queued
  have send : Move env { initial env with
      heap := heap
      weather := ⟨.send :: .free :: callsFor env.cjson rest, some mes, false⟩
      control := .waitWeather
      strWea := 0 } .weatherCall _ _ := .weatherSend rfl rfl rfl sent
  have receive : Move env { initial env with
      heap := heap
      mbOledWeather := mb
      weather := ⟨.free :: callsFor env.cjson rest, some mes, false⟩
      control := .waitWeather
      strWea := 0 } .oledStep _ _ := .oledReceive rfl received
  have detach : Move env { initial env with
      heap := heap
      mbOledWeather := mb'
      weather := ⟨.free :: callsFor env.cjson rest, some mes, false⟩
      control := .detach
      strWea := mes } .oledStep _ _ := .oledDetach rfl
  exact ⟨heap, rtMbDetach mb', mes, rest, finite, rfl, remaining,
    (Leads.move start).trans (sending.trans ((Leads.move send).trans ((Leads.move receive).trans
      (Leads.move detach))))⟩

end System

end MultifunctionClock
