import MultifunctionClock.System.Runs

/-! Waiting on a thread that is gone: when the display can stop for good. -/

namespace MultifunctionClock

namespace System

variable {α : Type} [LinearOrder α] {env : Env α} {s next : System} {event : Event α}
  {new seen : List Obs}

/--
The OLED thread waits for ever on an empty mailbox,
and the only thread that sends to it has returned.

The time thread has no way to return, so it never leaves the display waiting.
-/
def Stranded (s : System) : Prop :=
  (s.control = .waitWeather ∧ s.mbOledWeather.mails = [] ∧ s.weather.todo = []) ∨
    (s.control = .waitDht ∧ s.mbOledDht.mails = [] ∧ s.dht = .returned)

/-- The sensor is found and opened, and none of its reads fails. -/
def SensorStays (env : Env α) : Prop :=
  env.deviceFound = true ∧ env.deviceOpened = true ∧ ∀ count, env.sensorRead count ≠ none

/--
What keeps the display from waiting for good: a weather mail is due, and the sensor thread runs.
-/
structure Attended (s : System) : Prop where
  -- Until the mail is received, it is still to be sent or in the queue.
  weather : s.control.received = false → .send ∈ s.weather.todo ∨ s.mbOledWeather.mails ≠ []
  dht : s.dht ≠ .returned

/-- With a sensor that stays, no step leaves the display unattended. -/
theorem Attended.move (stays : SensorStays env) (held : Attended s)
    (move : Move env s event next new) :
    Attended next := by
  obtain ⟨weather, dht⟩ := held
  cases move
  case weatherMalloc call _ =>
    rw [call] at weather
    exact ⟨by simpa using weather, dht⟩
  case weatherFill call =>
    rw [call] at weather
    exact ⟨by simpa using weather, dht⟩
  case weatherFree call =>
    rw [call] at weather
    exact ⟨by simpa using weather, dht⟩
  case weatherSend mes todo err mb running mine call sent =>
    -- A mailbox that refuses a message is full, and one that takes it is not empty either.
    refine ⟨fun _ => .inr ?_, dht⟩
    obtain ⟨-, -, -, ⟨-, full, rfl⟩ | ⟨-, -, queued⟩⟩ := rtMbSend_cases sent
    · have := s.mbOledWeather.out_lt
      rw [← List.length_pos_iff, s.mbOledWeather.length_mails]
      omega
    · simp [queued]
  case dhtStart handle msg here unused =>
    refine ⟨weather, ?_⟩
    simp [stays.1, stays.2.1]
  case dhtFail failed => exact absurd failed (stays.2.2 _)
  case dhtRewrite => exact ⟨weather, by simp⟩
  case dhtSkip => exact ⟨weather, by simp⟩
  case oledStart here _ => exact ⟨fun _ => weather (by rw [here]; rfl), dht⟩
  case oledReceive => exact ⟨by simp [OledControl.received], dht⟩
  case oledDetach => exact ⟨by simp [OledControl.received], dht⟩
  case oledPage => exact ⟨by simp [received_branch], dht⟩
  case oledSame => exact ⟨by simp [received_branch], dht⟩
  case timeFrame => exact ⟨by simp [OledControl.received], dht⟩
  case dhtFrame => exact ⟨by simp [OledControl.received], dht⟩
  case weatherFrame => exact ⟨by simp [OledControl.received], dht⟩
  case delay => exact ⟨by simp [OledControl.received], dht⟩
  all_goals exact ⟨weather, dht⟩

/-- The sensor thread can always get to a read that fails, and then returns. -/
theorem leads_to_fail {msg count more : ℕ} (here : s.dht = .loop msg count)
    (attached : s.mbOledDht.attached = true) (failing : env.sensorRead (count + more) = none) :
    ∃ heap mb, mb.attached = true ∧
      Leads env s { s with heap := heap, mbOledDht := mb, dht := .returned } := by
  -- The induction is on the reads that are still to come before the one that fails.
  induction more generalizing s count with
  | zero => exact ⟨s.heap, s.mbOledDht, attached, .move (.dhtFail here failing)⟩
  | succ more ih =>
    rw [show count + (more + 1) = count + 1 + more by omega] at failing
    cases read : env.sensorRead count with
    | none => exact ⟨s.heap, s.mbOledDht, attached, .move (.dhtFail here read)⟩
    | some word =>
      by_cases valid : 0 ≤ word.toInt
      · -- The word is printed and mailed, and the mailbox stays attached.
        obtain ⟨⟨err, mb⟩, sent⟩ := exists_rtMbSend attached msg
        obtain ⟨heap, mb', kept, later⟩ := ih (s := { s with
          heap := s.heap.write msg (fillMesgDht word (s.heap msg).bytes)
          mbOledDht := mb
          dht := .loop msg (count + 1) }) rfl (rtMbSend_cases sent).2.1 failing
        exact ⟨heap, mb', kept, (Leads.move (.dhtRewrite here read valid sent)).trans later⟩
      · obtain ⟨heap, mb', kept, later⟩ :=
          ih (s := { s with dht := .loop msg (count + 1) }) rfl attached failing
        exact ⟨heap, mb', kept, (Leads.move (.dhtSkip here read valid)).trans later⟩

/-- A sensor thread that does not stay can always return. -/
theorem leads_to_sensor_return (gone : ¬SensorStays env) (here : s.dht = .start)
    (finite : s.heap.Finite) (attached : s.mbOledDht.attached = true) :
    ∃ heap mb, mb.attached = true ∧
      Leads env s { s with heap := heap, mbOledDht := mb, dht := .returned } := by
  obtain ⟨handle, unused⟩ := finite.exists_free
  have start : Move env s (.dhtStart handle zeroedDht) _ _ := .dhtStart here unused
  by_cases opened : env.deviceFound && env.deviceOpened
  · -- The device is there, so some read of it fails.
    rw [if_pos opened] at start
    have failing : ∃ count, env.sensorRead count = none := by
      by_contra none_fails
      rw [Bool.and_eq_true] at opened
      exact gone ⟨opened.1, opened.2, fun count failed => none_fails ⟨count, failed⟩⟩
    obtain ⟨count, failing⟩ := failing
    rw [← Nat.zero_add count] at failing
    obtain ⟨heap, mb, kept, later⟩ := leads_to_fail (s := { s with
      heap := s.heap.alloc handle .dht zeroedDht
      dht := .loop handle 0 }) rfl attached failing
    exact ⟨heap, mb, kept, (Leads.move start).trans later⟩
  · rw [if_neg opened] at start
    exact ⟨_, s.mbOledDht, attached, .move start⟩

/-- On the sensor page the display can always use up the queued mails, and then it is stranded. -/
theorem leads_to_stranded (env : Env α) {count : ℕ} (queued : s.mbOledDht.mails.length = count)
    (here : s.control = .waitDht) (gone : s.dht = .returned) (sign : s.oledSign = 1)
    (attached : s.mbOledDht.attached = true) (pages : s.mbOledMpu.attached = true)
    (empty : s.mbOledMpu.mails = []) :
    ∃ last, Leads env s last ∧ Stranded last := by
  induction count generalizing s with
  | zero => exact ⟨s, .refl, .inr ⟨here, List.length_eq_zero_iff.mp queued, gone⟩⟩
  | succ count ih =>
    obtain ⟨mail, rest, mails⟩ := List.exists_of_length_succ _ queued
    obtain ⟨mb, received⟩ := rtMbRecv_of_cons attached mails
    obtain ⟨-, kept, -, ⟨failed, -⟩ | ⟨-, shorter⟩⟩ := rtMbRecv_cases received
    · cases failed
    · -- One frame takes one mail, and the next iteration waits for the next.
      have frame : Move env s .oledStep _ _ := .dhtFrame here received
      have delay : Move env { s with mbOledDht := mb, control := .delay } .oledStep _ _ :=
        .delay rfl
      have same : Move env { s with mbOledDht := mb, control := .poll } .oledStep _ _ :=
        .oledSame rfl pages empty
      have waits : branch s.oledSign = .waitDht := by rw [sign]; rfl
      rw [shorter, List.length_cons] at queued
      obtain ⟨last, later, stranded⟩ :=
        ih (s := { s with mbOledDht := mb, control := branch s.oledSign })
        (by simpa using queued) waits gone sign kept pages empty
      exact ⟨last, (Leads.move frame).trans
        ((Leads.move delay).trans ((Leads.move same).trans later)),
        stranded⟩

/-- Without a value to send, the display waits for the weather for good. -/
theorem stranded_without_weather (nothing : parsedValues env = []) :
    ∃ s, Leads env (initial env) s ∧ Stranded s := by
  -- The OLED thread begins its wait, and the weather thread runs to its end.
  have start : Move env (initial env) (.oledStart 0 zeroedWeather) _ _ := .oledStart rfl rfl
  have bounded : (initial env).heap.Finite := ⟨0, fun _ _ => rfl⟩
  obtain ⟨heap, mes, returned⟩ := leads_to_return (s := { initial env with
    heap := (initial env).heap.alloc 0 .oled zeroedWeather
    control := .waitWeather
    strWea := 0 }) (bounded.set _ _) (initial_todo env) rfl nothing
  exact ⟨_, (Leads.move start).trans returned, .inl ⟨rfl, rfl, rfl⟩⟩

/-- The first tilt down sends the mail of the sensor page. -/
theorem turn_first_low {pitch : α} (low : pitch < env.levels.minus40) :
    Tilt.initial.turn env.levels pitch = (⟨1, 0⟩, some 1) := by
  -- The loop starts armed at page zero.
  simp [Tilt.turn, Tilt.initial, low, pageMax]

/-- With a new page mailbox, the first tilt takes the display to the sensor page. -/
theorem leads_to_sensor_page {pitch : α} (low : pitch < env.levels.minus40) (mpu : s.mpu = .start)
    (mailbox : s.mbOledMpu = mainMailbox ℤ) (here : s.control = .poll) :
    ∃ mb, mb.attached = true ∧ mb.mails = [] ∧ Leads env s
      { s with mbOledMpu := mb, mpu := .loop ⟨1, 0⟩, control := .waitDht, oledSign := 1 } := by
  have attached : s.mbOledMpu.attached = true := by rw [mailbox]; rfl
  obtain ⟨⟨err, mb⟩, sent⟩ := exists_rtMbSend attached 1
  -- The mailbox is new, so the send queues the page and the receive takes it.
  have queued : mb.mails = [1] := by
    obtain ⟨-, -, -, ⟨-, full, -⟩ | ⟨-, -, appended⟩⟩ := rtMbSend_cases sent
    · rw [mailbox] at full
      cases full
    · rw [appended, mailbox]
      rfl
  obtain ⟨mb', received⟩ := rtMbRecv_of_cons (rtMbSend_cases sent).2.1 queued
  obtain ⟨-, still, -, ⟨failed, -⟩ | ⟨-, drained⟩⟩ := rtMbRecv_cases received
  · cases failed
  · have start : Move env s (.mpuStart true) _ _ := .mpuStart mpu
    have tilt : Move env { s with mpu := .loop .initial } (.mpuIterate pitch) _ _ :=
      .mpuSend rfl (turn_first_low low) sent
    have page : Move env { s with mbOledMpu := mb, mpu := .loop ⟨1, 0⟩ } .oledStep _ _ :=
      .oledPage here received
    rw [queued, List.cons.injEq] at drained
    exact ⟨mb', still, drained.2.symm,
      (Leads.move start).trans ((Leads.move tilt).trans (Leads.move page))⟩

/-- With a sensor thread that returns, a tilt to its page can leave the display waiting for good. -/
theorem stranded_without_sensor {value : env.cjson.Item} {values : List env.cjson.Item}
    (parsed : parsedValues env = value :: values) (gone : ¬SensorStays env) {pitch : α}
    (low : pitch < env.levels.minus40) : ∃ s, Leads env (initial env) s ∧ Stranded s := by
  obtain ⟨heap, mb, mes, rest, finite, -, -, displayed⟩ := leads_to_display parsed
  obtain ⟨heap', mbDht, attached, returned⟩ := leads_to_sensor_return gone (s := { initial env with
    heap := heap
    mbOledWeather := mb
    weather := ⟨.free :: callsFor env.cjson rest, some mes, false⟩
    control := .poll
    strWea := mes }) rfl finite rfl
  -- The display turns to the sensor page with the sensor thread gone.
  obtain ⟨mbMpu, pages, empty, turned⟩ := leads_to_sensor_page low (s := { initial env with
    heap := heap'
    mbOledWeather := mb
    mbOledDht := mbDht
    weather := ⟨.free :: callsFor env.cjson rest, some mes, false⟩
    dht := .returned
    control := .poll
    strWea := mes }) rfl rfl rfl
  obtain ⟨last, later, stranded⟩ := leads_to_stranded env (s := { initial env with
    heap := heap'
    mbOledWeather := mb
    mbOledDht := mbDht
    mbOledMpu := mbMpu
    weather := ⟨.free :: callsFor env.cjson rest, some mes, false⟩
    dht := .returned
    mpu := .loop ⟨1, 0⟩
    control := .waitDht
    oledSign := 1
    strWea := mes }) rfl rfl rfl rfl attached pages empty
  exact ⟨last, displayed.trans (returned.trans (turned.trans later)), stranded⟩

/--
The display is never left waiting for good exactly when the fetch parses some value and the sensor
thread cannot return.

Some tilt down has to be possible, since without one the sensor page is never shown.
-/
theorem never_stranded_iff (env : Env α) (tilts : ∃ pitch, pitch < env.levels.minus40) :
    (∀ s seen, Run env Reach.free s seen → ¬Stranded s) ↔ parsedValues env ≠ [] ∧
      SensorStays env := by
  constructor
  · -- Each missing condition has a run that ends in a wait for good.
    intro safe
    have safe : ¬∃ s, Leads env (initial env) s ∧ Stranded s := by
      rintro ⟨s, ⟨seen, run⟩, stranded⟩
      exact safe s seen run stranded
    have some_value : parsedValues env ≠ [] := fun nothing =>
      safe (stranded_without_weather nothing)
    refine ⟨some_value, ?_⟩
    by_contra gone
    obtain ⟨value, values, parsed⟩ := List.exists_cons_of_ne_nil some_value
    obtain ⟨pitch, low⟩ := tilts
    exact safe (stranded_without_sensor parsed gone low)
  · -- With both conditions every wait is attended.
    rintro ⟨some_value, stays⟩ s seen run
    have held : Attended s := by
      refine run.invariant (fun s _ => Attended s) ⟨fun _ => .inl ?_, by simp [initial]⟩
        fun held _ move => held.move stays move
      -- The first value that parses stands for a send that is still to come.
      rw [initial_todo, ← List.count_pos_iff, count_send_callsFor]
      exact List.length_pos_iff.mpr some_value
    rintro (⟨here, empty, returned⟩ | ⟨-, -, returned⟩)
    · rcases held.weather (by rw [here]; rfl) with sending | waiting
      · rw [returned] at sending
        cases sending
      · exact waiting empty
    · exact held.dht returned

/-- A day on which the server does not find the page. -/
def lostEnv : Env ℤ := { sunnyEnv with fetch := { sunnyEnv.fetch with respStatus := 404 } }

/--
After a status other than two hundred the weather thread returns, and the display waits for good.
-/
theorem stranded_lost : ∃ s seen, Run lostEnv Reach.free s seen ∧ Stranded s := by
  -- With this status the weather thread has no call to make.
  have outcome : (Reach.exec (step lostEnv) (fun _ _ => true) (initial lostEnv)
    [.oledStart 1 zeroedWeather]).map
      (fun last => (last.1.control, last.1.mbOledWeather.mails, last.1.weather.todo)) =
        some (.waitWeather, [], []) := by
    decide +kernel
  obtain ⟨⟨s, seen⟩, done, shown⟩ := Option.map_eq_some_iff.mp outcome
  simp only [Prod.mk.injEq] at shown
  exact ⟨s, seen, Reach.reaches_of_exec (fun _ _ _ => trivial) done, .inl shown⟩

/-- With a report and a sensor that stays, the display is never left waiting. -/
theorem never_stranded_sunny : (∃ pitch, pitch < sunnyEnv.levels.minus40) ∧
    ∀ s seen, Run sunnyEnv Reach.free s seen → ¬Stranded s := by
  -- Some tilt is possible, the one report is parsed, and the sensor always answers.
  have tilts : ∃ pitch, pitch < sunnyEnv.levels.minus40 := ⟨-41, by decide⟩
  refine ⟨tilts, (never_stranded_iff sunnyEnv tilts).mpr ⟨by decide +kernel, rfl, rfl, ?_⟩⟩
  exact fun count => Option.some_ne_none _

end System

end MultifunctionClock
