import MultifunctionClock.System.Step

/-! Everything that one step of the system can do, case by case. -/

namespace MultifunctionClock

namespace System

variable {α : Type} [LinearOrder α] {env : Env α} {s next : System} {event : Event α}
  {new : List Obs}

/--
The cases of a step, each with what it finds and what it leaves behind.

Results about runs are proved by cases on this relation,
so that none of them looks into the step function.
-/
inductive Move (env : Env α) (s : System) : Event α → System → List Obs → Prop
  | weatherMalloc {handle : ℕ} {mes : MesgWeather.Block} {todo : List WeatherCall}
      (call : s.weather.todo = .malloc :: todo) (unused : (s.heap handle).owner = none) :
      Move env s (.weatherMalloc handle mes)
        { s with
          heap := s.heap.alloc handle .weather mes
          weather := { s.weather with todo := todo, mes := some handle } } []
  | weatherFill {mes : ℕ} {report : Report} {todo : List WeatherCall}
      (running : s.weather.asserted = false) (held : s.weather.mes = some mes)
      (call : s.weather.todo = .fill report :: todo) :
      Move env s .weatherCall
        { s with
          heap := s.heap.write mes (fillMesgWeather report (s.heap mes).bytes)
          weather := { s.weather with todo := todo } }
        [.weatherStored mes report (readWeather (fillMesgWeather report (s.heap mes).bytes))]
  | weatherSend {mes : ℕ} {todo : List WeatherCall} {err : RtErr} {mb : Mailbox ℕ}
      (running : s.weather.asserted = false) (held : s.weather.mes = some mes)
      (call : s.weather.todo = .send :: todo)
      (sent : rtMbSend s.mbOledWeather mes = some (err, mb)) :
      Move env s .weatherCall
        { s with mbOledWeather := mb, weather := { s.weather with todo := todo } } []
  | weatherAssert {mes : ℕ} {todo : List WeatherCall}
      (running : s.weather.asserted = false) (held : s.weather.mes = some mes)
      (call : s.weather.todo = .send :: todo)
      (detached : s.mbOledWeather.attached = false) :
      Move env s .weatherCall { s with weather := { s.weather with asserted := true } }
        [.assertFailed]
  | weatherFree {mes : ℕ} {todo : List WeatherCall}
      (running : s.weather.asserted = false) (held : s.weather.mes = some mes)
      (call : s.weather.todo = .free :: todo) :
      Move env s .weatherCall
        { s with
          heap := s.heap.free mes
          weather := { s.weather with todo := todo, mes := none } } []
  | timeStart {handle : ℕ} {mes : MesgTime.Block}
      (here : s.time = .start) (unused : (s.heap handle).owner = none) :
      Move env s (.timeStart handle mes)
        { s with heap := s.heap.alloc handle .time mes, time := .loop handle } []
  | timeIterate {now : ℤ} {buf : AsctimeBuffer} {mes : ℕ} {str : Bytes} {err : RtErr}
      {mb : Mailbox ℕ}
      (here : s.time = .loop mes) (printed : ctime now buf = some str)
      (sent : rtMbSend s.mbOledTime mes = some (err, mb)) :
      Move env s (.timeIterate now buf)
        { s with heap := s.heap.write mes (fillMesgTime str (s.heap mes).bytes), mbOledTime := mb }
        [.timeRewritten str]
  | dhtStart {handle : ℕ} {msg : MesgDht.Block}
      (here : s.dht = .start) (unused : (s.heap handle).owner = none) :
      Move env s (.dhtStart handle msg)
        { s with
          heap := s.heap.alloc handle .dht msg
          dht := if env.deviceFound && env.deviceOpened then .loop handle 0 else .returned } []
  | dhtFail {msg count : ℕ} (here : s.dht = .loop msg count)
      (failed : env.sensorRead count = none) :
      Move env s .dhtIterate { s with dht := .returned } []
  | dhtRewrite {msg count : ℕ} {word : BitVec 32} {err : RtErr} {mb : Mailbox ℕ}
      (here : s.dht = .loop msg count) (read : env.sensorRead count = some word)
        (valid : 0 ≤ word.toInt)
      (sent : rtMbSend s.mbOledDht msg = some (err, mb)) :
      Move env s .dhtIterate
        { s with
          heap := s.heap.write msg (fillMesgDht word (s.heap msg).bytes)
          mbOledDht := mb
          dht := .loop msg (count + 1) } [.dhtRewritten word]
  | dhtSkip {msg count : ℕ} {word : BitVec 32} (here : s.dht = .loop msg count)
      (read : env.sensorRead count = some word) (invalid : ¬0 ≤ word.toInt) :
      Move env s .dhtIterate { s with dht := .loop msg (count + 1) } []
  | mpuStart {found : Bool} (here : s.mpu = .start) :
      Move env s (.mpuStart found) { s with mpu := if found then .loop .initial else .returned } []
  | mpuStay {pitch : α} {tilt after : Tilt}
      (here : s.mpu = .loop tilt) (turned : tilt.turn env.levels pitch = (after, none)) :
      Move env s (.mpuIterate pitch) { s with mpu := .loop after } []
  | mpuSend {pitch : α} {tilt after : Tilt} {page : ℤ} {err : RtErr} {mb : Mailbox ℤ}
      (here : s.mpu = .loop tilt) (turned : tilt.turn env.levels pitch = (after, some page))
      (sent : rtMbSend s.mbOledMpu page = some (err, mb)) :
      Move env s (.mpuIterate pitch) { s with mpu := .loop after, mbOledMpu := mb }
        [.pageSent page err]
  | oledStart {handle : ℕ} {strWea : MesgWeather.Block}
      (here : s.control = .start) (unused : (s.heap handle).owner = none) :
      Move env s (.oledStart handle strWea)
        { s with
          heap := s.heap.alloc handle .oled strWea
          control := .waitWeather
          oledSign := 0
          strWea := handle } []
  | oledReceive {mes : ℕ} {mb : Mailbox ℕ} (here : s.control = .waitWeather)
      (received : rtMbRecv s.mbOledWeather = some ((.eok, mes), mb)) :
      Move env s .oledStep { s with mbOledWeather := mb, strWea := mes, control := .detach } []
  | oledDetach (here : s.control = .detach) :
      Move env s .oledStep
        { s with mbOledWeather := rtMbDetach s.mbOledWeather, oledSign := 0, control := .poll } []
  | oledPage {mes : ℤ} {mb : Mailbox ℤ} (here : s.control = .poll)
      (received : rtMbRecv s.mbOledMpu = some ((.eok, mes), mb)) :
      Move env s .oledStep { s with mbOledMpu := mb, oledSign := mes, control := branch mes }
        [.iterate, .pageReceived mes]
  | oledSame (here : s.control = .poll) (attached : s.mbOledMpu.attached = true)
      (empty : s.mbOledMpu.mails = []) :
      Move env s .oledStep { s with control := branch s.oledSign } [.iterate]
  | timeFrame {mes : ℕ} {mb : Mailbox ℕ} (here : s.control = .waitTime)
      (received : rtMbRecv s.mbOledTime = some ((.eok, mes), mb)) :
      Move env s .oledStep { s with mbOledTime := mb, control := .delay }
        [.timeFrame (readTime (s.heap mes).bytes)]
  | dhtFrame {mes : ℕ} {mb : Mailbox ℕ} (here : s.control = .waitDht)
      (received : rtMbRecv s.mbOledDht = some ((.eok, mes), mb)) :
      Move env s .oledStep { s with mbOledDht := mb, control := .delay }
        [.dhtFrame (readDht (s.heap mes).bytes)]
  | weatherFrame (here : s.control = .drawWeather) :
      Move env s .oledStep { s with control := .delay }
        [.weatherFrame s.strWea (readWeather (s.heap s.strWea).bytes)]
  | delay (here : s.control = .delay) : Move env s .oledStep { s with control := .poll } [.delay]
  | otherMalloc {handle : ℕ} {bytes : Bytes} (unused : (s.heap handle).owner = none) :
      Move env s (.otherMalloc handle bytes) { s with heap := s.heap.alloc handle .other bytes } []
  | otherWrite {handle : ℕ} {bytes : Bytes} (owned : (s.heap handle).owner = some .other) :
      Move env s (.otherWrite handle bytes) { s with heap := s.heap.write handle bytes } []
  | otherFree {handle : ℕ} (owned : (s.heap handle).owner = some .other) :
      Move env s (.otherFree handle) { s with heap := s.heap.free handle } []

/-- The weather thread makes one of its calls. -/
theorem Move.of_weatherCall (taken : s.weatherCall = some (next, new)) :
    Move env s .weatherCall next new := by
  -- The next call in the list says which move it is.
  unfold weatherCall at taken
  split at taken
  · cases taken
  · rename_i running
    rw [Bool.not_eq_true] at running
    split at taken
    · rename_i mes report todo held call
      cases taken
      exact .weatherFill running held call
    · rename_i mes todo held call
      -- The send fails its assertion on a detached mailbox only.
      cases sent : rtMbSend s.mbOledWeather mes with
      | none =>
        rw [sent] at taken
        cases taken
        exact .weatherAssert running held call (rtMbSend_eq_none_iff.mp sent)
      | some result =>
        rw [sent] at taken
        cases taken
        exact .weatherSend running held call sent
    · rename_i mes todo held call
      cases taken
      exact .weatherFree running held call
    · cases taken

/-- The OLED thread goes on to its next call that can wait. -/
theorem Move.of_oledStep (taken : s.oledStep = some (next, new)) :
    Move env s .oledStep next new := by
  -- The place where the thread is says which call comes next.
  unfold oledStep at taken
  split at taken
  · cases taken
  · rename_i here
    split at taken
    · rename_i mes mb received
      cases taken
      exact .oledReceive here received
    · cases taken
  · rename_i here
    cases taken
    exact .oledDetach here
  · rename_i here
    split at taken
    · rename_i mes mb received
      cases taken
      exact .oledPage here received
    · -- A receive that does not succeed has timed out on an empty mailbox.
      rename_i result mb failed received
      cases taken
      obtain ⟨attached, -, -, ⟨-, empty, rfl⟩ | ⟨ok, -⟩⟩ := rtMbRecv_cases received
      · exact .oledSame here attached empty
      · exact (failed _ (Prod.ext ok rfl)).elim
    · cases taken
  · rename_i here
    split at taken
    · rename_i mes mb received
      cases taken
      exact .timeFrame here received
    · cases taken
  · rename_i here
    split at taken
    · rename_i mes mb received
      cases taken
      exact .dhtFrame here received
    · cases taken
  · rename_i here
    cases taken
    exact .weatherFrame here
  · rename_i here
    cases taken
    exact .delay here

/-- The sensor thread reads once. -/
theorem Move.of_dhtIterate (taken : dhtIterate env s = some (next, new)) :
    Move env s .dhtIterate next new := by
  -- A failed read, a word that is skipped, and a word that is printed and mailed.
  unfold dhtIterate at taken
  split at taken
  · rename_i msg count here
    split at taken
    · rename_i failed
      cases taken
      exact .dhtFail here failed
    · rename_i word read
      split at taken
      · rename_i valid
        obtain ⟨⟨err, mb⟩, sent, result⟩ := Option.bind_eq_some_iff.mp taken
        cases result
        exact .dhtRewrite here read valid sent
      · rename_i invalid
        cases taken
        exact .dhtSkip here read invalid
  · cases taken

/-- The mpu thread reads once. -/
theorem Move.of_mpuIterate {pitch : α} (taken : mpuIterate env s pitch = some (next, new)) :
    Move env s (.mpuIterate pitch) next new := by
  -- The page machine says whether there is a page to send.
  unfold mpuIterate at taken
  split at taken
  · rename_i tilt here
    split at taken
    · rename_i after turned
      cases taken
      exact .mpuStay here turned
    · rename_i after page turned
      obtain ⟨⟨err, mb⟩, sent, result⟩ := Option.bind_eq_some_iff.mp taken
      cases result
      exact .mpuSend here turned sent
  · cases taken

/-- The time thread goes round its loop once. -/
theorem Move.of_timeIterate {now : ℤ} {buf : AsctimeBuffer}
    (taken : s.timeIterate now buf = some (next, new)) :
    Move env s (.timeIterate now buf) next new := by
  -- Both the text and the send have a result when the step has one.
  unfold System.timeIterate at taken
  split at taken
  · rename_i mes here
    obtain ⟨str, printed, taken⟩ := Option.bind_eq_some_iff.mp taken
    obtain ⟨⟨err, mb⟩, sent, result⟩ := Option.bind_eq_some_iff.mp taken
    cases result
    exact .timeIterate here printed sent
  · cases taken

/-- Every step is one of the moves. -/
theorem move_of_step (taken : step env s event = some (next, new)) : Move env s event next new := by
  -- Each event has its own step function, and each branch of it that returns is one move.
  cases event with
  | weatherMalloc handle mes =>
    simp only [step, weatherMalloc] at taken
    split at taken
    · rename_i todo call
      obtain ⟨unused, result⟩ := Option.ite_none_right_eq_some.mp taken
      cases result
      exact .weatherMalloc call unused
    · cases taken
  | weatherCall => exact .of_weatherCall taken
  | timeStart handle mes =>
    simp only [step, timeStart] at taken
    split at taken
    · rename_i here
      obtain ⟨unused, result⟩ := Option.ite_none_right_eq_some.mp taken
      cases result
      exact .timeStart here unused
    · cases taken
  | timeIterate now buf => exact .of_timeIterate taken
  | dhtStart handle msg =>
    simp only [step, dhtStart] at taken
    split at taken
    · rename_i here
      obtain ⟨unused, result⟩ := Option.ite_none_right_eq_some.mp taken
      cases result
      exact .dhtStart here unused
    · cases taken
  | dhtIterate => exact .of_dhtIterate taken
  | mpuStart found =>
    simp only [step, mpuStart] at taken
    split at taken
    · rename_i here
      cases taken
      exact .mpuStart here
    · cases taken
  | mpuIterate pitch => exact .of_mpuIterate taken
  | oledStart handle strWea =>
    simp only [step, oledStart] at taken
    split at taken
    · rename_i here
      obtain ⟨unused, result⟩ := Option.ite_none_right_eq_some.mp taken
      cases result
      exact .oledStart here unused
    · cases taken
  | oledStep => exact .of_oledStep taken
  | otherMalloc handle bytes =>
    obtain ⟨unused, result⟩ := Option.ite_none_right_eq_some.mp taken
    cases result
    exact .otherMalloc unused
  | otherWrite handle bytes =>
    obtain ⟨owned, result⟩ := Option.ite_none_right_eq_some.mp taken
    cases result
    exact .otherWrite owned
  | otherFree handle =>
    obtain ⟨owned, result⟩ := Option.ite_none_right_eq_some.mp taken
    cases result
    exact .otherFree owned

/-- Every move is a step, so runs can be put together from moves. -/
theorem step_of_move (move : Move env s event next new) : step env s event = some (next, new) := by
  -- The conditions of a move are the tests of its step function.
  cases move
  case weatherMalloc call unused => simp [step, weatherMalloc, call, unused]
  case weatherFill running held call => simp [step, weatherCall, running, held, call]
  case weatherSend running held call sent => simp [step, weatherCall, running, held, call, sent]
  case weatherAssert mes todo running held call detached =>
    have failed : rtMbSend s.mbOledWeather mes = none := rtMbSend_eq_none_iff.mpr detached
    simp [step, weatherCall, running, held, call, failed]
  case weatherFree running held call => simp [step, weatherCall, running, held, call]
  case timeStart here unused => simp [step, timeStart, here, unused]
  case timeIterate here printed sent => simp [step, timeIterate, here, printed, sent]
  case dhtStart here unused => simp [step, dhtStart, here, unused]
  case dhtFail here failed => simp [step, dhtIterate, here, failed]
  case dhtRewrite here read valid sent => simp [step, dhtIterate, here, read, valid, sent]
  case dhtSkip here read invalid => simp [step, dhtIterate, here, read, invalid]
  case mpuStart here => simp [step, mpuStart, here]
  case mpuStay here turned => simp [step, mpuIterate, here, turned]
  case mpuSend here turned sent => simp [step, mpuIterate, here, turned, sent]
  case oledStart here unused => simp [step, oledStart, here, unused]
  case oledReceive here received => simp [step, oledStep, here, received]
  case oledDetach here => simp [step, oledStep, here]
  case oledPage here received => simp [step, oledStep, here, received]
  case oledSame here attached empty => simp [step, oledStep, here, rtMbRecv_of_empty attached empty]
  case timeFrame here received => simp [step, oledStep, here, received]
  case dhtFrame here received => simp [step, oledStep, here, received]
  case weatherFrame here => simp [step, oledStep, here]
  case delay here => simp [step, oledStep, here]
  case otherMalloc unused => simp [step, otherMalloc, unused]
  case otherWrite owned => simp [step, otherWrite, owned]
  case otherFree owned => simp [step, otherFree, owned]

/-- What holds at the start and is kept by every allowed move holds along every run. -/
theorem Run.invariant {allowed : System → Event α → Prop} (good : System → List Obs → Prop)
    (init : good (initial env) [])
    (keep : ∀ {s next : System} {seen new : List Obs} {event : Event α}, good s seen →
      allowed s event →
      Move env s event next new → good next (seen ++ new))
    {seen : List Obs} (run : Run env allowed s seen) : good s seen :=
  Reach.Reaches.invariant good init
    (fun _ _ _ _ _ held permitted taken => keep held permitted (move_of_step taken)) run

end System

end MultifunctionClock
