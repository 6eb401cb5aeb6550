import MultifunctionClock.System.Runs

/-! The posted weather message: when its handle can dangle. -/

namespace MultifunctionClock

namespace System

open Trace

variable {α : Type} [LinearOrder α] {env : Env α} {s next : System} {event : Event α}
  {new seen : List Obs}

/-- Every handle that is queued or held is allocated, and every frame drew what was stored. -/
def PageRight (s : System) (seen : List Obs) : Prop :=
  (∀ mes, Handed s mes → s.heap.Live mes) ∧ Always StoredFrame seen

/-- What keeps the weather page right along a run makes it right at its end. -/
theorem WeatherRight.pageRight (held : WeatherRight env s seen) : PageRight s seen :=
  ⟨fun _ handed => held.posted.live handed, held.frames⟩

/-- The weather thread has nothing to do but to allocate blocks. -/
def Barren (s : System) : Prop := ∀ call ∈ s.weather.todo, call = .malloc

/-- Without a value the weather thread only allocates. -/
theorem barren_initial (nothing : parsedValues env = []) : Barren (initial env) := by
  intro call member
  rw [initial_todo, callsFor, List.mem_flatMap] at member
  obtain ⟨buffer, content, member⟩ := member
  -- The buffer is not parsed, so its one call is the allocation.
  have failed := List.filterMap_eq_nil_iff.mp nothing buffer content
  rw [nowWeatherParse, failed] at member
  exact List.mem_singleton.mp member

/-- The calls that are left are among those that were left before. -/
theorem Barren.move (barren : Barren s) (move : Move env s event next new) : Barren next := by
  have fewer : ∀ {call : WeatherCall} {todo : List WeatherCall}, s.weather.todo = call :: todo →
      ∀ later ∈ todo, later = .malloc := fun calls later member =>
        barren later (by simp [calls, member])
  -- Only the weather thread takes calls off its list.
  cases move
  case weatherMalloc call _ => exact fewer call
  case weatherFill call => exact fewer call
  case weatherSend call _ => exact fewer call
  case weatherFree call => exact fewer call
  all_goals exact barren

omit [LinearOrder α] in
/-- A weather thread that only allocates never frees a posted block. -/
theorem Barren.not_freesPosted (barren : Barren s) : ¬FreesPosted s event := by
  rintro ⟨-, mes, todo, -, call, -⟩
  -- A free would be among the calls that are left.
  have := barren .free (by simp [call])
  cases this

/-- A value that is parsed is posted and freed, and its handle can be held by then. -/
theorem exists_dangling {value : env.cjson.Item} {values : List env.cjson.Item}
    (parsed : parsedValues env = value :: values) :
    ∃ s seen mes, Run env Reach.free s seen ∧ Handed s mes ∧ ¬s.heap.Live mes := by
  -- The OLED thread has received the message, and the weather thread is about to free it.
  obtain ⟨heap, mb, mes, rest, -, -, -, displayed⟩ := leads_to_display parsed
  have free : Move env { initial env with
      heap := heap
      mbOledWeather := mb
      weather := ⟨.free :: callsFor env.cjson rest, some mes, false⟩
      control := .poll
      strWea := mes } .weatherCall _ _ := .weatherFree rfl rfl rfl
  -- The free is the next step, and the OLED thread still holds the handle.
  obtain ⟨seen, run⟩ := displayed.trans (Leads.move free)
  exact ⟨_, seen, mes, run, .inr ⟨by simp, rfl⟩, by simp [Heap.Live, Heap.free]⟩

/--
The weather page is right in every run exactly when no content of the response buffer parses.

A value that parses is posted, and its block is freed whether or not the OLED thread has drawn it.
Up to the first such free nothing is wrong: in every run whose steps free no posted block, every
handle that is queued or held is allocated, and every frame draws what the parser stored.
-/
theorem weather_intact_iff (env : Env α) :
    ((∀ s seen, Run env Reach.free s seen → PageRight s seen) ↔ parsedValues env = []) ∧
    ∀ s seen, Run env (fun s event => ¬FreesPosted s event) s seen → PageRight s seen := by
  refine ⟨⟨fun right => ?_, fun nothing s seen run => ?_⟩, fun s seen run => ?_⟩
  · -- One value is enough for a run that leaves a freed handle behind.
    by_contra some_value
    obtain ⟨value, values, parsed⟩ := List.exists_cons_of_ne_nil some_value
    obtain ⟨s, seen, mes, run, handed, dead⟩ := exists_dangling parsed
    exact dead ((right s seen run).1 mes handed)
  · -- Without a value nothing is ever freed, so every step keeps the page right.
    refine (run.invariant (fun s seen => WeatherRight env s seen ∧ Barren s)
      ⟨weatherRight_initial env, barren_initial nothing⟩ ?_).1.pageRight
    rintro s next seen new event ⟨held, barren⟩ - move
    exact ⟨held.move barren.not_freesPosted move, barren.move move⟩
  · exact (run.invariant (WeatherRight env) (weatherRight_initial env)
      fun held kept move => WeatherRight.move held kept move).pageRight

/-- The weather thread allocates, fills, sends and frees its message before the OLED thread runs. -/
def postAndFree : List (Event ℤ) :=
  [.mpuStart true, .mpuIterate 41, .oledStart 1 zeroedWeather, .weatherMalloc 2 zeroedWeather,
    .weatherCall, .weatherCall, .weatherCall]

/-- Another thread gets the freed block, and the OLED thread receives it and draws it. -/
def reuseAndDraw : List (Event ℤ) :=
  [.otherMalloc 2 (List.replicate 34 35), .oledStep, .oledStep, .oledStep, .oledStep]

/-- The strings of a block that is full of number signs. -/
def noise : WeatherTexts := ⟨List.replicate 34 35, List.replicate 18 35, List.replicate 6 35⟩

/-- The message is freed while it is queued, and the page then draws what another thread wrote. -/
theorem weather_overwritten :
    (∃ s seen, Run sunnyEnv Reach.free s seen ∧ Handed s 2 ∧ ¬s.heap.Live 2) ∧
    ∃ s seen, Run sunnyEnv Reach.free s seen ∧ seen.getLast? = some (.weatherFrame 2 noise) ∧
      latest (storedIn 2) seen = some (sunnyTexts.report, sunnyTexts) ∧ noise ≠ sunnyTexts := by
  constructor
  · -- After the free the handle is still in the queue.
    have outcome : (Reach.exec (step sunnyEnv) (fun _ _ => true) (initial sunnyEnv) postAndFree).map
        (fun last => (last.1.mbOledWeather.mails, (last.1.heap 2).owner)) = some ([2], none) := by
      decide +kernel
    obtain ⟨⟨s, seen⟩, done, shown⟩ := Option.map_eq_some_iff.mp outcome
    simp only [Prod.mk.injEq] at shown
    obtain ⟨queued, freed⟩ := shown
    exact ⟨s, seen, Reach.reaches_of_exec (fun _ _ _ => trivial) done, .inl (by simp [queued]),
      by simp [Heap.Live, freed]⟩
  · -- The handle is allocated again before the OLED thread draws what it received.
    have outcome : (Reach.exec (step sunnyEnv) (fun _ _ => true) (initial sunnyEnv)
        (postAndFree ++ reuseAndDraw)).map
          (fun last => (last.2.getLast?, latest (storedIn 2) last.2)) =
        some (some (.weatherFrame 2 noise), some (sunnyTexts.report, sunnyTexts)) := by
      decide +kernel
    obtain ⟨⟨s, seen⟩, done, shown⟩ := Option.map_eq_some_iff.mp outcome
    simp only [Prod.mk.injEq] at shown
    obtain ⟨drawn, stored⟩ := shown
    exact ⟨s, seen, Reach.reaches_of_exec (fun _ _ _ => trivial) done, drawn, stored, by decide⟩

end System

end MultifunctionClock
