import MultifunctionClock.Lib.Trace
import MultifunctionClock.System.Blocks

/-! The weather message: where the weather thread is with it,
    and what the OLED thread finds in it. -/

namespace MultifunctionClock

namespace System

open Trace

variable {α : Type} [LinearOrder α] {env : Env α} {s next : System} {event : Event α}
  {new seen : List Obs}

/-- What the parser stored in a block. -/
def storedIn (mes : ℕ) : Obs → Option (Report × WeatherTexts)
  | .weatherStored block report texts => if block = mes then some (report, texts) else none
  | _ => none

/-- The calls for the buffers that the weather thread has not parsed yet. -/
def callsFor (cjson : CJson) (buffers : List Bytes) : List WeatherCall :=
  buffers.flatMap (nowWeatherParse cjson)

/-- What the weather thread holds, by the call that it makes next. -/
def AtCall (env : Env α) (s : System) (seen : List Obs) : List WeatherCall → Prop
  -- A new block, as the allocator gave it.
  | .fill _ :: todo => ∃ mes rest, s.weather.mes = some mes ∧
      todo = .send :: .free :: callsFor env.cjson rest ∧
        (s.heap mes).bytes.length = MesgWeather.size
  -- A block that still shows what the parser stored in it.
  | .send :: todo => ∃ mes rest report, s.weather.mes = some mes ∧
      todo = .free :: callsFor env.cjson rest ∧
      latest (storedIn mes) seen = some (report, readWeather (s.heap mes).bytes)
  -- A block that was sent.
  | .free :: todo => ∃ mes rest, s.weather.mes = some mes ∧ todo = callsFor env.cjson rest
  -- Nothing, between two buffers.
  | todo => ∃ rest, todo = callsFor env.cjson rest

/-- The weather thread is where `cJSON_NowWeatherParse` can be. -/
def WeatherPhase (env : Env α) (s : System) (seen : List Obs) : Prop :=
  AtCall env s seen s.weather.todo

/-- The calls for a buffer begin with the allocation, and go on only if the buffer can be parsed. -/
theorem callsFor_cons (cjson : CJson) (buffer : Bytes) (rest : List Bytes) :
    callsFor cjson (buffer :: rest) = .malloc ::
      match cjson.parse buffer with
      | none => callsFor cjson rest
      | some json => .fill (cjson.report json) :: .send :: .free :: callsFor cjson rest := by
  -- The calls of the first buffer come before those of the rest.
  simp only [callsFor, List.flatMap_cons, nowWeatherParse]
  cases cjson.parse buffer <;> rfl

/-- Between two buffers nothing is required of the weather thread. -/
theorem atCall_callsFor (buffers : List Bytes) :
    AtCall env s seen (callsFor env.cjson buffers) := by
  -- The calls for a list of buffers are empty or begin with an allocation.
  cases buffers with
  | nil => exact ⟨[], rfl⟩
  | cons buffer rest =>
    rw [callsFor_cons]
    exact ⟨buffer :: rest, (callsFor_cons ..).symm⟩

/-- The weather thread stays where it is while its block is not touched. -/
theorem WeatherPhase.keeps (phase : WeatherPhase env s seen)
    (todo : next.weather.todo = s.weather.todo) (mes : next.weather.mes = s.weather.mes)
    (kept : ∀ mes, s.weather.mes = some mes → next.heap mes = s.heap mes)
    (silent : ∀ obs ∈ new, ∀ mes, storedIn mes obs = none) :
    WeatherPhase env next (seen ++ new) := by
  unfold WeatherPhase at phase ⊢
  rw [todo]
  -- Each case speaks only of the calls, of the variable and of the block in it.
  unfold AtCall at phase ⊢
  rw [mes]
  split at phase
  · obtain ⟨block, rest, mine, calls, sized⟩ := phase
    exact ⟨block, rest, mine, calls, by rw [kept block mine]; exact sized⟩
  · obtain ⟨block, rest, report, mine, calls, stored⟩ := phase
    refine ⟨block, rest, report, mine, calls, ?_⟩
    rw [kept block mine, latest_append_silent fun obs member => silent obs member _]
    exact stored
  · exact phase
  · exact phase

/-- Every call moves the weather thread to its next phase. -/
theorem WeatherPhase.move (owners : Owners s) (phase : WeatherPhase env s seen)
    (move : Move env s event next new) : WeatherPhase env next (seen ++ new) := by
  have act := owners.act move
  cases move
  case weatherMalloc handle mes todo call unused =>
    rw [WeatherPhase, call] at phase
    obtain ⟨buffers, calls⟩ := phase
    cases buffers with
    | nil => cases calls
    | cons buffer rest =>
      rw [callsFor_cons, List.cons.injEq] at calls
      obtain ⟨-, rfl⟩ := calls
      -- A buffer that cannot be parsed is done with after the allocation.
      cases env.cjson.parse buffer with
      | none => exact atCall_callsFor rest
      | some json => exact ⟨handle, rest, rfl, rfl, by simpa [Heap.alloc] using mes.property⟩
  case weatherFill mes report todo running held call =>
    -- The block now shows what was just stored in it.
    rw [WeatherPhase, call] at phase
    obtain ⟨block, rest, mine, rfl, -⟩ := phase
    obtain rfl := Option.some.inj (held.symm.trans mine)
    refine ⟨mes, rest, report, held, rfl, ?_⟩
    have here : storedIn mes (.weatherStored mes report
        (readWeather (fillMesgWeather report (s.heap mes).bytes))) =
        some (report, readWeather (fillMesgWeather report (s.heap mes).bytes)) := if_pos rfl
    rw [latest_concat here]
    simp [Heap.write]
  case weatherSend mes todo err mb running held call sent =>
    rw [WeatherPhase, call] at phase
    obtain ⟨block, rest, report, mine, rfl, -⟩ := phase
    exact ⟨block, rest, mine, rfl⟩
  case weatherFree mes todo running held call =>
    rw [WeatherPhase, call] at phase
    obtain ⟨block, rest, mine, rfl⟩ := phase
    exact atCall_callsFor rest
  case weatherAssert => exact phase.keeps rfl rfl (fun _ _ => rfl) (by simp [storedIn])
  all_goals
    exact phase.keeps rfl rfl
      (fun mes mine => act.keeps (owners.weather mes mine) (by simp [Event.actor]))
      (by simp [storedIn])

/-- Along every run the weather thread is where `cJSON_NowWeatherParse` can be. -/
theorem weatherPhase_of_run {allowed : System → Event α → Prop} (run : Run env allowed s seen) :
    WeatherPhase env s seen := by
  refine (run.invariant (fun s seen => Owners s ∧ WeatherPhase env s seen) ⟨?_, ?_⟩
    fun held _ move => ⟨held.1.move move, held.2.move held.1 move⟩).2
  · exact owners_of_run (Reach.Reaches.refl : Run env Reach.free _ _)
  · -- The thread starts with the calls for all contents of its response buffer.
    change AtCall env (initial env) [] (threadEntryWeather env.cjson env.fetch)
    rw [threadEntryWeather_eq]
    exact atCall_callsFor _

/-- A block that is queued for the OLED thread or was received by it. -/
def Posted (s : System) (mes : ℕ) : Prop :=
  mes ∈ s.mbOledWeather.mails ∨ (s.control.received = true ∧ s.strWea = mes)

/-- A block that is allocated and shows what the parser stored in it. -/
structure Intact (s : System) (seen : List Obs) (mes : ℕ) : Prop where
  owned : (s.heap mes).owner = some .weather
  stored : ∃ report, latest (storedIn mes) seen = some (report, readWeather (s.heap mes).bytes)

/--
What keeps the weather page right: posted blocks are intact, and no block is filled once posted.
-/
structure PostedIntact (s : System) (seen : List Obs) : Prop where
  posted : ∀ mes, Posted s mes → Intact s seen mes
  /-- Until the mail arrives the OLED thread holds a block of its own. -/
  own : s.control = .waitWeather → (s.heap s.strWea).owner = some .oled
  unposted : ∀ mes, s.weather.mes = some mes → (∀ todo, s.weather.todo ≠ .free :: todo) →
    ¬Posted s mes

/-- The step frees a block that is queued for the OLED thread or was received by it. -/
def FreesPosted (s : System) (event : Event α) : Prop :=
  event = .weatherCall ∧
    ∃ mes todo, s.weather.mes = some mes ∧ s.weather.todo = .free :: todo ∧ Posted s mes

/-- A block stays intact while it is not touched. -/
theorem Intact.keeps {mes : ℕ} (intact : Intact s seen mes) (same : next.heap mes = s.heap mes)
    (silent : ∀ obs ∈ new, storedIn mes obs = none) : Intact next (seen ++ new) mes := by
  -- The block is the same, and nothing was stored in it since.
  refine ⟨by rw [same]; exact intact.owned, ?_⟩
  rw [same, latest_append_silent silent]
  exact intact.stored

/-- Steps of other threads keep posted blocks intact, as long as they post none. -/
theorem PostedIntact.keeps {who : Owner} (held : PostedIntact s seen)
    (act : Heap.Act who s.heap next.heap) (other : who ≠ .weather)
    (weather : next.weather = s.weather) (fewer : ∀ mes, Posted next mes → Posted s mes)
    (own : next.control = .waitWeather → (next.heap next.strWea).owner = some .oled)
    (silent : ∀ obs ∈ new, ∀ mes, storedIn mes obs = none) : PostedIntact next (seen ++ new) := by
  -- What is posted was posted before, and blocks of the weather thread are not touched.
  refine ⟨?_, own, ?_⟩
  · intro mes posted
    have intact := held.posted mes (fewer mes posted)
    exact intact.keeps (act.keeps intact.owned other.symm) fun obs member => silent obs member mes
  · intro mes mine unsent posted
    rw [weather] at mine unsent
    exact held.unposted mes mine unsent (fewer mes posted)

/-- An iteration of the display loop happens after the weather mail. -/
theorem received_branch (oledSign : ℤ) : (branch oledSign).received = true := by
  -- Every branch, and the head of the loop itself, comes after the weather mail.
  unfold branch
  split_ifs <;> rfl

/-- Once it has the weather mail, the OLED thread keeps posted blocks intact. -/
theorem PostedIntact.displays {control : OledControl} (held : PostedIntact s seen)
    (here : s.control = control) (received : control.received = true)
    (still : next.control.received = true) (heap : next.heap = s.heap)
    (weather : next.weather = s.weather) (mails : next.mbOledWeather.mails = s.mbOledWeather.mails)
    (strWea : next.strWea = s.strWea) (silent : ∀ obs ∈ new, ∀ mes, storedIn mes obs = none) :
    PostedIntact next (seen ++ new) := by
  -- The queue, the held block and the heap are all the same.
  subst here
  have act : Heap.Act .oled s.heap next.heap := heap ▸ .idle
  refine held.keeps act (by simp) weather ?_ ?_ silent
  · rintro mes (queued | ⟨-, same⟩)
    · exact .inl (mails ▸ queued)
    · exact .inr ⟨received, strWea ▸ same⟩
  · intro waiting
    rw [waiting] at still
    cases still

/-- A step keeps posted blocks intact, unless it frees one of them. -/
theorem PostedIntact.move (owners : Owners s) (phase : WeatherPhase env s seen)
    (held : PostedIntact s seen) (kept : ¬FreesPosted s event) (move : Move env s event next new) :
    PostedIntact next (seen ++ new) := by
  have act := owners.act move
  cases move
  case weatherMalloc handle mes todo call unused =>
    -- The new block is unused, so it is none of the posted ones.
    have apart : ∀ mes, Posted s mes → mes ≠ handle := by
      rintro mes posted rfl
      rw [(held.posted _ posted).owned] at unused
      cases unused
    refine ⟨fun mes posted => ?_, fun waiting => ?_, ?_⟩
    · exact (held.posted mes posted).keeps (Heap.set_other _ (apart mes posted) _) (by simp)
    · have mine := held.own waiting
      rwa [act.keeps mine (by simp [Event.actor])]
    · rintro mes ⟨rfl⟩ - posted
      exact apart handle posted rfl
  case weatherFill mes report todo running mine call =>
    -- A block is filled before it is posted.
    have apart := held.unposted mes mine (by simp [call])
    refine ⟨fun other posted => ?_, fun waiting => ?_, ?_⟩
    · have distinct : other ≠ mes := by
        rintro rfl
        exact apart posted
      refine (held.posted other posted).keeps (Heap.set_other _ distinct _) ?_
      simp [storedIn, distinct.symm]
    · have own := held.own waiting
      rwa [act.keeps own (by simp [Event.actor])]
    · rintro other same - posted
      obtain rfl := Option.some.inj (mine.symm.trans same)
      exact apart posted
  case weatherSend mes todo err mb running mine call sent =>
    have atSend := phase
    rw [WeatherPhase, call] at atSend
    obtain ⟨block, rest, report, same, rfl, stored⟩ := atSend
    obtain rfl := Option.some.inj (mine.symm.trans same)
    refine ⟨fun other posted => ?_, held.own, by simp⟩
    -- The block that is posted now shows what the parser stored, and the others were posted before.
    have cases : Posted s other ∨ other = mes := by
      obtain ⟨-, -, -, ⟨-, -, rfl⟩ | ⟨-, -, queued⟩⟩ := rtMbSend_cases sent
      · exact .inl posted
      · rcases posted with late | received
        · rw [queued, List.mem_append, List.mem_singleton] at late
          exact late.imp_left .inl
        · exact .inl (.inr received)
    rcases cases with early | rfl
    · exact (held.posted other early).keeps rfl (by simp)
    · exact ⟨owners.weather other mine, report, by rwa [List.append_nil]⟩
  case weatherAssert mes todo running mine call detached =>
    exact ⟨fun other posted => (held.posted other posted).keeps rfl (by simp [storedIn]), held.own,
      held.unposted⟩
  case weatherFree mes todo running mine call =>
    -- This free is none of those that are excluded, so its block is not posted.
    have apart : ¬Posted s mes := fun posted => kept ⟨rfl, mes, todo, mine, call, posted⟩
    refine ⟨fun other posted => ?_, fun waiting => ?_, by simp⟩
    · have distinct : other ≠ mes := by
        rintro rfl
        exact apart posted
      exact (held.posted other posted).keeps (Heap.set_other _ distinct _) (by simp)
    · have own := held.own waiting
      rwa [act.keeps own (by simp [Event.actor])]
  case oledReceive mes mb here received =>
    obtain ⟨-, -, -, ⟨failed, -⟩ | ⟨-, queued⟩⟩ := rtMbRecv_cases received
    · cases failed
    · -- The block moves from the queue to the variable of the OLED thread.
      refine held.keeps act (by simp [Event.actor]) rfl ?_ (by simp) (by simp)
      rintro other (early | ⟨-, rfl⟩)
      · exact .inl (by rw [queued]; exact List.mem_cons_of_mem _ early)
      · exact .inl (by rw [queued]; exact List.mem_cons_self)
  case oledStart handle strWea here unused =>
    refine held.keeps act (by simp [Event.actor]) rfl ?_ (by simp [Heap.alloc]) (by simp)
    rintro other (early | ⟨received, -⟩)
    · exact .inl early
    · cases received
  -- In the display loop the received block stays the one that is held.
  case oledDetach here => exact held.displays here rfl rfl rfl rfl rfl rfl (by simp)
  case oledPage mes mb here received =>
    exact held.displays here rfl (received_branch mes) rfl rfl rfl rfl (by simp [storedIn])
  case oledSame here _ _ =>
    exact held.displays here rfl (received_branch s.oledSign) rfl rfl rfl rfl (by simp [storedIn])
  case timeFrame here _ => exact held.displays here rfl rfl rfl rfl rfl rfl (by simp [storedIn])
  case dhtFrame here _ => exact held.displays here rfl rfl rfl rfl rfl rfl (by simp [storedIn])
  case weatherFrame here => exact held.displays here rfl rfl rfl rfl rfl rfl (by simp [storedIn])
  case delay here => exact held.displays here rfl rfl rfl rfl rfl rfl (by simp [storedIn])
  all_goals
    refine held.keeps act (by simp [Event.actor]) rfl (fun _ posted => posted) (fun waiting => ?_)
      (by simp [storedIn])
    have own := held.own waiting
    rwa [act.keeps own (by simp [Event.actor])]

/-- A frame of the weather page draws the strings that the parser stored last in its block. -/
def StoredFrame (before : List Obs) : Obs → Prop
  | .weatherFrame mes texts => ∃ report, latest (storedIn mes) before = some (report, texts) ∧
      ∀ wanted : WeatherTexts, wanted.Fits → report = wanted.report → texts = wanted
  | _ => True

/-- What the parser stores are the strings of its report, when they are complete and fit. -/
def StoredRight : Obs → Prop
  | .weatherStored _ report texts =>
    ∀ wanted : WeatherTexts, wanted.Fits → report = wanted.report → texts = wanted
  | _ => True

/-- Whatever a step stores is right. -/
theorem storedRight_of_move (phase : WeatherPhase env s seen) (move : Move env s event next new) :
    ∀ obs ∈ new, StoredRight obs := by
  -- Only the fill stores something, into a block of the right size.
  cases move
  case weatherFill mes report todo running mine call =>
    rw [WeatherPhase, call] at phase
    obtain ⟨block, rest, same, -, sized⟩ := phase
    obtain rfl := Option.some.inj (mine.symm.trans same)
    rintro obs ⟨⟩
    · rintro wanted fits rfl
      exact readWeather_fill fits sized
    · contradiction
  all_goals simp [StoredRight]

/-- Everything that keeps the weather page right along a run. -/
structure WeatherRight (env : Env α) (s : System) (seen : List Obs) : Prop where
  owners : Owners s
  phase : WeatherPhase env s seen
  posted : PostedIntact s seen
  stored : ∀ obs ∈ seen, StoredRight obs
  frames : Always StoredFrame seen

/-- A step keeps the weather page right, unless it frees a posted block. -/
theorem WeatherRight.move (held : WeatherRight env s seen) (kept : ¬FreesPosted s event)
    (move : Move env s event next new) : WeatherRight env next (seen ++ new) := by
  have right : ∀ obs ∈ seen ++ new, StoredRight obs := fun obs member =>
    (List.mem_append.mp member).elim (held.stored obs) (storedRight_of_move held.phase move obs)
  refine ⟨held.owners.move move, held.phase.move held.owners move,
    held.posted.move held.owners held.phase kept move, right, ?_⟩
  cases move
  case weatherFrame here =>
    -- The thread has received its block, so the block is intact.
    obtain ⟨-, report, stored⟩ := held.posted.posted s.strWea (.inr ⟨by rw [here]; rfl, rfl⟩)
    refine held.frames.concat ⟨report, stored, ?_⟩
    -- What was stored in it was right when it was stored.
    obtain ⟨obs, member, shown⟩ := exists_of_latest stored
    have sound := held.stored obs member
    cases obs with
    | weatherStored block kept texts =>
      simp only [storedIn, Option.ite_none_right_eq_some, Option.some.injEq, Prod.mk.injEq] at shown
      obtain ⟨-, rfl, rfl⟩ := shown
      exact sound
    | _ => cases shown
  all_goals exact held.frames.append (by simp [StoredFrame])

/-- A handle that is queued for the OLED thread or is in its variable `str_wea`. -/
def Handed (s : System) (mes : ℕ) : Prop :=
  mes ∈ s.mbOledWeather.mails ∨ (s.control ≠ .start ∧ s.strWea = mes)

/-- Posted blocks and the block that the OLED thread starts with are allocated. -/
theorem PostedIntact.live (held : PostedIntact s seen) {mes : ℕ} (handed : Handed s mes) :
    s.heap.Live mes := by
  by_cases posted : Posted s mes
  · simp [Heap.Live, (held.posted mes posted).owned]
  · rcases handed with queued | ⟨started, rfl⟩
    · exact absurd (.inl queued) posted
    · -- Before the mail arrives the thread holds its own block.
      have waiting : s.control = .waitWeather := by
        cases control : s.control with
        | start => exact absurd control started
        | waitWeather => rfl
        | _ => exact absurd (.inr ⟨by rw [control]; rfl, rfl⟩) posted
      simp [Heap.Live, held.own waiting]

/-- Nothing is wrong with the weather page before the first step. -/
theorem weatherRight_initial (env : Env α) : WeatherRight env (initial env) [] := by
  have begin : Run env Reach.free (initial env) [] := .refl
  refine ⟨owners_of_run begin, weatherPhase_of_run begin,
    ⟨?_, by simp [initial], by simp [initial]⟩,
    by simp, always_nil _⟩
  -- Nothing is posted at the start.
  rintro mes (queued | ⟨received, -⟩)
  · cases queued
  · cases received

end System

end MultifunctionClock
