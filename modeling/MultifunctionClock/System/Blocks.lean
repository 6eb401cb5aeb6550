import MultifunctionClock.System.Moves

/-! Who owns which block: every thread writes and frees only blocks of its own. -/

namespace MultifunctionClock

/-- The owner on whose behalf a step touches the heap. The mpu thread has no blocks. -/
def Event.actor {α : Type} : Event α → Owner
  | .weatherMalloc _ _ | .weatherCall => .weather
  | .timeStart _ _ | .timeIterate _ _ => .time
  | .dhtStart _ _ | .dhtIterate => .dht
  | .oledStart _ _ | .oledStep => .oled
  | .mpuStart _ | .mpuIterate _ | .otherMalloc _ _ | .otherWrite _ _ | .otherFree _ => .other

namespace System

variable {α : Type} [LinearOrder α] {env : Env α} {s next : System} {event : Event α}
  {new seen : List Obs}

/-- The handles in the threads' variables belong to those threads. -/
structure Owners (s : System) : Prop where
  weather : ∀ mes, s.weather.mes = some mes → (s.heap mes).owner = some .weather
  time : ∀ mes, s.time = .loop mes → (s.heap mes).owner = some .time
  dht : ∀ msg count, s.dht = .loop msg count → (s.heap msg).owner = some .dht
  finite : s.heap.Finite

/-- Each step touches the heap only as its owner may. -/
theorem Owners.act (held : Owners s) (move : Move env s event next new) :
    Heap.Act event.actor s.heap next.heap := by
  -- A thread allocates unused handles and touches only the block in its own variable.
  cases move
  case weatherMalloc unused => exact .alloc unused
  case weatherFill mine _ => exact .write (held.weather _ mine)
  case weatherFree mine _ => exact .free (held.weather _ mine)
  case timeStart unused => exact .alloc unused
  case timeIterate here _ _ => exact .write (held.time _ here)
  case dhtStart unused => exact .alloc unused
  case dhtRewrite here _ _ _ => exact .write (held.dht _ _ here)
  case oledStart unused => exact .alloc unused
  case otherMalloc unused => exact .alloc unused
  case otherWrite owned => exact .write owned
  case otherFree owned => exact .free owned
  all_goals exact .idle

/-- No step takes a thread's block away. -/
theorem Owners.move (held : Owners s) (move : Move env s event next new) : Owners next := by
  have act := held.act move
  -- Steps of the other owners leave a thread's own block alone.
  have keeps : ∀ {handle : ℕ} {owner : Owner}, (s.heap handle).owner = some owner →
    owner ≠ event.actor →
      (next.heap handle).owner = some owner := by
    intro handle owner owned other
    rw [act.keeps owned other]
    exact owned
  refine ⟨?_, ?_, ?_, act.finite held.finite⟩
  · -- The weather thread gets its block with the allocation, and gives it up when it frees it.
    cases move
    case weatherMalloc handle mes todo call unused =>
      rintro _ ⟨rfl⟩
      simp [Heap.alloc]
    case weatherFill => exact fun mes mine => by simpa using held.weather mes mine
    case weatherSend => exact held.weather
    case weatherAssert => exact held.weather
    case weatherFree => simp
    all_goals exact fun mes mine => keeps (held.weather mes mine) (by simp [Event.actor])
  · -- The time thread keeps its one block for good.
    cases move
    case timeStart handle mes here unused =>
      rintro _ ⟨rfl⟩
      simp [Heap.alloc]
    case timeIterate => exact fun mes mine => by simpa using held.time mes mine
    all_goals exact fun mes mine => keeps (held.time mes mine) (by simp [Event.actor])
  · -- The sensor thread keeps its one block until it returns.
    cases move
    case dhtStart handle msg here unused =>
      intro mine count running
      dsimp only at running
      split at running
      · obtain ⟨rfl, -⟩ := DhtThread.loop.injEq .. ▸ running
        simp [Heap.alloc]
      · cases running
    case dhtFail => simp
    case dhtRewrite msg count word err mb here read valid sent =>
      rintro _ _ ⟨rfl, rfl⟩
      simpa using held.dht msg count here
    case dhtSkip msg count word here read invalid =>
      rintro _ _ ⟨rfl, rfl⟩
      exact held.dht msg count here
    all_goals exact fun msg count mine => keeps (held.dht msg count mine) (by simp [Event.actor])

/-- Along every run the threads own the blocks in their variables. -/
theorem owners_of_run {allowed : System → Event α → Prop} (run : Run env allowed s seen) :
    Owners s := by
  -- At the start no thread has a block.
  refine run.invariant (fun s _ => Owners s) ?_ fun held _ move => Owners.move held move
  exact ⟨by simp [initial], by simp [initial], by simp [initial], 0, fun _ _ => rfl⟩

end System

end MultifunctionClock
