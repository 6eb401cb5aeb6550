import MultifunctionClock.System.Boot

/-!
What holds in every run of the boot under strict priorities.

No mailbox is used before it is initialised, and the boot refines the system with ready mailboxes.
-/

namespace MultifunctionClock

namespace Boot

variable {α ι : Type} [LinearOrder α] {world : BootWorld α ι} {b next : Boot ι}
  {event : BootEvent α ι} {new seen : List BootObs}

section Order

/-- `main` stays ready until all its calls are made. -/
def Awake (b : Boot ι) : Prop := b.todo ≠ [] → b.stat .main = .ready

/-- The application threads run only when all calls of `main` are made. -/
theorem Awake.done {thread : AppThread} (awake : Awake b)
    (picked : Scheduled world.priority b.stat (.app thread)) : b.todo = [] := by
  -- Each of them is less urgent than `main`.
  by_contra left
  have urgent : world.priority .main < world.priority (.app thread) := thread.main_urgent
  exact picked.not_ready urgent (awake left)

/-- Only the application threads make calls on the mailboxes. -/
theorem exists_thread_of_uses {s : System} {env : Env α} {event : Event α} {mb : MbName}
    (call : s.uses env event = some mb) : ∃ thread, event.thread = some thread := by
  -- The steps of no application thread are those on blocks of other threads.
  cases event
  case otherMalloc | otherWrite | otherFree => cases call
  all_goals exact ⟨_, rfl⟩

/-- A call on a mailbox is made only when all calls of `main` are made. -/
theorem Awake.done_of_uses {thread : Thread ι} {event : Event α} {mb : MbName} (awake : Awake b)
    (may : mayAct thread event = true) (picked : StrictPriority world b (.act thread event))
    (call : b.system.uses world.env event = some mb) : b.todo = [] := by
  -- The thread that makes the call is an application thread.
  obtain ⟨actor, acts⟩ := exists_thread_of_uses call
  cases thread with
  | main => cases may
  | app thread => exact awake.done (picked (.app thread) rfl)
  | other thread => simp [mayAct, acts] at may

/-- A call on a mailbox comes after the initialisation of that mailbox. -/
def InitFirst (before : List BootObs) (event : BootObs) : Prop :=
  ∀ mb, event = .used mb → .inited mb ∈ before

/-- Each mailbox is initialised or will be, and no call came too early. -/
structure Ordered (b : Boot ι) (seen : List BootObs) : Prop where
  awake : Awake b
  pending : ∀ mb, .mbInit mb ∈ b.todo ∨ .inited mb ∈ seen
  past : Trace.Always InitFirst seen

/-- The order is right at the entry of `main`, which has all its calls ahead. -/
theorem ordered_entry (world : BootWorld α ι) : Ordered (entry world) [] where
  awake _ := rfl
  pending mb := .inl (by cases mb <;> simp [entry, mainCalls])
  past := Trace.always_nil _

/-- Once `main` has made its calls, a call on a mailbox keeps the order. -/
theorem Ordered.use (ordered : Ordered b seen) (done : b.todo = []) (mb : MbName) :
    Trace.Always InitFirst (seen ++ [.used mb]) := by
  -- No initialisation is left, so the one of this mailbox was seen.
  refine ordered.past.concat ?_
  rintro _ ⟨rfl⟩
  simpa [done] using ordered.pending mb

/-- Observations that are no calls on a mailbox keep the order. -/
theorem Ordered.silent (ordered : Ordered b seen) (harmless : ∀ mb, .used mb ∉ new) :
    Trace.Always InitFirst (seen ++ new) := by
  -- The order only constrains calls on mailboxes.
  refine ordered.past.append ?_
  rintro _ member _ mb rfl
  exact absurd member (harmless mb)

variable [DecidableEq ι]

/-- Nothing takes `main` off the processor before its loop, except a more urgent thread. -/
theorem Awake.move (awake : Awake b) (move : Move world b event next new) : Awake next := by
  intro left
  cases move
  case threadInit call | threadStartup call =>
    -- The call changes the status of the started thread only.
    simpa [setStat] using awake (by simp [call])
  case mbInit call => exact awake (by simp [call])
  case sleep call => exact absurd call left
  case act | stuck => exact awake left
  case suspend thread started | exit thread started =>
    have other : Thread.main ≠ thread := fun same => started same.symm
    simpa [setStat, Function.update_of_ne other] using awake left
  case resume thread waiting =>
    -- `main` was not waiting, since it was ready.
    have other : Thread.main ≠ thread := by
      rintro rfl
      rw [awake left] at waiting
      cases waiting
    simpa [setStat, Function.update_of_ne other] using awake left

/-- Every event keeps the order. -/
theorem Ordered.move (ordered : Ordered b seen) (picked : StrictPriority world b event)
    (move : Move world b event next new) : Ordered next (seen ++ new) := by
  have awake := ordered.awake.move move
  have pending := ordered.pending
  cases move
  case threadInit call | threadStartup call =>
    refine ⟨awake, ?_, ordered.silent (by simp)⟩
    intro mb
    simpa [call, setStat] using pending mb
  case mbInit mb todo call =>
    -- The mailbox leaves the calls ahead and joins what was seen.
    refine ⟨awake, ?_, ordered.silent (by simp)⟩
    intro other
    rcases pending other with ahead | already
    · rw [call, List.mem_cons] at ahead
      rcases ahead with same | ahead
      · exact .inr (by simp [MainCall.mbInit.inj same])
      · exact .inl ahead
    · exact .inr (by simp [already])
  case sleep | suspend | exit | resume =>
    refine ⟨awake, ?_, ordered.silent (by simp)⟩
    intro mb
    simpa [setStat] using pending mb
  case stuck mb may call =>
    -- The call is made, even if it gets no further.
    have done := ordered.awake.done_of_uses may picked call
    refine ⟨awake, ?_, ordered.use done mb⟩
    intro other
    simpa using pending other
  case act event after obs may taken =>
    refine ⟨awake, ?_, ?_⟩
    · intro mb
      exact (pending mb).imp id fun already => List.mem_append_left _ already
    · -- The step makes one call at most, and what is shown of it comes after the call.
      have shown : ∀ past, Trace.Always InitFirst past →
          Trace.Always InitFirst (past ++ obs.map .shown) := by
        intro past earlier
        refine earlier.append ?_
        rintro _ member before mb rfl
        simp at member
      rw [← List.append_assoc]
      cases call : b.system.uses world.env event with
      | none => simpa using shown _ ordered.past
      | some mb =>
        have done := ordered.awake.done_of_uses may picked call
        exact shown _ (by simpa using ordered.use done mb)

/--
In every run under strict priorities, each mailbox is initialised before the first call on it.
-/
theorem initFirst_of_run (run : Run world b seen) : Trace.Always InitFirst seen := by
  -- The order is an invariant of the run.
  have ordered : Ordered b seen :=
    run.invariant (fun b seen => Ordered b seen) (ordered_entry world)
      fun _ _ _ _ _ held picked taken => held.move picked (move_of_step taken)
  exact ordered.past

/-- A boot with one other thread, which is more urgent than `main` and ready at once. -/
def sunnyBoot : BootWorld ℤ (Fin 1) where
  env := sunnyEnv
  heap := fun _ => ⟨none, []⟩
  otherPriority := fun _ => 5
  otherStat := fun _ => .ready

/-- The other thread interrupts `main` twice. Then a page is sent, and the weather is waited for. -/
def sunnyEvents : List (BootEvent ℤ (Fin 1)) :=
  List.flatten [
    [.suspend (.other 0)], List.replicate 11 .main,
    [.resume (.other 0), .suspend (.other 0)], List.replicate 4 .main,
    [.suspend (.app .time), .suspend (.app .dht)],
    [.act (.app .mpu) (.mpuStart true), .act (.app .mpu) (.mpuIterate (-41)), .suspend (.app .mpu)],
    [.act (.app .oled) (.oledStart 1 System.zeroedWeather), .act (.app .oled) .oledStep]]

/-- What is seen of these events. -/
def sunnyTrace : List BootObs :=
  [.inited .weather, .inited .time, .inited .mpu, .inited .dht,
    .used .mpu, .shown (.pageSent 1 .eok), .used .weather]

/--
The order in that run: the page is sent, and the weather is waited for, after the initialisations.
-/
theorem initFirst_of_run_sunny :
    ∃ b, Run sunnyBoot b sunnyTrace ∧ Trace.Always InitFirst sunnyTrace := by
  -- The events are executed, each with its thread scheduled, and the theorem applied to the run.
  have outcome : (Reach.exec (step sunnyBoot)
    (fun b event => decide (StrictPriority sunnyBoot b event))
      (entry sunnyBoot) sunnyEvents).map Prod.snd = some sunnyTrace := by decide +kernel
  obtain ⟨⟨b, seen⟩, done, same⟩ := Option.map_eq_some_iff.mp outcome
  obtain rfl : seen = sunnyTrace := same
  have run : Run sunnyBoot b sunnyTrace := Reach.reaches_of_exec (fun _ _ => of_decide_eq_true) done
  exact ⟨b, run, initFirst_of_run run⟩

end Order

section Refinement

/-- What the trace of the boot shows of the system. -/
def systemObs : BootObs → Option Obs
  | .shown obs => some obs
  | _ => none

/--
The boot is in a state of the system, except for the mailboxes that `main` still has to set up.
-/
structure Refines (world : BootWorld α ι) (b : Boot ι) (seen : List BootObs)
    (s : System) : Prop where
  reached : Reach.Reaches (System.step world.env) Reach.free world.ready s
    (seen.filterMap systemObs)
  system : b.system = s.unready b.todo
  /-- Until then nobody has touched a mailbox. -/
  untouched : b.todo ≠ [] → ∀ mb, System.SameMailbox world.ready s mb
  awake : Awake b
  suffix : b.todo <:+ mainCalls

/-- Events that neither step the system nor initialise a mailbox keep the refinement. -/
theorem Refines.idle {s : System} (refines : Refines world b seen s) (awake : Awake next)
    (suffix : next.todo <:+ b.todo) (same : next.system = b.system)
    (mailboxes : ∀ mb, MainCall.mbInit mb ∈ next.todo ↔ MainCall.mbInit mb ∈ b.todo)
    (silent : new.filterMap systemObs = []) : Refines world next (seen ++ new) s where
  reached := by simpa [silent] using refines.reached
  system := by simp only [same, refines.system, System.unready, mailboxes]
  untouched left := refines.untouched fun none => left (by simpa [none] using suffix)
  awake := awake
  suffix := suffix.trans refines.suffix

/-- A heap step of another thread does not depend on the mailboxes. -/
theorem step_unready {env : Env α} {s after : System} {event : Event α} {obs : List Obs}
    {todo : List MainCall} (other : event.thread = none)
    (taken : System.step env (s.unready todo) event = some (after, obs)) :
    ∃ next, System.step env s event = some (next, obs) ∧ after = next.unready todo := by
  -- The three heap steps look at the heap alone.
  cases event
  case otherMalloc handle bytes =>
    obtain ⟨unused, taken⟩ := Option.ite_none_right_eq_some.mp taken
    obtain ⟨rfl, rfl⟩ := Prod.mk.inj (Option.some.inj taken)
    exact ⟨_, if_pos unused, rfl⟩
  case otherWrite handle bytes =>
    obtain ⟨owned, taken⟩ := Option.ite_none_right_eq_some.mp taken
    obtain ⟨rfl, rfl⟩ := Prod.mk.inj (Option.some.inj taken)
    exact ⟨_, if_pos owned, rfl⟩
  case otherFree handle =>
    obtain ⟨owned, taken⟩ := Option.ite_none_right_eq_some.mp taken
    obtain ⟨rfl, rfl⟩ := Prod.mk.inj (Option.some.inj taken)
    exact ⟨_, if_pos owned, rfl⟩
  all_goals cases other

/-- A step of the system keeps the refinement. -/
theorem Refines.act {s after : System} {thread : Thread ι} {event : Event α} {obs : List Obs}
    (refines : Refines world b seen s) (may : mayAct thread event = true)
    (picked : StrictPriority world b (.act thread event))
    (taken : System.step world.env b.system event = some (after, obs)) :
    ∃ next, Refines world { b with system := after }
      (seen ++ ((b.system.uses world.env event).toList.map .used ++ obs.map .shown)) next := by
  -- The calls are silent, and what is shown is what the system shows.
  have trace : (seen ++ ((b.system.uses world.env event).toList.map BootObs.used ++
      obs.map BootObs.shown)).filterMap systemObs = seen.filterMap systemObs ++ obs := by
    cases b.system.uses world.env event <;>
      simp [List.filterMap_cons, List.filterMap_map, Function.comp_def, systemObs]
  by_cases done : b.todo = []
  · -- Every mailbox is set up, so the states are the same.
    have same : b.system = s := by simpa [done, System.unready] using refines.system
    refine ⟨after, ?_, by simp [done, System.unready], fun left => absurd done left, refines.awake,
      refines.suffix⟩
    rw [trace]
    exact refines.reached.step trivial (same ▸ taken)
  · -- The thread is none of the application, and leaves the mailboxes alone.
    have other : event.thread = none := by
      cases thread with
      | main => cases may
      | app thread => exact absurd (refines.awake.done (picked (.app thread) rfl)) done
      | other thread => simpa [mayAct] using may
    rw [refines.system] at taken
    obtain ⟨next, stepped, rfl⟩ := step_unready other taken
    refine ⟨next, ?_, rfl, fun left mb => ?_, refines.awake, refines.suffix⟩
    · rw [trace]
      exact refines.reached.step trivial stepped
    · have unused : s.uses world.env event ≠ some mb := by
        intro call
        obtain ⟨actor, acts⟩ := exists_thread_of_uses call
        rw [other] at acts
        cases acts
      have kept := (System.move_of_step stepped).sameMailbox unused
      have before := refines.untouched left mb
      cases mb <;> exact kept.trans before

/-- The initialisation of a mailbox keeps the refinement. -/
theorem Refines.mbInit {s : System} {mb : MbName} {todo : List MainCall}
    (refines : Refines world b seen s) (call : b.todo = .mbInit mb :: todo) :
    Refines world { b with todo := todo, system := b.system.mbInit mb }
      (seen ++ [.inited mb]) s := by
  have suffix : .mbInit mb :: todo <:+ mainCalls := call ▸ refines.suffix
  -- `main` initialises each mailbox once.
  have once : .mbInit mb ∉ todo := (List.nodup_cons.mp (suffix.sublist.nodup (by decide))).1
  have fresh := refines.untouched (by simp [call]) mb
  refine ⟨by simpa [List.filterMap_cons, systemObs] using refines.reached, ?_, ?_, ?_,
    (List.suffix_cons _ _).trans suffix⟩
  · rw [refines.system, call]
    cases mb <;> simp_all [System.unready, System.mbInit, System.SameMailbox, BootWorld.ready,
      System.initial]
  · exact fun _ => refines.untouched (by simp [call])
  · exact fun _ => refines.awake (by simp [call])

variable [DecidableEq ι]

/-- Every event keeps the refinement. -/
theorem Refines.move {s : System} (refines : Refines world b seen s)
    (picked : StrictPriority world b event) (move : Move world b event next new) :
    ∃ s, Refines world next (seen ++ new) s := by
  -- Only the initialisation of a mailbox and a step of the system do more than change a status.
  have awake := refines.awake.move move
  cases move
  case mbInit call => exact ⟨s, refines.mbInit call⟩
  case act may taken => exact refines.act may picked taken
  case threadInit call | threadStartup call =>
    exact ⟨s, refines.idle awake (by simp [call, setStat]) rfl (by simp [call, setStat]) rfl⟩
  case stuck => exact ⟨s, refines.idle awake List.suffix_rfl rfl (fun _ => Iff.rfl) rfl⟩
  case sleep | suspend | exit | resume =>
    exact ⟨s, refines.idle awake List.suffix_rfl rfl (fun _ => Iff.rfl) rfl⟩

/--
Every run of the boot shows a run of the system that starts with all mailboxes initialised.

The two are in the same state as soon as `main` has reached its loop.
-/
theorem refines_of_run (run : Run world b seen) : ∃ s, Refines world b seen s := by
  -- The refinement is an invariant of the run.
  refine run.invariant (fun b seen => ∃ s, Refines world b seen s) ?_ ?_
  · exact ⟨world.ready, .refl, rfl, fun _ mb => by cases mb <;> rfl, fun _ => rfl, List.suffix_rfl⟩
  · rintro b seen event next new ⟨s, refines⟩ picked taken
    exact refines.move picked (move_of_step taken)

end Refinement

end Boot

end MultifunctionClock
