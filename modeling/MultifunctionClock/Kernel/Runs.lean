import MultifunctionClock.Kernel.Calls
import MultifunctionClock.Kernel.Scheduler

/-!
Runs of the kernel, whatever its threads do and whenever the interrupts come.

No assertion of the kernel fails, the choice of the thread keeps to the priorities, and threads wake
up in the tick they sleep for.
-/

namespace MultifunctionClock
namespace Kernel

variable {τ κ : Type} [DecidableEq τ] [DecidableEq κ] {idle t : τ} {N : Touched τ κ}
  {start : BitVec 32} {k next : Kernel τ κ}

/-! ## The tick -/

omit [DecidableEq τ] [DecidableEq κ] in
/-- Scheduling does not wake a thread. -/
theorem Rescheduled.suspended (rescheduled : Rescheduled k next)
    (sleeps : (k.thread t).stat = .suspend) :
    (next.thread t).stat = .suspend := by
  rw [(rescheduled.alike t).stat_eq (by simp [RtThread.Runnable, sleeps])]
  exact sleeps

/-- What a call leaves alone that wakes one thread. -/
structure Woken (t : τ) (k next : Kernel τ κ) : Prop where
  timers : next.timers = k.timers
  seen : next.seen.filterMap KernelObs.timer? = k.seen.filterMap KernelObs.timer?
  others : ∀ u, u ≠ t → (k.thread u).stat = .suspend → (next.thread u).stat = .suspend

/-- `rt_thread_timeout` makes a suspended thread able to run, and all other sleepers sleep on. -/
theorem Good.rtThreadTimeout (good : Good idle k) (suspended : (k.thread t).stat = .suspend)
    (stopped : (k.timers.timer t).activated = false) :
    ∃ next, k.rtThreadTimeout t = some next ∧ Moves idle N k next ∧ Woken t k next := by
  -- The thread can run again before the scheduler is called.
  have risen : Move idle N k _ := .timeout suspended stopped
  obtain ⟨next, done, scheduling⟩ := (good.move risen).rtSchedule (N := N)
  refine ⟨next, ?_, scheduling.moves.head risen, ?_, ?_, fun u other sleeps => ?_⟩
  · rw [Kernel.rtThreadTimeout, if_neg (not_not.mpr suspended)]
    exact done
  · rw [scheduling.timers]
    simp [Kernel.unlink, Kernel.upd]
  · rw [scheduling.seen]
    simp [Kernel.unlink, Kernel.upd]
  · exact scheduling.suspended (by simp [Kernel.unlink, Kernel.upd, other, sleeps])

/-- The timer of a suspended thread fires. -/
theorem Good.fire (good : Good idle k) (suspended : (k.thread t).stat = .suspend)
    (stopped : (k.timers.timer t).activated = false) :
    ∃ next, k.fire t = some next ∧ Moves idle N k next ∧ next.timers = k.timers ∧
      next.seen.filterMap KernelObs.timer? = k.seen.filterMap KernelObs.timer? ++ [.fired t] ∧
      ∀ u, u ≠ t → (k.thread u).stat = .suspend → (next.thread u).stat = .suspend := by
  -- The firing is observed before the timeout function runs.
  have seen : Move idle N k { k with seen := k.seen ++ [.timer (.fired t)] } :=
    .timers [.fired t] good.asleep
  obtain ⟨next, done, moves, woken⟩ := (good.move seen).rtThreadTimeout (N := N) suspended stopped
  refine ⟨next, done, moves.head seen, woken.timers, ?_, woken.others⟩
  rw [woken.seen]
  simp [KernelObs.timer?]

/-- All timers that are due fire, one after the other. -/
theorem Good.foldlM_fire (good : Good idle k) {gone : List τ} (nodup : gone.Nodup)
    (suspended : ∀ t ∈ gone, (k.thread t).stat = .suspend)
    (stopped : ∀ t ∈ gone, (k.timers.timer t).activated = false) :
    ∃ next, gone.foldlM Kernel.fire k = some next ∧ Moves idle N k next ∧ next.timers = k.timers ∧
      next.seen.filterMap KernelObs.timer? =
        k.seen.filterMap KernelObs.timer? ++ gone.map TimerObs.fired := by
  -- The threads are distinct, so each is still suspended when its turn comes.
  induction gone generalizing k with
  | nil => exact ⟨k, rfl, .refl, rfl, by simp⟩
  | cons t gone ih =>
    obtain ⟨outside, nodup⟩ := List.nodup_cons.mp nodup
    -- The first timer fires, and the threads behind it sleep on.
    obtain ⟨next, done, moves, timers, seen, others⟩ := good.fire (N := N)
      (suspended t (by simp)) (stopped t (by simp))
    obtain ⟨last, rest, more, timers', seen'⟩ := ih (good.moves moves) nodup
      (fun u member => others u (fun same => outside (same ▸ member))
        (suspended u (by simp [member])))
      (fun u member => by rw [timers]; exact stopped u (by simp [member]))
    refine ⟨last, ?_, Relation.ReflTransGen.trans moves more, timers'.trans timers, ?_⟩
    · rw [List.foldlM_cons, done]
      exact rest
    · rw [seen', seen]
      simp

/-- The end of a time slice wakes nobody, and does nothing to the timers. -/
theorem Good.timeSlice (good : Good idle k) :
    ∃ next, k.timeSlice = some next ∧ Moves idle N k next ∧ next.timers = k.timers ∧
      next.seen.filterMap KernelObs.timer? = k.seen.filterMap KernelObs.timer? ∧
      ∀ u, (k.thread u).stat = .suspend → (next.thread u).stat = .suspend := by
  -- The running thread has one tick less.
  have counted : Move idle N k (k.upd k.current fun thread =>
      { thread with remainingTick := thread.remainingTick - 1 }) := .tweak rfl rfl rfl rfl rfl
  rw [Kernel.timeSlice]
  split
  · -- The slice is used up, so the thread gives way.
    have reset : Move idle N (k.upd k.current fun thread =>
        { thread with remainingTick := thread.remainingTick - 1 })
        ((k.upd k.current fun thread =>
          { thread with remainingTick := thread.remainingTick - 1 }).upd k.current
          fun thread => { thread with remainingTick := thread.initTick, yield := true }) :=
            .tweak rfl rfl rfl rfl rfl
    have moves := (Relation.ReflTransGen.single counted).tail reset
    obtain ⟨next, done, scheduling⟩ := (good.moves moves).rtSchedule (N := N)
    refine ⟨next, done, Relation.ReflTransGen.trans moves scheduling.moves, scheduling.timers,
      scheduling.seen,
      fun u sleeps => scheduling.suspended ?_⟩
    rw [stat_upd rfl, stat_upd rfl]
    exact sleeps
  · refine ⟨_, rfl, .single counted, rfl, rfl, fun u sleeps => ?_⟩
    rw [stat_upd rfl]
    exact sleeps

/-- The timers are those of a run from their start, which is what was observed of them. -/
def Timed (start : BitVec 32) (k : Kernel τ κ) : Prop :=
  Reach.Reaches Timers.step Timers.Plain (Timers.init start (fun _ => 0) fun _ => false) k.timers
    (k.seen.filterMap KernelObs.timer?)

omit [DecidableEq κ] in
/-- The timers go on from the run they have had. -/
theorem Timed.steps (timed : Timed start k) (steps : TimerSteps k next) : Timed start next := by
  obtain ⟨new, run, seen⟩ := steps
  rw [Timed, seen]
  exact Reach.Reaches.trans timed run

omit [DecidableEq κ] in
/-- The timers of the threads are one-shot, and keep track of what is to be done. -/
theorem Timed.tracks (timed : Timed start k) : k.timers.OneShot ∧
    k.timers.Steady (fun _ => True) ∧
    Trace.Always Alarms.Punctual (k.seen.filterMap KernelObs.timer?) ∧ ∃ deadline,
      Timers.Tracks start ((Alarms.ofTrace (k.seen.filterMap KernelObs.timer?)).ticks + 1)
        deadline k.timers
        (Alarms.ofTrace (k.seen.filterMap KernelObs.timer?)) := by
  obtain ⟨shots, sound⟩ := Timers.OneShot.run (s := Timers.init start (fun _ => 0) fun _ => false)
    (fun _ => rfl) timed
  exact ⟨shots, Timers.tracks_of_run (by simp) (by simp) sound⟩

/-- A tick is handled: the threads whose time is up can run again. -/
theorem Good.rtTickIncrease (good : Good idle k) (timed : Timed start k) :
    ∃ next, k.rtTickIncrease = some next ∧ Returned idle N k next := by
  obtain ⟨shots, steady, punctual, deadline, tracks⟩ := timed.tracks
  obtain ⟨timers, new, -, done, -⟩ :=
    tracks.tick_increase steady punctual [] (by simp)
  obtain ⟨gone, fires, list, records⟩ := shots.rtTickIncrease done
  -- The timers are taken out of their list first, so the threads that still have one are suspended.
  have stillAsleep : ∀ t, (timers.timer t).activated = true → (k.thread t).stat = .suspend := by
    intro t active
    rw [records t] at active
    exact good.asleep t (by simpa using (Bool.and_eq_true_iff.mp active).1)
  have ticked : Move idle N k { k with timers := timers, seen := k.seen ++ [.timer .ticked] } :=
    .timers [.ticked] stillAsleep
  obtain ⟨middle, slice, sliced, timers', seen', sleeps⟩ := (good.move ticked).timeSlice (N := N)
  -- A thread whose timer fires slept until now, and the end of the slice does not wake it.
  have suspended : ∀ t ∈ gone, (k.thread t).stat = .suspend := by
    intro t member
    exact good.asleep t (tracks.active t (by simp [list, member]))
  have nodup : gone.Nodup := (List.nodup_append.mp (list ▸ tracks.nodup)).1
  obtain ⟨next, fired, moves, timers'', seen''⟩ :=
    ((good.move ticked).moves sliced).foldlM_fire (N := N)
    nodup (fun t member => sleeps t (suspended t member))
    (fun t member => by rw [timers', records t]; simp [member])
  refine ⟨next, ?_, Relation.ReflTransGen.trans (sliced.head ticked) moves, new, ?_, ?_⟩
  · -- The list that the kernel goes through is the one of the timers that fired.
    have named_fired : new.filterMap TimerObs.fired? = gone := by
      rw [fires]
      show (gone.map TimerObs.fired).filterMap TimerObs.fired? = gone
      rw [List.filterMap_map]
      exact List.filterMap_some
    rw [Kernel.rtTickIncrease, done]
    simp only [Option.bind_eq_bind, Option.bind_some, named_fired, slice, fired]
  · -- For the timers all this is one tick.
    have begin : Reach.Reaches Timers.step Timers.Plain k.timers k.timers [] := .refl
    rw [timers'', timers']
    have plain : k.timers.Plain (.tick []) := rfl
    simpa using begin.step plain done
  · rw [seen'', seen', fires]
    simp [KernelObs.timer?]

/-! ## The calls

Each call is a few moves of the kernel, and most of them end in `rt_schedule`.
-/

/-- `rt_thread_startup` returns. -/
theorem Good.rtThreadStartup (good : Good idle k) (fresh : (k.thread t).stat = .init) :
    ∃ next, k.run (.startup t) = some next ∧ Returned idle (k.touched (.startup t)) k next := by
  -- The thread is suspended for a moment, so that `rt_thread_resume` can make it ready.
  have begun : Move idle (k.touched (.startup t)) k (k.upd t fun thread =>
      { thread with
        currentPriority := thread.initPriority
        numberMask := BitVec.twoPow 32 thread.initPriority
        stat := .suspend
        yield := false }) := .start fresh rfl rfl rfl rfl
  have resumed := (good.move begun).rtThreadResume (N := k.touched (.startup t)) (t := t) rfl
  rw [Kernel.run, Kernel.rtThreadStartup, if_neg (not_not.mpr fresh)]
  exact ((Returned.single begun rfl rfl).trans resumed).rtSchedule good

/-- `rt_thread_sleep` returns to its caller, which is suspended with a running timer by then. -/
theorem Good.rtThreadSleep (good : Good idle k) (runs : (k.thread k.current).stat = .running)
    (busy : k.current ≠ idle) {ticks : BitVec 32} (small : ticks < Wrapping.half) :
    ∃ next, k.run (.sleep ticks) = some next ∧ Returned idle (k.touched (.sleep ticks)) k next := by
  have halted := good.halt (N := k.touched (.sleep ticks)) (t := k.current) busy rfl (.inr runs)
    (f := fun thread => { thread with stat := .suspend }) (.inl rfl) rfl rfl rfl
  -- The timer may be started, since its thread is suspended already.
  obtain ⟨next, started, timing⟩ := (good.moves halted.moves).timerStart
    (good.toPlaced.halted k.current).1 small
  refine ⟨next, ?_, halted.trans timing⟩
  rw [Kernel.run, Kernel.rtThreadSleep, good.rtThreadSuspend_eq (.inr runs)]
  exact started

/-- The running thread joins the list of an object, with a timer if it does not wait for ever. -/
theorem Good.wait (good : Good idle k) (runs : (k.thread k.current).stat = .running)
    (busy : k.current ≠ idle) (object : κ) (flag : IpcFlag) {ticks : Option (BitVec 32)}
    (small : ∀ limit ∈ ticks, limit < Wrapping.half) :
    ∃ next, k.run (.wait object flag ticks) = some next ∧
      Returned idle (k.touched (.wait object flag ticks)) k next := by
  obtain ⟨next, done, returned, suspended⟩ := good.rtIpcListSuspend
    (N := k.touched (.wait object flag ticks)) runs busy rfl object rfl flag
  cases ticks with
  | none => exact ⟨next, done, returned⟩
  | some limit =>
    -- With a timeout, the timer starts when the thread is in the list.
    obtain ⟨last, started, timing⟩ :=
      (good.moves returned.moves).timerStart suspended (small limit rfl)
    refine ⟨last, ?_, returned.trans timing⟩
    rw [Kernel.run, done]
    exact started

/-- The first thread of a list is woken. -/
theorem Good.rtIpcListResume (good : Good idle k) {object : κ}
    (waits : k.lists (.waiting object) ≠ []) :
    ∃ next, k.run (.wake object) = some next ∧ Returned idle (k.touched (.wake object)) k next := by
  obtain ⟨t, rest, list⟩ := List.exists_cons_of_ne_nil waits
  have first : (k.touched (.wake object)).wake t := by simp [touched, list]
  refine ⟨_, ?_, good.rtThreadResume first⟩
  simp [Kernel.run, Kernel.rtIpcListResume, list]

/-- The first thread of a list is told of an error and woken. -/
theorem Good.resumeError (good : Good idle k) {object : κ}
    (waits : k.lists (.waiting object) ≠ []) :
    ∃ next, k.run (.dismiss object) = some next ∧
      Returned idle (k.touched (.dismiss object)) k next := by
  obtain ⟨t, rest, list⟩ := List.exists_cons_of_ne_nil waits
  have first : (k.touched (.dismiss object)).wake t := by simp [touched, list]
  have told : Move idle (k.touched (.dismiss object)) k (k.upd t fun thread =>
    { thread with error := .error }) := .errno .error (.inr first)
  refine ⟨_, ?_, (Returned.single told rfl rfl).trans ((good.move told).rtThreadResume first)⟩
  simp [Kernel.run, Kernel.resumeError, list]

/-- `rt_thread_exit` returns to another thread. -/
theorem Good.rtThreadExit (good : Good idle k) (runs : (k.thread k.current).stat = .running)
    (busy : k.current ≠ idle) :
    ∃ next, k.run .exit = some next ∧ Returned idle (k.touched .exit) k next := by
  have halted : Move idle (k.touched .exit) k ((k.rtScheduleRemoveThread k.current).upd k.current
      fun thread => { thread with stat := .close, yield := false }) :=
    .halt busy rfl (.inr runs) (.inr rfl) rfl rfl rfl
  -- Its timer goes away with it.
  have returned := (Returned.single halted (by simp [Kernel.upd]) (by simp [Kernel.upd])).trans
    ((good.move halted).timerDetach k.current)
  exact returned.rtSchedule good

/-- `rt_thread_control` does not touch the choice or the timers. -/
theorem rest_changePriority (k : Kernel τ κ) (t : τ) (priority : Fin 32) :
    (k.changePriority t priority).current = k.current ∧
      (k.changePriority t priority).timers = k.timers ∧
      (k.changePriority t priority).seen = k.seen := by
  rw [Kernel.changePriority]
  split <;> simp [Kernel.upd]

/-- `rt_thread_control` returns. -/
theorem returned_changePriority (k : Kernel τ κ) (t : τ) (priority : Fin 32) :
    Returned idle { tune := (· = t) } k (k.changePriority t priority) := by
  obtain ⟨-, timers, seen⟩ := rest_changePriority k t priority
  exact .single (.priority rfl priority) timers (by rw [seen])

/-- `rt_exit_critical` returns, and schedules when it was the last level. -/
theorem Good.rtExitCritical (good : Good idle k) :
    ∃ next, k.run .exitCritical = some next ∧ Returned idle (k.touched .exitCritical) k next := by
  -- The level goes down, or straight to zero.
  have freed : ∀ nest, Returned idle (k.touched .exitCritical) k { k with lockNest := nest } :=
    fun nest => .single (.lock k nest) rfl rfl
  rw [Kernel.run, Kernel.rtExitCritical]
  split
  · exact (freed 0).rtSchedule good
  · exact ⟨_, rfl, freed _⟩

/-! ## Runs -/

/-- Every event that may happen is handled without a failed assertion. -/
theorem Good.run (good : Good idle k) (timed : Timed start k) {event : KernelEvent τ κ}
    (allowed : k.Allowed idle event) :
    ∃ next, k.run event = some next ∧ Returned idle (k.touched event) k next := by
  cases event with
  | startup t => exact good.rtThreadStartup allowed.2
  | yield =>
    have asked : Move idle (k.touched .yield) k (k.upd k.current fun thread =>
      { thread with remainingTick := thread.initTick, yield := true }) := .tweak rfl rfl rfl rfl rfl
    exact (Returned.single asked rfl rfl).rtSchedule good
  | sleep ticks => exact good.rtThreadSleep allowed.1 allowed.2.1 allowed.2.2
  | awake => exact ⟨_, rfl, .single (.errno _ (.inl rfl)) rfl rfl⟩
  | suspend t => exact good.rtThreadSuspend allowed rfl
  | resume t => exact ⟨_, rfl, good.rtThreadResume rfl⟩
  | wait object flag ticks => exact good.wait allowed.1 allowed.2.1 object flag allowed.2.2
  | wake object => exact good.rtIpcListResume allowed
  | dismiss object => exact good.resumeError allowed
  | exit => exact good.rtThreadExit allowed.1 allowed.2
  | changePriority t priority => exact ⟨_, rfl, returned_changePriority k t priority⟩
  | enterCritical => exact ⟨_, rfl, .single (.lock k _) rfl rfl⟩
  | exitCritical => exact good.rtExitCritical
  | schedule =>
    obtain ⟨next, done, scheduling⟩ := good.rtSchedule
    exact ⟨next, done, scheduling.toReturned⟩
  | tick => exact good.rtTickIncrease timed

/-- A state that can be reached by allowed events, from any state. -/
abbrev Reached (idle : τ) : Kernel τ κ → Kernel τ κ → Prop :=
  Relation.ReflTransGen fun k next => ∃ event, Step idle event k next

/-- A list of events that can be executed is a run, of whatever steps its events are. -/
theorem reflTransGen_of_exec {related : Kernel τ κ → Kernel τ κ → Prop}
    {events : List (KernelEvent τ κ)}
    (steps : ∀ k next, ∀ event ∈ events, Step idle event k next → related k next)
    (done : k.exec idle events = some next) : Relation.ReflTransGen related k next :=
  Reach.reflTransGen_of_foldlM (fun k next event member taken =>
    steps k next event member (Option.ite_none_right_eq_some.mp taken)) done

/-- A list of events that can be executed is a run. -/
theorem reached_of_exec {events : List (KernelEvent τ κ)} (done : k.exec idle events = some next) :
    Reached idle k next := reflTransGen_of_exec (fun _ _ event _ step => ⟨event, step⟩) done

omit [DecidableEq κ] in
/-- The kernel starts well: only the idle thread is started, and it runs. -/
theorem good_init (idle : τ) (start : BitVec 32) (thread : τ → Fin 32 × BitVec 32) :
    Good idle (init idle start thread : Kernel τ κ) := by
  have records : ∀ t, ((init idle start thread : Kernel τ κ).thread t).stat =
      if t = idle then .running else .init := by
    intro t
    by_cases same : t = idle <;> simp [init, RtThread.init, same]
  -- All lists are empty, so only the status of the idle thread matters.
  refine ⟨⟨⟨?_, ?_, ?_, ?_, ?_, ?_⟩, ?_, ?_, ?_⟩, ?_⟩
  · simp [init]
  · intro t priority
    rw [records]
    refine iff_of_false List.not_mem_nil ?_
    split <;> simp
  · intro t object listed
    cases listed
  · intro t one other listed
    cases listed
  · exact fun _ => List.nodup_nil
  · intro t started
    rw [records] at started
    obtain rfl : t = idle := by
      by_contra other
      simp [other] at started
    simp [init, RtThread.init]
  · intro t runs
    rw [records] at runs
    by_contra other
    have other : t ≠ idle := other
    rw [if_neg other] at runs
    cases runs
  · rw [show (init idle start thread : Kernel τ κ).current = idle from rfl, records, if_pos rfl]
    simp
  · refine .inr ?_
    rw [records, if_pos rfl]
  · intro t active
    cases active

/-- What holds between moves also holds in every state that the kernel reaches. -/
theorem good_of_reached {thread : τ → Fin 32 × BitVec 32}
    (reached : Reached idle (init idle start thread) k) : Good idle k ∧ Timed start k := by
  induction reached with
  | refl => exact ⟨good_init idle start thread, .refl⟩
  | tail _ step ih =>
    obtain ⟨good, timed⟩ := ih
    obtain ⟨event, allowed, taken⟩ := step
    -- A step is a call that returned, and calls are moves.
    obtain ⟨next, done, returned⟩ := good.run timed allowed
    obtain rfl := Option.some.inj (done.symm.trans taken)
    exact ⟨good.moves returned.moves, timed.steps returned.timed⟩

end Kernel

/-- The status as the choice of the thread sees it. -/
def RtStat.view : RtStat → ThreadStat
  | .init => .init
  | .ready | .running => .ready
  | .suspend => .suspend
  | .close => .close

namespace Kernel

variable {τ κ : Type} [DecidableEq τ] [DecidableEq κ] {idle t : τ} {start : BitVec 32}
  {k next : Kernel τ κ}

omit [DecidableEq τ] [DecidableEq κ] in
/-- A settled kernel runs a thread that the rule of strict priorities may choose. -/
theorem Settled.scheduled (settled : Settled k)
    (running : ∀ t, (k.thread t).stat = .running → t = k.current) :
    Scheduled (fun t => ((k.thread t).currentPriority : ℕ)) (fun t => (k.thread t).stat.view)
      k.current where
  ready := by rw [settled.running]; rfl
  first other ready := by
    -- Another thread that counts as ready is ready,
    -- and the current one is not more urgent than itself.
    cases stat : (k.thread other).stat with
    | ready => exact settled.first other stat
    | running => rw [running other stat]
    | init | suspend | close => simp [stat, RtStat.view] at ready

end Kernel

/-- The threads of some runs, each more urgent than the one before. -/
inductive DemoThread where
  | idle
  | low
  | middle
  | high
deriving DecidableEq

instance : Fintype DemoThread :=
  ⟨{.idle, .low, .middle, .high}, fun t => by cases t <;> simp⟩

/-- Their priorities. -/
def DemoThread.priority : DemoThread → Fin 32
  | .idle => ⟨31, by decide⟩
  | .low => ⟨20, by decide⟩
  | .middle => ⟨15, by decide⟩
  | .high => ⟨10, by decide⟩

/-- Their priorities and time slices. -/
def demoThreads (t : DemoThread) : Fin 32 × BitVec 32 :=
  (t.priority, if t = .idle then 32 else 5)

namespace Kernel

variable {τ κ : Type} [DecidableEq τ] [DecidableEq κ] {idle t : τ} {start : BitVec 32}
  {k next : Kernel τ κ}

/-- Two threads are started, and the more urgent one sleeps over the wrap of the counter. -/
def demoEvents : List (KernelEvent DemoThread Unit) :=
  [.startup .low, .startup .high, .sleep 1, .schedule, .tick]

/-- What is observed of that run. -/
def demoTrace : List (KernelObs DemoThread) :=
  [.timer (.stopped .low), .switched .low DemoThread.low.priority, .timer (.stopped .high),
    .switched .high DemoThread.high.priority, .timer (.stopped .high), .timer (.started .high 1),
    .switched .low DemoThread.low.priority, .timer .ticked, .timer (.fired .high),
    .switched .high DemoThread.high.priority]

/-- That run can happen. -/
theorem reached_demo : ∃ k : Kernel DemoThread Unit,
    Reached .idle (init .idle 0xFFFFFFFF demoThreads) k ∧ k.lockNest = 0 ∧ k.seen = demoTrace ∧
      k.Allowed .idle .tick := by
  have done : (exec .idle (init .idle 0xFFFFFFFF demoThreads) demoEvents).map
      (fun k => (k.lockNest, k.seen)) = some (0, demoTrace) := by
    decide +kernel
  obtain ⟨k, taken, same⟩ := Option.map_eq_some_iff.mp done
  exact ⟨k, reached_of_exec taken, (Prod.mk.inj same).1, (Prod.mk.inj same).2, trivial⟩

end Kernel
end MultifunctionClock
