import MultifunctionClock.Kernel.Runs

/-!
Threads that wait for an object, as the calls of the object see them.

A call that does not touch a thread leaves it where it is, unless its time is up.
-/

namespace MultifunctionClock

/-- The list of an object, and the order in which threads wait in it. -/
structure IpcLinks (κ : Type) where
  /-- `suspend_thread`. -/
  object : κ
  flag : IpcFlag

/-- What the calls that wait for an object return. -/
inductive IpcResult where
  | eok
  | efull
  | etimeout
  | error
deriving DecidableEq

/-- The result for the error that a thread was woken with. -/
def ThreadError.result : ThreadError → IpcResult
  | .eok => .eok
  | .etimeout => .etimeout
  | .error => .error

/-- A time that a timer can be set to, or for ever, or not at all. -/
def Waitable (timeout : BitVec 32) : Prop := 0 < timeout.toInt → timeout < Wrapping.half

instance (timeout : BitVec 32) : Decidable (Waitable timeout) :=
  inferInstanceAs (Decidable (0 < timeout.toInt → timeout < Wrapping.half))

/-- The timer of a call: none when it waits for ever. -/
def waitTimer (timeout : BitVec 32) : Option (BitVec 32) :=
  if 0 < timeout.toInt then some timeout else none

/-- The timer of such a call can be started. -/
theorem Waitable.timer {timeout : BitVec 32} (waitable : Waitable timeout) :
    ∀ limit ∈ waitTimer timeout, limit < Wrapping.half := by
  intro limit member
  rw [waitTimer] at member
  split at member
  · rename_i positive
    obtain rfl := Option.some.inj member
    exact waitable positive
  · cases member

namespace Kernel

variable {τ κ : Type} [DecidableEq τ] [DecidableEq κ] {idle t u : τ} {N : Touched τ κ} {object : κ}
  {k next last : Kernel τ κ}

/-- A thread is left where it is: in the same lists of objects, with the same error. -/
structure Kept (t : τ) (k next : Kernel τ κ) : Prop where
  waiting : ∀ object, t ∈ next.lists (.waiting object) ↔ t ∈ k.lists (.waiting object)
  suspended : (next.thread t).stat = .suspend ↔ (k.thread t).stat = .suspend
  runnable : (next.thread t).Runnable ↔ (k.thread t).Runnable
  error : (next.thread t).error = (k.thread t).error

/-- The time of a thread is up. -/
structure TimedOut (t : τ) (k next : Kernel τ κ) : Prop where
  suspended : (k.thread t).stat = .suspend
  waiting : ∀ object, t ∉ next.lists (.waiting object)
  runnable : (next.thread t).Runnable
  error : (next.thread t).error = .etimeout

/-- What can happen to a thread that is not touched. -/
def Spared (t : τ) (k next : Kernel τ κ) : Prop := Kept t k next ∨ TimedOut t k next

omit [DecidableEq τ] [DecidableEq κ] in
/-- Nothing happens. -/
theorem Kept.refl (t : τ) (k : Kernel τ κ) : Kept t k k := ⟨fun _ => .rfl, .rfl, .rfl, rfl⟩

omit [DecidableEq τ] [DecidableEq κ] in
/-- A thread that keeps its record and its lists. -/
theorem Kept.of_eq (thread : next.thread t = k.thread t)
    (waiting : ∀ object, t ∈ next.lists (.waiting object) ↔ t ∈ k.lists (.waiting object)) :
    Kept t k next := by
  refine ⟨waiting, ?_, ?_, ?_⟩ <;> rw [thread]

omit [DecidableEq τ] [DecidableEq κ] in
/-- Leaving a thread alone twice. -/
theorem Kept.trans (first : Kept t k next) (second : Kept t next last) : Kept t k last where
  waiting object := (second.waiting object).trans (first.waiting object)
  suspended := second.suspended.trans first.suspended
  runnable := second.runnable.trans first.runnable
  error := second.error.trans first.error

omit [DecidableEq τ] [DecidableEq κ] in
/-- A thread that can run is not suspended. -/
theorem not_runnable_of_suspend {thread : RtThread} (suspended : thread.stat = .suspend) :
    ¬ thread.Runnable := by
  simp [RtThread.Runnable, suspended]

omit [DecidableEq τ] [DecidableEq κ] in
/-- What can happen to a thread that is not touched by two calls. -/
theorem Spared.trans (first : Spared t k next) (second : Spared t next last) : Spared t k last := by
  rcases first with kept | out
  · rcases second with kept' | out
    · exact .inl (kept.trans kept')
    · exact .inr ⟨kept.suspended.mp out.suspended, out.waiting, out.runnable, out.error⟩
  · -- A thread whose time is up can run, so it does not run out of time again.
    rcases second with kept | again
    · exact .inr ⟨out.suspended, fun object => mt (kept.waiting object).mp (out.waiting object),
        kept.runnable.mpr out.runnable, kept.error.trans out.error⟩
    · exact absurd out.runnable (not_runnable_of_suspend again.suspended)

omit [DecidableEq κ] in
/-- A thread that is not in a list does not miss it. -/
theorem mem_erase_waiting (filed : Filed k ∅) (other : t ≠ u) (object : κ) :
    t ∈ (k.lists (.waiting object)).erase u ↔ t ∈ k.lists (.waiting object) := by
  rw [(filed.nodup _).mem_erase_iff]
  exact and_iff_right other

omit [DecidableEq κ] in
/-- Fields of a thread change that do not concern the lists. -/
theorem kept_upd {f : RtThread → RtThread} (stat : (f (k.thread u)).stat = (k.thread u).stat)
    (error : t = u → (f (k.thread u)).error = (k.thread u).error) : Kept t k (k.upd u f) := by
  refine ⟨fun _ => .rfl, ?_, ?_, ?_⟩
  · rw [stat_upd stat]
  · rw [RtThread.Runnable, stat_upd stat]
    rfl
  · by_cases same : t = u
    · rw [same, thread_upd_self, error same]
    · rw [thread_upd_of_ne k same]

/-- Another thread is woken. -/
theorem Placed.kept_arise (placed : Placed idle k) (other : t ≠ u) :
    Kept t k ((k.unlink u).rtScheduleInsertThread u) := by
  refine .of_eq ?_ fun object => ?_
  · rw [thread_insert, Function.update_of_ne other]
    rfl
  · rw [waiting_insert]
    exact mem_erase_waiting placed.filed other object

/-- The time of a thread is up: all other threads are left alone. -/
theorem Placed.spared_timeout (placed : Placed idle k) (suspended : (k.thread u).stat = .suspend) :
    Spared t k (((k.upd u fun thread =>
      { thread with error := .etimeout }).unlink u).rtScheduleInsertThread u) := by
  by_cases same : t = u
  · -- The thread is out of all lists before it can run again.
    subst same
    refine .inr ⟨suspended, fun object => ?_, ?_, ?_⟩
    · rw [waiting_insert]
      exact (placed.filed.nodup _).not_mem_erase
    · rw [thread_insert, Function.update_self]
      simp only [RtThread.Runnable]
      split <;> simp
    · rw [thread_insert, Function.update_self]
      simp [Kernel.unlink]
  · exact .inl ((kept_upd rfl fun equal => absurd equal same).trans
      ((placed.tweak rfl rfl rfl).kept_arise same))

/-- `rt_thread_control` leaves every thread where it waits. -/
theorem Placed.kept_changePriority (placed : Placed idle k) (t u : τ) (priority : Fin 32) :
    Kept t k (k.changePriority u priority) := by
  rw [Kernel.changePriority]
  split
  · rename_i ready
    -- A ready thread is in no list of an object, and stays ready.
    have absent : ∀ object, u ∉ k.lists (.waiting object) := fun object listed => by
      have suspended := (placed.filed.waiting u object listed).2
      simp [ready] at suspended
    have away : u ≠ k.current := fun same => placed.current.1 (same ▸ ready)
    refine ⟨fun object => ?_, ?_, ?_, ?_⟩
    · simp [Kernel.upd, List.erase_of_not_mem (absent object)]
    all_goals
      by_cases same : t = u
      · subst same
        simp [Kernel.upd, RtThread.Runnable, ready, away]
      · simp [Kernel.upd, RtThread.Runnable, same]
  · exact kept_upd rfl fun _ => rfl

omit [DecidableEq τ] [DecidableEq κ] in
/-- The scheduler leaves every thread where it waits. -/
theorem Rescheduled.kept (rescheduled : Rescheduled k next) (t : τ) : Kept t k next := by
  have alike := rescheduled.alike t
  refine ⟨fun object => by rw [rescheduled.waiting], ?_, alike.runnable_iff, ?_⟩
  · -- It changes the status only of threads that can run, before and after.
    refine ⟨fun suspended => ?_, rescheduled.suspended⟩
    have stuck := mt alike.runnable_iff.mpr (not_runnable_of_suspend suspended)
    rw [alike.stat_eq stuck] at suspended
    exact suspended
  · exact (RtThread.mk.injEq .. ▸ alike.rest).2.2.2.2.2.2.2

/--
A thread that was started is left alone by a move that does not touch it, unless its time is up.
-/
theorem Good.spared_move (good : Good idle k) (started : (k.thread t).stat ≠ .init)
    (stop : ¬ N.stop t) (wake : ¬ N.wake t) (move : Move idle N k next) : Spared t k next := by
  cases move with
  | tweak stat priority mask error base => exact .inl (kept_upd stat fun _ => error)
  | errno code touched =>
    -- An error is told only to the caller and to threads that are woken.
    refine .inl (kept_upd rfl fun same => ?_)
    rw [← same] at touched
    exact absurd touched (not_or.mpr ⟨stop, wake⟩)
  | lock nest => exact .inl (.of_eq rfl fun _ => .rfl)
  | timers new asleep => exact .inl (.of_eq rfl fun _ => .rfl)
  | @halt u change busy touched runnable stat priority mask base =>
    have other : t ≠ u := fun same => stop (same ▸ touched)
    refine .inl (.of_eq ?_ fun object => ?_)
    · rw [thread_upd_of_ne _ other, thread_remove]
    · simpa [Kernel.upd] using mem_erase_waiting good.filed other object
  | @arise u suspended stopped touched =>
    exact .inl (good.toPlaced.kept_arise fun same => wake (same ▸ touched))
  | timeout suspended stopped => exact good.toPlaced.spared_timeout suspended
  | @enqueue u object longer suspended absent perm caller touched =>
    have other : t ≠ u := fun same => stop (same ▸ caller)
    refine .inl (.of_eq rfl fun object' => ?_)
    by_cases same : object' = object
    · rw [same, lists_setList_self, perm.mem_iff, List.mem_cons]
      exact or_iff_right other
    · rw [lists_setList_of_ne k (by simpa using same)]
  | @start u change fresh suspended mask base own =>
    have other : t ≠ u := fun same => started (same ▸ fresh)
    exact .inl (.of_eq (thread_upd_of_ne k other _) fun _ => .rfl)
  | priority touched priority => exact .inl (good.toPlaced.kept_changePriority t _ priority)
  | @switch first highest found =>
    obtain ⟨ready, -⟩ := good.filed.of_getHighestPriorityThread found
    exact .inl ((good.toPlaced.rescheduled_switchTo ready highest).kept t)

/--
A thread that was started is left alone by a call that does not touch it, unless its time is up.
-/
theorem Good.spared (good : Good idle k)
    (started : (k.thread t).stat = .suspend ∨ (k.thread t).Runnable) (stop : ¬ N.stop t)
    (wake : ¬ N.wake t) (moves : Moves idle N k next) : Spared t k next := by
  induction moves with
  | refl => exact .inl (.refl t k)
  | @tail middle last before move ih =>
    -- A thread that was once started is not new again.
    have still : (middle.thread t).stat ≠ .init := by
      intro fresh
      rcases ih with kept | out
      · rcases started with suspended | runnable
        · have := kept.suspended.mpr suspended
          simp [fresh] at this
        · have := kept.runnable.mpr runnable
          simp [RtThread.Runnable, fresh] at this
      · have := out.runnable
        simp [RtThread.Runnable, fresh] at this
    exact ih.trans ((good.moves before).spared_move still stop wake move)

/--
A move brings threads only into the lists of objects that it may, and keeps the order of the others.
-/
theorem waiting_sublist_move (join : ¬ N.join object) (move : Move idle N k next) :
    (next.lists (.waiting object)).Sublist (k.lists (.waiting object)) := by
  cases move with
  | tweak | errno | lock | timers | start => exact .refl _
  | halt => simpa [Kernel.upd] using List.erase_sublist
  | arise | timeout =>
    rw [waiting_insert]
    exact List.erase_sublist
  | @enqueue u object' longer suspended absent perm caller touched =>
    have distinct : object ≠ object' := fun same => join (same ▸ touched)
    rw [lists_setList_of_ne k (by simpa using distinct)]
  | priority =>
    rw [Kernel.changePriority]
    split
    · simpa [Kernel.upd] using List.erase_sublist
    · exact .refl _
  | switch found =>
    -- Only ready lists are joined in a switch.
    simp only [switchTo, Kernel.setStat, Kernel.upd, lists_remove, makePlace]
    split <;> simpa using List.erase_sublist

/--
A call brings threads only into the lists of objects that it may, and keeps the order of the others.
-/
theorem waiting_sublist (join : ¬ N.join object) (moves : Moves idle N k next) :
    (next.lists (.waiting object)).Sublist (k.lists (.waiting object)) := by
  induction moves with
  | refl => exact .refl _
  | tail _ move ih => exact (waiting_sublist_move join move).trans ih

/-! ## Priorities -/

/-- A thread keeps its priority, or is given its own when it is started. -/
structure Rated (one other : RtThread) : Prop where
  base : other.initPriority = one.initPriority
  started : one.stat ≠ .init → other.stat ≠ .init
  level : other.currentPriority = one.currentPriority ∨
    one.stat = .init ∧ other.currentPriority = other.initPriority

section Rated

variable {one other third : RtThread}

omit [DecidableEq τ] [DecidableEq κ]

/-- A thread that is left alone. -/
theorem Rated.refl (one : RtThread) : Rated one one := ⟨rfl, id, .inl rfl⟩

/-- A thread that was started keeps its priority. -/
theorem Rated.eq (rated : Rated one other) (started : one.stat ≠ .init) :
    other.currentPriority = one.currentPriority :=
  rated.level.resolve_right fun fresh => started fresh.1

/-- A thread at its own priority stays there. -/
theorem Rated.own (rated : Rated one other) (own : one.currentPriority = one.initPriority) :
    other.currentPriority = other.initPriority := by
  rcases rated.level with same | ⟨-, level⟩
  · rw [same, rated.base, own]
  · exact level

/-- The priority of a thread is kept twice. -/
theorem Rated.trans (first : Rated one other) (second : Rated other third) : Rated one third where
  base := second.base.trans first.base
  started := fun started => second.started (first.started started)
  level := by
    by_cases fresh : one.stat = .init
    · -- A new thread may be given its own priority in either of the two.
      rcases first.level with same | ⟨-, own⟩
      · rcases second.level with same' | ⟨-, own⟩
        · exact .inl (same'.trans same)
        · exact .inr ⟨fresh, own⟩
      · exact .inr ⟨fresh, second.own own⟩
    · exact .inl ((second.eq (first.started fresh)).trans (first.eq fresh))

end Rated

omit [DecidableEq κ] in
/-- The record of one thread changes, and its priorities are kept. -/
theorem rated_update {record : RtThread} (rated : Rated (k.thread u) record) (t : τ) :
    Rated (k.thread t) (Function.update k.thread u record t) := by
  by_cases same : t = u
  · rw [same, Function.update_self]
    exact rated
  · rw [Function.update_of_ne same]
    exact .refl _

/-- A thread that goes into a ready list keeps its priorities. -/
theorem rated_insert (k : Kernel τ κ) (u t : τ) :
    Rated (k.thread t) ((k.rtScheduleInsertThread u).thread t) := by
  rw [thread_insert]
  refine rated_update ?_ t
  refine ⟨rfl, fun _ => ?_, .inl rfl⟩
  dsimp only
  split <;> simp

/-- A move that may not touch the priority of a thread keeps it. -/
theorem Good.rated_move (good : Good idle k) (tune : ¬ N.tune t) (move : Move idle N k next) :
    Rated (k.thread t) (next.thread t) := by
  cases move with
  | tweak stat priority mask error base =>
    exact rated_update ⟨base, fun started => stat ▸ started, .inl priority⟩ t
  | errno code touched =>
    refine rated_update ?_ t
    exact ⟨rfl, id, .inl rfl⟩
  | lock nest => exact .refl _
  | timers new asleep => exact .refl _
  | halt busy touched runnable stat priority mask base =>
    rw [Kernel.upd, thread_remove]
    exact rated_update
      ⟨base, fun _ => by rcases stat with stat | stat <;> simp [stat], .inl priority⟩ t
  | @arise u suspended stopped touched => exact rated_insert (k.unlink u) u t
  | @timeout u suspended stopped =>
    have timed : Rated (k.thread t)
        ((k.upd u fun thread => { thread with error := .etimeout }).thread t) := by
      refine rated_update ?_ t
      exact ⟨rfl, id, .inl rfl⟩
    exact timed.trans (rated_insert
      ((k.upd u fun thread => { thread with error := .etimeout }).unlink u) u t)
  | enqueue suspended absent perm caller touched => exact .refl _
  | start fresh suspended mask base own =>
    refine rated_update ⟨base, fun _ => ?_, .inr ⟨fresh, own.trans base.symm⟩⟩ t
    simp [suspended]
  | @priority u touched priority =>
    -- The thread is another one.
    have other : t ≠ u := fun same => tune (same ▸ touched)
    rw [Kernel.changePriority]
    split
    · rw [thread_insert, Function.update_of_ne other, thread_upd_of_ne _ other, thread_remove]
      exact .refl _
    · rw [thread_upd_of_ne _ other]
      exact .refl _
  | @switch first highest found =>
    obtain ⟨ready, -⟩ := good.filed.of_getHighestPriorityThread found
    have alike := (good.toPlaced.rescheduled_switchTo ready highest).alike t
    -- A switch changes nothing but the status of threads that can run.
    refine ⟨(RtThread.mk.injEq .. ▸ alike.rest).2.2.1, fun started => ?_,
      .inl alike.currentPriority⟩
    rcases alike.stat with same | ⟨-, runnable⟩
    · rw [same]
      exact started
    · rcases runnable with ready | runs <;> simp [*]

/-- A call that may not touch the priority of a thread keeps it. -/
theorem Good.rated (good : Good idle k) (tune : ¬ N.tune t) (moves : Moves idle N k next) :
    Rated (k.thread t) (next.thread t) := by
  induction moves with
  | refl => exact .refl _
  | tail before move ih => exact ih.trans ((good.moves before).rated_move tune move)

/-- What `rt_thread_control` does to the records of the threads. -/
theorem Placed.thread_changePriority (placed : Placed idle k) (t : τ) (priority : Fin 32) :
    (k.changePriority t priority).thread = Function.update k.thread t
      { k.thread t with currentPriority := priority, numberMask := BitVec.twoPow 32 priority } := by
  rw [Kernel.changePriority]
  split
  · -- A ready thread is taken out of its list and put into another, so it is ready again.
    rename_i ready
    have away : t ≠ k.current := fun same => placed.current.1 (same ▸ ready)
    rw [thread_insert]
    simp [Kernel.upd, away, ready]
  · rfl

/-- `rt_thread_control` leaves the threads where they wait. -/
theorem Placed.waiting_changePriority (placed : Placed idle k) (t : τ) (priority : Fin 32)
    (object : κ) :
    (k.changePriority t priority).lists (.waiting object) = k.lists (.waiting object) := by
  rw [Kernel.changePriority]
  split
  · rename_i ready
    -- A ready thread waits for nothing.
    have absent : t ∉ k.lists (.waiting object) := fun listed => by
      have suspended := (placed.filed.waiting t object listed).2
      simp [ready] at suspended
    simp [Kernel.upd, List.erase_of_not_mem absent]
  · rfl

/-! ## Waiting and waking -/

/-- A thread has begun to wait for an object. -/
structure Waits (t : τ) (object : κ) (flag : IpcFlag) (k next : Kernel τ κ) : Prop where
  stat : (next.thread t).stat = .suspend
  error : (next.thread t).error = .eok
  others : ∀ u, u ≠ t → next.thread u = k.thread u
  joined : next.lists (.waiting object) =
    flag.joined (fun u => (k.thread u).currentPriority) t (k.lists (.waiting object))
  rest : ∀ other, other ≠ object → next.lists (.waiting other) = k.lists (.waiting other)

/-- A thread can run again. -/
structure Wakes (t : τ) (k next : Kernel τ κ) : Prop where
  runnable : (next.thread t).Runnable
  error : (next.thread t).error = (k.thread t).error
  others : ∀ u, u ≠ t → next.thread u = k.thread u
  waiting : ∀ object u, u ∈ next.lists (.waiting object) ↔ u ≠ t ∧ u ∈ k.lists (.waiting object)

omit [DecidableEq τ] [DecidableEq κ] in
/-- Who waits for the object: the new thread and those who did. -/
theorem Waits.mem {flag : IpcFlag} (waits : Waits t object flag k next) :
    u ∈ next.lists (.waiting object) ↔ u = t ∨ u ∈ k.lists (.waiting object) := by
  rw [waits.joined, (flag.perm_joined _ _ _).mem_iff, List.mem_cons]

/-- `rt_ipc_list_suspend` of the running thread, with or without a timer. -/
theorem Good.waits (good : Good idle k) (runs : (k.thread k.current).stat = .running)
    (busy : k.current ≠ idle) (object : κ) (flag : IpcFlag) {ticks : Option (BitVec 32)}
    (small : ∀ limit ∈ ticks, limit < Wrapping.half) :
    ∃ next, k.run (.wait object flag ticks) = some next ∧
      Returned idle { stop := (· = k.current), join := (· = object) } k next ∧
      Waits k.current object flag k next := by
  -- The running thread is in no list, and afterwards in one.
  have absent := good.filed.absent_running runs
  have runnable : ((k.upd k.current fun thread => { thread with error := .eok }).thread
      k.current).Runnable := by
    simp [RtThread.Runnable, runs]
  obtain ⟨next, done, returned, suspended⟩ := good.rtIpcListSuspend
    (N := { stop := (· = k.current), join := (· = object) }) runs busy rfl object rfl flag
  have waits : Waits k.current object flag k next := by
    rw [Kernel.rtIpcListSuspend,
      (good.tweak rfl rfl rfl).toPlaced.rtThreadSuspend_eq runnable] at done
    obtain rfl := Option.some.inj done
    refine ⟨suspended, ?_, fun u other => ?_, ?_, fun object' distinct => ?_⟩
    · simp [Kernel.timerStop, Kernel.setStat]
    · simp [Kernel.timerStop, Kernel.setStat, Kernel.upd, other]
    · -- Suspending the thread does not change priorities.
      have levels : ∀ u,
        ((((k.upd k.current fun thread => { thread with error := .eok }).rtScheduleRemoveThread
          k.current).setStat k.current .suspend).thread u).currentPriority =
              (k.thread u).currentPriority := by
        intro u
        by_cases same : u = k.current <;> simp [Kernel.setStat, Kernel.upd, same]
      rw [lists_setList_self]
      simp only [Kernel.timerStop, levels]
      simp [Kernel.setStat, Kernel.upd, List.erase_of_not_mem (absent _)]
    · rw [lists_setList_of_ne _ (by simpa using distinct)]
      simp [Kernel.timerStop, Kernel.setStat, Kernel.upd, List.erase_of_not_mem (absent _)]
  cases ticks with
  | none => exact ⟨next, done, returned, waits⟩
  | some limit =>
    obtain ⟨last, started, timing⟩ := (good.moves returned.moves).timerStart
      (N := { stop := (· = k.current), join := (· = object) }) suspended (small limit rfl)
    refine ⟨last, ?_, returned.trans timing, ?_⟩
    · rw [Kernel.run, done]
      exact started
    · -- Starting the timer changes neither threads nor lists.
      obtain ⟨timers, -, same⟩ := Option.bind_eq_some_iff.mp started
      obtain rfl := Option.some.inj same
      exact ⟨waits.stat, waits.error, waits.others, waits.joined, waits.rest⟩

/-- `rt_thread_resume` of a suspended thread. -/
theorem Good.wakes (good : Good idle k) (suspended : (k.thread t).stat = .suspend) :
    Returned idle { wake := (· = t) } k (k.rtThreadResume t) ∧ Wakes t k (k.rtThreadResume t) := by
  refine ⟨good.rtThreadResume (N := { wake := (· = t) }) rfl, ?_⟩
  rw [Kernel.rtThreadResume, if_neg (not_not.mpr suspended)]
  refine ⟨?_, ?_, fun u other => ?_, fun object u => ?_⟩
  · rw [thread_insert, Function.update_self, RtThread.Runnable]
    dsimp only
    split <;> simp
  · rw [thread_insert, Function.update_self]
    rfl
  · rw [thread_insert, Function.update_of_ne other]
    rfl
  · rw [waiting_insert]
    exact (good.filed.nodup _).mem_erase_iff

/-- A thread that waited can run again, with an error. -/
structure Dismissed (t : τ) (k next : Kernel τ κ) : Prop where
  suspended : (k.thread t).stat = .suspend
  runnable : (next.thread t).Runnable
  error : (next.thread t).error = .error
  others : ∀ u, u ≠ t → next.thread u = k.thread u
  waiting : ∀ object u, u ∈ next.lists (.waiting object) ↔ u ≠ t ∧ u ∈ k.lists (.waiting object)

/-- One turn of the loop of `rt_ipc_list_resume_all`. -/
theorem Good.dismisses (good : Good idle k) (waits : k.lists (.waiting object) ≠ []) :
    ∃ next, k.resumeError object = some next ∧
      Returned idle { wake := (· ∈ k.lists (.waiting object)) } k next ∧ ∃ t,
        Dismissed t k next := by
  obtain ⟨t, rest, list⟩ := List.exists_cons_of_ne_nil waits
  have listed : t ∈ k.lists (.waiting object) := by simp [list]
  have suspended := (good.filed.waiting t object listed).2
  obtain ⟨next, done, returned⟩ := good.resumeError waits
  -- The thread is told of the error before it is woken.
  have told : Move idle { wake := (· ∈ k.lists (.waiting object)) } k
      (k.upd t fun thread => { thread with error := .error }) := .errno .error (.inr listed)
  obtain ⟨-, wakes⟩ := (good.move told).wakes (t := t) (by simpa using suspended)
  have same : (k.upd t fun thread => { thread with error := .error }).rtThreadResume t = next := by
    simpa [Kernel.run, Kernel.resumeError, list] using done
  rw [same] at wakes
  refine ⟨next, done, returned, t, suspended, wakes.runnable, ?_, fun u other => ?_, wakes.waiting⟩
  · simp [wakes.error]
  · rw [wakes.others u other, thread_upd_of_ne k other]

end Kernel
end MultifunctionClock
