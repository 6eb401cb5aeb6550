import MultifunctionClock.Kernel.Moves

/-!
The calls of the kernel as sequences of moves.

No assertion fails, and after `rt_schedule` no ready thread is more urgent than the one that runs.
-/

namespace MultifunctionClock
namespace Kernel

variable {τ κ : Type} [DecidableEq τ] [DecidableEq κ] {idle t : τ} {N : Touched τ κ}
  {k next last : Kernel τ κ}

/-- The timers take the steps that are observed of them. -/
def TimerSteps (k next : Kernel τ κ) : Prop :=
  ∃ new, Reach.Reaches Timers.step Timers.Plain k.timers next.timers new ∧
    next.seen.filterMap KernelObs.timer? = k.seen.filterMap KernelObs.timer? ++ new

/-- A call that returned: its moves, and the steps of the timers. -/
structure Returned (idle : τ) (N : Touched τ κ) (k next : Kernel τ κ) : Prop where
  moves : Moves idle N k next
  timed : TimerSteps k next

omit [DecidableEq κ] in
/-- Without an observation of the timers these stay. -/
theorem TimerSteps.of_eq (timers : next.timers = k.timers)
    (seen : next.seen.filterMap KernelObs.timer? = k.seen.filterMap KernelObs.timer?) :
    TimerSteps k next := ⟨[], timers ▸ .refl, by simp [seen]⟩

omit [DecidableEq κ] in
/-- One step of the timers. -/
theorem TimerSteps.of_step {e : TimerEvent τ} {new : List (TimerObs τ)} (plain : k.timers.Plain e)
    (taken : k.timers.step e = some (next.timers, new))
    (seen : next.seen = k.seen ++ new.map .timer) : TimerSteps k next := by
  have begin : Reach.Reaches Timers.step Timers.Plain k.timers k.timers [] := .refl
  refine ⟨new, by simpa using begin.step plain taken, ?_⟩
  rw [seen, List.filterMap_append, List.filterMap_map]
  congr 1
  exact List.filterMap_some

omit [DecidableEq κ] in
/-- The steps of the timers follow each other. -/
theorem TimerSteps.trans (first : TimerSteps k next) (second : TimerSteps next last) :
    TimerSteps k last := by
  obtain ⟨one, early, seen⟩ := first
  obtain ⟨two, late, seen'⟩ := second
  exact ⟨one ++ two, early.trans late, by rw [seen', seen, List.append_assoc]⟩

/-- Calls follow each other. -/
theorem Returned.trans (first : Returned idle N k next) (second : Returned idle N next last) :
    Returned idle N k last :=
  ⟨Relation.ReflTransGen.trans first.moves second.moves, first.timed.trans second.timed⟩

/-- A move that leaves the timers alone. -/
theorem Returned.single (move : Move idle N k next) (timers : next.timers = k.timers)
    (seen : next.seen = k.seen) : Returned idle N k next :=
  ⟨.single move, .of_eq timers (by rw [seen])⟩

/-! ## Scheduling -/

omit [DecidableEq τ] [DecidableEq κ] in
/-- Being alike is transitive. -/
theorem Alike.trans {one two three : RtThread} (first : Alike one two) (second : Alike two three) :
    Alike one three := by
  refine ⟨?_, ?_⟩
  · -- Only a thread that can run may change its status, and then between ready and running.
    by_cases runnable : one.Runnable
    · exact .inr ⟨runnable, second.runnable_iff.mpr (first.runnable_iff.mpr runnable)⟩
    · have stuck := mt first.runnable_iff.mp runnable
      exact .inl ((second.stat_eq stuck).trans (first.stat_eq runnable))
  · obtain ⟨-, rest⟩ := first
    obtain ⟨-, rest'⟩ := second
    rw [← rest, ← rest']

omit [DecidableEq τ] [DecidableEq κ] in
/-- Scheduling twice leaves alone what each time does. -/
theorem Rescheduled.trans (first : Rescheduled k next) (second : Rescheduled next last) :
    Rescheduled k last where
  alike u := (first.alike u).trans (second.alike u)
  waiting object := (second.waiting object).trans (first.waiting object)
  timers := second.timers.trans first.timers
  lockNest := second.lockNest.trans first.lockNest
  seen := second.seen.trans first.seen

omit [DecidableEq κ] in
/-- A running thread is in no list, and can not be taken out of one. -/
theorem Filed.remove_running (filed : Filed k ∅) (runs : (k.thread t).stat = .running) :
    (k.rtScheduleRemoveThread t).setStat t .running = k := by
  have lists : k.unlink t = k := by
    have same : (fun head => (k.lists head).erase t) = k.lists :=
      funext fun head => List.erase_of_not_mem (filed.absent_running runs head)
    rw [Kernel.unlink, same]
  have removed : k.rtScheduleRemoveThread t = k := by
    rw [rtScheduleRemoveThread, lists]
    split
    · -- The bit of an empty list is not set.
      rename_i empty
      have group : k.group &&& ~~~(k.thread t).numberMask = k.group := by
        refine BitVec.eq_of_getLsbD_eq fun bit inside => ?_
        have clear := mt (filed.group (k.thread t).currentPriority).mp (not_not.mpr empty)
        rw [filed.mask t (by simp [runs])]
        refine (Bitmap.getLsbD_drop k.group (k.thread t).currentPriority ⟨bit, inside⟩).trans ?_
        by_cases same : ⟨bit, inside⟩ = (k.thread t).currentPriority
        · have index := congrArg Fin.val same
          simp only [← index] at clear
          simpa [same] using clear
        · simp [same]
      rw [group]
    · rfl
  rw [removed, Kernel.setStat, Kernel.upd]
  have same : { k.thread t with stat := .running } = k.thread t := by rw [← runs]
  rw [same, Function.update_eq_self]

omit [DecidableEq κ] in
/-- Clearing the flag leaves everything else alone. -/
theorem rescheduled_clearYield (k : Kernel τ κ) : Rescheduled k k.clearYield := by
  rw [Kernel.clearYield]
  split
  · refine ⟨fun u => ?_, fun _ => rfl, rfl, rfl, rfl⟩
    by_cases same : u = k.current
    · rw [same, thread_upd_self]
      exact ⟨.inl rfl, rfl⟩
    · rw [thread_upd_of_ne k same]
      exact .refl _
  · exact ⟨fun _ => .refl _, fun _ => rfl, rfl, rfl, rfl⟩

/-- Clearing the flag is at most one move. -/
theorem moves_clearYield (k : Kernel τ κ) : Moves idle N k k.clearYield := by
  rw [Kernel.clearYield]
  split
  · exact .single (.tweak rfl rfl rfl rfl rfl)
  · exact .refl

omit [DecidableEq κ] in
/-- The status of every thread stays. -/
@[simp] theorem stat_clearYield (k : Kernel τ κ) (u : τ) :
    (k.clearYield.thread u).stat = (k.thread u).stat := by
  rw [Kernel.clearYield]
  split
  · by_cases same : u = k.current
    · rw [same, thread_upd_self]
    · rw [thread_upd_of_ne k same]
  · rfl

omit [DecidableEq κ] in
/-- The choice stays. -/
@[simp] theorem current_clearYield (k : Kernel τ κ) : k.clearYield.current = k.current := by
  rw [Kernel.clearYield]
  split <;> rfl

omit [DecidableEq κ] in
/-- The most urgent thread stays the same. -/
@[simp] theorem getHighest_clearYield (k : Kernel τ κ) :
    k.clearYield.getHighestPriorityThread = k.getHighestPriorityThread := by
  rw [Kernel.clearYield]
  split <;> rfl

/-- After a switch to the most urgent ready thread nothing more urgent is ready. -/
theorem Placed.settled_switchTo (placed : Placed idle k) {highest : Fin 32}
    (ready : (k.thread t).stat = .ready) (priority : (k.thread t).currentPriority = highest)
    (least : ∀ u, (k.thread u).stat = .ready → highest ≤ (k.thread u).currentPriority)
    (gives_way : (k.thread k.current).stat = .running →
      highest ≤ (k.thread k.current).currentPriority) :
    Settled (k.switchTo t highest) := by
  have away : k.current ≠ t := fun same => placed.current.1 (same ▸ ready)
  have here : (k.switchTo t highest).thread t = { k.thread t with stat := .running } := by
    rw [thread_switchTo away, if_pos rfl]
  -- A switch changes no priority, so the old ones can be compared.
  refine ⟨by rw [current_switchTo, here], fun u stat => ?_⟩
  rw [current_switchTo, here, ((placed.rescheduled_switchTo ready highest).alike u).currentPriority]
  show (k.thread t).currentPriority ≤ _
  rw [priority]
  -- Another ready thread was ready before, or is the one that gave way.
  rw [thread_switchTo away] at stat
  split at stat
  · cases stat
  · split at stat
    · rename_i source
      rw [source.1]
      exact gives_way source.2
    · exact least u stat

/-- What `rt_schedule` did: it returned, it left everything else alone, and it chose well. -/
structure Scheduling (idle : τ) (N : Touched τ κ) (k next : Kernel τ κ) : Prop extends
    Returned idle N k next, Rescheduled k next where
  settled : k.lockNest = 0 → Settled next

/-- The running thread goes on when no ready thread is to take its place. -/
theorem scheduling_stay {highest : Fin 32}
    (least : ∀ u, (k.thread u).stat = .ready → highest ≤ (k.thread u).currentPriority)
    (stay : (k.thread k.current).Stays highest) : Scheduling idle N k k.clearYield := by
  have clear := rescheduled_clearYield k
  refine { clear with
    moves := moves_clearYield k, timed := .of_eq clear.timers clear.seen
    settled := fun _ => ⟨by simpa using stay.1, fun u stat => ?_⟩ }
  rw [current_clearYield, (clear.alike _).currentPriority, (clear.alike u).currentPriority]
  have bound := least u (by simpa using stat)
  -- It stays because it is more urgent, or as urgent and does not yield.
  rcases stay.2 with less | ⟨equal, -⟩
  · exact less.le.trans bound
  · exact equal.le.trans bound

/-- Otherwise the most urgent ready thread runs. -/
theorem Good.scheduling_switch (good : Good idle k) {first : τ} {highest : Fin 32}
    (found : k.getHighestPriorityThread = some (first, highest))
    (least : ∀ u, (k.thread u).stat = .ready → highest ≤ (k.thread u).currentPriority)
    (leaves : ¬ (k.thread k.current).Stays highest) :
    Scheduling idle N k (k.clearYield.switchTo first highest) := by
  obtain ⟨ready, priority, -⟩ := good.filed.of_getHighestPriorityThread found
  have clear := rescheduled_clearYield k
  have again := (good.moves (moves_clearYield (N := N) k)).toPlaced
  have whole := clear.trans (again.rescheduled_switchTo (by simpa using ready) highest)
  refine { whole with
    moves := (moves_clearYield k).tail (.switch (by rw [getHighest_clearYield, found]))
    timed := .of_eq whole.timers whole.seen
    settled := fun _ =>
      again.settled_switchTo (by simpa using ready) ?_ (fun u stat => ?_) fun runs => ?_ }
  · rw [(clear.alike first).currentPriority, priority]
  · rw [(clear.alike u).currentPriority]
    exact least u (by simpa using stat)
  · -- A running thread that is more urgent would have stayed.
    rw [current_clearYield, stat_clearYield] at runs
    rw [current_clearYield, (clear.alike _).currentPriority]
    by_contra urgent
    exact leaves ⟨runs, .inl (not_le.mp urgent)⟩

omit [DecidableEq τ] [DecidableEq κ] in
/-- With an empty bitmap the idle thread runs. -/
theorem Good.settled_of_group (good : Good idle k) (empty : k.group = 0) : Settled k := by
  -- A ready thread is in the list of its priority, and that list sets its bit.
  have none_ready : ∀ u, (k.thread u).stat ≠ .ready := by
    intro u ready
    have listed := (good.filed.ready u _).mpr ⟨Set.notMem_empty _, ready, rfl⟩
    have set := (good.filed.group _).mpr (List.ne_nil_of_mem listed)
    simp [empty] at set
  have runs := good.idle.resolve_left (none_ready idle)
  exact ⟨good.running idle runs ▸ runs, fun u ready => absurd ready (none_ready u)⟩

/--
`rt_schedule` always finds a thread to run.

If the scheduler is not locked, a thread runs afterwards that no ready thread is more urgent than.
-/
theorem Good.rtSchedule (good : Good idle k) :
    ∃ next, k.rtSchedule = some next ∧ Scheduling idle N k next := by
  rw [Kernel.rtSchedule]
  split
  · rename_i enabled
    -- The bitmap is not empty, so there is a most urgent ready thread.
    obtain ⟨first, highest, found, ready, -, -, least⟩ :=
      good.filed.getHighestPriorityThread enabled.2
    have away : first ≠ k.current := fun same => good.current.1 (same ▸ ready)
    rw [found]
    simp only [Option.bind_eq_bind, Option.bind_some, current_clearYield]
    by_cases stay : (k.thread k.current).Stays highest
    · -- Taking the running thread out of the lists again changes nothing.
      have again := good.moves (moves_clearYield (N := N) k)
      have kept := again.filed.remove_running (t := k.current) (by simpa using stay.1)
      rw [if_pos stay, if_neg (not_not.mpr rfl), kept]
      exact ⟨_, rfl, scheduling_stay least stay⟩
    · rw [if_neg stay, if_pos away]
      exact ⟨_, rfl, good.scheduling_switch found least stay⟩
  · rename_i disabled
    -- Without a ready thread, or with the scheduler locked, nothing happens.
    refine ⟨k, rfl, ⟨.refl, .of_eq rfl rfl⟩, ⟨fun _ => .refl _, fun _ => rfl, rfl, rfl, rfl⟩,
      fun unlocked => ?_⟩
    refine good.settled_of_group ?_
    by_contra some_ready
    exact disabled ⟨unlocked, some_ready⟩

/-! ## Timers of threads -/

/-- The timer of a thread is stopped. -/
theorem Good.timerStop (good : Good idle k) (t : τ) : Returned idle N k (k.timerStop t) where
  moves := .single (.timers [.stopped t] fun u active =>
    good.asleep u (Timers.activated_rtTimerStop active).2)
  timed := .of_step (e := .call (.stop t)) (by simp [Timers.Plain]) rfl rfl

/-- The timer of a thread is detached. -/
theorem Good.timerDetach (good : Good idle k) (t : τ) : Returned idle N k (k.timerDetach t) where
  moves := .single (.timers [.stopped t] fun u active => good.asleep u (by
    by_cases same : u = t
    · simp [Timers.rtTimerDetach, Timers.remove, Timers.put, same] at active
    · simpa [Timers.rtTimerDetach, Timers.remove, Timers.put, same] using active))
  timed := .of_step (e := .call (.detach t)) (by simp [Timers.Plain]) rfl rfl

/-- The timer of a suspended thread is started. -/
theorem Good.timerStart (good : Good idle k) (suspended : (k.thread t).stat = .suspend)
    {ticks : BitVec 32} (small : ticks < Wrapping.half) :
    ∃ next, k.timerStart t ticks = some next ∧ Returned idle N k next := by
  have initTick : ((k.timers.setTime t ticks).timer t).initTick = ticks := by
    simp [Timers.setTime, Timers.put]
  have started := Timers.rtTimerStart_eq (s := k.timers.setTime t ticks) (t := t)
    (by rw [initTick]; exact small)
  rw [Kernel.timerStart, started]
  refine ⟨_, rfl, .single (.timers [.started t ticks.toNat] fun u active => ?_), ?_⟩
  · -- The only timer that is new in the list is the one of the suspended thread.
    rcases Timers.activated_enlist active with rfl | running
    · exact suspended
    · refine good.asleep u ?_
      by_cases same : u = t <;> simpa [Timers.setTime, Timers.put, same] using running
  · -- The time is set without an observation, and then the timer is started.
    have set : TimerSteps k { k with timers := k.timers.setTime t ticks } :=
      .of_step (e := .call (.setTime t ticks)) (by simp [Timers.Plain]) rfl (by simp)
    have begun : (k.timers.setTime t ticks).step (.call (.start t)) =
        some (((k.timers.setTime t ticks).remove t).enlist t, [.started t ticks.toNat]) := by
      simp only [Timers.step, Timers.call, started, initTick]
      rfl
    exact set.trans (.of_step (e := .call (.start t)) (by simp [Timers.Plain]) begun rfl)

/-! ## Suspending and resuming -/

/-- A thread is halted, and its timer is stopped. -/
theorem Good.halt (good : Good idle k) (busy : t ≠ idle) (touched : N.stop t)
    (runnable : (k.thread t).Runnable) {f : RtThread → RtThread}
    (stat : (f (k.thread t)).stat = .suspend ∨ (f (k.thread t)).stat = .close)
    (priority : (f (k.thread t)).currentPriority = (k.thread t).currentPriority)
    (mask : (f (k.thread t)).numberMask = (k.thread t).numberMask)
    (base : (f (k.thread t)).initPriority = (k.thread t).initPriority) :
    Returned idle N k (((k.rtScheduleRemoveThread t).upd t f).timerStop t) := by
  have move : Move idle N k ((k.rtScheduleRemoveThread t).upd t f) :=
    .halt busy touched runnable stat priority mask base
  exact (Returned.single move (by simp [Kernel.upd]) (by simp [Kernel.upd])).trans
    ((good.move move).timerStop t)

omit [DecidableEq κ] in
/-- A thread that can run is suspended: it is taken out of its list, and its timer is stopped. -/
theorem Placed.rtThreadSuspend_eq (placed : Placed idle k) (runnable : (k.thread t).Runnable) :
    k.rtThreadSuspend t = some (((k.rtScheduleRemoveThread t).setStat t .suspend).timerStop t) := by
  -- A running thread is the current one, and that is all that is asserted.
  rw [rtThreadSuspend, if_neg, if_neg]
  · intro both
    exact both.2 (placed.running t both.1)
  · intro both
    exact runnable.elim both.1 both.2

/-- `rt_thread_suspend` returns. -/
theorem Good.rtThreadSuspend (good : Good idle k) (busy : t ≠ idle) (touched : N.stop t) :
    ∃ next, k.rtThreadSuspend t = some next ∧ Returned idle N k next := by
  by_cases runnable : (k.thread t).Runnable
  · exact ⟨_, good.rtThreadSuspend_eq runnable,
      good.halt busy touched runnable (.inl rfl) rfl rfl rfl⟩
  · -- Any other thread is left as it is.
    refine ⟨k, ?_, .refl, .of_eq rfl rfl⟩
    rw [Kernel.rtThreadSuspend, if_pos]
    exact ⟨fun ready => runnable (.inl ready), fun runs => runnable (.inr runs)⟩

/-- `rt_thread_resume` returns. -/
theorem Good.rtThreadResume (good : Good idle k) (touched : N.wake t) :
    Returned idle N k (k.rtThreadResume t) := by
  rw [Kernel.rtThreadResume]
  split
  · exact ⟨.refl, .of_eq rfl rfl⟩
  · -- The timer is stopped before the thread can run again.
    rename_i suspended
    refine (good.timerStop t).trans (.single (.arise (not_not.mp suspended) ?_ touched) ?_ ?_)
    · by_contra active
      have running : ((k.timers.rtTimerStop t).timer t).activated = true := by
        simpa [Kernel.timerStop] using active
      exact (Timers.activated_rtTimerStop running).1 rfl
    · simp [Kernel.unlink, Kernel.timerStop]
    · simp [Kernel.unlink, Kernel.timerStop]

/-- A call that ends with `rt_schedule`. -/
theorem Returned.rtSchedule (good : Good idle k) (returned : Returned idle N k next) :
    ∃ last, next.rtSchedule = some last ∧ Returned idle N k last := by
  obtain ⟨last, done, scheduling⟩ := (good.moves returned.moves).rtSchedule (N := N)
  exact ⟨last, done, returned.trans scheduling.toReturned⟩

omit [DecidableEq κ] in
/-- A thread that was halted is suspended, and in no list. -/
theorem Placed.halted (placed : Placed idle k) (t : τ) :
    ((((k.rtScheduleRemoveThread t).setStat t .suspend).timerStop t).thread t).stat = .suspend ∧
      ∀ head, t ∉ (((k.rtScheduleRemoveThread t).setStat t .suspend).timerStop t).lists head := by
  refine ⟨by simp [Kernel.timerStop, Kernel.setStat], fun head => ?_⟩
  simp only [Kernel.timerStop, Kernel.setStat, Kernel.upd, lists_remove]
  -- It was in each list at most once.
  exact (placed.filed.nodup head).not_mem_erase

/-- `rt_ipc_list_suspend` of the running thread. -/
theorem Good.rtIpcListSuspend (good : Good idle k) (runs : (k.thread k.current).stat = .running)
    (busy : k.current ≠ idle) (touched : N.stop k.current) (object : κ) (joins : N.join object)
    (flag : IpcFlag) : ∃ next, k.rtIpcListSuspend object k.current flag = some next ∧
      Returned idle N k next ∧
      (next.thread k.current).stat = .suspend := by
  -- First the thread is given no error, then it is suspended, then it joins the list.
  have clear : Move idle N k (k.upd k.current fun thread => { thread with error := .eok }) :=
    .errno .eok (.inl touched)
  have good' := good.move clear
  have runnable : ((k.upd k.current fun thread => { thread with error := .eok }).thread
      k.current).Runnable := by
    simp [RtThread.Runnable, runs]
  have halted := good'.halt (N := N) (t := k.current)
    (f := fun thread => { thread with stat := .suspend })
    busy touched runnable (.inl rfl) rfl rfl rfl
  obtain ⟨suspended, absent⟩ := good'.toPlaced.halted k.current
  rw [Kernel.rtIpcListSuspend, good'.rtThreadSuspend_eq runnable]
  simp only [Option.bind_eq_bind, Option.bind_some]
  refine ⟨_, rfl, ((Returned.single clear rfl rfl).trans halted).trans
    (.single (.enqueue suspended absent ?_ touched joins) rfl rfl), suspended⟩
  exact flag.perm_joined _ _ _

end Kernel
end MultifunctionClock
