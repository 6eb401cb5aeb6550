import Mathlib.Logic.Relation
import MultifunctionClock.Kernel.Filing

/-!
What the calls of the kernel can do to the threads, as a relation of small moves.

Every call is a sequence of moves. What a move keeps, all calls keep.
-/

namespace MultifunctionClock
namespace Kernel

variable {τ κ : Type} [DecidableEq τ] [DecidableEq κ]

/--
One move of the kernel.

The idle thread is never halted. Other threads are only touched where the call may do so, but any
thread can be woken because its time is up.
-/
inductive Move (idle : τ) (N : Touched τ κ) : Kernel τ κ → Kernel τ κ → Prop
  /-- Fields of a thread change that do not concern the lists. -/
  | tweak {k t change} (stat : (change (k.thread t)).stat = (k.thread t).stat)
      (priority : (change (k.thread t)).currentPriority = (k.thread t).currentPriority)
      (mask : (change (k.thread t)).numberMask = (k.thread t).numberMask)
      (error : (change (k.thread t)).error = (k.thread t).error)
      (base : (change (k.thread t)).initPriority = (k.thread t).initPriority) :
        Move idle N k (k.upd t change)
  /-- A thread gets another error. -/
  | errno {k t} (code : ThreadError) (touched : N.stop t ∨ N.wake t) :
      Move idle N k (k.upd t fun thread => { thread with error := code })
  /-- The scheduler is locked or unlocked. -/
  | lock (k nest) : Move idle N k { k with lockNest := nest }
  /-- The timers change. Only threads that are suspended have a timer that runs. -/
  | timers {k timers} (new : List (TimerObs τ))
      (asleep : ∀ t, (timers.timer t).activated = true → (k.thread t).stat = .suspend) :
      Move idle N k { k with timers := timers, seen := k.seen ++ new.map .timer }
  /-- A thread that could run is halted. -/
  | halt {k t change} (busy : t ≠ idle) (touched : N.stop t) (runnable : (k.thread t).Runnable)
      (stat : (change (k.thread t)).stat = .suspend ∨ (change (k.thread t)).stat = .close)
      (priority : (change (k.thread t)).currentPriority = (k.thread t).currentPriority)
      (mask : (change (k.thread t)).numberMask = (k.thread t).numberMask)
      (base : (change (k.thread t)).initPriority = (k.thread t).initPriority) :
      Move idle N k ((k.rtScheduleRemoveThread t).upd t change)
  /-- A suspended thread can run again. -/
  | arise {k t} (suspended : (k.thread t).stat = .suspend)
      (stopped : (k.timers.timer t).activated = false)
      (touched : N.wake t) : Move idle N k ((k.unlink t).rtScheduleInsertThread t)
  /-- A suspended thread can run again because its time is up. -/
  | timeout {k t} (suspended : (k.thread t).stat = .suspend)
      (stopped : (k.timers.timer t).activated = false) :
      Move idle N k
        (((k.upd t fun thread => { thread with error := .etimeout }).unlink
          t).rtScheduleInsertThread t)
  /-- A suspended thread waits for an object. -/
  | enqueue {k t object longer} (suspended : (k.thread t).stat = .suspend)
      (absent : ∀ head, t ∉ k.lists head)
      (perm : longer.Perm (t :: k.lists (.waiting object))) (caller : N.stop t)
        (touched : N.join object) :
      Move idle N k (k.setList (.waiting object) longer)
  /-- A new thread gets its priority. -/
  | start {k t change} (fresh : (k.thread t).stat = .init)
      (suspended : (change (k.thread t)).stat = .suspend)
      (mask : (change (k.thread t)).numberMask =
        BitVec.twoPow 32 (change (k.thread t)).currentPriority)
      (base : (change (k.thread t)).initPriority = (k.thread t).initPriority)
      (own : (change (k.thread t)).currentPriority = (k.thread t).initPriority) :
        Move idle N k (k.upd t change)
  /-- A thread gets another priority. -/
  | priority {k t} (touched : N.tune t) (priority : Fin 32) :
      Move idle N k (k.changePriority t priority)
  /-- The processor is switched to the most urgent thread. -/
  | switch {k first highest} (found : k.getHighestPriorityThread = some (first, highest)) :
      Move idle N k (k.switchTo first highest)

/--
What holds between two moves: the lists are right,
and the timers that run belong to suspended threads.
-/
structure Good (idle : τ) (k : Kernel τ κ) : Prop extends Placed idle k where
  asleep : ∀ t, (k.timers.timer t).activated = true → (k.thread t).stat = .suspend

variable {idle : τ} {N : Touched τ κ} {k next : Kernel τ κ} {t : τ}

omit [DecidableEq τ] [DecidableEq κ] in
/-- What `_get_highest_priority_thread` returns is ready, at the head of its list. -/
theorem Filed.of_getHighestPriorityThread (filed : Filed k ∅) {first : τ} {highest : Fin 32}
    (found : k.getHighestPriorityThread = some (first, highest)) :
    (k.thread first).stat = .ready ∧ (k.thread first).currentPriority = highest ∧
      ∃ rest, k.lists (.ready highest) = first :: rest := by
  -- The bitmap gave the priority, and the list of that priority the thread.
  obtain ⟨level, -, found⟩ := Option.bind_eq_some_iff.mp found
  obtain ⟨head, front, same⟩ := Option.bind_eq_some_iff.mp found
  obtain ⟨rfl, rfl⟩ := Prod.mk.inj (Option.some.inj same)
  obtain ⟨rest, list⟩ := List.head?_eq_some_iff.mp front
  obtain ⟨-, ready, priority⟩ := (filed.ready head level).mp (by simp [list])
  exact ⟨ready, priority, rest, list⟩

omit [DecidableEq τ] [DecidableEq κ] in
/-- When one thread changes, only its own status has to be looked at. -/
theorem Placed.change (placed : Placed idle k) (filed : Filed next ∅)
    (current : next.current = k.current)
    (others : ∀ u, u ≠ t → (next.thread u).stat = (k.thread u).stat)
    (runs : (next.thread t).stat = .running → t = k.current)
    (here : t = k.current → (next.thread t).stat ≠ .ready ∧ (next.thread t).stat ≠ .init)
    (stays : t = idle → (next.thread t).Runnable) : Placed idle next := by
  -- Each of the three is asked of the thread itself, or of another one that is as it was.
  refine ⟨filed, fun u running => ?_, ?_, ?_⟩
  · rw [current]
    by_cases same : u = t
    · rw [same] at running ⊢
      exact runs running
    · rw [others u same] at running
      exact placed.running u running
  · rw [current]
    by_cases same : k.current = t
    · rw [same]
      exact here same.symm
    · rw [others _ same]
      exact placed.current
  · by_cases same : idle = t
    · rw [same]
      exact stays same.symm
    · rw [RtThread.Runnable, others _ same]
      exact placed.idle

omit [DecidableEq κ] in
/-- A change of fields that keeps the status does not touch the choice. -/
theorem Placed.upd (placed : Placed idle k) {f : RtThread → RtThread}
    (filed : Filed (k.upd t f) ∅) (stat : (f (k.thread t)).stat = (k.thread t).stat) :
    Placed idle (k.upd t f) := by
  refine placed.change (t := t) filed rfl
    (fun u away => by rw [thread_upd_of_ne k away]) ?_ ?_ ?_ <;>
    rw [thread_upd_self]
  · rw [stat]
    exact placed.running t
  · rw [stat]
    intro here
    rw [here]
    exact placed.current
  · intro same
    rw [RtThread.Runnable, stat, same]
    exact placed.idle

/-- A new priority keeps the lists right. -/
theorem Placed.changePriority (placed : Placed idle k) (t : τ) (priority : Fin 32) :
    Placed idle (k.changePriority t priority) := by
  rw [Kernel.changePriority]
  split
  · -- A ready thread is moved to the list of its new priority.
    rename_i ready
    have away : t ≠ k.current := fun same => placed.current.1 (same ▸ ready)
    have gone := placed.filed.remove (t := t) (by simp [ready])
    have filed := (gone.upd_away (f := fun thread =>
      { thread with currentPriority := priority, numberMask := BitVec.twoPow 32 priority })
      fun _ => rfl).insert (by simp [ready])
    refine placed.change (t := t) filed (by simp [Kernel.upd]) (fun u other => ?_) ?_ ?_
      fun _ => .inl ?_
    · rw [thread_insert, Function.update_of_ne other, thread_upd_of_ne _ other, thread_remove]
    · simp [Kernel.upd, away]
    · exact fun here => absurd here away
    · simp [Kernel.upd, away]
  · rename_i stat
    -- In no ready list, the thread stays where it is.
    exact placed.upd (placed.filed.upd rfl (fun ready => absurd ready stat) fun _ => rfl) rfl

omit [DecidableEq κ] in
/-- A change of fields that the lists do not depend on. -/
theorem Placed.tweak (placed : Placed idle k) {f : RtThread → RtThread}
    (stat : (f (k.thread t)).stat = (k.thread t).stat)
    (priority : (f (k.thread t)).currentPriority = (k.thread t).currentPriority)
    (mask : (f (k.thread t)).numberMask = (k.thread t).numberMask) : Placed idle (k.upd t f) := by
  refine placed.upd (placed.filed.upd stat (fun _ => priority) fun started => ?_) stat
  rw [mask, priority]
  exact placed.filed.mask t started

/-- A suspended thread that can run again. -/
theorem Placed.arise (placed : Placed idle k) (suspended : (k.thread t).stat = .suspend) :
    Placed idle ((k.unlink t).rtScheduleInsertThread t) := by
  have filed := (placed.filed.unlink (t := t) (by simp [suspended])).insert (by
    show (k.thread t).stat ≠ .init
    simp [suspended])
  -- A thread that is woken before it was switched away from runs on.
  have now : (((k.unlink t).rtScheduleInsertThread t).thread t).stat =
      if t = k.current then .running else .ready := by simp [Kernel.unlink]
  refine placed.change (t := t) filed (by simp [Kernel.unlink]) (fun u other => ?_) ?_ ?_
    fun _ => ?_
  · rw [thread_insert, Function.update_of_ne other]
    rfl
  · rw [now]
    split <;> simp [*]
  · intro here
    rw [now, if_pos here]
    simp
  · rw [RtThread.Runnable, now]
    split <;> simp

omit [DecidableEq κ] in
/-- A thread other than the idle one can be halted. -/
theorem Placed.halt (placed : Placed idle k) {change : RtThread → RtThread} (busy : t ≠ idle)
    (runnable : (k.thread t).Runnable)
    (stat : (change (k.thread t)).stat = .suspend ∨ (change (k.thread t)).stat = .close)
    (priority : (change (k.thread t)).currentPriority = (k.thread t).currentPriority)
    (mask : (change (k.thread t)).numberMask = (k.thread t).numberMask) :
    Placed idle ((k.rtScheduleRemoveThread t).upd t change) := by
  have started : (k.thread t).stat ≠ .init := by
    rcases runnable with ready | runs <;> simp [*]
  -- The thread is out of its list before it changes, and needs none afterwards.
  have filed := (placed.filed.remove started).upd_away (f := change) fun _ => by
    rw [thread_remove, mask, priority]
    exact placed.filed.mask t started
  have now : ((k.rtScheduleRemoveThread t).upd t change).thread t = change (k.thread t) := by simp
  refine placed.change (t := t) (filed.home ?_) (by simp [Kernel.upd]) (fun u other => ?_) ?_ ?_
    fun same => absurd same busy
  · rw [now]
    rcases stat with stat | stat <;> simp [stat]
  · rw [thread_upd_of_ne _ other, thread_remove]
  · rw [now]
    rcases stat with stat | stat <;> simp [stat]
  · rw [now]
    rcases stat with stat | stat <;> simp [stat]

omit [DecidableEq κ] in
/-- A new thread can be given its priority. -/
theorem Placed.start (placed : Placed idle k) {change : RtThread → RtThread}
    (fresh : (k.thread t).stat = .init) (suspended : (change (k.thread t)).stat = .suspend)
    (mask : (change (k.thread t)).numberMask =
      BitVec.twoPow 32 (change (k.thread t)).currentPriority) :
    Placed idle (k.upd t change) := by
  have away : t ≠ k.current := fun same => placed.current.2 (same ▸ fresh)
  -- A thread that was never started is in no list.
  have absent : ∀ head, t ∉ k.lists head := by
    intro head listed
    cases head with
    | ready level => exact placed.filed.not_ready (by simp [fresh]) level listed
    | waiting object =>
      have stat := (placed.filed.waiting t object listed).2
      simp [fresh] at stat
  have filed := (placed.filed.leave absent).upd_away (f := change) fun _ => mask
  refine placed.change (t := t) (filed.home ?_) rfl
    (fun u other => by rw [thread_upd_of_ne _ other]) ?_ (fun here => absurd here away)
    fun same => ?_
  · simp [suspended]
  · simp [suspended]
  · -- The idle thread can run, so it is not the new one.
    have runs := placed.idle
    rw [← same, RtThread.Runnable, fresh] at runs
    simp at runs

/-- Every move keeps the lists right. -/
theorem Placed.move (placed : Placed idle k) (move : Move idle N k next) : Placed idle next := by
  cases move with
  | tweak stat priority mask error base => exact placed.tweak stat priority mask
  | errno code touched => exact placed.tweak rfl rfl rfl
  | lock nest =>
    exact ⟨placed.filed.frame rfl rfl rfl, placed.running, placed.current, placed.idle⟩
  | timers new asleep =>
    exact ⟨placed.filed.frame rfl rfl rfl, placed.running, placed.current, placed.idle⟩
  | halt busy touched runnable stat priority mask base =>
    exact placed.halt busy runnable stat priority mask
  | arise suspended stopped touched => exact placed.arise suspended
  | timeout suspended stopped =>
    exact (placed.tweak rfl rfl rfl).arise (by simpa using suspended)
  | enqueue suspended absent perm caller touched =>
    exact ⟨(placed.filed.leave absent).enqueue suspended perm, placed.running, placed.current,
      placed.idle⟩
  | start fresh suspended mask base own => exact placed.start fresh suspended mask
  | priority touched priority => exact placed.changePriority _ priority
  | switch found => exact placed.switchTo (placed.filed.of_getHighestPriorityThread found).1 _

omit [DecidableEq τ] [DecidableEq κ] in
/-- When the timers stay, only threads that leave the status of a sleeper have to be looked at. -/
theorem Good.of_suspended (good : Good idle k) (placed : Placed idle next)
    (timers : next.timers = k.timers)
    (stays : ∀ u, (k.timers.timer u).activated = true → (k.thread u).stat = .suspend →
      (next.thread u).stat = .suspend) : Good idle next where
  toPlaced := placed
  asleep u active := by
    rw [timers] at active
    exact stays u active (good.asleep u active)

omit [DecidableEq κ] in
/-- A change of fields keeps the status of all threads. -/
theorem stat_upd {f : RtThread → RtThread}
    (stat : (f (k.thread t)).stat = (k.thread t).stat) (u : τ) :
    ((k.upd t f).thread u).stat = (k.thread u).stat := by
  by_cases same : u = t
  · rw [same, thread_upd_self, stat]
  · rw [thread_upd_of_ne k same]

/-- A thread that can run again has no timer that runs. -/
theorem Good.arise (good : Good idle k) (suspended : (k.thread t).stat = .suspend)
    (stopped : (k.timers.timer t).activated = false) :
    Good idle ((k.unlink t).rtScheduleInsertThread t) := by
  -- A thread whose timer runs is another one.
  refine good.of_suspended (good.toPlaced.arise suspended) (by simp [Kernel.unlink]) fun u
    active sleeps => ?_
  have other : u ≠ t := by
    intro same
    rw [same, stopped] at active
    cases active
  rw [thread_insert, Function.update_of_ne other]
  exact sleeps

omit [DecidableEq κ] in
/-- A change of fields keeps who sleeps. -/
theorem Good.tweak (good : Good idle k) {f : RtThread → RtThread}
    (stat : (f (k.thread t)).stat = (k.thread t).stat)
    (priority : (f (k.thread t)).currentPriority = (k.thread t).currentPriority)
    (mask : (f (k.thread t)).numberMask = (k.thread t).numberMask) : Good idle (k.upd t f) := by
  refine good.of_suspended (good.toPlaced.tweak stat priority mask) rfl fun u _ suspended => ?_
  rw [stat_upd stat]
  exact suspended

/-- A change of priority wakes nobody. -/
theorem Good.changePriority (good : Good idle k) (t : τ) (priority : Fin 32) :
    Good idle (k.changePriority t priority) := by
  refine good.of_suspended (good.toPlaced.changePriority t priority) ?_ fun u _ suspended => ?_
  · rw [Kernel.changePriority]
    split <;> simp [Kernel.upd]
  · rw [Kernel.changePriority]
    split
    · -- Only a ready thread is moved to another list.
      rename_i ready
      have other : u ≠ t := by
        intro same
        rw [same, ready] at suspended
        cases suspended
      rw [thread_insert, Function.update_of_ne other, thread_upd_of_ne _ other, thread_remove]
      exact suspended
    · rw [stat_upd rfl]
      exact suspended

/-- Every move keeps what holds between moves. -/
theorem Good.move (good : Good idle k) (move : Move idle N k next) : Good idle next := by
  have placed := good.toPlaced.move move
  cases move with
  | tweak stat priority mask error base => exact good.tweak stat priority mask
  | errno code touched => exact good.tweak rfl rfl rfl
  | lock nest => exact good.of_suspended placed rfl fun _ _ suspended => suspended
  | timers new asleep => exact ⟨placed, asleep⟩
  | @halt t change busy touched runnable stat priority mask base =>
    refine good.of_suspended placed (by simp [Kernel.upd]) fun u _ suspended => ?_
    -- Who is halted was not asleep.
    have other : u ≠ t := by
      intro same
      rw [same] at suspended
      rcases runnable with ready | runs <;> simp [suspended] at *
    rw [thread_upd_of_ne _ other, thread_remove]
    exact suspended
  | arise suspended stopped touched => exact good.arise suspended stopped
  | timeout suspended stopped =>
    exact (good.tweak rfl rfl rfl).arise (by simpa using suspended) stopped
  | enqueue => exact good.of_suspended placed rfl fun _ _ suspended => suspended
  | @start t change fresh suspended mask base own =>
    -- A new thread was not suspended, so it has no timer that runs.
    refine good.of_suspended placed rfl fun u _ suspended => ?_
    have other : u ≠ t := by
      intro same
      rw [same, fresh] at suspended
      cases suspended
    rw [thread_upd_of_ne k other]
    exact suspended
  | priority touched priority => exact good.changePriority _ priority
  | @switch first highest found =>
    obtain ⟨ready, -⟩ := good.filed.of_getHighestPriorityThread found
    have rescheduled := good.toPlaced.rescheduled_switchTo ready highest
    refine good.of_suspended placed rescheduled.timers fun u _ suspended => ?_
    -- Scheduling only changes threads that could run.
    rw [(rescheduled.alike u).stat_eq (by simp [RtThread.Runnable, suspended])]
    exact suspended

/-- A sequence of moves. -/
abbrev Moves (idle : τ) (N : Touched τ κ) : Kernel τ κ → Kernel τ κ → Prop :=
  Relation.ReflTransGen (Move idle N)

/-- Sequences of moves keep what holds between moves. -/
theorem Good.moves (good : Good idle k) (moves : Moves idle N k next) : Good idle next := by
  -- Move by move.
  induction moves with
  | refl => exact good
  | tail _ move ih => exact ih.move move

end Kernel
end MultifunctionClock
