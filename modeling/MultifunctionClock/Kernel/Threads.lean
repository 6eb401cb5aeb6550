import MultifunctionClock.Kernel.Timer
import MultifunctionClock.Lib.Bitmap

/-!
The threads of the kernel: their lists, the bitmap of the ready priorities, and `rt_schedule`.

A call is modelled up to the point where it lets interrupts in again,
or as a whole when it never does.
-/

namespace MultifunctionClock

/-- The field `stat` of `struct rt_thread` under its mask. -/
inductive RtStat where
  | init
  | ready
  | suspend
  | running
  | close
deriving DecidableEq

/-- The values that the kernel gives the field `error` of `struct rt_thread`. -/
inductive ThreadError where
  | eok
  | etimeout
  | error
deriving DecidableEq

/-- `struct rt_thread`, with the fields that scheduling uses. -/
structure RtThread where
  stat : RtStat
  /-- The flag `RT_THREAD_STAT_YIELD` of `stat`. -/
  yield : Bool
  initPriority : Fin 32
  currentPriority : Fin 32
  numberMask : BitVec 32
  initTick : BitVec 32
  remainingTick : BitVec 32
  error : ThreadError
deriving DecidableEq

namespace RtThread

/-- The thread runs, or may be picked to run. -/
def Runnable (thread : RtThread) : Prop := thread.stat = .ready ∨ thread.stat = .running

instance (thread : RtThread) : Decidable thread.Runnable := inferInstanceAs (Decidable (_ ∨ _))

/--
The test of `rt_schedule` whether a thread goes on, against the highest priority that is ready.
-/
def Stays (thread : RtThread) (highest : Fin 32) : Prop :=
  thread.stat = .running ∧
    (thread.currentPriority < highest ∨ thread.currentPriority = highest ∧ thread.yield = false)

instance (thread : RtThread) (highest : Fin 32) : Decidable (thread.Stays highest) :=
  inferInstanceAs (Decidable (_ ∧ (_ ∨ _)))

/-- `_rt_thread_init`. -/
def init (priority : Fin 32) (tick : BitVec 32) : RtThread :=
  ⟨.init, false, priority, priority, 0, tick, tick, .eok⟩

end RtThread

/-- The lists that link threads through the field `tlist`. -/
inductive ListHead (κ : Type) where
  /-- `rt_thread_priority_table` at a priority. -/
  | ready (priority : Fin 32)
  /-- `suspend_thread` of an object that threads wait for. -/
  | waiting (object : κ)
deriving DecidableEq

/-- The order in which threads wait: `RT_IPC_FLAG_FIFO` and `RT_IPC_FLAG_PRIO`. -/
inductive IpcFlag where
  | fifo
  | prio
deriving DecidableEq

/--
The list of an object with one thread more.
By priority, it goes in front of the first larger number.
-/
def IpcFlag.joined {τ : Type} (flag : IpcFlag) (priority : τ → Fin 32) (t : τ)
    (list : List τ) : List τ :=
  match flag with
  | .fifo => list ++ [t]
  | .prio => list.orderedInsert (fun one other => priority one < priority other) t

/-- What can be observed of the kernel. -/
inductive KernelObs (τ : Type) where
  | timer (event : TimerObs τ)
  /-- The processor was switched to a thread, and `rt_current_priority` was set. -/
  | switched (thread : τ) (priority : Fin 32)
deriving DecidableEq

/-- What concerns the timers. -/
def KernelObs.timer? {τ : Type} : KernelObs τ → Option (TimerObs τ)
  | .timer event => some event
  | .switched .. => none

/-- The timer that was seen to fire. -/
def TimerObs.fired? {θ : Type} : TimerObs θ → Option θ
  | .fired t => some t
  | _ => none

/-- The kernel on one processor. Each thread has its timer. -/
structure Kernel (τ κ : Type) where
  /-- `rt_current_thread`. -/
  current : τ
  /-- `rt_scheduler_lock_nest`, a signed number that wraps. -/
  lockNest : BitVec 16
  /-- `rt_thread_ready_priority_group`. -/
  group : BitVec 32
  lists : ListHead κ → List τ
  thread : τ → RtThread
  timers : Timers τ
  /-- What was observed so far. -/
  seen : List (KernelObs τ)

/-- `__rt_ffs`, counted from zero: the lowest bit that is set. -/
def rtFfs (value : BitVec 32) : Option (Fin 32) := Bitmap.lowest value

namespace Kernel

variable {τ κ : Type} [DecidableEq τ] [DecidableEq κ]

/-- One thread gets other fields. -/
def upd (k : Kernel τ κ) (t : τ) (change : RtThread → RtThread) : Kernel τ κ :=
  { k with thread := Function.update k.thread t (change (k.thread t)) }

/-- The status of one thread is set under its mask. -/
def setStat (k : Kernel τ κ) (t : τ) (stat : RtStat) : Kernel τ κ :=
  k.upd t fun thread => { thread with stat := stat }

/-- `rt_list_remove` of `tlist`: the thread is out of whatever list it was in. -/
def unlink (k : Kernel τ κ) (t : τ) : Kernel τ κ :=
  { k with lists := fun head => (k.lists head).erase t }

/-- One list gets other threads. -/
def setList (k : Kernel τ κ) (head : ListHead κ) (list : List τ) : Kernel τ κ :=
  { k with lists := Function.update k.lists head list }

/-- `rt_schedule_insert_thread`. -/
def rtScheduleInsertThread (k : Kernel τ κ) (t : τ) : Kernel τ κ :=
  -- The current thread is in no list, so it just runs on.
  if t = k.current then k.setStat t .running
  else
    let k := k.setStat t .ready
    -- Behind all that are ready at its priority, whose bit is set from now on.
    let head := ListHead.ready (k.thread t).currentPriority
    { k.setList head (k.lists head ++ [t]) with group := k.group ||| (k.thread t).numberMask }

/-- `rt_schedule_remove_thread`. -/
def rtScheduleRemoveThread (k : Kernel τ κ) (t : τ) : Kernel τ κ :=
  let k := k.unlink t
  -- The last thread of a priority takes its bit along.
  if k.lists (.ready (k.thread t).currentPriority) = [] then
    { k with group := k.group &&& ~~~(k.thread t).numberMask }
  else k

/--
`_get_highest_priority_thread`.

There is no result when the bitmap or the list it points to is empty.
-/
def getHighestPriorityThread (k : Kernel τ κ) : Option (τ × Fin 32) := do
  let priority ← rtFfs k.group
  let t ← (k.lists (.ready priority)).head?
  return (t, priority)

/-- `rt_schedule` clears the flag of a running thread that gives way. -/
def clearYield (k : Kernel τ κ) : Kernel τ κ :=
  if (k.thread k.current).stat = .running then
    k.upd k.current fun thread => { thread with yield := false }
  else k

/-- `rt_current_thread` makes place for another thread. A running thread goes back to its list. -/
def makePlace (k : Kernel τ κ) (target : τ) : Kernel τ κ :=
  let next := { k with current := target }
  if (k.thread k.current).stat = .running then next.rtScheduleInsertThread k.current else next

/-- The part of `rt_schedule` that switches to another thread. -/
def switchTo (k : Kernel τ κ) (target : τ) (highest : Fin 32) : Kernel τ κ :=
  let next := ((k.makePlace target).rtScheduleRemoveThread target).setStat target .running
  { next with seen := next.seen ++ [.switched target highest] }

/-- `rt_schedule`. -/
def rtSchedule (k : Kernel τ κ) : Option (Kernel τ κ) :=
  if k.lockNest = 0 ∧ k.group ≠ 0 then do
    let (first, highest) ← k.getHighestPriorityThread
    -- The current thread goes on when it is more urgent, or as urgent and has not given way.
    let target := if (k.thread k.current).Stays highest then k.current else first
    let k := k.clearYield
    if target ≠ k.current then return k.switchTo target highest
    -- Also a thread that goes on is taken out of the lists, where it may have come by a wake-up.
    else return (k.rtScheduleRemoveThread k.current).setStat k.current .running
  else some k

/-- `rt_timer_stop` of the timer of a thread. -/
def timerStop (k : Kernel τ κ) (t : τ) : Kernel τ κ :=
  { k with timers := k.timers.rtTimerStop t, seen := k.seen ++ [.timer (.stopped t)] }

/-- `rt_timer_detach` of the timer of a thread. -/
def timerDetach (k : Kernel τ κ) (t : τ) : Kernel τ κ :=
  { k with timers := k.timers.rtTimerDetach t, seen := k.seen ++ [.timer (.stopped t)] }

/-- `RT_TIMER_CTRL_SET_TIME` and `rt_timer_start` of the timer of a thread. -/
def timerStart (k : Kernel τ κ) (t : τ) (ticks : BitVec 32) : Option (Kernel τ κ) := do
  let timers ← (k.timers.setTime t ticks).rtTimerStart t
  return { k with timers := timers, seen := k.seen ++ [.timer (.started t ticks.toNat)] }

/-- `rt_thread_suspend`. There is no result when the assertion on a running thread fails. -/
def rtThreadSuspend (k : Kernel τ κ) (t : τ) : Option (Kernel τ κ) :=
  -- A thread that neither runs nor is ready gives the error `-RT_ERROR`.
  if (k.thread t).stat ≠ .ready ∧ (k.thread t).stat ≠ .running then some k
  else if (k.thread t).stat = .running ∧ t ≠ k.current then none
  else some (((k.rtScheduleRemoveThread t).setStat t .suspend).timerStop t)

/-- `rt_thread_resume`. -/
def rtThreadResume (k : Kernel τ κ) (t : τ) : Kernel τ κ :=
  -- A thread that is not suspended gives the error `-RT_ERROR`.
  if (k.thread t).stat ≠ .suspend then k
  else ((k.unlink t).timerStop t).rtScheduleInsertThread t

/-- `rt_thread_timeout`. There is no result when its assertion on the status fails. -/
def rtThreadTimeout (k : Kernel τ κ) (t : τ) : Option (Kernel τ κ) :=
  if (k.thread t).stat ≠ .suspend then none
  else
    let k := k.upd t fun thread => { thread with error := .etimeout }
    ((k.unlink t).rtScheduleInsertThread t).rtSchedule

/-- `rt_thread_startup`. There is no result when its assertion on the status fails. -/
def rtThreadStartup (k : Kernel τ κ) (t : τ) : Option (Kernel τ κ) :=
  if (k.thread t).stat ≠ .init then none
  else
    let k := k.upd t fun thread =>
      { thread with
        currentPriority := thread.initPriority
        numberMask := BitVec.twoPow 32 thread.initPriority
        stat := .suspend
        yield := false }
    -- There is a current thread, so the scheduler is called.
    (k.rtThreadResume t).rtSchedule

/-- `rt_thread_yield`. -/
def rtThreadYield (k : Kernel τ κ) : Option (Kernel τ κ) :=
  (k.upd k.current fun thread =>
    { thread with remainingTick := thread.initTick, yield := true }).rtSchedule

/-- `rt_thread_sleep` up to its call of `rt_schedule`. -/
def rtThreadSleep (k : Kernel τ κ) (ticks : BitVec 32) : Option (Kernel τ κ) := do
  let next ← k.rtThreadSuspend k.current
  next.timerStart k.current ticks

/-- The end of `rt_thread_sleep`, behind its call of `rt_schedule`. -/
def clearTimeout (k : Kernel τ κ) : Kernel τ κ :=
  k.upd k.current fun thread =>
    { thread with error := if thread.error = .etimeout then .eok else thread.error }

/-- `rt_thread_exit`. -/
def rtThreadExit (k : Kernel τ κ) : Option (Kernel τ κ) :=
  let t := k.current
  let k := (k.rtScheduleRemoveThread t).upd t fun thread =>
    { thread with stat := .close, yield := false }
  (k.timerDetach t).rtSchedule

/-- `RT_THREAD_CTRL_CHANGE_PRIORITY` of `rt_thread_control`. -/
def changePriority (k : Kernel τ κ) (t : τ) (priority : Fin 32) : Kernel τ κ :=
  let set (thread : RtThread) : RtThread :=
    { thread with currentPriority := priority, numberMask := BitVec.twoPow 32 priority }
  -- A ready thread changes lists, and its old bit is cleared by the old mask.
  if (k.thread t).stat = .ready then
    ((k.rtScheduleRemoveThread t).upd t set).rtScheduleInsertThread t
  else k.upd t set

/-- `rt_ipc_list_suspend`, after the thread has been given no error. -/
def rtIpcListSuspend (k : Kernel τ κ) (object : κ) (t : τ) (flag : IpcFlag) :
    Option (Kernel τ κ) := do
  let k ← (k.upd t fun thread => { thread with error := .eok }).rtThreadSuspend t
  return k.setList (.waiting object)
    (flag.joined (fun u => (k.thread u).currentPriority) t (k.lists (.waiting object)))

/-- `rt_ipc_list_resume` of a list that is not empty. -/
def rtIpcListResume (k : Kernel τ κ) (object : κ) : Option (Kernel τ κ) := do
  let t ← (k.lists (.waiting object)).head?
  return k.rtThreadResume t

/-- One turn of the loop of `rt_ipc_list_resume_all`. -/
def resumeError (k : Kernel τ κ) (object : κ) : Option (Kernel τ κ) := do
  let t ← (k.lists (.waiting object)).head?
  return (k.upd t fun thread => { thread with error := .error }).rtThreadResume t

/-- `rt_enter_critical`. -/
def rtEnterCritical (k : Kernel τ κ) : Kernel τ κ := { k with lockNest := k.lockNest + 1 }

/-- `rt_exit_critical`. A level that is not positive afterwards counts as unlocked. -/
def rtExitCritical (k : Kernel τ κ) : Option (Kernel τ κ) :=
  let nest := k.lockNest - 1
  if nest.toInt ≤ 0 then rtSchedule { k with lockNest := 0 } else some { k with lockNest := nest }

/-- The time slice in `rt_tick_increase`. -/
def timeSlice (k : Kernel τ κ) : Option (Kernel τ κ) :=
  let k := k.upd k.current fun thread => { thread with remainingTick := thread.remainingTick - 1 }
  if (k.thread k.current).remainingTick = 0 then
    (k.upd k.current fun thread =>
      { thread with remainingTick := thread.initTick, yield := true }).rtSchedule
  else some k

/-- The timer of a thread fires. -/
def fire (k : Kernel τ κ) (t : τ) : Option (Kernel τ κ) :=
  rtThreadTimeout { k with seen := k.seen ++ [.timer (.fired t)] } t

/--
`rt_tick_increase`.

The timeout functions neither read nor change the timers,
so these are all taken out of their list first.
-/
def rtTickIncrease (k : Kernel τ κ) : Option (Kernel τ κ) := do
  let (timers, new) ← k.timers.rtTickIncrease []
  let k ← timeSlice { k with timers := timers, seen := k.seen ++ [.timer .ticked] }
  (new.filterMap TimerObs.fired?).foldlM fire k

end Kernel

/-- A call of the running thread, an interrupt, or the rest of a call that let interrupts in. -/
inductive KernelEvent (τ κ : Type) where
  | startup (thread : τ)
  | yield
  | sleep (ticks : BitVec 32)
  /-- The end of `rt_thread_sleep`. -/
  | awake
  | suspend (thread : τ)
  | resume (thread : τ)
  /-- The running thread waits for an object, for a number of ticks or for ever. -/
  | wait (object : κ) (flag : IpcFlag) (ticks : Option (BitVec 32))
  | wake (object : κ)
  /-- The first thread that waits for an object is told that the object is gone. -/
  | dismiss (object : κ)
  | exit
  | changePriority (thread : τ) (priority : Fin 32)
  | enterCritical
  | exitCritical
  | schedule
  | tick

namespace Kernel

variable {τ κ : Type} [DecidableEq τ] [DecidableEq κ]

/-- One event. There is no result when an assertion fails. -/
def run (k : Kernel τ κ) : KernelEvent τ κ → Option (Kernel τ κ)
  | .startup t => k.rtThreadStartup t
  | .yield => k.rtThreadYield
  | .sleep ticks => k.rtThreadSleep ticks
  | .awake => some k.clearTimeout
  | .suspend t => k.rtThreadSuspend t
  | .resume t => some (k.rtThreadResume t)
  | .wait object flag none => k.rtIpcListSuspend object k.current flag
  | .wait object flag (some ticks) => do
    let next ← k.rtIpcListSuspend object k.current flag
    next.timerStart k.current ticks
  | .wake object => k.rtIpcListResume object
  | .dismiss object => k.resumeError object
  | .exit => k.rtThreadExit
  | .changePriority t priority => some (k.changePriority t priority)
  | .enterCritical => some k.rtEnterCritical
  | .exitCritical => k.rtExitCritical
  | .schedule => k.rtSchedule
  | .tick => k.rtTickIncrease

/--
What may happen next.

Calls are made by a running thread. The idle thread does not wait, and no time is longer than half
the range of the tick counter.
-/
def Allowed (idle : τ) (k : Kernel τ κ) : KernelEvent τ κ → Prop
  | .startup t => (k.thread k.current).stat = .running ∧ (k.thread t).stat = .init
  | .yield | .awake | .enterCritical => (k.thread k.current).stat = .running
  | .sleep ticks => (k.thread k.current).stat = .running ∧ k.current ≠ idle ∧ ticks < Wrapping.half
  | .wait _ _ ticks =>
    (k.thread k.current).stat = .running ∧ k.current ≠ idle ∧ ∀ limit ∈ ticks, limit < Wrapping.half
  | .suspend t => t ≠ idle
  | .wake object | .dismiss object => k.lists (.waiting object) ≠ []
  | .exit => (k.thread k.current).stat = .running ∧ k.current ≠ idle
  | .resume _ | .changePriority .. | .exitCritical | .schedule | .tick => True

instance (idle : τ) (k : Kernel τ κ) : DecidablePred (k.Allowed idle)
  | .startup t => inferInstanceAs
      (Decidable ((k.thread k.current).stat = .running ∧ (k.thread t).stat = .init))
  | .yield | .awake | .enterCritical =>
    inferInstanceAs (Decidable ((k.thread k.current).stat = .running))
  | .sleep ticks => inferInstanceAs
      (Decidable ((k.thread k.current).stat = .running ∧ k.current ≠ idle ∧ ticks < Wrapping.half))
  | .wait _ _ ticks => inferInstanceAs (Decidable
      ((k.thread k.current).stat = .running ∧ k.current ≠ idle ∧ ∀ limit ∈ ticks,
        limit < Wrapping.half))
  | .suspend t => inferInstanceAs (Decidable (t ≠ idle))
  | .wake object | .dismiss object => inferInstanceAs (Decidable (k.lists (.waiting object) ≠ []))
  | .exit => inferInstanceAs (Decidable ((k.thread k.current).stat = .running ∧ k.current ≠ idle))
  | .resume _ | .changePriority .. | .exitCritical | .schedule | .tick =>
    inferInstanceAs (Decidable True)

/-- What a call may do to other threads and to the lists of objects. -/
structure Touched (τ κ : Type) where
  /-- Threads that may be halted, or get another error. -/
  stop : τ → Prop := fun _ => False
  /-- Threads that may get another priority. -/
  tune : τ → Prop := fun _ => False
  /-- Threads that may be woken before their time is up. -/
  wake : τ → Prop := fun _ => False
  /-- Objects that another thread may wait for. -/
  join : κ → Prop := fun _ => False

/-- What an event may do. -/
def touched (k : Kernel τ κ) : KernelEvent τ κ → Touched τ κ
  | .startup t | .resume t => { wake := (· = t) }
  | .sleep _ | .awake | .exit => { stop := (· = k.current) }
  | .suspend t => { stop := (· = t) }
  | .wait object _ _ => { stop := (· = k.current), join := (· = object) }
  | .wake object | .dismiss object => { wake := (· ∈ k.lists (.waiting object)) }
  | .changePriority t _ => { tune := (· = t) }
  | .yield | .enterCritical | .exitCritical | .schedule | .tick => {}

instance (k : Kernel τ κ) : (event : KernelEvent τ κ) → DecidablePred (k.touched event).stop
  | .sleep _ | .awake | .exit | .wait .. => inferInstanceAs (DecidablePred (· = k.current))
  | .suspend t => inferInstanceAs (DecidablePred (· = t))
  | .startup _ | .resume _ | .wake _ | .dismiss _ | .changePriority .. | .yield | .enterCritical
  | .exitCritical | .schedule | .tick => inferInstanceAs (DecidablePred fun _ => False)

instance (k : Kernel τ κ) : (event : KernelEvent τ κ) → DecidablePred (k.touched event).wake
  | .startup t | .resume t => inferInstanceAs (DecidablePred (· = t))
  | .wake object | .dismiss object =>
    inferInstanceAs (DecidablePred (· ∈ k.lists (.waiting object)))
  | .sleep _ | .awake | .exit | .wait .. | .suspend _ | .changePriority .. | .yield | .enterCritical
  | .exitCritical | .schedule | .tick => inferInstanceAs (DecidablePred fun _ => False)

instance (k : Kernel τ κ) : (event : KernelEvent τ κ) → DecidablePred (k.touched event).join
  | .wait object _ _ => inferInstanceAs (DecidablePred (· = object))
  | .startup _ | .resume _ | .sleep _ | .awake | .exit | .suspend _ | .wake _ | .dismiss _
  | .changePriority .. | .yield | .enterCritical | .exitCritical | .schedule | .tick =>
    inferInstanceAs (DecidablePred fun _ => False)

/-- One allowed event happens. -/
def Step (idle : τ) (event : KernelEvent τ κ) (k next : Kernel τ κ) : Prop :=
  k.Allowed idle event ∧ k.run event = some next

/-- A list of events in a row, each of them allowed. -/
def exec (idle : τ) (k : Kernel τ κ) (events : List (KernelEvent τ κ)) : Option (Kernel τ κ) :=
  events.foldlM (fun k event => if k.Allowed idle event then k.run event else none) k

/--
`rt_system_scheduler_start` has switched to the idle thread, and no other thread has been started.
-/
def init (idle : τ) (start : BitVec 32) (thread : τ → Fin 32 × BitVec 32) : Kernel τ κ where
  current := idle
  lockNest := 0
  group := 0
  lists _ := []
  thread := Function.update (fun t => RtThread.init (thread t).1 (thread t).2) idle
    { RtThread.init (thread idle).1 (thread idle).2 with
      stat := .running, numberMask := BitVec.twoPow 32 (thread idle).1 }
  timers := Timers.init start (fun _ => 0) fun _ => false
  seen := []

end Kernel
end MultifunctionClock
