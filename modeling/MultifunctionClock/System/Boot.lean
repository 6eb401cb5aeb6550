import MultifunctionClock.Kernel.Scheduler
import MultifunctionClock.Lib.Trace
import MultifunctionClock.System.Moves

/-!
The boot: `main` starts the five application threads and then initialises their mailboxes.

Only the priorities keep the threads away from the mailboxes in between.
The threads take the steps of the system, and the scheduler decides which of them may.
-/

namespace MultifunctionClock

/-- The four mailboxes. -/
inductive MbName where
  | weather
  | time
  | mpu
  | dht
deriving DecidableEq

/-- The five threads that `main` starts. -/
inductive AppThread where
  | weather
  | time
  | oled
  | mpu
  | dht
deriving DecidableEq

instance : Fintype AppThread where
  elems := {.weather, .time, .oled, .mpu, .dht}
  complete thread := by cases thread <;> decide

/-- The priorities that `main` passes to `rt_thread_init`. -/
def AppThread.priority : AppThread → ℕ
  | .weather => 30
  | .time => 22
  | .oled => 28
  | .mpu => 27
  | .dht => 24

/-- All threads: `main`, those that it starts, and any others. -/
inductive Thread (ι : Type) where
  | main
  | app (thread : AppThread)
  | other (thread : ι)
deriving DecidableEq, Fintype

/-- `RT_MAIN_THREAD_PRIORITY`. -/
def rtMainThreadPriority : ℕ := 10

/-- Every application thread is less urgent than `main`. -/
theorem AppThread.main_urgent (thread : AppThread) : rtMainThreadPriority < thread.priority := by
  cases thread <;> decide

/-- The calls of `main` before its loop. -/
inductive MainCall where
  | threadInit (thread : AppThread)
  | threadStartup (thread : AppThread)
  | mbInit (mb : MbName)
deriving DecidableEq

/-- The body of `main` up to its loop. No call fails, since `rt_mb_init` always returns `RT_EOK`. -/
def mainCalls : List MainCall :=
  [.threadInit .weather, .threadStartup .weather,
    .threadInit .time, .threadStartup .time,
    .threadInit .oled, .threadStartup .oled,
    .threadInit .mpu, .threadStartup .mpu,
    .threadInit .dht, .threadStartup .dht,
    .mbInit .weather, .mbInit .time, .mbInit .mpu, .mbInit .dht]

variable {α : Type} [LinearOrder α]

/--
The application thread that takes a step. The heap steps of other threads belong to none of them.
-/
def Event.thread : Event α → Option AppThread
  | .weatherMalloc _ _ | .weatherCall => some .weather
  | .timeStart _ _ | .timeIterate _ _ => some .time
  | .dhtStart _ _ | .dhtIterate => some .dht
  | .mpuStart _ | .mpuIterate _ => some .mpu
  | .oledStart _ _ | .oledStep => some .oled
  | .otherMalloc _ _ | .otherWrite _ _ | .otherFree _ => none

namespace System

/-- The mailbox on which a step calls `rt_mb_send`, `rt_mb_recv` or `rt_mb_detach`. -/
def uses (env : Env α) (s : System) : Event α → Option MbName
  | .weatherCall =>
    match s.weather.asserted, s.weather.mes, s.weather.todo with
    | false, some _, .send :: _ => some .weather
    | _, _, _ => none
  | .timeIterate now buf =>
    match s.time with
    | .loop _ => (ctime now buf).map fun _ => .time
    | _ => none
  | .dhtIterate =>
    match s.dht with
    | .loop _ count =>
      match env.sensorRead count with
      | some word => if 0 ≤ word.toInt then some .dht else none
      | none => none
    | _ => none
  | .mpuIterate pitch =>
    match s.mpu with
    | .loop tilt => (tilt.turn env.levels pitch).2.map fun _ => .mpu
    | _ => none
  | .oledStep =>
    match s.control with
    -- A receive is a call on the mailbox also when it has to wait.
    | .waitWeather | .detach => some .weather
    | .poll => some .mpu
    | .waitTime => some .time
    | .waitDht => some .dht
    | .start | .drawWeather | .delay => none
  | _ => none

/-- A mailbox is the same in two states. -/
def SameMailbox (s next : System) : MbName → Prop
  | .weather => next.mbOledWeather = s.mbOledWeather
  | .time => next.mbOledTime = s.mbOledTime
  | .mpu => next.mbOledMpu = s.mbOledMpu
  | .dht => next.mbOledDht = s.mbOledDht

/-- A step changes no mailbox except the one that it makes a call on. -/
theorem Move.sameMailbox {env : Env α} {s next : System} {event : Event α} {new : List Obs}
    (move : Move env s event next new) {mb : MbName} (unused : s.uses env event ≠ some mb) :
    SameMailbox s next mb := by
  -- Of the steps that touch a mailbox, each makes its call on that mailbox, which is not this one.
  cases move
  case weatherSend running held call sent =>
    cases mb <;> first | rfl | simp [uses, running, held, call] at unused
  case timeIterate here printed sent =>
    cases mb <;> first | rfl | simp [uses, here, printed] at unused
  case dhtRewrite here read valid sent =>
    cases mb <;> first | rfl | simp [uses, here, read, valid] at unused
  case mpuSend here turned sent =>
    cases mb <;> first | rfl | simp [uses, here, turned] at unused
  case oledReceive here received => cases mb <;> first | rfl | simp [uses, here] at unused
  case oledDetach here => cases mb <;> first | rfl | simp [uses, here] at unused
  case oledPage here received => cases mb <;> first | rfl | simp [uses, here] at unused
  case timeFrame here received => cases mb <;> first | rfl | simp [uses, here] at unused
  case dhtFrame here received => cases mb <;> first | rfl | simp [uses, here] at unused
  all_goals cases mb <;> rfl

/-- `rt_mb_init` on one of the mailboxes. -/
def mbInit (s : System) : MbName → System
  | .weather => { s with mbOledWeather := mainMailbox ℕ }
  | .time => { s with mbOledTime := mainMailbox ℕ }
  | .mpu => { s with mbOledMpu := mainMailbox ℤ }
  | .dht => { s with mbOledDht := mainMailbox ℕ }

/--
The system while some calls of `main` are still to be made.

A mailbox that is not initialised lies in zeroed storage,
and zero is not the object type of a mailbox.
-/
def unready (s : System) (todo : List MainCall) : System :=
  { s with
    mbOledWeather := if .mbInit .weather ∈ todo then rtMbDetach (mainMailbox ℕ) else s.mbOledWeather
    mbOledTime := if .mbInit .time ∈ todo then rtMbDetach (mainMailbox ℕ) else s.mbOledTime
    mbOledMpu := if .mbInit .mpu ∈ todo then rtMbDetach (mainMailbox ℤ) else s.mbOledMpu
    mbOledDht := if .mbInit .dht ∈ todo then rtMbDetach (mainMailbox ℕ) else s.mbOledDht }

end System

/-- What is not fixed by the program when `main` is entered. -/
structure BootWorld (α ι : Type) [LinearOrder α] where
  env : Env α
  /-- The blocks that other threads have allocated. -/
  heap : Heap Owner
  otherPriority : ι → ℕ
  otherStat : ι → ThreadStat

variable {ι : Type}

/-- The priority of each thread. -/
def BootWorld.priority (world : BootWorld α ι) : Thread ι → ℕ
  | .main => rtMainThreadPriority
  | .app thread => thread.priority
  | .other thread => world.otherPriority thread

/-- The system that the threads find once every mailbox is initialised. -/
def BootWorld.ready (world : BootWorld α ι) : System :=
  { System.initial world.env with heap := world.heap }

/-- The state of the boot. -/
structure Boot (ι : Type) where
  /-- The calls that `main` still has to make before its loop. -/
  todo : List MainCall
  stat : Thread ι → ThreadStat
  system : System

/-- Something that happens while the kernel schedules threads. -/
inductive BootEvent (α ι : Type) where
  /-- The next call of `main`. -/
  | main
  /-- A thread takes a step of the system. -/
  | act (thread : Thread ι) (event : Event α)
  /-- A thread waits or sleeps in a call. -/
  | suspend (thread : Thread ι)
  /-- The entry function of a thread returns. -/
  | exit (thread : Thread ι)
  /-- A timer, an interrupt or another thread ends a wait. -/
  | resume (thread : Thread ι)

/-- The thread that has to be running for an event. -/
def BootEvent.runner : BootEvent α ι → Option (Thread ι)
  | .main => some .main
  | .act thread _ | .suspend thread | .exit thread => some thread
  | .resume _ => none

/-- What can be observed of the boot. -/
inductive BootObs where
  /-- `main` initialised a mailbox. -/
  | inited (mb : MbName)
  /-- A thread called `rt_mb_send`, `rt_mb_recv` or `rt_mb_detach` on a mailbox. -/
  | used (mb : MbName)
  /-- A step of the system was observed. -/
  | shown (obs : Obs)
deriving DecidableEq

namespace Boot

/-- The entry of `main`. -/
def entry (world : BootWorld α ι) : Boot ι where
  todo := mainCalls
  stat
    | .main => .ready
    -- The objects of the application threads are in zeroed storage, which is `RT_THREAD_INIT`.
    | .app _ => .init
    | .other thread => world.otherStat thread
  system := world.ready.unready mainCalls

/-- Strict priorities: whoever acts is scheduled. -/
def StrictPriority (world : BootWorld α ι) (b : Boot ι) (event : BootEvent α ι) : Prop :=
  ∀ thread ∈ event.runner, Scheduled world.priority b.stat thread

/-- The schedule of finitely many threads can be computed. -/
instance [Fintype ι] (world : BootWorld α ι) (b : Boot ι) (event : BootEvent α ι) :
    Decidable (StrictPriority world b event) :=
  inferInstanceAs (Decidable (∀ thread ∈ event.runner, Scheduled world.priority b.stat thread))

variable [DecidableEq ι]

/-- A thread gets another status. -/
def setStat (b : Boot ι) (thread : Thread ι) (stat : ThreadStat) : Boot ι :=
  { b with stat := Function.update b.stat thread stat }

/-- The next call of `main`. -/
def main (b : Boot ι) : Boot ι × List BootObs :=
  match b.todo with
  | .threadInit thread :: todo => ({ b with todo := todo }.setStat (.app thread) .init, [])
  | .threadStartup thread :: todo => ({ b with todo := todo }.setStat (.app thread) .ready, [])
  | .mbInit mb :: todo => ({ b with todo := todo, system := b.system.mbInit mb }, [.inited mb])
  -- `rt_thread_mdelay(1000)` in the loop.
  | [] => (b.setStat .main .suspend, [])

/-- The steps of the system that a thread can take. -/
def mayAct : Thread ι → Event α → Bool
  | .main, _ => false
  | .app thread, event => event.thread = some thread
  | .other _, event => event.thread = none

/-- A thread takes a step of the system. -/
def act (world : BootWorld α ι) (b : Boot ι) (event : Event α) : Option (Boot ι × List BootObs) :=
  match System.step world.env b.system event, b.system.uses world.env event with
  | some (next, new), used =>
    some ({ b with system := next }, used.toList.map .used ++ new.map .shown)
  -- The call has to wait, or its assertion fails: the thread gets no further with it.
  | none, some mb => some (b, [.used mb])
  | none, none => none

/-- One event of the boot, when it is enabled. -/
def step (world : BootWorld α ι) (b : Boot ι) : BootEvent α ι → Option (Boot ι × List BootObs)
  | .main => some b.main
  | .act thread event => if mayAct thread event then b.act world event else none
  -- `main` sleeps in its loop only, and never leaves it.
  | .suspend thread => if thread = .main then none else some (b.setStat thread .suspend, [])
  | .exit thread => if thread = .main then none else some (b.setStat thread .close, [])
  | .resume thread => if b.stat thread = .suspend then some (b.setStat thread .ready, []) else none

/-- The states that the boot reaches under strict priorities, with what was observed. -/
def Run (world : BootWorld α ι) (b : Boot ι) (seen : List BootObs) : Prop :=
  Reach.Reaches (step world) (StrictPriority world) (entry world) b seen

variable {world : BootWorld α ι} {b next : Boot ι} {event : BootEvent α ι} {new seen : List BootObs}

/-- The cases of an event of the boot, each with what it finds and what it leaves behind. -/
inductive Move (world : BootWorld α ι) (b : Boot ι) :
    BootEvent α ι → Boot ι → List BootObs → Prop
  | threadInit {thread : AppThread} {todo : List MainCall}
      (call : b.todo = .threadInit thread :: todo) :
      Move world b .main ({ b with todo := todo }.setStat (.app thread) .init) []
  | threadStartup {thread : AppThread} {todo : List MainCall}
      (call : b.todo = .threadStartup thread :: todo) :
      Move world b .main ({ b with todo := todo }.setStat (.app thread) .ready) []
  | mbInit {mb : MbName} {todo : List MainCall} (call : b.todo = .mbInit mb :: todo) :
      Move world b .main { b with todo := todo, system := b.system.mbInit mb } [.inited mb]
  | sleep (call : b.todo = []) : Move world b .main (b.setStat .main .suspend) []
  | act {thread : Thread ι} {event : Event α} {after : System} {obs : List Obs}
      (may : mayAct thread event = true)
      (taken : System.step world.env b.system event = some (after, obs)) :
      Move world b (.act thread event) { b with system := after }
        ((b.system.uses world.env event).toList.map .used ++ obs.map .shown)
  | stuck {thread : Thread ι} {event : Event α} {mb : MbName} (may : mayAct thread event = true)
      (call : b.system.uses world.env event = some mb) :
      Move world b (.act thread event) b [.used mb]
  | suspend {thread : Thread ι} (started : thread ≠ .main) :
      Move world b (.suspend thread) (b.setStat thread .suspend) []
  | exit {thread : Thread ι} (started : thread ≠ .main) :
      Move world b (.exit thread) (b.setStat thread .close) []
  | resume {thread : Thread ι} (waiting : b.stat thread = .suspend) :
      Move world b (.resume thread) (b.setStat thread .ready) []

/-- Every event is one of the cases. -/
theorem move_of_step (taken : step world b event = some (next, new)) :
    Move world b event next new := by
  cases event with
  | main =>
    -- The next call of `main` is its first call left, or the one in its loop.
    simp only [step, main, Option.some.injEq] at taken
    split at taken
    all_goals
      rename_i call
      obtain ⟨rfl, rfl⟩ := Prod.mk.inj taken
    · exact .threadInit call
    · exact .threadStartup call
    · exact .mbInit call
    · exact .sleep call
  | act thread event =>
    obtain ⟨may, taken⟩ := Option.ite_none_right_eq_some.mp taken
    unfold act at taken
    split at taken
    · rename_i stepped
      obtain ⟨rfl, rfl⟩ := Prod.mk.inj (Option.some.inj taken)
      exact .act may stepped
    · rename_i call
      obtain ⟨rfl, rfl⟩ := Prod.mk.inj (Option.some.inj taken)
      exact .stuck may call
    · cases taken
  | suspend thread =>
    obtain ⟨started, taken⟩ := Option.ite_none_left_eq_some.mp taken
    obtain ⟨rfl, rfl⟩ := Prod.mk.inj (Option.some.inj taken)
    exact .suspend started
  | exit thread =>
    obtain ⟨started, taken⟩ := Option.ite_none_left_eq_some.mp taken
    obtain ⟨rfl, rfl⟩ := Prod.mk.inj (Option.some.inj taken)
    exact .exit started
  | resume thread =>
    obtain ⟨waiting, taken⟩ := Option.ite_none_right_eq_some.mp taken
    obtain ⟨rfl, rfl⟩ := Prod.mk.inj (Option.some.inj taken)
    exact .resume waiting

end Boot

end MultifunctionClock
