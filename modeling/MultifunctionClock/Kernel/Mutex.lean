import MultifunctionClock.Kernel.Monitor
import MultifunctionClock.Lib.Lock

/-!
`rt_mutex_take` and `rt_mutex_release` on the threads of the kernel.

A mutex that is released goes straight to the first thread that waits, and the owner inherits the
priority of a more urgent thread that waits.
-/

namespace MultifunctionClock

/-- `struct rt_mutex`. -/
structure RtMutex (τ : Type) where
  /-- The object type is `RT_Object_Class_Mutex`. -/
  attached : Bool
  value : ℕ
  /-- None is the value `0xFF`, which is no priority. -/
  originalPriority : Option (Fin 32)
  hold : ℕ
  owner : Option τ

/-- `rt_mutex_init`. -/
def RtMutex.init {τ : Type} : RtMutex τ := ⟨true, 1, none, 0, none⟩

/-- `RT_MUTEX_HOLD_MAX`. -/
def rtMutexHoldMax : ℕ := 255

/-- `RT_MUTEX_VALUE_MAX`. -/
def rtMutexValueMax : ℕ := 65535

/-- What can be observed of a mutex: what its calls return. -/
inductive MutexObs (τ : Type) where
  | took (thread : τ) (result : IpcResult)
  | released (thread : τ) (result : IpcResult)
deriving DecidableEq

/-- The kernel, one mutex and which threads wait in `rt_mutex_take`. -/
structure MutexHost (τ κ : Type) where
  kernel : Kernel τ κ
  mutex : RtMutex τ
  call : τ → Bool
  /-- What was observed so far. -/
  seen : List (MutexObs τ)

/-- A call of the running thread, the rest of its call, or something else. -/
inductive MutexEvent (τ κ : Type) where
  | take (time : BitVec 32)
  /-- The running thread goes on in `rt_mutex_take`. -/
  | back
  | release
  /-- One turn of the loop of `rt_mutex_detach`. -/
  | dismiss
  /-- Anything else that the kernel does. -/
  | kernel (event : KernelEvent τ κ)

/-- The event is no change of priority by `rt_thread_control`. -/
def MutexEvent.Calm {τ κ : Type} : MutexEvent τ κ → Prop
  | .kernel (.changePriority ..) => False
  | _ => True

namespace MutexHost

variable {τ κ : Type} [DecidableEq τ] [DecidableEq κ]

/-- The running thread sets its error. -/
def errno (s : MutexHost τ κ) (code : ThreadError) : MutexHost τ κ :=
  { s with kernel := s.kernel.upd s.kernel.current fun thread => { thread with error := code } }

/-- The running thread returns from `rt_mutex_take`. -/
def took (s : MutexHost τ κ) (result : IpcResult) : MutexHost τ κ :=
  { s with
    call := Function.update s.call s.kernel.current false
    seen := s.seen ++ [.took s.kernel.current result] }

/-- The running thread returns from `rt_mutex_release`. -/
def released (s : MutexHost τ κ) (result : IpcResult) : MutexHost τ κ :=
  { s with seen := s.seen ++ [.released s.kernel.current result] }

/-- The owner inherits the priority of the running thread, if that is more urgent. -/
def raise (s : MutexHost τ κ) (owner : τ) : MutexHost τ κ :=
  let priority := (s.kernel.thread s.kernel.current).currentPriority
  if priority < (s.kernel.thread owner).currentPriority then
    { s with kernel := s.kernel.changePriority owner priority }
  else s

/-- The running thread begins to wait. -/
def wait (links : IpcLinks κ) (s : MutexHost τ κ) (time : BitVec 32) : Option (MutexHost τ κ) := do
  let kernel ← s.kernel.run (.wait links.object links.flag (waitTimer time))
  return { s with kernel := kernel, call := Function.update s.call s.kernel.current true }

/-- `rt_mutex_take`, until it returns or waits. -/
def rtMutexTake (links : IpcLinks κ) (s : MutexHost τ κ) (time : BitVec 32) :
    Option (MutexHost τ κ) :=
  if s.mutex.attached then
    let s := s.errno .eok
    let t := s.kernel.current
    if s.mutex.owner = some t then
      -- The owner only counts up.
      if s.mutex.hold < rtMutexHoldMax then
        some (took { s with mutex := { s.mutex with hold := s.mutex.hold + 1 } } .eok)
      else some (s.took .efull)
    else if 0 < s.mutex.value then
      -- The mutex is taken before the count is looked at, so a full count leaves it taken.
      let mutex : RtMutex τ := { s.mutex with
        value := s.mutex.value - 1
        owner := some t
        originalPriority := some (s.kernel.thread t).currentPriority }
      if mutex.hold < rtMutexHoldMax then
        some (took { s with mutex := { mutex with hold := mutex.hold + 1 } } .eok)
      else some (took { s with mutex := mutex } .efull)
    else if time = 0 then some ((s.errno .etimeout).took .etimeout)
    else do
      -- The source reads the priority of the owner without asking whether there is one.
      let owner ← s.mutex.owner
      (s.raise owner).wait links time
  else none

/-- The running thread goes on behind `rt_schedule` in `rt_mutex_take`. -/
def back (s : MutexHost τ κ) : Option (MutexHost τ κ) :=
  if s.call s.kernel.current then some (s.took (s.kernel.thread s.kernel.current).error.result)
  else none

/-- The running thread, which is the owner, gets back the priority it had. -/
def restore (s : MutexHost τ κ) : Option (MutexHost τ κ) :=
  let t := s.kernel.current
  if s.mutex.originalPriority = some (s.kernel.thread t).currentPriority then some s
  else do
    -- `0xFF` is no priority of the kernel, and there is no result when it would be given back.
    let priority ← s.mutex.originalPriority
    return { s with kernel := s.kernel.changePriority t priority }

/-- The last release: the mutex goes to the first thread that waits, or is free. -/
def pass (links : IpcLinks κ) (s : MutexHost τ κ) : MutexHost τ κ :=
  match s.kernel.lists (.waiting links.object) with
  | u :: _ =>
    -- The new owner is entered here and is only then woken.
    let mutex : RtMutex τ := { s.mutex with
      owner := some u
      originalPriority := some (s.kernel.thread u).currentPriority }
    if mutex.hold < rtMutexHoldMax then
      released { s with
        mutex := { mutex with hold := mutex.hold + 1 }
        kernel := s.kernel.rtThreadResume u } .eok
    else released { s with mutex := mutex } .efull
  | [] =>
    if s.mutex.value < rtMutexValueMax then
      released { s with
        mutex := { s.mutex with
          value := s.mutex.value + 1
          owner := none
          originalPriority := none } } .eok
    else s.released .efull

/-- `rt_mutex_release`. -/
def rtMutexRelease (links : IpcLinks κ) (s : MutexHost τ κ) : Option (MutexHost τ κ) :=
  if s.mutex.attached then
    -- Only the owner may release.
    if s.mutex.owner ≠ some s.kernel.current then some ((s.errno .error).released .error)
    else
      let s := { s with mutex := { s.mutex with hold := s.mutex.hold - 1 } }
      if s.mutex.hold = 0 then do
        let s ← s.restore
        return s.pass links
      else some (s.released .eok)
  else none

/-- One event. There is no result when an assertion fails. -/
def step (links : IpcLinks κ) (s : MutexHost τ κ) : MutexEvent τ κ → Option (MutexHost τ κ)
  | .take time => s.rtMutexTake links time
  | .back => s.back
  | .release => s.rtMutexRelease links
  | .dismiss => (s.kernel.resumeError links.object).map fun kernel => { s with kernel := kernel }
  | .kernel event => (s.kernel.run event).map fun kernel => { s with kernel := kernel }

/--
What may happen next.

A thread that waits for the mutex is not suspended or woken by others,
and the list of the mutex is its own.
-/
def Allowed (idle : τ) (links : IpcLinks κ) (s : MutexHost τ κ) : MutexEvent τ κ → Prop
  | .take time => (s.kernel.thread s.kernel.current).stat = .running ∧
    s.call s.kernel.current = false ∧ (time ≠ 0 → s.kernel.current ≠ idle) ∧ Waitable time
  | .back => (s.kernel.thread s.kernel.current).stat = .running ∧ s.call s.kernel.current = true
  | .release =>
    (s.kernel.thread s.kernel.current).stat = .running ∧ s.call s.kernel.current = false
  | .dismiss => s.kernel.lists (.waiting links.object) ≠ []
  | .kernel event => s.kernel.Allowed idle event ∧
    (∀ t, s.call t = true →
      ¬ (s.kernel.touched event).stop t ∧ ¬ (s.kernel.touched event).wake t) ∧
    ¬ (s.kernel.touched event).join links.object

instance [Fintype τ] (idle : τ) (links : IpcLinks κ) (s : MutexHost τ κ) :
    DecidablePred (s.Allowed idle links)
  | .take time => inferInstanceAs (Decidable
      ((s.kernel.thread s.kernel.current).stat = .running ∧ s.call s.kernel.current = false ∧
        (time ≠ 0 → s.kernel.current ≠ idle) ∧ Waitable time))
  | .back => inferInstanceAs (Decidable
      ((s.kernel.thread s.kernel.current).stat = .running ∧ s.call s.kernel.current = true))
  | .release => inferInstanceAs (Decidable
      ((s.kernel.thread s.kernel.current).stat = .running ∧ s.call s.kernel.current = false))
  | .dismiss => inferInstanceAs (Decidable (s.kernel.lists (.waiting links.object) ≠ []))
  | .kernel event => inferInstanceAs (Decidable (s.kernel.Allowed idle event ∧
      (∀ t, s.call t = true →
        ¬ (s.kernel.touched event).stop t ∧ ¬ (s.kernel.touched event).wake t) ∧
      ¬ (s.kernel.touched event).join links.object))

/-- One allowed event happens. -/
def Step (idle : τ) (links : IpcLinks κ) (s next : MutexHost τ κ) : Prop :=
  ∃ event, s.Allowed idle links event ∧ s.step links event = some next

/-- One allowed event happens that leaves the priorities to the mutex. -/
def CalmStep (idle : τ) (links : IpcLinks κ) (s next : MutexHost τ κ) : Prop :=
  ∃ event : MutexEvent τ κ, event.Calm ∧ s.Allowed idle links event ∧ s.step links event = some next

/-- A list of events in a row, each of them allowed. -/
def exec [Fintype τ] (idle : τ) (links : IpcLinks κ) (s : MutexHost τ κ)
    (events : List (MutexEvent τ κ)) : Option (MutexHost τ κ) :=
  events.foldlM (fun s event => if s.Allowed idle links event then s.step links event else none) s

/-- No thread but the idle one has been started, and the mutex is new. -/
def init (idle : τ) (start : BitVec 32) (thread : τ → Fin 32 × BitVec 32) : MutexHost τ κ where
  kernel := Kernel.init idle start thread
  mutex := .init
  call _ := false
  seen := []

end MutexHost

/-- What the observation is for a lock. -/
def MutexObs.lock? {τ : Type} : MutexObs τ → Option (Lock.Obs τ)
  | .took t .eok => some (.took t)
  | .released t .eok => some (.gave t)
  | _ => none

/-- The mutex as a lock. An owner that waits in `rt_mutex_take` has yet to hear of it. -/
def MutexHost.view {τ κ : Type} (s : MutexHost τ κ) : Lock.State τ :=
  ⟨s.mutex.owner, s.mutex.hold, s.mutex.owner.any s.call⟩

end MultifunctionClock
