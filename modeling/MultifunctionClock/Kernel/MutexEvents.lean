import MultifunctionClock.Kernel.Mutex

/-!
What holds between the events of a mutex, and that every event keeps it.

The part about the priorities holds as long as nothing but the mutex changes them.
-/

namespace MultifunctionClock
namespace MutexHost

variable {τ κ : Type} [DecidableEq τ] [DecidableEq κ] [Fintype τ] {idle : τ} {start : BitVec 32}
  {links : IpcLinks κ} {C P : Prop} {s next : MutexHost τ κ}

/-- What holds for the owner. -/
structure Tenure (s : MutexHost τ κ) (t : τ) : Prop where
  value : s.mutex.value = 0
  hold : 0 < s.mutex.hold
  hold_le : s.mutex.hold ≤ rtMutexHoldMax
  kept : s.mutex.originalPriority ≠ none
  handed : s.call t = true → s.mutex.hold = 1

/--
The priorities, as long as only the mutex changes them.

Under a condition, the owner is as urgent as all who wait.
-/
structure Rates (links : IpcLinks κ) (P : Prop) (s : MutexHost τ κ) : Prop where
  own : ∀ t, s.mutex.owner ≠ some t →
    (s.kernel.thread t).currentPriority = (s.kernel.thread t).initPriority
  original : ∀ t, s.mutex.owner = some t →
    s.mutex.originalPriority = some (s.kernel.thread t).initPriority
  urgent : ∀ t, s.mutex.owner = some t →
    (s.kernel.thread t).currentPriority ≤ (s.kernel.thread t).initPriority
  started : ∀ t, s.mutex.owner = some t → (s.kernel.thread t).stat ≠ .init
  sorted : links.flag = .prio → (s.kernel.lists (.waiting links.object)).Pairwise fun one other =>
    (s.kernel.thread one).currentPriority ≤ (s.kernel.thread other).currentPriority
  inherits : P → ∀ t, s.mutex.owner = some t → ∀ u ∈ s.kernel.lists (.waiting links.object),
    (s.kernel.thread t).currentPriority ≤ (s.kernel.thread u).currentPriority

/--
What holds between the events.

A thread that can run on in `rt_mutex_take` without an error is the owner.
The priorities are in order while a run is calm.
-/
structure Sound (idle : τ) (start : BitVec 32) (links : IpcLinks κ) (C P : Prop)
    (s : MutexHost τ κ) : Prop where
  good : Kernel.Good idle s.kernel
  timed : Kernel.Timed start s.kernel
  monitored : Kernel.Monitored idle (fun _ : Unit => links.object) s.kernel
    (Kernel.callPlace s.call) fun _ => 0
  handed : ∀ t, s.call t = true →
    ((s.kernel.thread t).Runnable ∧ (s.kernel.thread t).error = .eok ↔ s.mutex.owner = some t)
  attached : s.mutex.attached = true
  free : s.mutex.owner = none →
    s.mutex.value = 1 ∧ s.mutex.hold = 0 ∧ s.kernel.lists (.waiting links.object) = []
  held : ∀ t, s.mutex.owner = some t → s.Tenure t
  locked : Lock.Held s.view (s.seen.filterMap MutexObs.lock?)
  rates : C → Rates links P s

omit [DecidableEq κ] in
/-- Only the part about the priorities depends on the two conditions. -/
theorem Sound.rerate (sound : Sound idle start links C P s) {D Q : Prop}
    (rates : D → Rates links Q s) : Sound idle start links D Q s := { sound with rates := rates }

omit [DecidableEq κ] in
/-- Who waits in the list was started. -/
theorem Sound.started (sound : Sound idle start links C P s) {t : τ}
    (listed : t ∈ s.kernel.lists (.waiting links.object)) : (s.kernel.thread t).stat ≠ .init := by
  rw [(sound.good.filed.waiting t _ listed).2]
  simp

omit [DecidableEq κ] in
/-- The owner does not wait in the list. -/
theorem Sound.owner_notMem (sound : Sound idle start links C P s) {t : τ}
    (owner : s.mutex.owner = some t) : t ∉ s.kernel.lists (.waiting links.object) := by
  intro listed
  obtain ⟨inside, suspended⟩ := (sound.monitored.listed () t).mp listed
  have waits := Kernel.callPlace_eq_some.mp inside
  -- An owner that is still in its call can run.
  exact Kernel.not_runnable_of_suspend suspended ((sound.handed t waits).mpr owner).1

/-! ## The kernel goes on -/

omit [DecidableEq τ] [DecidableEq κ] [Fintype τ] in
/-- Threads may leave the list, and keep their priorities. -/
theorem Rates.frame (rates : Rates links P s)
    (started : ∀ t ∈ s.kernel.lists (.waiting links.object), (s.kernel.thread t).stat ≠ .init)
    {kernel : Kernel τ κ} (rated : ∀ t, Kernel.Rated (s.kernel.thread t) (kernel.thread t))
    (shorter : (kernel.lists (.waiting links.object)).Sublist
      (s.kernel.lists (.waiting links.object))) :
    Rates links P { s with kernel := kernel } := by
  -- Who is in the list was started, and keeps its priority.
  have levels : ∀ t ∈ kernel.lists (.waiting links.object),
      (kernel.thread t).currentPriority = (s.kernel.thread t).currentPriority :=
    fun t listed => (rated t).eq (started t (shorter.subset listed))
  constructor
  case own => exact fun t other => (rated t).own (rates.own t other)
  case original =>
    intro t owner
    rw [(rated t).base]
    exact rates.original t owner
  case urgent =>
    intro t owner
    rw [(rated t).base, (rated t).eq (rates.started t owner)]
    exact rates.urgent t owner
  case started => exact fun t owner => (rated t).started (rates.started t owner)
  case sorted =>
    intro flag
    refine ((rates.sorted flag).sublist shorter).imp_of_mem fun {one other} first second le => ?_
    rw [levels one first, levels other second]
    exact le
  case inherits =>
    intro eager t owner u listed
    rw [levels u listed, (rated t).eq (rates.started t owner)]
    exact rates.inherits eager t owner u (shorter.subset listed)

omit [DecidableEq κ] in
/-- Threads may leave the list, and keep their priorities while the run is calm. -/
theorem Sound.frame (sound : Sound idle start links C P s) {kernel : Kernel τ κ}
    (good : Kernel.Good idle kernel) (timed : Kernel.Timed start kernel)
    (monitored : Kernel.Monitored idle (fun _ : Unit => links.object) kernel
      (Kernel.callPlace s.call) fun _ => 0)
    (handed : ∀ t, s.call t = true →
      ((kernel.thread t).Runnable ∧ (kernel.thread t).error = .eok ↔ s.mutex.owner = some t))
    (rated : C → ∀ t, Kernel.Rated (s.kernel.thread t) (kernel.thread t))
    (shorter : (kernel.lists (.waiting links.object)).Sublist
      (s.kernel.lists (.waiting links.object))) :
    Sound idle start links C P { s with kernel := kernel } := by
  refine { sound with
    good := good
    timed := timed
    monitored := monitored
    handed := handed
    free := fun none => ?_
    held := fun t owner => { sound.held t owner with }
    rates := fun calm =>
      (sound.rates calm).frame (fun _ => sound.started) (rated calm) shorter }
  -- Nobody waits for a free mutex, and nobody has come.
  obtain ⟨value, hold, empty⟩ := sound.free none
  rw [empty] at shorter
  exact ⟨value, hold, List.sublist_nil.mp shorter⟩

/-- What the kernel does without touching the threads that wait keeps everything. -/
theorem Sound.moves (sound : Sound idle start links C P s) {N : Kernel.Touched τ κ}
    {kernel : Kernel τ κ} (untouched : ∀ t, s.call t = true → ¬ N.stop t ∧ ¬ N.wake t)
    (join : ¬ N.join links.object) (tune : C → ∀ t, ¬ N.tune t)
    (returned : Kernel.Returned idle N s.kernel kernel) :
    Sound idle start links C P { s with kernel := kernel } := by
  have stop : ∀ t side, Kernel.callPlace s.call t = some side → ¬ N.stop t := fun t _ placed =>
    (untouched t (Kernel.callPlace_eq_some.mp placed)).1
  have wake : ∀ t side, Kernel.callPlace s.call t = some side → ¬ N.wake t := fun t _ placed =>
    (untouched t (Kernel.callPlace_eq_some.mp placed)).2
  refine sound.frame (sound.good.moves returned.moves) (sound.timed.steps returned.timed)
    (sound.monitored.moves sound.good stop wake (fun _ => join) returned.moves) (fun t waits => ?_)
    (fun calm t => sound.good.rated (tune calm t) returned.moves)
    (Kernel.waiting_sublist join returned.moves)
  -- Nobody is handed the mutex.
  rw [← sound.handed t waits]
  have same := sound.monitored.woken_moves sound.good stop wake returned.moves ()
  simpa [Kernel.mem_woken, waits] using Finset.ext_iff.mp same t

/-- The running thread sets its error when it does not wait. -/
theorem Sound.errno (sound : Sound idle start links C P s) (out : s.call s.kernel.current = false)
    (code : ThreadError) : Sound idle start links C P (s.errno code) := by
  have move : Kernel.Move idle { stop := (· = s.kernel.current) } s.kernel
      (s.kernel.upd s.kernel.current fun thread => { thread with error := code }) :=
    .errno code (.inl rfl)
  refine sound.moves (fun t waits => ⟨fun same => ?_, id⟩) id (fun _ _ => id) (.single move rfl rfl)
  -- The running thread does not wait, and no other one is touched.
  rw [show t = s.kernel.current from same, out] at waits
  cases waits

/-! ## What is observed -/

omit [DecidableEq κ] [Fintype τ] in
/-- A thread that does not wait returns. -/
theorem call_took (out : s.call s.kernel.current = false) (result : IpcResult) :
    s.took result = { s with seen := s.seen ++ [.took s.kernel.current result] } := by
  rw [took, ← out, Function.update_eq_self]

omit [DecidableEq κ] in
/-- What happens to the lock is what is observed. -/
theorem Sound.act (sound : Sound idle start links C P s) {event : MutexObs τ}
    (seen : next.seen = s.seen ++ [event])
    (act : Lock.Act s.view event.lock?.toList next.view) :
    Lock.Held next.view (next.seen.filterMap MutexObs.lock?) := by
  -- An observation is at most one of the lock.
  have one : [event].filterMap MutexObs.lock? = event.lock?.toList := by
    cases shown : event.lock? <;> simp [shown]
  rw [seen, List.filterMap_append, one]
  exact sound.locked.act act

omit [DecidableEq κ] in
/-- An observation that says nothing about the lock. -/
theorem Sound.observe (sound : Sound idle start links C P s) {event : MutexObs τ}
    (silent : event.lock? = none) :
    Sound idle start links C P { s with seen := s.seen ++ [event] } := by
  refine { sound with
    locked := sound.act rfl ?_
    held := fun t owner => { sound.held t owner with }
    rates := fun calm => { sound.rates calm with } }
  rw [silent]
  exact .stay _

/-! ## The owner counts, and a free mutex is taken -/

omit [DecidableEq κ] in
/-- The owner takes the mutex once more, or gives it back but not for the last time. -/
theorem Sound.count (sound : Sound idle start links C P s)
    (owner : s.mutex.owner = some s.kernel.current) (out : s.call s.kernel.current = false)
    {hold : ℕ} (positive : 0 < hold) (bound : hold ≤ rtMutexHoldMax) {event : MutexObs τ}
    (act : Lock.Act ⟨some s.kernel.current, s.mutex.hold, false⟩ event.lock?.toList
      ⟨some s.kernel.current, hold, false⟩) :
    Sound idle start links C P { s with
      mutex := { s.mutex with hold := hold }
      seen := s.seen ++ [event] } := by
  refine { sound with
    free := fun none => ?_
    held := fun t same => ?_
    locked := sound.act rfl (by simpa [view, owner, out] using act)
    rates := fun calm => { sound.rates calm with } }
  · -- The mutex has an owner, before and after.
    rw [owner] at none
    cases none
  · obtain rfl := Option.some.inj (owner.symm.trans same)
    refine { sound.held _ owner with hold := positive, hold_le := bound, handed := fun waits => ?_ }
    rw [out] at waits
    cases waits

omit [DecidableEq τ] [DecidableEq κ] [Fintype τ] in
/-- Nobody waits for a free mutex, and all threads have their own priorities. -/
theorem Rates.enter (rates : Rates links P s) (free : s.mutex.owner = none) {t : τ}
    (runs : (s.kernel.thread t).stat = .running)
    (empty : s.kernel.lists (.waiting links.object) = []) {value hold : ℕ}
    {seen : List (MutexObs τ)} :
    Rates links P { s with
      mutex := { s.mutex with
        value := value
        owner := some t
        originalPriority := some (s.kernel.thread t).currentPriority
        hold := hold }
      seen := seen } := by
  -- Without an owner nobody has inherited a priority.
  have own : ∀ u, (s.kernel.thread u).currentPriority = (s.kernel.thread u).initPriority :=
    fun u => rates.own u (by simp [free])
  refine { rates with
    own := fun u _ => own u
    original := fun u owner => ?_
    urgent := fun u _ => (own u).le
    started := fun u owner => ?_
    inherits := fun _ u owner v listed => ?_ }
  · obtain rfl := Option.some.inj owner
    exact congrArg some (own t)
  · obtain rfl := Option.some.inj owner
    simp [runs]
  · rw [empty] at listed
    cases listed

omit [DecidableEq κ] in
/-- A thread takes the mutex when it is free. -/
theorem Sound.enter (sound : Sound idle start links C P s) (free : s.mutex.owner = none)
    (runs : (s.kernel.thread s.kernel.current).stat = .running)
    (out : s.call s.kernel.current = false) :
    Sound idle start links C P { s with
      mutex := { s.mutex with
        value := s.mutex.value - 1
        owner := some s.kernel.current
        originalPriority := some (s.kernel.thread s.kernel.current).currentPriority
        hold := s.mutex.hold + 1 }
      seen := s.seen ++ [.took s.kernel.current .eok] } := by
  obtain ⟨value, hold, empty⟩ := sound.free free
  refine { sound with
    handed := fun t waits => ?_
    free := fun none => by cases none
    held := fun t owner => ?_
    locked := sound.act rfl ?_
    rates := fun calm => (sound.rates calm).enter free runs empty }
  · -- The one who takes it does not wait for it.
    rw [sound.handed t waits, free]
    refine iff_of_false (by simp) fun same => ?_
    rw [← Option.some.inj same, out] at waits
    cases waits
  · obtain rfl := Option.some.inj owner
    exact ⟨by simp [value], by simp, by simp [hold, rtMutexHoldMax], by simp,
      fun _ => by simp [hold]⟩
  · simpa [view, free, out, hold, MutexObs.lock?] using Lock.Act.enter s.kernel.current 0 false

/-! ## Priorities are inherited -/

omit [Fintype τ] in
/-- The owner, which is not in the list, gets another priority, up to its own. -/
theorem Rates.tune (rates : Rates links P s) (good : Kernel.Good idle s.kernel) {t : τ}
    (owner : s.mutex.owner = some t) (absent : t ∉ s.kernel.lists (.waiting links.object))
    {priority : Fin 32} (urgent : priority ≤ (s.kernel.thread t).initPriority) {Q : Prop}
    (inherits : Q → P ∧ priority ≤ (s.kernel.thread t).currentPriority) :
    Rates links Q { s with kernel := s.kernel.changePriority t priority } := by
  have thread := good.thread_changePriority t priority
  have waiting := good.waiting_changePriority t priority links.object
  -- Only the owner changes, and it is not in the list.
  have others : ∀ u, u ≠ t → (s.kernel.changePriority t priority).thread u = s.kernel.thread u := by
    intro u other
    rw [thread, Function.update_of_ne other]
  have mine : ∀ u, s.mutex.owner = some u → t = u := fun u same =>
    Option.some.inj (owner.symm.trans same)
  constructor
  case own =>
    intro u other
    rw [others u fun same => other (same ▸ owner)]
    exact rates.own u other
  case original =>
    intro u same
    obtain rfl := mine u same
    simpa only [thread, Function.update_self] using rates.original t owner
  case urgent =>
    intro u same
    obtain rfl := mine u same
    simpa only [thread, Function.update_self] using urgent
  case started =>
    intro u same
    obtain rfl := mine u same
    simpa only [thread, Function.update_self] using rates.started t owner
  case sorted =>
    intro flag
    rw [waiting]
    refine (rates.sorted flag).imp_of_mem fun {one two} first second le => ?_
    rw [others one fun same => absent (same ▸ first), others two fun same => absent (same ▸ second)]
    exact le
  case inherits =>
    intro eager u same v listed
    obtain rfl := mine u same
    rw [waiting] at listed
    obtain ⟨eager, le⟩ := inherits eager
    rw [others v fun same => absent (same ▸ listed), thread, Function.update_self]
    exact le.trans (rates.inherits eager t owner v listed)

/-- The owner gets another priority, in a calm run up to its own. -/
theorem Sound.tune (sound : Sound idle start links C P s) {t : τ} (owner : s.mutex.owner = some t)
    {priority : Fin 32} (urgent : C → priority ≤ (s.kernel.thread t).initPriority) {Q : Prop}
    (inherits : Q → P ∧ priority ≤ (s.kernel.thread t).currentPriority) :
    Sound idle start links C Q { s with kernel := s.kernel.changePriority t priority } := by
  -- All but the priorities is kept as in any call that touches nobody who waits.
  have kept := (sound.rerate (D := False) (Q := Q) False.elim).moves (fun _ _ => ⟨id, id⟩) id
    False.elim (Kernel.returned_changePriority s.kernel t priority)
  exact kept.rerate fun calm => (sound.rates calm).tune sound.good owner
    (sound.owner_notMem owner) (urgent calm) inherits

/-- The owner has inherited a priority, and everything else is as it was. -/
structure Raised (links : IpcLinks κ) (t : τ) (s next : MutexHost τ κ) : Prop where
  current : next.kernel.current = s.kernel.current
  call : next.call = s.call
  mutex : next.mutex = s.mutex
  seen : next.seen = s.seen
  others : ∀ u, u ≠ t → next.kernel.thread u = s.kernel.thread u
  waiting : next.kernel.lists (.waiting links.object) = s.kernel.lists (.waiting links.object)
  level : (next.kernel.thread t).currentPriority ≤
    (s.kernel.thread s.kernel.current).currentPriority

/-- The owner inherits the priority of a more urgent thread. -/
theorem Sound.raise (sound : Sound idle start links C P s) {t : τ}
    (owner : s.mutex.owner = some t) :
    Sound idle start links C P (s.raise t) ∧ Raised links t s (s.raise t) := by
  rw [MutexHost.raise]
  split
  · rename_i less
    have thread :=
      sound.good.thread_changePriority t (s.kernel.thread s.kernel.current).currentPriority
    -- The new priority is above the old one, and so above its own.
    have tuned := sound.tune owner (fun calm => less.le.trans ((sound.rates calm).urgent t owner))
      fun eager => ⟨eager, less.le⟩
    refine ⟨tuned, (Kernel.rest_changePriority s.kernel t _).1, rfl, rfl, rfl, fun u other => ?_,
      sound.good.waiting_changePriority t _ links.object, ?_⟩
    · rw [thread, Function.update_of_ne other]
    · rw [thread, Function.update_self]
  · rename_i not_less
    exact ⟨sound, rfl, rfl, rfl, rfl, fun _ _ => rfl, rfl, not_lt.mp not_less⟩

/-! ## The running thread waits -/

omit [DecidableEq τ] [DecidableEq κ] [Fintype τ] in
/-- A thread joins the list that the owner is as urgent as. -/
theorem Rates.wait (rates : Rates links P s) {t : τ} (owner : s.mutex.owner = some t)
    (other : s.kernel.current ≠ t)
    (level : (s.kernel.thread t).currentPriority ≤
      (s.kernel.thread s.kernel.current).currentPriority) {kernel : Kernel τ κ}
    (started : ∀ u ∈ kernel.lists (.waiting links.object), (s.kernel.thread u).stat ≠ .init)
    (rated : ∀ u, Kernel.Rated (s.kernel.thread u) (kernel.thread u))
    (waits : Kernel.Waits s.kernel.current links.object links.flag s.kernel kernel)
    {call : τ → Bool} : Rates links P { s with kernel := kernel, call := call } := by
  -- The owner is another thread, and nothing happens to it.
  have same : kernel.thread t = s.kernel.thread t := waits.others t other.symm
  have mine : ∀ u, s.mutex.owner = some u → t = u := fun u same =>
    Option.some.inj (owner.symm.trans same)
  constructor
  case own => exact fun u away => (rated u).own (rates.own u away)
  case original =>
    intro u holds
    obtain rfl := mine u holds
    simpa only [same] using rates.original t owner
  case urgent =>
    intro u holds
    obtain rfl := mine u holds
    simpa only [same] using rates.urgent t owner
  case started =>
    intro u holds
    obtain rfl := mine u holds
    simpa only [same] using rates.started t owner
  case sorted =>
    intro flag
    have joined := waits.joined
    -- The thread is put behind those that are at least as urgent.
    have ordered := IpcFlag.pairwise_joined flag s.kernel.current (rates.sorted flag)
    rw [← joined] at ordered
    refine ordered.imp_of_mem fun {one two} first second le => ?_
    rw [(rated one).eq (started one first), (rated two).eq (started two second)]
    exact le
  case inherits =>
    intro eager u holds v listed
    obtain rfl := mine u holds
    simp only [same, (rated v).eq (started v listed)]
    -- The owner is as urgent as the new one, and as those who waited before.
    rcases waits.mem.mp listed with last | before
    · rw [last]
      exact level
    · exact rates.inherits eager t owner v before

/-- The running thread waits for a mutex that another thread owns and is as urgent as this. -/
theorem Sound.wait (sound : Sound idle start links C P s)
    (runs : (s.kernel.thread s.kernel.current).stat = .running) (busy : s.kernel.current ≠ idle)
    {t : τ} (owner : s.mutex.owner = some t) (other : s.kernel.current ≠ t)
    (level : (s.kernel.thread t).currentPriority ≤
      (s.kernel.thread s.kernel.current).currentPriority)
    {time : BitVec 32} (waitable : Waitable time) :
    ∃ next, s.wait links time = some next ∧ Sound idle start links C P next ∧
      next.mutex = s.mutex ∧ next.kernel.lists (.waiting links.object) = links.flag.joined
        (fun u => (s.kernel.thread u).currentPriority) s.kernel.current
        (s.kernel.lists (.waiting links.object)) := by
  obtain ⟨kernel, done, returned, waits⟩ :=
    sound.good.waits runs busy links.object links.flag waitable.timer
  have started : ∀ u ∈ kernel.lists (.waiting links.object), (s.kernel.thread u).stat ≠ .init := by
    intro u member
    rcases waits.mem.mp member with same | listed
    · rw [same, runs]
      simp
    · exact sound.started listed
  refine ⟨{ s with kernel := kernel, call := Function.update s.call s.kernel.current true },
    by rw [MutexHost.wait, done]; rfl, ?_, rfl, waits.joined⟩
  refine { sound with
    good := sound.good.moves returned.moves
    timed := sound.timed.steps returned.timed
    monitored := ?_
    handed := fun u inside => ?_
    free := fun none => ?_
    held := fun u same => ?_
    locked := ?_
    rates := fun calm => (sound.rates calm).wait owner other level started
      (fun u => sound.good.rated id returned.moves) waits }
  · rw [Kernel.callPlace_update]
    exact sound.monitored.wait (fun _ _ _ => rfl) (.inr runs) busy (fun _ _ => rfl) rfl waits
  · by_cases same : u = s.kernel.current
    · -- The thread is suspended, and another one is the owner.
      rw [same]
      refine iff_of_false (fun both => Kernel.not_runnable_of_suspend waits.stat both.1)
        fun mine => other ?_
      exact Option.some.inj (mine.symm.trans owner)
    · dsimp only at inside ⊢
      rw [Function.update_of_ne same] at inside
      rw [waits.others u same]
      exact sound.handed u inside
  · rw [owner] at none
    cases none
  · obtain rfl := Option.some.inj (owner.symm.trans same)
    refine { sound.held _ owner with handed := ?_ }
    dsimp only
    rw [Function.update_of_ne other.symm]
    exact (sound.held _ owner).handed
  · convert sound.locked using 1
    simp [view, owner, other.symm]

omit [DecidableEq κ] in
/-- The running thread goes on in `rt_mutex_take`: it is the owner, or was woken with an error. -/
theorem Sound.back (sound : Sound idle start links C P s)
    (runs : (s.kernel.thread s.kernel.current).stat = .running)
    (waits : s.call s.kernel.current = true) :
    Sound idle start links C P (s.took (s.kernel.thread s.kernel.current).error.result) := by
  have mine := sound.handed _ waits
  refine { sound with
    monitored := ?_
    handed := fun u inside => ?_
    held := fun u owner => ?_
    locked := sound.act rfl ?_
    rates := fun calm => { sound.rates calm with } }
  · rw [took, Kernel.callPlace_update]
    exact sound.monitored.leave (.inr runs) (fun _ => le_rfl) fun _ _ => .inl rfl
  · -- A thread that still waits is another one.
    have other : u ≠ s.kernel.current := by
      intro same
      simp [took, same] at inside
    simp only [took, Function.update_of_ne other] at inside
    exact sound.handed u inside
  · refine { sound.held u owner with handed := fun inside => (sound.held u owner).handed ?_ }
    by_cases same : u = s.kernel.current
    · simp [took, same] at inside
    · simpa [took, same] using inside
  · -- Without an error the thread has been handed the mutex, and now hears of it.
    cases error : (s.kernel.thread s.kernel.current).error with
    | eok =>
      have owner := mine.mp ⟨.inr runs, error⟩
      have once := (sound.held _ owner).handed waits
      simpa [view, took, owner, waits, once, ThreadError.result, MutexObs.lock?] using
        Lock.Act.hear s.kernel.current
    | etimeout | error =>
      -- Another thread is the owner, or nobody.
      have away : s.mutex.owner ≠ some s.kernel.current := fun owner => by
        have both := mine.mpr owner
        rw [error] at both
        cases both.2
      have same : (s.took (s.kernel.thread s.kernel.current).error.result).view = s.view := by
        cases owner : s.mutex.owner with
        | none => simp [view, took, owner]
        | some t =>
          have other : t ≠ s.kernel.current := fun same => away (same ▸ owner)
          simp [view, took, owner, other]
      rw [error] at same
      rw [same]
      exact .stay _

/-! ## The last release -/

/-- The running thread has its own priority, and everything else is as it was. -/
structure Restored (links : IpcLinks κ) (C : Prop) (s next : MutexHost τ κ) : Prop where
  mutex : next.mutex = s.mutex
  call : next.call = s.call
  seen : next.seen = s.seen
  current : next.kernel.current = s.kernel.current
  waiting : next.kernel.lists (.waiting links.object) = s.kernel.lists (.waiting links.object)
  own : C → (next.kernel.thread next.kernel.current).currentPriority =
    (next.kernel.thread next.kernel.current).initPriority

/-- Before the last release the owner gets back the priority it had. -/
theorem Sound.restore (sound : Sound idle start links C P s)
    (owner : s.mutex.owner = some s.kernel.current) :
    ∃ next, s.restore = some next ∧ Sound idle start links C False next ∧
      Restored links C s next := by
  obtain ⟨priority, original⟩ := Option.ne_none_iff_exists'.mp (sound.held _ owner).kept
  -- In a calm run the priority that was kept is the thread's own.
  have own : C → priority = (s.kernel.thread s.kernel.current).initPriority := fun calm =>
    Option.some.inj (original.symm.trans ((sound.rates calm).original _ owner))
  rw [MutexHost.restore]
  split
  · rename_i same
    -- It already has the priority that was kept.
    have level := Option.some.inj (original.symm.trans same)
    exact ⟨s, rfl, sound.rerate fun calm => { sound.rates calm with inherits := False.elim },
      rfl, rfl, rfl, rfl, rfl, fun calm => level ▸ own calm⟩
  · rw [original]
    -- Giving the priority back may bring the owner below those who wait.
    have current := (Kernel.rest_changePriority s.kernel s.kernel.current priority).1
    refine ⟨_, rfl, sound.tune owner (fun calm => (own calm).le) False.elim, rfl, rfl, rfl, current,
      sound.good.waiting_changePriority _ _ links.object, fun calm => ?_⟩
    rw [current, sound.good.thread_changePriority, Function.update_self]
    exact own calm

omit [Fintype τ] [DecidableEq κ] in
/-- A mutex that nobody owns leaves all priorities as they are. -/
theorem Rates.free_last (rates : Rates links P s) {t : τ} (owner : s.mutex.owner = some t)
    (own : (s.kernel.thread t).currentPriority = (s.kernel.thread t).initPriority) {value : ℕ}
    {seen : List (MutexObs τ)} {Q : Prop} :
    Rates links Q { s with
      mutex := { s.mutex with value := value, hold := 0, owner := none, originalPriority := none }
      seen := seen } := by
  refine { rates with
    own := fun u _ => ?_
    original := fun u same => by cases same
    urgent := fun u same => by cases same
    started := fun u same => by cases same
    inherits := fun _ u same => by cases same }
  -- The old owner was the only one that could have another priority.
  by_cases same : u = t
  · rw [same]
    exact own
  · exact rates.own u fun mine => same (Option.some.inj (owner.symm.trans mine)).symm

omit [DecidableEq κ] in
/-- The owner releases the mutex for the last time, and nobody waits. -/
theorem Sound.free_last (sound : Sound idle start links C P s)
    (owner : s.mutex.owner = some s.kernel.current) (out : s.call s.kernel.current = false)
    (once : s.mutex.hold = 1)
    (own : C → (s.kernel.thread s.kernel.current).currentPriority =
      (s.kernel.thread s.kernel.current).initPriority)
    (empty : s.kernel.lists (.waiting links.object) = []) {Q : Prop} :
    Sound idle start links C Q { s with
      mutex := { s.mutex with
        value := s.mutex.value + 1
        hold := 0
        owner := none
        originalPriority := none }
      seen := s.seen ++ [.released s.kernel.current .eok] } := by
  have tenure := sound.held _ owner
  refine { sound with
    handed := fun u inside => ?_
    free := fun _ => ⟨by simp [tenure.value], rfl, empty⟩
    held := fun u same => by cases same
    locked := sound.act rfl ?_
    rates := fun calm => (sound.rates calm).free_last owner (own calm) }
  · -- Whoever waits was not the owner.
    rw [sound.handed u inside, owner]
    refine iff_of_false (fun same => ?_) (by simp)
    rw [← Option.some.inj same, out] at inside
    cases inside
  · simpa [view, owner, out, once, MutexObs.lock?] using Lock.Act.free s.kernel.current false

omit [DecidableEq τ] [DecidableEq κ] [Fintype τ] in
/-- The first thread in the list becomes the owner. -/
theorem Rates.hand (rates : Rates links P s)
    (own : ∀ v, (s.kernel.thread v).currentPriority = (s.kernel.thread v).initPriority)
    (started : ∀ v ∈ s.kernel.lists (.waiting links.object), (s.kernel.thread v).stat ≠ .init)
    {u : τ} {rest : List τ} (list : s.kernel.lists (.waiting links.object) = u :: rest)
    {kernel : Kernel τ κ} (rated : ∀ v, Kernel.Rated (s.kernel.thread v) (kernel.thread v))
    (shorter : (kernel.lists (.waiting links.object)).Sublist
      (s.kernel.lists (.waiting links.object)))
    (gone : u ∉ kernel.lists (.waiting links.object)) {seen : List (MutexObs τ)} :
    Rates links (links.flag = .prio) { s with
      mutex := { s.mutex with
        hold := 1, owner := some u, originalPriority := some (s.kernel.thread u).currentPriority }
      kernel := kernel
      seen := seen } := by
  have listed : u ∈ s.kernel.lists (.waiting links.object) := by simp [list]
  have levels : ∀ v ∈ s.kernel.lists (.waiting links.object),
      (kernel.thread v).currentPriority = (s.kernel.thread v).currentPriority :=
    fun v member => (rated v).eq (started v member)
  constructor
  case own => exact fun v _ => (rated v).own (own v)
  case original =>
    intro v same
    obtain rfl := Option.some.inj same
    simp only [(rated u).base, own u]
  case urgent => exact fun v _ => ((rated v).own (own v)).le
  case started =>
    intro v same
    obtain rfl := Option.some.inj same
    exact (rated u).started (started u listed)
  case sorted =>
    intro flag
    refine ((rates.sorted flag).sublist shorter).imp_of_mem fun {one two} first second le => ?_
    rw [levels one (shorter.subset first), levels two (shorter.subset second)]
    exact le
  case inherits =>
    intro flag v same w member
    obtain rfl := Option.some.inj same
    have before := shorter.subset member
    dsimp only
    rw [levels u listed, levels w before]
    -- The list is in the order of the priorities, and the thread was the first in it.
    have sorted := rates.sorted flag
    rw [list] at sorted before
    have distinct : w ≠ u := fun same => gone (same ▸ member)
    exact (List.pairwise_cons.mp sorted).1 w ((List.mem_cons.mp before).resolve_left distinct)

/-- The owner releases the mutex for the last time, and the first thread that waits gets it. -/
theorem Sound.hand (sound : Sound idle start links C P s)
    (owner : s.mutex.owner = some s.kernel.current) (out : s.call s.kernel.current = false)
    (once : s.mutex.hold = 1)
    (own : C → (s.kernel.thread s.kernel.current).currentPriority =
      (s.kernel.thread s.kernel.current).initPriority)
    {u : τ} {rest : List τ} (list : s.kernel.lists (.waiting links.object) = u :: rest) :
    Sound idle start links C (links.flag = .prio) { s with
      mutex := { s.mutex with
        hold := 1, owner := some u, originalPriority := some (s.kernel.thread u).currentPriority }
      kernel := s.kernel.rtThreadResume u
      seen := s.seen ++ [.released s.kernel.current .eok] } := by
  have tenure := sound.held _ owner
  obtain ⟨placed, suspended⟩ := (sound.monitored.listed () u).mp (by simp [list])
  have waits := Kernel.callPlace_eq_some.mp placed
  obtain ⟨returned, wakes⟩ := sound.good.wakes suspended
  -- In a calm run every thread has its own priority now, the old owner included.
  have levels : C → ∀ v, (s.kernel.thread v).currentPriority =
      (s.kernel.thread v).initPriority := by
    intro calm v
    by_cases same : v = s.kernel.current
    · rw [same]
      exact own calm
    · exact (sound.rates calm).own v fun mine =>
        same (Option.some.inj (owner.symm.trans mine)).symm
  refine { sound with
    good := sound.good.moves returned.moves
    timed := sound.timed.steps returned.timed
    monitored := ?_
    handed := fun v inside => ?_
    free := fun none => by cases none
    held := fun v same =>
      ⟨tenure.value, Nat.one_pos, by simp [rtMutexHoldMax], by simp, fun _ => rfl⟩
    locked := sound.act rfl ?_
    rates := fun calm => (sound.rates calm).hand (levels calm) (fun _ => sound.started) list
      (fun _ => sound.good.rated id returned.moves) (Kernel.waiting_sublist id returned.moves)
      fun listed => ((wakes.waiting _ u).mp listed).1 rfl }
  · exact sound.monitored.rise wakes.runnable wakes.others wakes.waiting
      fun _ _ => Wakeup.covered_zero
  · by_cases same : v = u
    · rw [same]
      exact iff_of_true ⟨wakes.runnable,
        wakes.error.trans (sound.monitored.hopeful u () placed suspended)⟩ rfl
    · -- The old owner does not wait, and no other thread was the owner.
      dsimp only at inside ⊢
      rw [wakes.others v same, sound.handed v inside, owner]
      refine iff_of_false (fun mine => ?_) fun mine => same (Option.some.inj mine).symm
      rw [← Option.some.inj mine, out] at inside
      cases inside
  · simpa [view, owner, out, once, waits, MutexObs.lock?] using Lock.Act.hand s.kernel.current u

/-! ## Every event -/

/--
What an event does to the threads in line.

The list gets shorter, or the running thread joins it.
The mutex changes hands when nobody waits, or it goes to the first thread in the list.
-/
structure Queued (links : IpcLinks κ) (s next : MutexHost τ κ) : Prop where
  list : (next.kernel.lists (.waiting links.object)).Sublist
      (s.kernel.lists (.waiting links.object)) ∨
    ∃ priority, next.kernel.lists (.waiting links.object) =
      links.flag.joined priority s.kernel.current (s.kernel.lists (.waiting links.object))
  owner : next.mutex.owner = s.mutex.owner ∨ s.kernel.lists (.waiting links.object) = [] ∨
    ∃ u rest, s.kernel.lists (.waiting links.object) = u :: rest ∧ next.mutex.owner = some u ∧
      u ∉ next.kernel.lists (.waiting links.object)

omit [DecidableEq τ] [DecidableEq κ] [Fintype τ] in
/-- Nothing happens to the threads in line. -/
theorem Queued.of_eq
    (list : next.kernel.lists (.waiting links.object) = s.kernel.lists (.waiting links.object))
    (owner : next.mutex.owner = s.mutex.owner) : Queued links s next :=
  ⟨.inl (list ▸ .refl _), .inl owner⟩

/-- The first thread that waits is woken with an error. -/
theorem Sound.dismiss (sound : Sound idle start links C P s)
    (waits : s.kernel.lists (.waiting links.object) ≠ []) :
    ∃ next, s.step links .dismiss = some next ∧ Sound idle start links C P next ∧
      Queued links s next := by
  obtain ⟨kernel, done, returned, t, dismissed⟩ := sound.good.dismisses waits
  have shorter : (kernel.lists (.waiting links.object)).Sublist
      (s.kernel.lists (.waiting links.object)) := Kernel.waiting_sublist id returned.moves
  refine ⟨{ s with kernel := kernel }, by rw [MutexHost.step, done]; rfl, ?_, .inl shorter,
    .inl rfl⟩
  refine sound.frame (sound.good.moves returned.moves) (sound.timed.steps returned.timed)
    (sound.monitored.dismiss dismissed) (fun u inside => ?_)
    (fun _ u => sound.good.rated id returned.moves) shorter
  -- Nobody is handed the mutex.
  rw [← sound.handed u inside]
  simpa [Kernel.mem_woken, inside] using
    Finset.ext_iff.mp (dismissed.woken_eq (Kernel.callPlace s.call) ()) u

omit [Fintype τ] in
/-- Getting back a priority does not depend on the count. -/
theorem restore_hold (s : MutexHost τ κ) (hold : ℕ) :
    restore { s with mutex := { s.mutex with hold := hold } } =
      s.restore.map fun next => { next with mutex := { next.mutex with hold := hold } } := by
  simp only [restore]
  split
  · rfl
  · cases original : s.mutex.originalPriority <;> simp [original]

/-- The owner, which has its own priority again, releases the mutex for the last time. -/
theorem Sound.pass (sound : Sound idle start links C P s)
    (owner : s.mutex.owner = some s.kernel.current) (out : s.call s.kernel.current = false)
    (once : s.mutex.hold = 1)
    (own : C → (s.kernel.thread s.kernel.current).currentPriority =
      (s.kernel.thread s.kernel.current).initPriority) :
    Sound idle start links C (links.flag = .prio)
        (pass links { s with mutex := { s.mutex with hold := 0 } }) ∧
      Queued links s (pass links { s with mutex := { s.mutex with hold := 0 } }) := by
  simp only [MutexHost.pass]
  split
  · -- The first thread that waits is woken as the new owner.
    rename_i u rest list
    have list : s.kernel.lists (.waiting links.object) = u :: rest := list
    obtain ⟨-, suspended⟩ := (sound.monitored.listed () u).mp (by simp [list])
    obtain ⟨returned, wakes⟩ := sound.good.wakes suspended
    rw [if_pos (by simp [rtMutexHoldMax]), released]
    simp only [Kernel.current_rtThreadResume]
    exact ⟨sound.hand owner out once own list, .inl (Kernel.waiting_sublist id returned.moves),
      .inr (.inr ⟨u, rest, list, rfl, fun listed => ((wakes.waiting _ u).mp listed).1 rfl⟩)⟩
  · rename_i empty
    have value := (sound.held _ owner).value
    rw [if_pos (by simp [rtMutexValueMax, value])]
    exact ⟨sound.free_last owner out once own empty, .inl (.refl _), .inr (.inl empty)⟩

/-- `rt_mutex_release` keeps everything. -/
theorem Sound.release (sound : Sound idle start links C (links.flag = .prio) s)
    (out : s.call s.kernel.current = false) :
    ∃ next, s.rtMutexRelease links = some next ∧
      Sound idle start links C (links.flag = .prio) next ∧ Queued links s next := by
  rw [rtMutexRelease, if_pos sound.attached]
  split
  · refine ⟨_, rfl, (sound.errno out .error).observe rfl, .of_eq ?_ ?_⟩ <;> rfl
  · rename_i owner
    have owner := not_not.mp owner
    have tenure := sound.held _ owner
    have positive := tenure.hold
    dsimp only
    split
    · -- The count is down to nothing, so the priority goes back and the mutex is passed on.
      rename_i last
      obtain ⟨middle, done, kept, restored⟩ := sound.restore owner
      rw [last, restore_hold, done]
      obtain ⟨passed, queued⟩ := kept.pass (by rw [restored.mutex, restored.current, owner])
        (by rw [restored.call, restored.current, out]) (by rw [restored.mutex]; omega) restored.own
      refine ⟨_, rfl, passed, ?_⟩
      have list := queued.list
      have hands := queued.owner
      rw [restored.waiting, restored.current] at list
      rw [restored.waiting] at hands
      exact ⟨list, hands.imp_left fun same => same.trans (by rw [restored.mutex])⟩
    · rename_i more
      refine ⟨_, rfl, sound.count owner out (by omega) (by have := tenure.hold_le; omega) ?_,
        .of_eq rfl rfl⟩
      -- Counting down from a positive number is one step of the lock.
      obtain ⟨hold, counted⟩ : ∃ hold, s.mutex.hold = hold + 1 := ⟨s.mutex.hold - 1, by omega⟩
      rw [counted]
      exact .give _ _

/-- A thread waits for a mutex that another thread owns, which inherits its priority. -/
theorem Sound.queue (sound : Sound idle start links C P s)
    (runs : (s.kernel.thread s.kernel.current).stat = .running) (busy : s.kernel.current ≠ idle)
    {t : τ} (owner : s.mutex.owner = some t) (other : s.kernel.current ≠ t) {time : BitVec 32}
    (waitable : Waitable time) :
    ∃ next, (s.raise t).wait links time = some next ∧ Sound idle start links C P next ∧
      Queued links s next := by
  -- First the owner inherits, and then the thread joins the list.
  obtain ⟨raised, inherited⟩ := sound.raise owner
  have current := inherited.current
  have same := inherited.others s.kernel.current other
  obtain ⟨next, done, kept, mutex, joined⟩ := raised.wait (t := t)
    (by rw [current, same]; exact runs) (by rw [current]; exact busy)
    (by rw [inherited.mutex]; exact owner) (by rw [current]; exact other)
    (by rw [current, same]; exact inherited.level) waitable
  refine ⟨next, done, kept, .inr ⟨fun u => ((s.raise t).kernel.thread u).currentPriority, ?_⟩,
    .inl (by rw [mutex, inherited.mutex])⟩
  rw [joined, inherited.waiting, current]

/-- `rt_mutex_take` keeps everything. -/
theorem Sound.take (sound : Sound idle start links C P s)
    (runs : (s.kernel.thread s.kernel.current).stat = .running)
    (out : s.call s.kernel.current = false) {time : BitVec 32}
    (busy : time ≠ 0 → s.kernel.current ≠ idle) (waitable : Waitable time) :
    ∃ next, s.rtMutexTake links time = some next ∧ Sound idle start links C P next ∧
      Queued links s next := by
  -- The error is cleared before anything else.
  have cleared := sound.errno out .eok
  have running :
      ((s.errno .eok).kernel.thread (s.errno .eok).kernel.current).stat = .running := by
    simp [MutexHost.errno, Kernel.upd, runs]
  rw [rtMutexTake, if_pos sound.attached]
  dsimp only
  split
  · -- The thread is the owner already.
    rename_i owner
    split
    · rename_i room
      rw [call_took (by exact out)]
      exact ⟨_, rfl, cleared.count owner out (by simp) room (.again _ _), .of_eq rfl rfl⟩
    · -- The count is full.
      rw [call_took (by exact out)]
      exact ⟨_, rfl, cleared.observe rfl, .of_eq rfl rfl⟩
  · rename_i foreign
    split
    · -- Nobody is the owner, since the value is positive.
      rename_i available
      have free : s.mutex.owner = none := by
        by_contra taken
        obtain ⟨t, owner⟩ := Option.ne_none_iff_exists'.mp taken
        have value := (sound.held t owner).value
        exact absurd available (by simp [MutexHost.errno, value])
      obtain ⟨-, hold, empty⟩ := sound.free free
      rw [if_pos (by simp [MutexHost.errno, hold, rtMutexHoldMax]), call_took (by exact out)]
      exact ⟨_, rfl, cleared.enter free running out, .inl (.refl _), .inr (.inl empty)⟩
    · rename_i unavailable
      split
      · rw [call_took (by exact out)]
        exact ⟨_, rfl, (cleared.errno out .etimeout).observe rfl, .of_eq rfl rfl⟩
      · -- Another thread is the owner, since the value is used up.
        rename_i some_time
        obtain ⟨t, owner⟩ : ∃ t, s.mutex.owner = some t := by
          refine Option.ne_none_iff_exists'.mp fun free => unavailable ?_
          simp [MutexHost.errno, (sound.free free).1]
        rw [show (s.errno .eok).mutex.owner = some t from owner]
        obtain ⟨next, done, kept, queued⟩ := cleared.queue running (busy some_time) owner
          (fun same => foreign (same ▸ owner)) waitable
        exact ⟨next, done, kept, queued.list, queued.owner⟩

omit [DecidableEq τ] [DecidableEq κ] [Fintype τ] in
/-- A calm event does not change a priority behind the back of the mutex. -/
theorem not_tune_of_calm {event : KernelEvent τ κ} (calm : (MutexEvent.kernel event).Calm)
    (k : Kernel τ κ) (t : τ) : ¬ (k.touched event).tune t := by
  cases event with
  | changePriority u priority => exact absurd calm id
  | _ => exact id

/-- Every event that may happen is handled, and keeps everything. -/
theorem Sound.step (sound : Sound idle start links C (links.flag = .prio) s)
    {event : MutexEvent τ κ} (allowed : s.Allowed idle links event) (calm : C → event.Calm) :
    ∃ next, s.step links event = some next ∧
      Sound idle start links C (links.flag = .prio) next ∧ Queued links s next := by
  cases event with
  | take time =>
    obtain ⟨runs, out, busy, waitable⟩ := allowed
    exact sound.take runs out busy waitable
  | back =>
    obtain ⟨runs, waits⟩ := allowed
    exact ⟨_, by rw [MutexHost.step, MutexHost.back, if_pos waits], sound.back runs waits,
      .of_eq rfl rfl⟩
  | release => exact sound.release allowed.2
  | dismiss => exact sound.dismiss allowed
  | kernel event =>
    obtain ⟨allowed, untouched, join⟩ := allowed
    obtain ⟨kernel, done, returned⟩ := sound.good.run sound.timed allowed
    have kept := sound.moves untouched join (fun c => not_tune_of_calm (calm c) _) returned
    exact ⟨{ s with kernel := kernel }, by rw [MutexHost.step, done]; rfl, kept,
      .inl (Kernel.waiting_sublist join returned.moves), .inl rfl⟩

/-- An event that happened has kept everything. -/
theorem Sound.after (sound : Sound idle start links C (links.flag = .prio) s)
    {event : MutexEvent τ κ} (allowed : s.Allowed idle links event) (calm : C → event.Calm)
    (taken : s.step links event = some next) :
    Sound idle start links C (links.flag = .prio) next ∧ Queued links s next := by
  obtain ⟨reached, done, kept⟩ := sound.step allowed calm
  obtain rfl := Option.some.inj (done.symm.trans taken)
  exact kept

end MutexHost
end MultifunctionClock
