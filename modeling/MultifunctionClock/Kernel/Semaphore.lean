import MultifunctionClock.Kernel.Monitor

/-!
`rt_sem_take` and `rt_sem_release` on the threads of the kernel.

A release hands its token straight to the first thread that waits,
so no token is lost or taken twice.
-/

namespace MultifunctionClock

/-- `struct rt_semaphore`. -/
structure RtSemaphore where
  /-- The object type is `RT_Object_Class_Semaphore`. -/
  attached : Bool
  value : ℕ

/-- `RT_SEM_VALUE_MAX`. -/
def rtSemValueMax : ℕ := 65535

/-- What can be observed of a semaphore: what its calls return. -/
inductive SemObs (τ : Type) where
  | took (thread : τ) (result : IpcResult)
  | tried (result : IpcResult)
  | released (result : IpcResult)
deriving DecidableEq

/-- A token was taken. -/
def SemObs.taken {τ : Type} : SemObs τ → Bool
  | .took _ .eok | .tried .eok => true
  | _ => false

/-- A token was given back. -/
def SemObs.given {τ : Type} : SemObs τ → Bool
  | .released .eok => true
  | _ => false

/-- The kernel, one semaphore and which threads wait in `rt_sem_take`. -/
structure SemHost (τ κ : Type) where
  kernel : Kernel τ κ
  sem : RtSemaphore
  call : τ → Bool
  /-- What was observed so far. -/
  seen : List (SemObs τ)

/--
A call of the running thread, the rest of its call, a call of a thread or an interrupt,
or something else.
-/
inductive SemEvent (τ κ : Type) where
  | take (time : BitVec 32)
  /-- The running thread goes on in `rt_sem_take`. -/
  | back
  | trytake
  | release
  /-- One turn of the loop of `rt_sem_detach`. -/
  | dismiss
  /-- Anything else that the kernel does. -/
  | kernel (event : KernelEvent τ κ)

namespace SemHost

variable {τ κ : Type} [DecidableEq τ] [DecidableEq κ]

/-- The running thread returns from `rt_sem_take`. -/
def took (s : SemHost τ κ) (result : IpcResult) : SemHost τ κ :=
  { s with
    call := Function.update s.call s.kernel.current false
    seen := s.seen ++ [.took s.kernel.current result] }

/-- `rt_sem_take`, until it returns or waits. -/
def rtSemTake (links : IpcLinks κ) (s : SemHost τ κ) (time : BitVec 32) : Option (SemHost τ κ) :=
  if s.sem.attached then
    -- A token that is there is taken without waiting.
    if 0 < s.sem.value then
      some (took { s with sem := { s.sem with value := s.sem.value - 1 } } .eok)
    else if time = 0 then some (s.took .etimeout)
    else do
      -- The thread goes on in `back` when it is woken or its time is up.
      let kernel ← s.kernel.run (.wait links.object links.flag (waitTimer time))
      return { s with kernel := kernel, call := Function.update s.call s.kernel.current true }
  else none

/-- The running thread goes on behind `rt_schedule` in `rt_sem_take`. -/
def back (s : SemHost τ κ) : Option (SemHost τ κ) :=
  if s.call s.kernel.current then some (s.took (s.kernel.thread s.kernel.current).error.result)
  else none

/-- `rt_sem_trytake`, which does not look at the thread it is called in. -/
def rtSemTrytake (s : SemHost τ κ) : Option (SemHost τ κ) :=
  if s.sem.attached then
    if 0 < s.sem.value then
      some { s with
        sem := { s.sem with value := s.sem.value - 1 }
        seen := s.seen ++ [.tried .eok] }
    else some { s with seen := s.seen ++ [.tried .etimeout] }
  else none

/-- `rt_sem_release`. -/
def rtSemRelease (links : IpcLinks κ) (s : SemHost τ κ) : Option (SemHost τ κ) :=
  if s.sem.attached then
    match s.kernel.lists (.waiting links.object) with
    -- The value stays zero: the token goes to the thread that is woken.
    | u :: _ =>
      some { s with
        kernel := s.kernel.rtThreadResume u
        seen := s.seen ++ [.released .eok] }
    | [] =>
      if s.sem.value < rtSemValueMax then
        some { s with
          sem := { s.sem with value := s.sem.value + 1 }
          seen := s.seen ++ [.released .eok] }
      else some { s with seen := s.seen ++ [.released .efull] }
  else none

/-- One event. There is no result when an assertion fails. -/
def step (links : IpcLinks κ) (s : SemHost τ κ) : SemEvent τ κ → Option (SemHost τ κ)
  | .take time => s.rtSemTake links time
  | .back => s.back
  | .trytake => s.rtSemTrytake
  | .release => s.rtSemRelease links
  | .dismiss => (s.kernel.resumeError links.object).map fun kernel => { s with kernel := kernel }
  | .kernel event => (s.kernel.run event).map fun kernel => { s with kernel := kernel }

/--
What may happen next.

A thread that waits for the semaphore is not suspended or woken by others, and the list of the
semaphore is its own.
-/
def Allowed (idle : τ) (links : IpcLinks κ) (s : SemHost τ κ) : SemEvent τ κ → Prop
  | .take time => (s.kernel.thread s.kernel.current).stat = .running ∧
      s.call s.kernel.current = false ∧
    (time ≠ 0 → s.kernel.current ≠ idle) ∧ Waitable time
  | .back => (s.kernel.thread s.kernel.current).stat = .running ∧ s.call s.kernel.current = true
  | .trytake | .release => True
  | .dismiss => s.kernel.lists (.waiting links.object) ≠ []
  | .kernel event => s.kernel.Allowed idle event ∧
    (∀ t, s.call t = true → ¬ (s.kernel.touched event).stop t ∧ ¬ (s.kernel.touched event).wake t) ∧
    ¬ (s.kernel.touched event).join links.object

instance [Fintype τ] (idle : τ) (links : IpcLinks κ) (s : SemHost τ κ) :
    DecidablePred (s.Allowed idle links)
  | .take time => inferInstanceAs (Decidable
      ((s.kernel.thread s.kernel.current).stat = .running ∧ s.call s.kernel.current = false ∧
        (time ≠ 0 → s.kernel.current ≠ idle) ∧ Waitable time))
  | .back => inferInstanceAs (Decidable
      ((s.kernel.thread s.kernel.current).stat = .running ∧ s.call s.kernel.current = true))
  | .trytake | .release => inferInstanceAs (Decidable True)
  | .dismiss => inferInstanceAs (Decidable (s.kernel.lists (.waiting links.object) ≠ []))
  | .kernel event => inferInstanceAs (Decidable (s.kernel.Allowed idle event ∧
      (∀ t, s.call t = true → ¬ (s.kernel.touched event).stop t ∧
        ¬ (s.kernel.touched event).wake t) ∧
      ¬ (s.kernel.touched event).join links.object))

/-- One allowed event happens. -/
def Step (idle : τ) (links : IpcLinks κ) (s next : SemHost τ κ) : Prop :=
  ∃ event, s.Allowed idle links event ∧ s.step links event = some next

/-- A list of events in a row, each of them allowed. -/
def exec [Fintype τ] (idle : τ) (links : IpcLinks κ) (s : SemHost τ κ)
    (events : List (SemEvent τ κ)) :
    Option (SemHost τ κ) :=
  events.foldlM (fun s event => if s.Allowed idle links event then s.step links event else none) s

/-- No thread but the idle one has been started, and the semaphore is new: `rt_sem_init`. -/
def init (idle : τ) (start : BitVec 32) (thread : τ → Fin 32 × BitVec 32) (value : ℕ) :
    SemHost τ κ where
  kernel := Kernel.init idle start thread
  sem := ⟨true, value⟩
  call _ := false
  seen := []

variable [Fintype τ] {idle : τ} {start : BitVec 32} {links : IpcLinks κ} {value : ℕ}
  {s next : SemHost τ κ}

/-- The threads that were handed a token and have not returned yet. -/
def handed (s : SemHost τ κ) : Finset τ := s.kernel.woken (Kernel.callPlace s.call) ()

/--
What holds between the events.

Nobody waits while there is a token. The tokens that there were at first and those that were given
back are those that were taken, those that are there and those that were handed to a thread.
-/
structure Sound (idle : τ) (start : BitVec 32) (links : IpcLinks κ) (value : ℕ)
    (s : SemHost τ κ) : Prop where
  good : Kernel.Good idle s.kernel
  timed : Kernel.Timed start s.kernel
  monitored : Kernel.Monitored idle (fun _ : Unit => links.object) s.kernel
    (Kernel.callPlace s.call) fun _ => 0
  attached : s.sem.attached = true
  value_le : s.sem.value ≤ rtSemValueMax
  none_left : s.kernel.lists (.waiting links.object) ≠ [] → s.sem.value = 0
  conserved : value + s.seen.countP SemObs.given =
    s.seen.countP SemObs.taken + s.sem.value + s.handed.card

/-- What the kernel does without touching the threads that wait keeps everything. -/
theorem Sound.moves (sound : Sound idle start links value s) {N : Kernel.Touched τ κ}
    {kernel : Kernel τ κ} (untouched : ∀ t, s.call t = true → ¬ N.stop t ∧ ¬ N.wake t)
    (join : ¬ N.join links.object) (returned : Kernel.Returned idle N s.kernel kernel) :
    Sound idle start links value { s with kernel := kernel } := by
  have stop : ∀ t side, Kernel.callPlace s.call t = some side → ¬ N.stop t := fun t side placed =>
    (untouched t (Kernel.callPlace_eq_some.mp placed)).1
  have wake : ∀ t side, Kernel.callPlace s.call t = some side → ¬ N.wake t := fun t side placed =>
    (untouched t (Kernel.callPlace_eq_some.mp placed)).2
  refine { sound with
    good := sound.good.moves returned.moves
    timed := sound.timed.steps returned.timed
    monitored := sound.monitored.moves sound.good stop wake (fun _ => join) returned.moves
    none_left := fun full => sound.none_left fun empty => full ?_
    conserved := ?_ }
  · -- Nobody joins the list, so who waits now waited before.
    have shorter := Kernel.waiting_sublist join returned.moves
    rw [empty] at shorter
    exact List.sublist_nil.mp shorter
  · rw [handed, sound.monitored.woken_moves sound.good stop wake returned.moves]
    exact sound.conserved

omit [DecidableEq κ] in
/-- The first call of a thread changes neither who waits nor who was handed a token. -/
theorem Sound.observe (sound : Sound idle start links value s) {left : ℕ} {event : SemObs τ}
    (bound : left ≤ rtSemValueMax)
    (none_left : s.kernel.lists (.waiting links.object) ≠ [] → left = 0)
    (conserved : s.sem.value + [event].countP SemObs.given = [event].countP SemObs.taken + left) :
    Sound idle start links value
      { s with sem := { s.sem with value := left }, seen := s.seen ++ [event] } := by
  refine { sound with value_le := bound, none_left := none_left, conserved := ?_ }
  -- The books balance before, and the one event balances by itself.
  have before := sound.conserved
  rw [List.countP_append, List.countP_append]
  simp only [handed] at before ⊢
  omega

/-- The running thread begins to wait, when there is no token. -/
theorem Sound.wait (sound : Sound idle start links value s)
    (runs : (s.kernel.thread s.kernel.current).stat = .running) (busy : s.kernel.current ≠ idle)
    (out : s.call s.kernel.current = false) (none_left : s.sem.value = 0) {time : BitVec 32}
    (waitable : Waitable time) :
    ∃ kernel, s.kernel.run (.wait links.object links.flag (waitTimer time)) = some kernel ∧
      Sound idle start links value
        { s with kernel := kernel, call := Function.update s.call s.kernel.current true } := by
  obtain ⟨kernel, done, returned, waits⟩ :=
    sound.good.waits runs busy links.object links.flag waitable.timer
  refine ⟨kernel, done, { sound with
    good := sound.good.moves returned.moves
    timed := sound.timed.steps returned.timed
    monitored := ?_
    none_left := fun _ => none_left
    conserved := ?_ }⟩
  · rw [Kernel.callPlace_update]
    exact sound.monitored.wait (fun _ _ _ => rfl) (.inr runs) busy (fun _ _ => rfl) rfl waits
  · -- The thread was not handed a token, and is suspended now.
    have before : s.kernel.current ∉ s.kernel.woken (Kernel.callPlace s.call) () := by
      simp [Kernel.mem_woken, out]
    have elsewhere : ∀ u, u ≠ s.kernel.current →
        Kernel.callPlace (Function.update s.call s.kernel.current true) u =
          Kernel.callPlace s.call u :=
      fun u other => by simp [Kernel.callPlace, other]
    have same := Kernel.erase_woken waits.others elsewhere ()
    rw [Finset.erase_eq_of_notMem before,
      Finset.erase_eq_of_notMem (Kernel.notMem_woken waits.stat ())] at same
    rw [handed, same]
    exact sound.conserved

omit [DecidableEq κ] in
/-- The running thread goes on in `rt_sem_take`: it was handed a token, or woken with an error. -/
theorem Sound.back (sound : Sound idle start links value s)
    (runs : (s.kernel.thread s.kernel.current).stat = .running)
    (waits : s.call s.kernel.current = true) :
    Sound idle start links value (s.took (s.kernel.thread s.kernel.current).error.result) := by
  have after : s.kernel.current ∉ s.kernel.woken
      (Kernel.callPlace (Function.update s.call s.kernel.current false)) () := by
    simp [Kernel.mem_woken]
  have elsewhere : ∀ u, u ≠ s.kernel.current →
      Kernel.callPlace (Function.update s.call s.kernel.current false) u =
        Kernel.callPlace s.call u :=
    fun u other => by simp [Kernel.callPlace, other]
  -- Only the place of the running thread changes.
  have unchanged : ∀ u, u ≠ s.kernel.current → s.kernel.thread u = s.kernel.thread u :=
    fun _ _ => rfl
  have same := Kernel.erase_woken unchanged elsewhere ()
  rw [Finset.erase_eq_of_notMem after] at same
  refine { sound with monitored := ?_, conserved := ?_ }
  · rw [took, Kernel.callPlace_update]
    exact sound.monitored.leave (.inr runs) (fun _ => le_rfl) fun _ _ => .inl rfl
  · have before := sound.conserved
    simp only [took, handed, List.countP_append] at before ⊢
    rw [same]
    cases error : (s.kernel.thread s.kernel.current).error with
    | eok =>
      -- The token that the thread was handed is the one it takes.
      have member : s.kernel.current ∈ s.kernel.woken (Kernel.callPlace s.call) () :=
        Kernel.mem_woken.mpr ⟨Kernel.callPlace_eq_some.mpr waits, .inr runs, error⟩
      have some_handed := Finset.card_pos.mpr ⟨_, member⟩
      rw [Finset.card_erase_of_mem member]
      simp only [ThreadError.result, List.countP_singleton, SemObs.given, SemObs.taken]
      simp only [Bool.false_eq_true, if_false, if_true]
      omega
    -- A thread with an error was handed nothing.
    | etimeout | error =>
      have absent : s.kernel.current ∉ s.kernel.woken (Kernel.callPlace s.call) () :=
        fun member => by
        have eok := (Kernel.mem_woken.mp member).2.2
        rw [error] at eok
        cases eok
      rw [Finset.erase_eq_of_notMem absent]
      simpa [ThreadError.result, SemObs.given, SemObs.taken] using before

/-- A release hands its token to the first thread that waits. -/
theorem Sound.hand (sound : Sound idle start links value s) {u : τ} {rest : List τ}
    (list : s.kernel.lists (.waiting links.object) = u :: rest) :
    Sound idle start links value
      { s with kernel := s.kernel.rtThreadResume u, seen := s.seen ++ [.released .eok] } := by
  obtain ⟨placed, suspended⟩ := (sound.monitored.listed () u).mp (by simp [list])
  obtain ⟨returned, wakes⟩ := sound.good.wakes suspended
  refine { sound with
    good := sound.good.moves returned.moves
    timed := sound.timed.steps returned.timed
    monitored := sound.monitored.rise wakes.runnable wakes.others wakes.waiting fun _ _ =>
      Wakeup.covered_zero
    none_left := fun _ => sound.none_left (by simp [list])
    conserved := ?_ }
  -- The woken thread is the one more that was handed a token.
  have after : u ∈ (s.kernel.rtThreadResume u).woken (Kernel.callPlace s.call) () :=
    Kernel.mem_woken.mpr ⟨placed, wakes.runnable,
      wakes.error.trans (sound.monitored.hopeful u () placed suspended)⟩
  have same : ((s.kernel.rtThreadResume u).woken (Kernel.callPlace s.call) ()).erase u =
      (s.kernel.woken (Kernel.callPlace s.call) ()).erase u :=
    Kernel.erase_woken wakes.others (fun _ _ => rfl) ()
  rw [Finset.erase_eq_of_notMem (Kernel.notMem_woken suspended ())] at same
  have one_more := Finset.card_erase_add_one after
  have before := sound.conserved
  rw [same] at one_more
  simp only [handed, List.countP_append, List.countP_singleton, SemObs.given, SemObs.taken,
    Bool.false_eq_true,
    if_false, if_true] at before ⊢
  omega

omit [DecidableEq κ] [Fintype τ] in
/-- A thread that does not wait returns. -/
theorem call_took (out : s.call s.kernel.current = false) (result : IpcResult) :
    s.took result = { s with seen := s.seen ++ [.took s.kernel.current result] } := by
  rw [took, ← out, Function.update_eq_self]

omit [DecidableEq κ] in
/-- While there is a token, nobody waits. -/
theorem Sound.nobody (sound : Sound idle start links value s) (available : 0 < s.sem.value) :
    s.kernel.lists (.waiting links.object) = [] := by
  by_contra waits
  have none_left := sound.none_left waits
  omega

omit [DecidableEq κ] in
/-- A token is taken at once, by a call that returns with it. -/
theorem Sound.grab (sound : Sound idle start links value s) (available : 0 < s.sem.value)
    {event : SemObs τ} (taken : event.taken = true) (given : event.given = false) :
    Sound idle start links value
      { s with sem := { s.sem with value := s.sem.value - 1 }, seen := s.seen ++ [event] } := by
  have bound := sound.value_le
  refine sound.observe (by omega) (fun waits => absurd (sound.nobody available) waits) ?_
  simp only [List.countP_singleton, taken, given, Bool.false_eq_true, if_false, if_true]
  omega

omit [DecidableEq κ] in
/-- A call returns that neither takes a token nor gives one back. -/
theorem Sound.pass (sound : Sound idle start links value s) {event : SemObs τ}
    (taken : event.taken = false) (given : event.given = false) :
    Sound idle start links value { s with seen := s.seen ++ [event] } :=
  sound.observe sound.value_le sound.none_left (by simp [taken, given])

/-- `rt_sem_take` takes a token, returns without one, or waits. -/
theorem Sound.rtSemTake (sound : Sound idle start links value s) {time : BitVec 32}
    (runs : (s.kernel.thread s.kernel.current).stat = .running)
    (out : s.call s.kernel.current = false) (busy : time ≠ 0 → s.kernel.current ≠ idle)
    (waitable : Waitable time) :
    ∃ next, s.rtSemTake links time = some next ∧ Sound idle start links value next := by
  rw [SemHost.rtSemTake, if_pos sound.attached]
  split
  · rename_i available
    rw [call_took (by exact out)]
    exact ⟨_, rfl, sound.grab available rfl rfl⟩
  · rename_i none_left
    split
    · -- The caller does not wait, and is told that its time is up.
      rw [call_took out]
      exact ⟨_, rfl, sound.pass rfl rfl⟩
    · rename_i some_time
      obtain ⟨kernel, done, kept⟩ := sound.wait runs (busy some_time) out (by omega) waitable
      exact ⟨_, by rw [done]; rfl, kept⟩

omit [DecidableEq κ] in
/-- `rt_sem_trytake` takes a token or returns without one. -/
theorem Sound.rtSemTrytake (sound : Sound idle start links value s) :
    ∃ next, s.rtSemTrytake = some next ∧ Sound idle start links value next := by
  rw [SemHost.rtSemTrytake, if_pos sound.attached]
  split
  · rename_i available
    exact ⟨_, rfl, sound.grab available rfl rfl⟩
  · exact ⟨_, rfl, sound.pass rfl rfl⟩

/-- `rt_sem_release` hands its token on, keeps it, or has no room for it. -/
theorem Sound.rtSemRelease (sound : Sound idle start links value s) :
    ∃ next, s.rtSemRelease links = some next ∧ Sound idle start links value next := by
  rw [SemHost.rtSemRelease, if_pos sound.attached]
  split
  · rename_i u rest list
    exact ⟨_, rfl, sound.hand list⟩
  · rename_i empty
    split
    · -- Nobody waits, so the token may stay.
      exact ⟨_, rfl, sound.observe (by omega) (fun waits => absurd empty waits)
        (by simp [SemObs.given, SemObs.taken])⟩
    · exact ⟨_, rfl, sound.pass rfl rfl⟩

/-- A thread that is dismissed gets no token. -/
theorem Sound.dismiss (sound : Sound idle start links value s)
    (waits : s.kernel.lists (.waiting links.object) ≠ []) :
    ∃ kernel, s.kernel.resumeError links.object = some kernel ∧
      Sound idle start links value { s with kernel := kernel } := by
  obtain ⟨kernel, done, returned, t, dismissed⟩ := sound.good.dismisses waits
  refine ⟨kernel, done, { sound with
    good := sound.good.moves returned.moves
    timed := sound.timed.steps returned.timed
    monitored := sound.monitored.dismiss dismissed
    none_left := fun _ => sound.none_left waits
    conserved := ?_ }⟩
  rw [handed, dismissed.woken_eq]
  exact sound.conserved

/-- Every event that may happen is handled, and keeps everything. -/
theorem Sound.step (sound : Sound idle start links value s) {event : SemEvent τ κ}
    (allowed : s.Allowed idle links event) :
    ∃ next, s.step links event = some next ∧ Sound idle start links value next := by
  cases event with
  | take time =>
    obtain ⟨runs, out, busy, waitable⟩ := allowed
    exact sound.rtSemTake runs out busy waitable
  | back =>
    obtain ⟨runs, waits⟩ := allowed
    exact ⟨_, by rw [SemHost.step, SemHost.back, if_pos waits], sound.back runs waits⟩
  | trytake => exact sound.rtSemTrytake
  | release => exact sound.rtSemRelease
  | dismiss =>
    obtain ⟨kernel, done, kept⟩ := sound.dismiss allowed
    exact ⟨{ s with kernel := kernel }, by rw [SemHost.step, done]; rfl, kept⟩
  | kernel event =>
    obtain ⟨allowed, untouched, join⟩ := allowed
    obtain ⟨kernel, done, returned⟩ := sound.good.run sound.timed allowed
    exact ⟨{ s with kernel := kernel }, by rw [SemHost.step, done]; rfl,
      sound.moves untouched join returned⟩

/-! ## Runs -/

/-- A state that can be reached from a new semaphore on a kernel that has just started. -/
def Reached (idle : τ) (start : BitVec 32) (links : IpcLinks κ) (value : ℕ)
    (s : SemHost τ κ) : Prop :=
  value ≤ rtSemValueMax ∧
    ∃ thread, Relation.ReflTransGen (Step idle links) (init idle start thread value) s

/-- What holds between the events holds in every state that is reached. -/
theorem sound_of_reached (reached : Reached idle start links value s) :
    Sound idle start links value s := by
  obtain ⟨bound, thread, run⟩ := reached
  -- The induction follows the run, one event at a time.
  induction run with
  | refl =>
    refine ⟨Kernel.good_init idle start thread, .refl,
      Kernel.monitored_new (fun _ => rfl) rfl, rfl, bound,
      fun waits => absurd rfl waits, ?_⟩
    simp [init, handed, Kernel.woken]
  | tail _ step ih =>
    obtain ⟨event, allowed, taken⟩ := step
    obtain ⟨next, done, sound⟩ := ih.step allowed
    rw [taken] at done
    exact Option.some.inj done ▸ sound

end SemHost
end MultifunctionClock
