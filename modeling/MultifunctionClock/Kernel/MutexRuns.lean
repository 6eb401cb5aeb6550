import MultifunctionClock.Kernel.MutexEvents

/-!
Runs of threads on one mutex.

At most one thread is inside, nobody overtakes a thread that waits in the order of arrival, and the
owner is as urgent as the threads that wait for it.
-/

namespace MultifunctionClock
namespace MutexHost

variable {τ κ : Type} [DecidableEq τ] [DecidableEq κ] [Fintype τ] {idle : τ} {start : BitVec 32}
  {links : IpcLinks κ} {C P : Prop} {s next : MutexHost τ κ}

/-- A state that can be reached from a new mutex on a kernel that has just started. -/
def Reached (idle : τ) (start : BitVec 32) (links : IpcLinks κ) (s : MutexHost τ κ) : Prop :=
  ∃ thread, Relation.ReflTransGen (Step idle links) (init idle start thread) s

/-- A state that can be reached while nothing but the mutex changes priorities. -/
def CalmReached (idle : τ) (start : BitVec 32) (links : IpcLinks κ) (s : MutexHost τ κ) : Prop :=
  ∃ thread, Relation.ReflTransGen (CalmStep idle links) (init idle start thread) s

omit [DecidableEq κ] in
/-- A new mutex on a kernel that has just started. -/
theorem sound_init (links : IpcLinks κ) (thread : τ → Fin 32 × BitVec 32) :
    Sound idle start links C P (init idle start thread) where
  good := Kernel.good_init idle start thread
  timed := .refl
  monitored := Kernel.monitored_new (fun _ => rfl) rfl
  handed := fun t waits => by simp [init] at waits
  attached := rfl
  free := fun _ => ⟨rfl, rfl, rfl⟩
  held := fun t owner => by simp [init, RtMutex.init] at owner
  locked := fun t => by simp [init, view, RtMutex.init, Lock.State.inside]
  rates := fun _ =>
    { own := fun t _ => by
        by_cases same : t = idle <;> simp [init, Kernel.init, RtThread.init, same]
      original := fun t owner => by simp [init, RtMutex.init] at owner
      urgent := fun t owner => by simp [init, RtMutex.init] at owner
      started := fun t owner => by simp [init, RtMutex.init] at owner
      sorted := fun _ => .nil
      inherits := fun _ t owner => by simp [init, RtMutex.init] at owner }

/-- What holds between the events holds in every state that is reached. -/
theorem sound_of_reached (reached : Reached idle start links s) :
    Sound idle start links False (links.flag = .prio) s := by
  obtain ⟨thread, run⟩ := reached
  -- The induction follows the run, one event at a time.
  induction run with
  | refl => exact sound_init links thread
  | tail _ step ih =>
    obtain ⟨event, allowed, taken⟩ := step
    exact (ih.after allowed False.elim taken).1

/-- In a calm run the priorities are in order as well. -/
theorem sound_of_calmReached (reached : CalmReached idle start links s) :
    Sound idle start links True (links.flag = .prio) s := by
  obtain ⟨thread, run⟩ := reached
  induction run with
  | refl => exact sound_init links thread
  | tail _ step ih =>
    -- The condition of the invariant is met by every step of such a run.
    obtain ⟨event, calm, allowed, taken⟩ := step
    exact (ih.after allowed (fun _ => calm) taken).1

/-- A list of events that can be executed leads to a state that can be reached. -/
theorem reached_of_exec {thread : τ → Fin 32 × BitVec 32} {events : List (MutexEvent τ κ)}
    (done : exec idle links (init idle start thread) events = some s) :
    Reached idle start links s :=
  ⟨thread, Reach.reflTransGen_of_foldlM (fun _ _ event _ taken =>
    ⟨event, Option.ite_none_right_eq_some.mp taken⟩) done⟩

/-- A list of calm events that can be executed is a calm run. -/
theorem calmReached_of_exec {thread : τ → Fin 32 × BitVec 32} {events : List (MutexEvent τ κ)}
    (calm : ∀ event ∈ events, event.Calm)
    (done : exec idle links (init idle start thread) events = some s) :
    CalmReached idle start links s :=
  ⟨thread, Reach.reflTransGen_of_foldlM (fun _ _ event member taken =>
    ⟨event, calm event member, Option.ite_none_right_eq_some.mp taken⟩) done⟩

omit [DecidableEq κ] [Fintype τ] in
/-- What the lock sees of the calls that succeed. -/
theorem count_lock (seen : List (MutexObs τ)) (t : τ) :
    (seen.filterMap MutexObs.lock?).count (.took t) = seen.count (.took t .eok) ∧
      (seen.filterMap MutexObs.lock?).count (.gave t) = seen.count (.released t .eok) := by
  -- Only a result of success counts, for the lock as for the list of all results.
  induction seen with
  | nil => exact ⟨rfl, rfl⟩
  | cons event rest ih =>
    cases event with
    | took u result | released u result =>
      cases result <;> simp [MutexObs.lock?, List.filterMap_cons, List.count_cons, ih]

/--
The first thread takes the mutex, the second waits for it, and then gets it.

In between another thread makes the owner as urgent as it can be.
-/
def demoEvents : List (MutexEvent DemoThread Unit) :=
  [.kernel (.startup .low), .take 0, .kernel (.startup .middle), .take 0xFFFFFFFF,
    .kernel .schedule, .kernel (.changePriority .low DemoThread.high.priority), .release,
    .kernel .schedule, .back]

/-- Two threads come to wait for a mutex that the first one owns. -/
def queueEvents : List (MutexEvent DemoThread Unit) :=
  [.kernel (.startup .low), .take 0, .kernel (.startup .middle), .take 0xFFFFFFFF,
    .kernel .schedule, .kernel (.startup .high), .take 0xFFFFFFFF]

-- In the order of arrival a less urgent thread can be the owner: nothing is inherited on a release.
example : (exec .idle ⟨(), .fifo⟩ (init .idle 0 demoThreads)
    (queueEvents ++ [.kernel .schedule, .release])).map (fun s => (s.mutex.owner,
      s.kernel.lists (.waiting ()), (s.kernel.thread .middle).currentPriority)) =
    some (some .middle, [.high], DemoThread.middle.priority) := by
  decide +kernel

omit [DecidableEq κ] [Fintype τ] [DecidableEq τ] in
/-- In a part of a list that an element is still in, fewer are in front of it. -/
theorem sublist_in_front {t : τ} {ahead behind list : List τ}
    (shorter : list.Sublist (ahead ++ t :: behind)) (nodup : (ahead ++ t :: behind).Nodup)
    (still : t ∈ list) :
    ∃ front back, list = front ++ t :: back ∧ front.Sublist ahead := by
  -- The shorter list splits where the longer one does.
  obtain ⟨front, rest, rfl, less, later⟩ := List.sublist_append_iff.mp shorter
  obtain ⟨-, tail, disjoint⟩ := List.nodup_append.mp nodup
  have absent : t ∉ front := fun member => disjoint t (less.subset member) t (by simp) rfl
  rcases List.sublist_cons_iff.mp later with inner | ⟨back, rfl, -⟩
  · -- The element is in neither part.
    rcases List.mem_append.mp still with member | member
    · exact absurd member absent
    · exact absurd (inner.subset member) (List.nodup_cons.mp tail).1
  · exact ⟨front, back, rfl, less⟩

omit [DecidableEq τ] [DecidableEq κ] [Fintype τ] in
/-- While a thread waits in the order of arrival, nobody gets in front of it. -/
theorem Queued.in_front (queued : Queued links s next) (fifo : links.flag = .fifo) {t : τ}
    {ahead behind : List τ}
    (list : s.kernel.lists (.waiting links.object) = ahead ++ t :: behind)
    (nodup : (s.kernel.lists (.waiting links.object)).Nodup)
    (still : t ∈ next.kernel.lists (.waiting links.object)) :
    (∃ front back, next.kernel.lists (.waiting links.object) = front ++ t :: back ∧
      front.Sublist ahead) ∧
      (next.mutex.owner = s.mutex.owner ∨ ∃ u ∈ ahead, next.mutex.owner = some u) := by
  constructor
  · rcases queued.list with shorter | ⟨priority, joined⟩
    · rw [list] at shorter nodup
      exact sublist_in_front shorter nodup still
    · -- A new thread goes to the end.
      rw [joined, list, fifo]
      exact ⟨ahead, behind ++ [s.kernel.current], by simp [IpcFlag.joined], .refl _⟩
  · rcases queued.owner with same | empty | ⟨u, rest, first, owner, gone⟩
    · exact .inl same
    · rw [empty] at list
      simp at list
    · -- The first in the list is not the thread itself, which still waits.
      refine .inr ⟨u, ?_, owner⟩
      rw [list] at first
      cases ahead with
      | nil =>
        rw [List.nil_append, List.cons.injEq] at first
        exact absurd (first.1 ▸ still) gone
      | cons head tail =>
        rw [List.cons_append, List.cons.injEq] at first
        simp [first.1]

/-- An event after which a thread still waits. -/
def StillWaits (idle : τ) (links : IpcLinks κ) (t : τ) (s next : MutexHost τ κ) : Prop :=
  Step idle links s next ∧ t ∈ next.kernel.lists (.waiting links.object)

end MutexHost
end MultifunctionClock
