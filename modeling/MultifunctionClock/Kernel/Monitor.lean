import MultifunctionClock.Kernel.Waiters
import MultifunctionClock.Lib.Wakeup

/-!
Calls that wait until there is something to take, on the threads of the kernel.

A thread in such a call looks whether there is something, waits in a list if there is nothing, and
looks again when it is woken. Nothing lies untaken while a thread waits for it, unless a thread that
was woken for it is about to look.
-/

namespace MultifunctionClock
namespace Kernel

variable {τ κ σ : Type} [DecidableEq τ] [DecidableEq κ] [DecidableEq σ] [Fintype τ] {idle t u : τ}
  {N : Touched τ κ} {object : σ → κ} {k next : Kernel τ κ} {place : τ → Option σ}
    {tokens : σ → ℕ} {side : σ}

/-- The threads that were woken to look for something on one side and have not looked yet. -/
def woken (k : Kernel τ κ) (place : τ → Option σ) (side : σ) : Finset τ :=
  Finset.univ.filter fun t => place t = some side ∧ (k.thread t).Runnable ∧
    (k.thread t).error = .eok

/--
The threads in calls on the sides of an object, and what there is to take on each side.

A thread in a call waits in the list of its side, or can run. While a list is not empty, as many
threads were woken as there is to take.
-/
structure Monitored (idle : τ) (object : σ → κ) (k : Kernel τ κ) (place : τ → Option σ)
    (tokens : σ → ℕ) :
    Prop where
  listed : ∀ side t, t ∈ k.lists (.waiting (object side)) ↔
    place t = some side ∧ (k.thread t).stat = .suspend
  hopeful : ∀ t side, place t = some side → (k.thread t).stat = .suspend → (k.thread t).error = .eok
  alive : ∀ t side, place t = some side → (k.thread t).stat = .suspend ∨ (k.thread t).Runnable
  busy : ∀ t side, place t = some side → t ≠ idle
  covered : ∀ side, Wakeup.Covered (tokens side) (k.lists (.waiting (object side)) ≠ [])
    (woken k place side)

omit [DecidableEq τ] [DecidableEq κ] in
/-- Who was woken is in a call, can run and has no error. -/
theorem mem_woken : t ∈ woken k place side ↔
    place t = some side ∧ (k.thread t).Runnable ∧ (k.thread t).error = .eok := by
  simp [woken]

/-- Calls that do not touch the threads in the monitor keep it. -/
theorem Monitored.moves (monitored : Monitored idle object k place tokens) (good : Good idle k)
    (stop : ∀ t side, place t = some side → ¬ N.stop t)
    (wake : ∀ t side, place t = some side → ¬ N.wake t) (join : ∀ side, ¬ N.join (object side))
    (moves : Moves idle N k next) :
    Monitored idle object next place tokens := by
  -- Each thread in a call is left where it is, or its time is up.
  have spared : ∀ t side, place t = some side → Spared t k next := fun t side inside =>
    good.spared (monitored.alive t side inside) (stop t side inside) (wake t side inside) moves
  constructor
  case listed =>
    intro side t
    constructor
    · intro member
      -- Nobody joins a list, so who is in it was in it before.
      obtain ⟨inside, -⟩ :=
        (monitored.listed side t).mp ((waiting_sublist (join side) moves).subset member)
      rcases spared t side inside with kept | out
      · exact ⟨inside, kept.suspended.mpr
          ((monitored.listed side t).mp ((kept.waiting _).mp member)).2⟩
      · exact absurd member (out.waiting _)
    · -- A thread that is still suspended is still in its list.
      intro both
      rcases spared t side both.1 with kept | out
      · exact (kept.waiting _).mpr
          ((monitored.listed side t).mpr ⟨both.1, kept.suspended.mp both.2⟩)
      · exact absurd out.runnable (not_runnable_of_suspend both.2)
  case hopeful =>
    intro t side inside suspended
    rcases spared t side inside with kept | out
    · rw [kept.error]
      exact monitored.hopeful t side inside (kept.suspended.mp suspended)
    · exact absurd out.runnable (not_runnable_of_suspend suspended)
  case alive =>
    intro t side inside
    rcases spared t side inside with kept | out
    · rw [kept.suspended, kept.runnable]
      exact monitored.alive t side inside
    · exact .inr out.runnable
  case busy => exact monitored.busy
  case covered =>
    intro side
    -- Those who were woken stay so, and a list that is not empty was not.
    refine (monitored.covered side).mono le_rfl (fun full empty => full ?_) fun t member => ?_
    · exact List.sublist_nil.mp (empty ▸ waiting_sublist (join side) moves)
    · obtain ⟨inside, runnable, error⟩ := mem_woken.mp member
      rcases spared t side inside with kept | out
      · exact mem_woken.mpr ⟨inside, kept.runnable.mpr runnable, kept.error.trans error⟩
      · exact absurd runnable (not_runnable_of_suspend out.suspended)

omit [DecidableEq τ] [DecidableEq κ] in
/-- A thread that can run is in none of the lists. -/
theorem Monitored.absent (monitored : Monitored idle object k place tokens)
    (runnable : (k.thread t).Runnable) (side : σ) : t ∉ k.lists (.waiting (object side)) :=
  fun listed => not_runnable_of_suspend ((monitored.listed side t).mp listed).2 runnable

omit [DecidableEq κ] in
/-- A thread leaves its call. If it was woken, it took something or found nothing. -/
theorem Monitored.leave (monitored : Monitored idle object k place tokens)
    (runnable : (k.thread t).Runnable) {rest : σ → ℕ} (fewer : ∀ side, rest side ≤ tokens side)
    (took : ∀ side, t ∈ woken k place side → rest side = 0 ∨ rest side + 1 ≤ tokens side) :
    Monitored idle object k (Function.update place t none) rest := by
  -- All other threads in calls are where they were.
  have others : ∀ u side, Function.update place t none u = some side →
      u ≠ t ∧ place u = some side := by
    intro u side inside
    by_cases same : u = t
    · rw [same, Function.update_self] at inside
      cases inside
    · rw [Function.update_of_ne same] at inside
      exact ⟨same, inside⟩
  constructor
  case listed =>
    intro side u
    rw [monitored.listed side u]
    by_cases same : u = t
    · rw [same, Function.update_self]
      exact iff_of_false (fun both => not_runnable_of_suspend both.2 runnable)
        fun both => by cases both.1
    · rw [Function.update_of_ne same]
  case hopeful => exact fun u side inside => monitored.hopeful u side (others u side inside).2
  case alive => exact fun u side inside => monitored.alive u side (others u side inside).2
  case busy => exact fun u side inside => monitored.busy u side (others u side inside).2
  case covered =>
    intro side
    -- Of those who were woken, at most this thread is missing.
    have without : (woken k place side).erase t ⊆ woken k (Function.update place t none) side := by
      intro u member
      obtain ⟨other, member⟩ := Finset.mem_erase.mp member
      obtain ⟨inside, runs, error⟩ := mem_woken.mp member
      exact mem_woken.mpr ⟨by rw [Function.update_of_ne other]; exact inside, runs, error⟩
    by_cases was : t ∈ woken k place side
    · -- It was woken for one thing, and there is nothing left or one less.
      rcases took side was with none | less
      · rw [none]
        exact Wakeup.covered_zero
      · exact ((monitored.covered side).mono less id subset_rfl).take id without
    · rw [Finset.erase_eq_of_notMem was] at without
      exact (monitored.covered side).mono (fewer side) id without

omit [DecidableEq κ] in
/-- A thread that finds nothing begins to wait. -/
theorem Monitored.wait (monitored : Monitored idle object k place tokens)
    (distinct : Function.Injective object) (runnable : (k.thread t).Runnable) (busy : t ≠ idle)
    (same_side : ∀ side', place t = some side' → side' = side) (nothing : tokens side = 0)
    {flag : IpcFlag} (waits : Waits t (object side) flag k next) :
    Monitored idle object next (Function.update place t (some side)) tokens := by
  constructor
  case listed =>
    intro side' u
    -- The list of its side is longer by this thread, and the other lists are as they were.
    by_cases own : side' = side
    · rw [own, waits.mem, monitored.listed side u]
      by_cases same : u = t
      · simp [same, waits.stat]
      · rw [Function.update_of_ne same, waits.others u same]
        exact or_iff_right same
    · rw [waits.rest _ fun equal => own (distinct equal)]
      by_cases same : u = t
      · rw [same, Function.update_self]
        refine iff_of_false (monitored.absent runnable side') fun both => own ?_
        exact (Option.some.inj both.1).symm
      · rw [Function.update_of_ne same, waits.others u same]
        exact monitored.listed side' u
  case hopeful =>
    intro u side' inside suspended
    -- It has no error yet, and the others are as they were.
    by_cases same : u = t
    · rw [same]
      exact waits.error
    · rw [Function.update_of_ne same] at inside
      rw [waits.others u same] at suspended ⊢
      exact monitored.hopeful u side' inside suspended
  case alive =>
    intro u side' inside
    by_cases same : u = t
    · rw [same]
      exact .inl waits.stat
    · rw [Function.update_of_ne same] at inside
      rw [waits.others u same]
      exact monitored.alive u side' inside
  case busy =>
    intro u side' inside
    by_cases same : u = t
    · rw [same]
      exact busy
    · rw [Function.update_of_ne same] at inside
      exact monitored.busy u side' inside
  case covered =>
    intro side'
    by_cases own : side' = side
    · rw [own, nothing]
      exact Wakeup.covered_zero
    · -- On the other sides nothing changes.
      refine (monitored.covered side').mono le_rfl (fun full empty => full ?_) fun u member => ?_
      · rw [waits.rest _ fun equal => own (distinct equal)]
        exact empty
      · obtain ⟨inside, runs, error⟩ := mem_woken.mp member
        have same : u ≠ t := fun equal => own (same_side side' (equal ▸ inside))
        exact mem_woken.mpr ⟨by rw [Function.update_of_ne same]; exact inside,
          by rw [waits.others u same]; exact runs, by rw [waits.others u same]; exact error⟩

/--
The first thread in a list is woken, if there is one: what `rt_ipc_list_resume` is called for.
-/
def wakeFirst (k : Kernel τ κ) (object : κ) : Kernel τ κ :=
  match k.lists (.waiting object) with
  | [] => k
  | t :: _ => k.rtThreadResume t

omit [DecidableEq σ] [Fintype τ] in
/-- Waking a thread does not change which one is current. -/
@[simp] theorem current_rtThreadResume (k : Kernel τ κ) (t : τ) :
    (k.rtThreadResume t).current = k.current := by
  rw [Kernel.rtThreadResume]
  split
  · rfl
  · rw [current_insert]
    rfl

omit [DecidableEq σ] [Fintype τ] in
/-- Waking the first thread does not change which one is current. -/
@[simp] theorem current_wakeFirst (k : Kernel τ κ) (object : κ) :
    (k.wakeFirst object).current = k.current := by
  rw [wakeFirst]
  split
  · rfl
  · exact current_rtThreadResume _ _

omit [DecidableEq σ] [Fintype τ] in
/-- Waking the first thread of a list returns. -/
theorem Good.wakeFirst (good : Good idle k) (object : κ) :
    Returned idle { wake := (· ∈ k.lists (.waiting object)) } k (k.wakeFirst object) := by
  rw [Kernel.wakeFirst]
  split
  · exact ⟨.refl, .of_eq rfl rfl⟩
  · rename_i t rest list
    exact good.rtThreadResume (by simp [list])

omit [DecidableEq κ] [DecidableEq τ] in
/-- There may be less to take than there is. -/
theorem Monitored.fewer (monitored : Monitored idle object k place tokens) {rest : σ → ℕ}
    (fewer : ∀ side, rest side ≤ tokens side) : Monitored idle object k place rest :=
  { monitored with covered := fun side => (monitored.covered side).mono (fewer side) id subset_rfl }

omit [DecidableEq κ] in
/-- One thread of the monitor can run again, and all others are as they were. -/
theorem Monitored.rise (monitored : Monitored idle object k place tokens)
    (runnable : (next.thread t).Runnable) (others : ∀ u, u ≠ t → next.thread u = k.thread u)
    (waiting : ∀ object u, u ∈ next.lists (.waiting object) ↔ u ≠ t ∧ u ∈ k.lists (.waiting object))
    {rest : σ → ℕ} (covered : ∀ side, (woken k place side).erase t ⊆ woken next place side →
      Wakeup.Covered (rest side) (next.lists (.waiting (object side)) ≠ [])
        (woken next place side)) :
    Monitored idle object next place rest := by
  constructor
  case listed =>
    intro side u
    -- The thread is in no list any more, since it can run.
    rw [waiting, monitored.listed side u]
    by_cases same : u = t
    · rw [same]
      exact iff_of_false (fun both => both.1 rfl) fun both =>
        not_runnable_of_suspend both.2 runnable
    · rw [others u same]
      exact and_iff_right same
  case hopeful =>
    intro u side inside stat
    by_cases same : u = t
    · rw [same] at stat
      exact absurd runnable (not_runnable_of_suspend stat)
    · rw [others u same] at stat ⊢
      exact monitored.hopeful u side inside stat
  case alive =>
    intro u side inside
    by_cases same : u = t
    · rw [same]
      exact .inr runnable
    · rw [others u same]
      exact monitored.alive u side inside
  case busy => exact monitored.busy
  case covered =>
    intro side
    -- Those who were woken before, apart from the thread itself, are so still.
    refine covered side fun u member => ?_
    obtain ⟨other, member⟩ := Finset.mem_erase.mp member
    obtain ⟨inside, runs, error⟩ := mem_woken.mp member
    exact mem_woken.mpr
      ⟨inside, by rw [others u other]; exact runs, by rw [others u other]; exact error⟩

omit [DecidableEq κ] [DecidableEq τ] in
/-- A thread that is suspended was not woken. -/
theorem notMem_woken (suspended : (k.thread t).stat = .suspend) (side : σ) :
    t ∉ woken k place side :=
  fun member => not_runnable_of_suspend suspended (mem_woken.mp member).2.1

/-- Something comes on one side, and with it the first thread that waits for it is woken. -/
theorem Monitored.give (monitored : Monitored idle object k place tokens)
    (good : Good idle k) (side : σ) :
    Monitored idle object (k.wakeFirst (object side)) place
      (Function.update tokens side (tokens side + 1)) := by
  rw [wakeFirst]
  split
  · -- Nobody waits, so nobody need be woken.
    rename_i empty
    refine { monitored with covered := fun side' => ?_ }
    by_cases own : side' = side
    · rw [own]
      exact Wakeup.covered_of_none (not_not.mpr empty)
    · rw [Function.update_of_ne own]
      exact monitored.covered side'
  · rename_i t rest list
    obtain ⟨inside, suspended⟩ := (monitored.listed side t).mp (by simp [list])
    obtain ⟨-, wakes⟩ := good.wakes suspended
    refine monitored.rise wakes.runnable wakes.others wakes.waiting fun side' kept => ?_
    rw [Finset.erase_eq_of_notMem (notMem_woken suspended side')] at kept
    by_cases own : side' = side
    · -- The thread is woken for what has come.
      rw [own, Function.update_self]
      rw [own] at kept
      refine (monitored.covered side).wake (by simp [list]) (notMem_woken suspended side)
        (Finset.insert_subset (mem_woken.mpr ⟨inside, wakes.runnable, ?_⟩) kept)
      exact wakes.error.trans (monitored.hopeful t side inside suspended)
    · rw [Function.update_of_ne own]
      refine (monitored.covered side').mono le_rfl (fun full empty => full ?_) kept
      rw [List.eq_nil_iff_forall_not_mem] at empty ⊢
      exact fun u listed => empty u ((wakes.waiting _ u).mp listed).2

omit [DecidableEq κ] in
/-- The first thread in a list is woken with an error, and looks for nothing any more. -/
theorem Monitored.dismiss (monitored : Monitored idle object k place tokens)
    (dismissed : Dismissed t k next) :
    Monitored idle object next place tokens := by
  refine monitored.rise dismissed.runnable dismissed.others dismissed.waiting fun side' kept => ?_
  rw [Finset.erase_eq_of_notMem (notMem_woken dismissed.suspended side')] at kept
  -- A list that is not empty now was not empty before.
  refine (monitored.covered side').mono le_rfl (fun full empty => full ?_) kept
  rw [List.eq_nil_iff_forall_not_mem] at empty ⊢
  exact fun u listed => empty u ((dismissed.waiting _ u).mp listed).2

/-! ## Calls that are handed what they wait for -/

/-- The place of a thread that waits in the only call of an object that waits. -/
def callPlace (call : τ → Bool) (t : τ) : Option Unit := if call t then some () else none

omit [DecidableEq τ] [Fintype τ] in
/-- A thread has a place when it waits. -/
@[simp] theorem callPlace_eq_some {call : τ → Bool} {side : Unit} :
    callPlace call t = some side ↔ call t = true := by
  by_cases waits : call t = true <;> simp [callPlace, waits]

omit [Fintype τ] in
/-- A call of one thread changes the place of that thread. -/
theorem callPlace_update (call : τ → Bool) (t : τ) (waits : Bool) :
    callPlace (Function.update call t waits) =
      Function.update (callPlace call) t (if waits then some () else none) := by
  funext u
  by_cases same : u = t <;> simp [callPlace, same]

omit [DecidableEq τ] [DecidableEq κ] in
/-- A new object, for which nobody waits. -/
theorem monitored_new {call : τ → Bool} {object : κ} (nobody : ∀ t, call t = false)
    (empty : k.lists (.waiting object) = []) :
    Monitored idle (fun _ : Unit => object) k (callPlace call) fun _ => 0 where
  listed side t := by simp [empty, nobody]
  hopeful t side inside := by simp [nobody] at inside
  alive t side inside := by simp [nobody] at inside
  busy t side inside := by simp [nobody] at inside
  covered _ := Wakeup.covered_zero

/--
Calls that do not touch the threads in the monitor neither hand them anything nor take it away.
-/
theorem Monitored.woken_moves (monitored : Monitored idle object k place tokens)
    (good : Good idle k) (stop : ∀ t side, place t = some side → ¬ N.stop t)
    (wake : ∀ t side, place t = some side → ¬ N.wake t) (moves : Moves idle N k next) (side : σ) :
    woken next place side = woken k place side := by
  ext t
  rw [mem_woken, mem_woken]
  refine and_congr_right fun inside => ?_
  rcases good.spared (monitored.alive t side inside) (stop t side inside) (wake t side inside)
    moves with kept | out
  · rw [kept.runnable, kept.error]
  · -- A thread whose time is up was suspended before, and has an error now.
    refine iff_of_false (fun both => ?_) fun both => not_runnable_of_suspend out.suspended both.1
    rw [out.error] at both
    cases both.2

omit [DecidableEq κ] in
/-- When only one thread changes, only that thread can be handed something, or take it. -/
theorem erase_woken {place' : τ → Option σ} (others : ∀ u, u ≠ t → next.thread u = k.thread u)
    (places : ∀ u, u ≠ t → place' u = place u) (side : σ) :
    (woken next place' side).erase t = (woken k place side).erase t := by
  ext u
  rw [Finset.mem_erase, Finset.mem_erase]
  refine and_congr_right fun other => ?_
  rw [mem_woken, mem_woken, others u other, places u other]

omit [DecidableEq κ] in
/-- A thread that is woken with an error was never handed anything. -/
theorem Dismissed.woken_eq (dismissed : Dismissed t k next) (place : τ → Option σ) (side : σ) :
    woken next place side = woken k place side := by
  -- It is woken with an error, so it does not look.
  have after : t ∉ woken next place side := fun member => by
    have eok := (mem_woken.mp member).2.2
    rw [dismissed.error] at eok
    cases eok
  have same : (woken next place side).erase t = (woken k place side).erase t :=
    erase_woken dismissed.others (fun _ _ => rfl) side
  rwa [Finset.erase_eq_of_notMem (notMem_woken dismissed.suspended side),
    Finset.erase_eq_of_notMem after] at same

end Kernel
end MultifunctionClock
