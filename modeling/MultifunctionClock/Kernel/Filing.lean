import MultifunctionClock.Kernel.Threads

/-!
Where the threads are: each list holds the threads whose status it stands for.

The bitmap has the bits of the ready lists that are not empty,
so `rt_schedule` always finds a thread.
-/

namespace MultifunctionClock

/-- One thread joins the list of an object. -/
theorem IpcFlag.perm_joined {τ : Type} (flag : IpcFlag) (priority : τ → Fin 32) (t : τ)
    (list : List τ) :
    (flag.joined priority t list).Perm (t :: list) := by
  cases flag with
  | fifo => exact List.perm_append_singleton _ _
  | prio => exact List.perm_orderedInsert _ _ _

/-- A list in the order of the priorities stays so when a thread joins it by its priority. -/
theorem IpcFlag.pairwise_joined {τ : Type} {flag : IpcFlag} (prio : flag = .prio)
    {priority : τ → Fin 32} (t : τ) {list : List τ}
    (sorted : list.Pairwise fun one other => priority one ≤ priority other) :
    (flag.joined priority t list).Pairwise fun one other => priority one ≤ priority other := by
  subst prio
  rw [IpcFlag.joined]
  -- The walk stops at the first thread that is less urgent, so the induction is on the list.
  induction list with
  | nil => simp
  | cons first rest ih =>
    obtain ⟨least, sorted⟩ := List.pairwise_cons.mp sorted
    rw [List.orderedInsert_cons]
    split
    · -- The thread goes to the front, so all others are less urgent.
      rename_i less
      refine List.pairwise_cons.mpr ⟨fun other member => ?_, List.pairwise_cons.mpr ⟨least, sorted⟩⟩
      rcases List.mem_cons.mp member with same | member
      · rw [same]
        exact less.le
      · exact less.le.trans (least other member)
    · rename_i not_less
      -- The thread goes somewhere behind the first one, which is at least as urgent.
      refine List.pairwise_cons.mpr ⟨fun other member => ?_, ih sorted⟩
      rcases (List.mem_orderedInsert _).mp member with same | member
      · rw [same]
        exact not_lt.mp not_less
      · exact least other member

namespace Kernel

variable {τ κ : Type}

/--
The lists, with the exception of some threads that are away from all of them.

The ready lists hold the ready threads by their priority, and the bitmap has their bits.
-/
structure Filed (k : Kernel τ κ) (away : Set τ) : Prop where
  group : ∀ priority : Fin 32, k.group.getLsbD priority = true ↔ k.lists (.ready priority) ≠ []
  ready : ∀ t priority, t ∈ k.lists (.ready priority) ↔
    t ∉ away ∧ (k.thread t).stat = .ready ∧ (k.thread t).currentPriority = priority
  waiting : ∀ t object, t ∈ k.lists (.waiting object) → t ∉ away ∧ (k.thread t).stat = .suspend
  once : ∀ t one other, t ∈ k.lists (.waiting one) → t ∈ k.lists (.waiting other) → one = other
  nodup : ∀ head, (k.lists head).Nodup
  mask : ∀ t, (k.thread t).stat ≠ .init →
    (k.thread t).numberMask = BitVec.twoPow 32 (k.thread t).currentPriority

variable {k : Kernel τ κ} {away : Set τ} {t other : τ}

/-- A thread that is not ready is in no ready list. -/
theorem Filed.not_ready (filed : Filed k away) (stat : (k.thread t).stat ≠ .ready)
    (priority : Fin 32) :
    t ∉ k.lists (.ready priority) := fun listed => stat ((filed.ready t priority).mp listed).2.1

/-- A thread that is away is in no list. -/
theorem Filed.absent (filed : Filed k away) (gone : t ∈ away) (head : ListHead κ) :
    t ∉ k.lists head := by
  cases head with
  | ready priority => exact fun listed => ((filed.ready t priority).mp listed).1 gone
  | waiting object => exact fun listed => (filed.waiting t object listed).1 gone

/-- A thread that need not be in a list may count as being away, when it is in none. -/
theorem Filed.leave (filed : Filed k ∅) (absent : ∀ head, t ∉ k.lists head) : Filed k {t} where
  __ := filed
  ready other priority := by
    rw [filed.ready other priority]
    refine and_congr_left fun place => ?_
    -- Were the thread itself at this place, it would be in the list.
    have listed := (filed.ready other priority).mpr ⟨Set.notMem_empty _, place⟩
    refine iff_of_true (Set.notMem_empty _) fun same => ?_
    rw [Set.mem_singleton_iff.mp same] at listed
    exact absent _ listed
  waiting other object listed := by
    refine ⟨fun same => ?_, (filed.waiting other object listed).2⟩
    rw [Set.mem_singleton_iff.mp same] at listed
    exact absent _ listed

/-- A thread that is not ready need not be in any list. -/
theorem Filed.home (filed : Filed k {t}) (stat : (k.thread t).stat ≠ .ready) : Filed k ∅ where
  __ := filed
  ready other priority := by
    rw [filed.ready other priority]
    refine and_congr_left fun place => iff_of_true ?_ (Set.notMem_empty _)
    -- A thread that is away would have to be ready to be missing from a list.
    intro same
    rw [Set.mem_singleton_iff.mp same] at place
    exact stat place.1
  waiting other object listed := ⟨Set.notMem_empty _, (filed.waiting other object listed).2⟩

variable [DecidableEq τ]

/-- The thread that is changed. -/
@[simp] theorem thread_upd_self (k : Kernel τ κ) (t : τ) (f : RtThread → RtThread) :
    (k.upd t f).thread t = f (k.thread t) := Function.update_self _ _ _

/-- All other threads stay as they are. -/
theorem thread_upd_of_ne (k : Kernel τ κ) (distinct : other ≠ t) (f : RtThread → RtThread) :
    (k.upd t f).thread other = k.thread other := Function.update_of_ne distinct _ _

/-- Fields may change that do not concern the lists. The priority only concerns a ready thread. -/
theorem Filed.upd (filed : Filed k away) {f : RtThread → RtThread}
    (stat : (f (k.thread t)).stat = (k.thread t).stat)
    (priority : (k.thread t).stat = .ready →
      (f (k.thread t)).currentPriority = (k.thread t).currentPriority)
    (mask : (k.thread t).stat ≠ .init →
      (f (k.thread t)).numberMask = BitVec.twoPow 32 (f (k.thread t)).currentPriority) :
    Filed (k.upd t f) away := by
  -- Only the thread itself changes, and its status stays.
  have same : ∀ other, ((k.upd t f).thread other).stat = (k.thread other).stat := by
    intro other
    by_cases equal : other = t
    · rw [equal, thread_upd_self]
      exact stat
    · rw [thread_upd_of_ne k equal]
  refine { filed with
    ready := fun other level => ?_
    waiting := fun other object listed => ?_
    mask := fun other => ?_ }
  · refine (filed.ready other level).trans (and_congr_right fun _ => ?_)
    rw [same]
    -- Only for a ready thread the priority says which list it is in.
    refine and_congr_right fun ready => ?_
    by_cases equal : other = t
    · subst equal
      rw [thread_upd_self, priority ready]
    · rw [thread_upd_of_ne k equal]
  · rw [same]
    exact filed.waiting other object listed
  · rw [same]
    by_cases equal : other = t
    · subst equal
      rw [thread_upd_self]
      exact mask
    · rw [thread_upd_of_ne k equal]
      exact filed.mask other

/-- A thread that is away may change in any way that keeps its mask right. -/
theorem Filed.upd_away (filed : Filed k {t}) {f : RtThread → RtThread}
    (mask : (f (k.thread t)).stat ≠ .init →
      (f (k.thread t)).numberMask = BitVec.twoPow 32 (f (k.thread t)).currentPriority) :
    Filed (k.upd t f) {t} := by
  -- Only the thread itself changes, and it is in no list.
  refine { filed with
    ready := fun other level => ?_
    waiting := fun other object listed => ?_
    mask := fun other => ?_ }
  · rw [show (k.upd t f).lists = k.lists from rfl, filed.ready other level]
    refine and_congr_right fun away => ?_
    rw [thread_upd_of_ne k away]
  · obtain ⟨away, suspended⟩ := filed.waiting other object listed
    rw [thread_upd_of_ne k away]
    exact ⟨away, suspended⟩
  · by_cases equal : other = t
    · rw [equal, thread_upd_self]
      exact mask
    · rw [thread_upd_of_ne k equal]
      exact filed.mask other

/-- The status of a thread that is away may change, if it has been started. -/
theorem Filed.setStat (filed : Filed k {t}) (started : (k.thread t).stat ≠ .init) (stat : RtStat) :
    Filed (k.setStat t stat) {t} := filed.upd_away fun _ => filed.mask t started

/-- What is left in the lists without a thread. -/
theorem Filed.mem_unlink (filed : Filed k away) (head : ListHead κ) :
    other ∈ (k.unlink t).lists head ↔ other ≠ t ∧ other ∈ k.lists head :=
  (filed.nodup head).mem_erase_iff

/-- A thread can be taken out of its list, if the bitmap is put right. -/
theorem Filed.unlink_group (filed : Filed k ∅) {group : BitVec 32}
    (right : ∀ priority : Fin 32, group.getLsbD priority = true ↔
      (k.unlink t).lists (.ready priority) ≠ []) :
    Filed { k.unlink t with group := group } {t} where
  group := right
  ready other priority := by
    -- Whoever is left was there before, and is not the thread itself.
    refine (filed.mem_unlink _).trans (and_congr_right fun _ => ?_)
    rw [filed.ready other priority]
    exact and_iff_right (Set.notMem_empty _)
  waiting other object listed := by
    obtain ⟨distinct, listed⟩ := (filed.mem_unlink _).mp listed
    exact ⟨distinct, (filed.waiting other object listed).2⟩
  once other one two inOne inTwo :=
    filed.once other one two (List.mem_of_mem_erase inOne) (List.mem_of_mem_erase inTwo)
  nodup head := (filed.nodup head).erase t
  mask := filed.mask

/-- A list without the thread stays as it is. -/
theorem unlink_lists {head : ListHead κ} (absent : t ∉ k.lists head) :
    (k.unlink t).lists head = k.lists head := List.erase_of_not_mem absent

/-- A thread that is not ready can be taken out of its list. -/
theorem Filed.unlink (filed : Filed k ∅) (stat : (k.thread t).stat ≠ .ready) :
    Filed (k.unlink t) {t} := by
  refine filed.unlink_group fun priority => ?_
  -- No ready list gets shorter, so the bitmap is right as it is.
  rw [unlink_lists (filed.not_ready stat priority)]
  exact filed.group priority

/--
`rt_schedule_remove_thread` takes a thread out of its list, and its bit away with the last thread.
-/
theorem Filed.remove (filed : Filed k ∅) (started : (k.thread t).stat ≠ .init) :
    Filed (k.rtScheduleRemoveThread t) {t} := by
  -- A ready thread is in the list of its priority only.
  have elsewhere : ∀ priority, priority ≠ (k.thread t).currentPriority →
      (k.unlink t).lists (.ready priority) = k.lists (.ready priority) := fun priority distinct =>
    unlink_lists fun listed => distinct ((filed.ready t priority).mp listed).2.2.symm
  rw [rtScheduleRemoveThread]
  -- The thread was the last one of its priority, or another one is left.
  split
  · rename_i empty
    refine filed.unlink_group fun priority => ?_
    -- The mask of the thread is the bit of its priority.
    rw [show ((k.unlink t).thread t).numberMask = _ from filed.mask t started, Bitmap.getLsbD_drop]
    by_cases same : priority = (k.thread t).currentPriority
    · rw [same]
      refine iff_of_false (by simp) (not_not.mpr empty)
    · rw [elsewhere priority same, ← filed.group priority]
      simp [same, Kernel.unlink]
  · rename_i left
    refine filed.unlink_group fun priority => ?_
    by_cases same : priority = (k.thread t).currentPriority
    · rw [same]
      -- Somebody is left at this priority, so its bit was set and stays.
      refine iff_of_true ((filed.group _).mpr fun empty => left ?_) left
      exact List.erase_eq_nil_iff.mpr (.inl empty)
    · rw [elsewhere priority same]
      exact filed.group priority

variable [DecidableEq κ]

omit [DecidableEq τ] in
/-- The list that is replaced. -/
@[simp] theorem lists_setList_self (k : Kernel τ κ) (head : ListHead κ) (list : List τ) :
    (k.setList head list).lists head = list := Function.update_self _ _ _

omit [DecidableEq τ] in
/-- All other lists stay as they are. -/
theorem lists_setList_of_ne (k : Kernel τ κ) {head head' : ListHead κ} (distinct : head' ≠ head)
    (list : List τ) : (k.setList head list).lists head' = k.lists head' :=
  Function.update_of_ne distinct _ _

omit [DecidableEq τ] in
/-- The threads do not know of the lists. -/
@[simp] theorem thread_setList (k : Kernel τ κ) (head : ListHead κ) (list : List τ) :
    (k.setList head list).thread = k.thread := rfl

omit [DecidableEq τ] in
/-- A thread that waits for an object comes into the list of that object. -/
theorem Filed.enqueue (filed : Filed k {t}) (suspended : (k.thread t).stat = .suspend) {object : κ}
    {longer : List τ} (perm : longer.Perm (t :: k.lists (.waiting object))) :
    Filed (k.setList (.waiting object) longer) ∅ := by
  have absent := filed.absent (Set.mem_singleton t)
  -- A thread in one of the lists is the new one, or was there before.
  have others : ∀ other object',
    other ∈ (k.setList (.waiting object) longer).lists (.waiting object') →
      other = t ∧ object' = object ∨ other ∈ k.lists (.waiting object') := by
    intro other object' listed
    by_cases same : object' = object
    · rw [same, lists_setList_self] at listed
      rw [same]
      exact (List.mem_cons.mp (perm.mem_iff.mp listed)).imp (fun equal => ⟨equal, rfl⟩) id
    · rw [lists_setList_of_ne k (by simpa using same)] at listed
      exact .inr listed
  constructor
  case group =>
    intro priority
    rw [lists_setList_of_ne k (by simp)]
    exact filed.group priority
  case ready =>
    intro other priority
    rw [lists_setList_of_ne k (by simp)]
    -- The thread is suspended, so no ready list misses it.
    exact (filed.home (by simp [suspended])).ready other priority
  case waiting =>
    intro other object' listed
    refine ⟨Set.notMem_empty _, ?_⟩
    rcases others other object' listed with ⟨equal, -⟩ | member
    · rw [equal]
      exact suspended
    · exact (filed.waiting other object' member).2
  case once =>
    intro other one two inOne inTwo
    -- The thread is in the one list only, and the others are where they were.
    rcases others other one inOne with ⟨equal, sameOne⟩ | memberOne <;>
      rcases others other two inTwo with ⟨equal', sameTwo⟩ | memberTwo
    · rw [sameOne, sameTwo]
    · exact absurd memberTwo (equal ▸ absent _)
    · exact absurd memberOne (equal' ▸ absent _)
    · exact filed.once other one two memberOne memberTwo
  case nodup =>
    intro head
    by_cases same : head = .waiting object
    · rw [same, lists_setList_self]
      exact perm.nodup_iff.mpr (List.nodup_cons.mpr ⟨absent _, filed.nodup _⟩)
    · rw [lists_setList_of_ne k same]
      exact filed.nodup head
  case mask => exact filed.mask

/-- A ready thread joins the end of the list of its priority, and its bit is set. -/
theorem Filed.join (filed : Filed k {t}) (stat : (k.thread t).stat = .ready) {head : ListHead κ}
    (own : head = .ready (k.thread t).currentPriority) :
    Filed { k.setList head (k.lists head ++ [t]) with group := k.group ||| (k.thread t).numberMask }
      ∅ := by
  have absent := filed.absent (Set.mem_singleton t)
  -- The bit that is added is the one of the list that gets longer.
  have mask := filed.mask t (by simp [stat])
  subst own
  constructor
  case group =>
    intro priority
    dsimp only
    rw [mask, Bitmap.getLsbD_add]
    by_cases same : priority = (k.thread t).currentPriority
    · simp [same]
    · rw [lists_setList_of_ne k (by simpa using same)]
      simpa [same] using filed.group priority
  case ready =>
    intro other priority
    dsimp only
    by_cases same : priority = (k.thread t).currentPriority
    · rw [same, lists_setList_self, List.mem_append, List.mem_singleton, filed.ready other]
      -- In the list of its priority there is one thread more, and it is the ready one.
      by_cases equal : other = t
      · simp [equal, stat]
      · simp [equal]
    · rw [lists_setList_of_ne k (by simpa using same), filed.ready other priority]
      -- In the other ready lists the thread neither is nor belongs.
      by_cases equal : other = t
      · simp [equal, Ne.symm same]
      · simp [equal]
  case waiting =>
    intro other object listed
    dsimp only at listed
    rw [lists_setList_of_ne k (by simp)] at listed
    exact ⟨Set.notMem_empty _, (filed.waiting other object listed).2⟩
  case once =>
    intro other one two inOne inTwo
    dsimp only at inOne inTwo
    rw [lists_setList_of_ne k (by simp)] at inOne inTwo
    exact filed.once other one two inOne inTwo
  case nodup =>
    intro head
    dsimp only
    by_cases same : head = .ready (k.thread t).currentPriority
    · rw [same, lists_setList_self]
      -- The thread was away, so it is in the list once.
      exact List.nodup_append.mpr ⟨filed.nodup _, List.nodup_singleton t,
        fun one inOne two inTwo equal =>
          absent _ (List.mem_singleton.mp inTwo ▸ equal ▸ inOne)⟩
    · rw [lists_setList_of_ne k same]
      exact filed.nodup head
  case mask => exact filed.mask

/-- `rt_schedule_insert_thread` brings a thread into its ready list, or lets it run on. -/
theorem Filed.insert (filed : Filed k {t}) (started : (k.thread t).stat ≠ .init) :
    Filed (k.rtScheduleInsertThread t) ∅ := by
  rw [rtScheduleInsertThread]
  split
  · -- The current thread runs on, and a running thread is in no list.
    exact (filed.setStat started .running).home (by simp [Kernel.setStat])
  · -- The thread is made ready while it is still away.
    exact (filed.setStat started .ready).join (by simp [Kernel.setStat]) rfl

/-! ## What the two functions on the ready lists leave alone -/

section Projections

variable (k : Kernel τ κ) (t : τ)

omit [DecidableEq κ] in
/-- Taking a thread out of its list changes no record. -/
@[simp] theorem thread_remove : (k.rtScheduleRemoveThread t).thread = k.thread := by
  rw [rtScheduleRemoveThread]; split <;> rfl

omit [DecidableEq κ] in
/-- The thread is gone from every list. -/
@[simp] theorem lists_remove (head : ListHead κ) :
    (k.rtScheduleRemoveThread t).lists head = (k.lists head).erase t := by
  rw [rtScheduleRemoveThread]; split <;> rfl

omit [DecidableEq κ] in
/-- The choice stays. -/
@[simp] theorem current_remove : (k.rtScheduleRemoveThread t).current = k.current := by
  rw [rtScheduleRemoveThread]; split <;> rfl

omit [DecidableEq κ] in
/-- The timers stay. -/
@[simp] theorem timers_remove : (k.rtScheduleRemoveThread t).timers = k.timers := by
  rw [rtScheduleRemoveThread]; split <;> rfl

omit [DecidableEq κ] in
/-- The lock stays. -/
@[simp] theorem lockNest_remove : (k.rtScheduleRemoveThread t).lockNest = k.lockNest := by
  rw [rtScheduleRemoveThread]; split <;> rfl

omit [DecidableEq κ] in
/-- Nothing is observed. -/
@[simp] theorem seen_remove : (k.rtScheduleRemoveThread t).seen = k.seen := by
  rw [rtScheduleRemoveThread]; split <;> rfl

/-- The thread that is put into a list is ready, or runs on if it is the current one. -/
@[simp] theorem thread_insert : (k.rtScheduleInsertThread t).thread = Function.update k.thread t
    { k.thread t with stat := if t = k.current then .running else .ready } := by
  rw [rtScheduleInsertThread]; split <;> rfl

/-- Only a ready list gets longer. -/
@[simp] theorem waiting_insert (object : κ) :
    (k.rtScheduleInsertThread t).lists (.waiting object) = k.lists (.waiting object) := by
  rw [rtScheduleInsertThread]
  split
  · rfl
  · dsimp only
    rw [lists_setList_of_ne _ (by simp)]
    rfl

/-- The choice stays. -/
@[simp] theorem current_insert : (k.rtScheduleInsertThread t).current = k.current := by
  rw [rtScheduleInsertThread]; split <;> rfl

/-- The timers stay. -/
@[simp] theorem timers_insert : (k.rtScheduleInsertThread t).timers = k.timers := by
  rw [rtScheduleInsertThread]; split <;> rfl

/-- The lock stays. -/
@[simp] theorem lockNest_insert : (k.rtScheduleInsertThread t).lockNest = k.lockNest := by
  rw [rtScheduleInsertThread]; split <;> rfl

/-- Nothing is observed. -/
@[simp] theorem seen_insert : (k.rtScheduleInsertThread t).seen = k.seen := by
  rw [rtScheduleInsertThread]; split <;> rfl

end Projections

/-! ## Scheduling -/

/-- Two records of a thread that differ at most in whether it is the one that runs. -/
structure Alike (one other : RtThread) : Prop where
  stat : other.stat = one.stat ∨ one.Runnable ∧ other.Runnable
  rest : { other with stat := one.stat, yield := one.yield } = one

omit [DecidableEq τ] [DecidableEq κ] in
/-- A record is like itself. -/
theorem Alike.refl (one : RtThread) : Alike one one := ⟨.inl rfl, rfl⟩

omit [DecidableEq τ] [DecidableEq κ] in
/-- Whether a thread may run does not depend on which of them runs. -/
theorem Alike.runnable_iff {one other : RtThread} (alike : Alike one other) :
    other.Runnable ↔ one.Runnable := by
  rcases alike.stat with same | ⟨first, second⟩
  · rw [RtThread.Runnable, same]
    rfl
  · exact iff_of_true second first

omit [DecidableEq τ] [DecidableEq κ] in
/-- A thread that can not run keeps its status. -/
theorem Alike.stat_eq {one other : RtThread} (alike : Alike one other) (stuck : ¬ one.Runnable) :
    other.stat = one.stat := alike.stat.resolve_right fun both => stuck both.1

omit [DecidableEq τ] [DecidableEq κ] in
/-- Priorities stay. -/
theorem Alike.currentPriority {one other : RtThread} (alike : Alike one other) :
    other.currentPriority = one.currentPriority := (RtThread.mk.injEq .. ▸ alike.rest).2.2.2.1

/--
What scheduling leaves alone: all but the ready lists and the choice among the threads in them.
-/
structure Rescheduled (k next : Kernel τ κ) : Prop where
  alike : ∀ t, Alike (k.thread t) (next.thread t)
  waiting : ∀ object, next.lists (.waiting object) = k.lists (.waiting object)
  timers : next.timers = k.timers
  lockNest : next.lockNest = k.lockNest
  seen : next.seen.filterMap KernelObs.timer? = k.seen.filterMap KernelObs.timer?

/-- The lists are right, only the current thread runs, and the idle thread can always run. -/
structure Placed (idle : τ) (k : Kernel τ κ) : Prop where
  filed : Filed k ∅
  running : ∀ t, (k.thread t).stat = .running → t = k.current
  current : (k.thread k.current).stat ≠ .ready ∧ (k.thread k.current).stat ≠ .init
  idle : (k.thread idle).Runnable

/-- A thread runs, and no ready thread is more urgent. -/
structure Settled (k : Kernel τ κ) : Prop where
  running : (k.thread k.current).stat = .running
  first : ∀ t, (k.thread t).stat = .ready →
    (k.thread k.current).currentPriority ≤ (k.thread t).currentPriority

variable {idle : τ} {next : Kernel τ κ}

omit [DecidableEq τ] [DecidableEq κ] in
/-- The lists depend on nothing else. -/
theorem Filed.frame (filed : Filed k away) (group : next.group = k.group)
    (lists : next.lists = k.lists) (thread : next.thread = k.thread) : Filed next away := by
  constructor <;> simp only [group, lists, thread]
  exacts [filed.group, filed.ready, filed.waiting, filed.once, filed.nodup, filed.mask]

omit [DecidableEq τ] [DecidableEq κ] in
/-- A running thread is in no list. -/
theorem Filed.absent_running (filed : Filed k ∅) (runs : (k.thread t).stat = .running)
    (head : ListHead κ) :
    t ∉ k.lists head := by
  intro listed
  cases head with
  | ready priority => exact filed.not_ready (by simp [runs]) priority listed
  | waiting object =>
    have suspended := (filed.waiting t object listed).2
    simp [runs] at suspended

/-- Who makes place for another thread becomes ready if it was running. -/
theorem thread_makePlace (away : k.current ≠ t) (u : τ) : (k.makePlace t).thread u =
    if u = k.current ∧ (k.thread k.current).stat = .running then { k.thread u with stat := .ready }
    else k.thread u := by
  rw [makePlace]
  split
  · rename_i runs
    by_cases source : u = k.current
    · subst source
      simp [runs, away]
    · simp [source]
  · rename_i stopped
    simp [stopped]

/-- A running thread goes back to its list before the target is taken out of its own. -/
theorem Placed.filed_makePlace (placed : Placed idle k) (t : τ) : Filed (k.makePlace t) ∅ := by
  have same : ∀ away, Filed k away → Filed { k with current := t } away := fun _ filed =>
    filed.frame rfl rfl rfl
  rw [makePlace]
  split
  · rename_i runs
    -- A running thread is in no list, so it can be put into one.
    exact (same _ (placed.filed.leave (placed.filed.absent_running runs))).insert placed.current.2
  · exact same _ placed.filed

/-- The records after a switch: the running thread has become ready, and the target runs. -/
theorem thread_switchTo (away : k.current ≠ t) (u : τ) (highest : Fin 32) :
    (k.switchTo t highest).thread u =
    if u = t then { k.thread t with stat := .running }
    else if u = k.current ∧
      (k.thread k.current).stat = .running then { k.thread u with stat := .ready }
    else k.thread u := by
  simp only [switchTo, Kernel.setStat, Kernel.upd, thread_remove]
  by_cases target : u = t
  · rw [if_pos target, target, Function.update_self, thread_makePlace away, if_neg fun both =>
      away both.1.symm]
  · rw [if_neg target, Function.update_of_ne target, thread_makePlace away]

/-- A switch to a ready thread leaves everything else alone. -/
theorem Placed.rescheduled_switchTo (placed : Placed idle k) (ready : (k.thread t).stat = .ready)
    (highest : Fin 32) :
    Rescheduled k (k.switchTo t highest) := by
  -- The current thread is never ready, so the target is another one.
  have away : k.current ≠ t := fun same => placed.current.1 (same ▸ ready)
  constructor
  case alike =>
    intro u
    rw [thread_switchTo away u]
    split
    · rename_i target
      rw [target]
      -- The target was ready and runs now.
      exact ⟨.inr ⟨.inl ready, .inr rfl⟩, rfl⟩
    · split
      · rename_i source
        rw [source.1]
        -- The thread that made place was running and is ready now.
        exact ⟨.inr ⟨.inr source.2, .inl rfl⟩, rfl⟩
      · exact .refl _
  case waiting =>
    intro object
    have absent : t ∉ k.lists (.waiting object) := fun listed => by
      have suspended := (placed.filed.waiting t object listed).2
      simp [ready] at suspended
    simp only [Kernel.switchTo, Kernel.setStat, Kernel.upd, lists_remove, makePlace]
    split <;> simp [List.erase_of_not_mem absent]
  case timers =>
    simp only [Kernel.switchTo, Kernel.setStat, Kernel.upd, timers_remove, makePlace]
    split <;> simp
  case lockNest =>
    simp only [Kernel.switchTo, Kernel.setStat, Kernel.upd, lockNest_remove, makePlace]
    split <;> simp
  case seen =>
    simp only [Kernel.switchTo, Kernel.setStat, Kernel.upd, seen_remove, makePlace]
    split <;> simp [KernelObs.timer?]

/-- A switch makes the target the current thread. -/
@[simp] theorem current_switchTo (k : Kernel τ κ) (t : τ) (highest : Fin 32) :
    (k.switchTo t highest).current = t := by
  simp only [Kernel.switchTo, Kernel.setStat, Kernel.upd, current_remove, makePlace]
  split <;> simp

/-- A switch to a ready thread keeps the lists right. -/
theorem Placed.switchTo (placed : Placed idle k) (ready : (k.thread t).stat = .ready)
    (highest : Fin 32) :
    Placed idle (k.switchTo t highest) := by
  have away : k.current ≠ t := fun same => placed.current.1 (same ▸ ready)
  constructor
  case filed =>
    have started : ((k.makePlace t).thread t).stat ≠ .init := by
      rw [thread_makePlace away, if_neg fun both => away both.1.symm, ready]
      simp
    -- The target leaves its list, and as a running thread needs none.
    have gone := (placed.filed_makePlace t).remove started
    have runs := (gone.setStat (by simpa using started) .running).home (by simp [Kernel.setStat])
    exact runs.frame rfl rfl rfl
  case running =>
    intro u runs
    rw [current_switchTo]
    by_contra other
    rw [thread_switchTo away u, if_neg other] at runs
    split at runs
    · cases runs
    · rename_i source
      -- Besides the target only the old current thread could run, and it has made place.
      have same := placed.running u runs
      exact source ⟨same, same ▸ runs⟩
  case current =>
    rw [current_switchTo, thread_switchTo away t, if_pos rfl]
    exact ⟨RtStat.noConfusion, RtStat.noConfusion⟩
  case idle =>
    exact ((placed.rescheduled_switchTo ready highest).alike idle).runnable_iff.mpr placed.idle

omit [DecidableEq τ] [DecidableEq κ] in
/-- `_get_highest_priority_thread` finds a ready thread that no other is more urgent than. -/
theorem Filed.getHighestPriorityThread (filed : Filed k ∅) (some_ready : k.group ≠ 0) :
    ∃ first highest, k.getHighestPriorityThread = some (first, highest) ∧
      (k.thread first).stat = .ready ∧ (k.thread first).currentPriority = highest ∧
      (∃ rest, k.lists (.ready highest) = first :: rest) ∧
      ∀ u, (k.thread u).stat = .ready → highest ≤ (k.thread u).currentPriority := by
  -- The lowest bit stands for the most urgent list, which is not empty.
  obtain ⟨highest, found⟩ := Bitmap.exists_lowest some_ready
  obtain ⟨bit, least⟩ := Bitmap.lowest_eq_some.mp found
  obtain ⟨first, rest, list⟩ := List.exists_cons_of_ne_nil ((filed.group highest).mp bit)
  obtain ⟨-, ready, priority⟩ := (filed.ready first highest).mp (by simp [list])
  refine ⟨first, highest, ?_, ready, priority, ⟨rest, list⟩, fun u stat => ?_⟩
  · simp [Kernel.getHighestPriorityThread, rtFfs, found, list]
  · -- The bit of the priority of any ready thread is set.
    by_contra lower
    have listed := (filed.ready u _).mpr ⟨Set.notMem_empty _, stat, rfl⟩
    have set := (filed.group _).mpr (List.ne_nil_of_mem listed)
    rw [least _ (not_le.mp lower)] at set
    cases set

end Kernel
end MultifunctionClock
