import MultifunctionClock.Kernel.Runs

/-!
Threads of one priority take turns.

A ready thread waits for at most as many turns of its priority as threads
stand before it in its list.
-/

namespace MultifunctionClock

/-- An element does not move back when another one is taken out. -/
theorem idxOf_erase_le {α : Type} [DecidableEq α] {x y : α} (distinct : y ≠ x) (list : List α) :
    (list.erase y).idxOf x ≤ list.idxOf x := by
  -- The two lists are alike up to the element that is taken out.
  induction list with
  | nil => simp
  | cons head rest ih =>
    by_cases first : head = y
    · -- The one that is taken out stood in front.
      rw [first, List.erase_cons_head, List.idxOf_cons_ne _ distinct]
      omega
    · rw [List.erase_cons_tail (by simpa using first)]
      by_cases same : head = x
      · simp [same]
      · rw [List.idxOf_cons_ne _ same, List.idxOf_cons_ne _ same]
        omega

/-- How often the processor was switched to a thread of a priority. -/
def KernelObs.turns {τ : Type} (priority : Fin 32) (new : List (KernelObs τ)) : ℕ :=
  new.countP fun
    | .switched _ level => level = priority
    | .timer _ => false

namespace Kernel

open KernelObs

variable {τ κ : Type} [DecidableEq τ] [DecidableEq κ] {idle t : τ} {N : Touched τ κ}
  {priority : Fin 32}
  {ahead : ℕ} {k next : Kernel τ κ} {new : List (KernelObs τ)}

/-- Before a thread gets its turn, its priority has at most a number of turns. -/
def Fair (t : τ) (priority : Fin 32) (ahead : ℕ) (new : List (KernelObs τ)) : Prop :=
  ∀ before after, new = before ++ after → (∀ level, .switched t level ∉ before) →
    turns priority before ≤ ahead

/--
The state of a thread that was ready, after some more observations.

Until it has had its turn it is ready, and each turn of its priority brings it one place forward.
-/
structure InLine (t : τ) (priority : Fin 32) (ahead : ℕ) (past : List (KernelObs τ))
    (k : Kernel τ κ) (new : List (KernelObs τ)) : Prop where
  seen : k.seen = past ++ new
  fair : Fair t priority ahead new
  ready : (∀ level, .switched t level ∉ new) → (k.thread t).stat = .ready ∧
    (k.thread t).currentPriority = priority ∧
    (k.lists (.ready priority)).idxOf t + turns priority new ≤ ahead

omit [DecidableEq τ] in
/-- Timers are no turns. -/
theorem turns_timer (events : List (TimerObs τ)) :
    turns priority (events.map KernelObs.timer) = 0 := by
  rw [turns, List.countP_eq_zero]
  intro event member
  obtain ⟨timer, -, rfl⟩ := List.mem_map.mp member
  simp

omit [DecidableEq τ] in
/-- Turns add up. -/
theorem turns_append (one other : List (KernelObs τ)) :
    turns priority (one ++ other) = turns priority one + turns priority other := List.countP_append

omit [DecidableEq τ] in
/-- More observations keep what is fair, if they do as a whole. -/
theorem Fair.append (fair : Fair t priority ahead new) {more : List (KernelObs τ)}
    (whole : ∀ before after, more = before ++ after → (∀ level, .switched t level ∉ new ++ before) →
      turns priority (new ++ before) ≤ ahead) : Fair t priority ahead (new ++ more) := by
  intro before after split unswitched
  -- The part that is looked at ends in what was there already, or in what has come.
  rcases List.append_eq_append_iff.mp split with ⟨rest, rfl, later⟩ | ⟨rest, early, -⟩
  · exact whole rest after later unswitched
  · exact fair before rest early unswitched

omit [DecidableEq κ] in
/-- Timers bring nobody forward. -/
theorem InLine.timers {past : List (KernelObs τ)} (line : InLine t priority ahead past k new)
    (events : List (TimerObs τ)) (seen : next.seen = k.seen ++ events.map .timer)
    (lists : next.lists = k.lists) (thread : next.thread = k.thread) :
    InLine t priority ahead past next (new ++ events.map .timer) := by
  -- Until the thread has its turn, no part of what is new is a turn.
  have silent : ∀ before after, events.map KernelObs.timer = before ++ after →
      turns priority before = 0 := by
    intro before after split
    obtain ⟨one, two, -, rfl, -⟩ := List.map_eq_append_iff.mp split
    exact turns_timer one
  have unswitched : ∀ before, (∀ level, .switched t level ∉ new ++ before) → ∀ level,
    .switched t level ∉ new :=
    fun before absent level member => absent level (List.mem_append_left _ member)
  refine ⟨by rw [seen, line.seen, List.append_assoc],
    line.fair.append fun before after split absent => ?_,
    fun absent => ?_⟩
  · rw [turns_append, silent before after split]
    exact line.fair new [] (by simp) (unswitched before absent)
  · rw [lists, thread, turns_append, turns_timer]
    exact line.ready (unswitched _ absent)

omit [DecidableEq κ] in
/-- A change that leaves a ready thread where it stands, or brings it forward, keeps the line. -/
theorem InLine.of_le {past : List (KernelObs τ)} (line : InLine t priority ahead past k new)
    (seen : next.seen = k.seen)
    (same : (∀ level, .switched t level ∉ new) → (k.thread t).stat = .ready →
      (k.thread t).currentPriority = priority →
      (next.thread t).stat = .ready ∧ (next.thread t).currentPriority = priority ∧
      (next.lists (.ready priority)).idxOf t ≤ (k.lists (.ready priority)).idxOf t) :
    ∃ more, InLine t priority ahead past next (new ++ more) := by
  refine ⟨[], ?_⟩
  rw [List.append_nil]
  refine ⟨seen.trans line.seen, line.fair, fun absent => ?_⟩
  obtain ⟨ready, level, bound⟩ := line.ready absent
  obtain ⟨ready', level', forward⟩ := same absent ready level
  exact ⟨ready', level', by omega⟩

/-- `rt_schedule_insert_thread` adds at most to the end of a list. -/
theorem prefix_insert (k : Kernel τ κ) (u : τ) (priority : Fin 32) :
    k.lists (.ready priority) <+: (k.rtScheduleInsertThread u).lists (.ready priority) := by
  rw [rtScheduleInsertThread]
  split
  · exact List.prefix_rfl
  · dsimp only
    by_cases same : priority = ((k.setStat u .ready).thread u).currentPriority
    · rw [same, lists_setList_self]
      exact List.prefix_append _ _
    · rw [lists_setList_of_ne _ (by simpa using same)]
      exact List.prefix_rfl

/-- Who makes place for another thread goes to the end of its list. -/
theorem prefix_makePlace (k : Kernel τ κ) (u : τ) (priority : Fin 32) :
    k.lists (.ready priority) <+: (k.makePlace u).lists (.ready priority) := by
  rw [makePlace]
  split
  · exact prefix_insert { k with current := u } k.current priority
  · exact List.prefix_rfl

/-- What comes to the end of a list brings nobody back. -/
theorem idxOf_of_front {list longer : List τ} (listed : t ∈ list) (longer_of : list <+: longer) :
    longer.idxOf t = list.idxOf t := by
  obtain ⟨rest, rfl⟩ := longer_of
  exact List.idxOf_append_of_mem listed

/-- A switch takes the target out of what the lists have become. -/
theorem lists_switchTo (k : Kernel τ κ) (u : τ) (highest : Fin 32) (head : ListHead κ) :
    (k.switchTo u highest).lists head = ((k.makePlace u).lists head).erase u := by
  simp [switchTo, Kernel.setStat, Kernel.upd]

/-- A switch to another thread brings a ready thread forward, if it is a turn of its priority. -/
theorem Placed.idxOf_switchTo (placed : Placed idle k) {first : τ} {highest : Fin 32}
    (found : k.getHighestPriorityThread = some (first, highest)) (other : first ≠ t)
    (listed : t ∈ k.lists (.ready priority)) :
    ((k.switchTo first highest).lists (.ready priority)).idxOf t +
      turns priority [.switched first highest] ≤
      (k.lists (.ready priority)).idxOf t := by
  obtain ⟨-, -, rest, list⟩ := placed.filed.of_getHighestPriorityThread found
  have after := idxOf_of_front listed (prefix_makePlace k first priority)
  rw [lists_switchTo, ← after]
  by_cases turn : highest = priority
  · -- The target stood in front, and still does when the other thread has made place.
    subst turn
    obtain ⟨extra, longer⟩ := prefix_makePlace k first highest
    rw [list, List.cons_append] at longer
    rw [← longer, List.erase_cons_head, List.idxOf_cons_ne _ other]
    simp [turns]
  · have back := idxOf_erase_le other ((k.makePlace first).lists (.ready priority))
    simpa [turns, turn] using back

/-- After a switch a thread has had its turn, or is as far ahead as it should be. -/
theorem InLine.switch {past : List (KernelObs τ)} (line : InLine t priority ahead past k new)
    (placed : Placed idle k) {first : τ} {highest : Fin 32}
    (found : k.getHighestPriorityThread = some (first, highest)) :
    InLine t priority ahead past (k.switchTo first highest) (new ++ [.switched first highest]) := by
  have seen : (k.switchTo first highest).seen = k.seen ++ [.switched first highest] := by
    simp only [Kernel.switchTo, Kernel.setStat, Kernel.upd, seen_remove, makePlace]
    split <;> simp
  -- If it was not its turn, the thread is still ready, and as far ahead as it should be.
  have stays : (∀ level, .switched t level ∉ new ++ [.switched first highest]) →
      ((k.switchTo first highest).thread t).stat = .ready ∧
      ((k.switchTo first highest).thread t).currentPriority = priority ∧
      ((k.switchTo first highest).lists (.ready priority)).idxOf t +
        turns priority (new ++ [.switched first highest]) ≤ ahead := by
    intro absent
    obtain ⟨ready, level, bound⟩ := line.ready fun level member => absent level (by simp [member])
    have other : first ≠ t := fun same => absent highest (by simp [same])
    have away : k.current ≠ first := fun same =>
      placed.current.1 (same ▸ (placed.filed.of_getHighestPriorityThread found).1)
    have record : (k.switchTo first highest).thread t = k.thread t := by
      have behind : t ≠ k.current := fun same => placed.current.1 (same ▸ ready)
      rw [thread_switchTo away, if_neg other.symm, if_neg (by simp [behind])]
    have forward := placed.idxOf_switchTo found other
      ((placed.filed.ready t priority).mpr ⟨Set.notMem_empty _, ready, level⟩)
    rw [record, turns_append]
    exact ⟨ready, level, by omega⟩
  refine ⟨by rw [seen, line.seen, List.append_assoc],
    line.fair.append fun before after split absent => ?_, stays⟩
  -- Before the switch the bound holds already, and after it by what was just shown.
  rcases before with _ | ⟨event, before⟩
  · rw [List.append_nil] at absent ⊢
    exact line.fair new [] (by simp) absent
  · obtain ⟨rfl, rest⟩ := List.cons.inj split
    obtain ⟨rfl, -⟩ := List.append_eq_nil_iff.mp rest.symm
    exact le_trans (Nat.le_add_left _ _) (stays absent).2.2

/-- A ready thread keeps its place when another thread is woken. -/
theorem InLine.arise {past : List (KernelObs τ)} (line : InLine t priority ahead past k new)
    (placed : Placed idle k) {u : τ} (suspended : (k.thread u).stat = .suspend) :
    ∃ more, InLine t priority ahead past ((k.unlink u).rtScheduleInsertThread u) (new ++ more) := by
  refine line.of_le (by simp [Kernel.unlink]) fun _ ready level => ?_
  have other : t ≠ u := by
    intro same
    rw [same, suspended] at ready
    cases ready
  rw [thread_insert, Function.update_of_ne other]
  refine ⟨ready, level, ?_⟩
  -- The woken thread comes in at the end of its list.
  have still : t ∈ (k.unlink u).lists (.ready priority) :=
    (placed.filed.mem_unlink _).mpr
      ⟨other, (placed.filed.ready t _).mpr ⟨Set.notMem_empty _, ready, level⟩⟩
  rw [idxOf_of_front still (prefix_insert _ u priority)]
  exact idxOf_erase_le other.symm _

omit [DecidableEq κ] in
/-- A ready thread keeps its place when fields change that the lists do not depend on. -/
theorem InLine.tweak {past : List (KernelObs τ)} (line : InLine t priority ahead past k new) {u : τ}
    {f : RtThread → RtThread} (stat : (f (k.thread u)).stat = (k.thread u).stat)
    (level : (f (k.thread u)).currentPriority = (k.thread u).currentPriority) :
    InLine t priority ahead past (k.upd u f) new := by
  refine ⟨line.seen, line.fair, fun absent => ?_⟩
  obtain ⟨ready, priority, bound⟩ := line.ready absent
  refine ⟨(stat_upd stat t).trans ready, ?_, bound⟩
  by_cases same : t = u
  · rw [same] at priority ⊢
    rw [thread_upd_self, level]
    exact priority
  · rw [thread_upd_of_ne k same]
    exact priority

/-- A ready thread keeps its place when the priority of another thread changes. -/
theorem InLine.changePriority {past : List (KernelObs τ)}
    (line : InLine t priority ahead past k new) (placed : Placed idle k) {u : τ} (level : Fin 32)
    (distinct : (∀ level, .switched t level ∉ new) → t ≠ u) :
    ∃ more, InLine t priority ahead past (k.changePriority u level) (new ++ more) := by
  refine line.of_le ?_ fun absent ready own => ?_
  · rw [Kernel.changePriority]
    split <;> simp [Kernel.upd]
  · have other := distinct absent
    rw [Kernel.changePriority]
    split
    · -- The other thread leaves its list, and joins another one at the end.
      rw [thread_insert, Function.update_of_ne other, thread_upd_of_ne _ other, thread_remove]
      refine ⟨ready, own, ?_⟩
      have listed := (placed.filed.ready t priority).mpr ⟨Set.notMem_empty _, ready, own⟩
      have still : t ∈ (k.lists (.ready priority)).erase u :=
        (List.mem_erase_of_ne other).mpr listed
      refine (idxOf_of_front (by simpa [Kernel.upd] using still)
        (prefix_insert _ u priority)).le.trans ?_
      simpa [Kernel.upd] using idxOf_erase_le other.symm _
    · rw [thread_upd_of_ne k other]
      exact ⟨ready, own, le_rfl⟩

/-- Every move that does not touch a ready thread keeps its place in the line. -/
theorem InLine.move {past : List (KernelObs τ)} (line : InLine t priority ahead past k new)
    (placed : Placed idle k) (spared : (∀ level, .switched t level ∉ new) → ¬ N.stop t ∧ ¬ N.tune t)
    (move : Move idle N k next) : ∃ more, InLine t priority ahead past next (new ++ more) := by
  cases move with
  | tweak stat level mask error base => exact ⟨[], by simpa using line.tweak stat level⟩
  | errno code touched => exact ⟨[], by simpa using line.tweak rfl rfl⟩
  | lock nest => exact line.of_le rfl fun _ ready level => ⟨ready, level, le_rfl⟩
  | timers events asleep => exact ⟨_, line.timers events rfl rfl rfl⟩
  | @halt u change busy touched runnable stat level mask base =>
    refine line.of_le (by simp [Kernel.upd]) fun absent ready level => ?_
    have other : t ≠ u := fun same => (spared absent).1 (same ▸ touched)
    rw [thread_upd_of_ne _ other, thread_remove]
    refine ⟨ready, level, ?_⟩
    simpa [Kernel.upd] using idxOf_erase_le other.symm _
  | arise suspended stopped touched => exact line.arise placed suspended
  | timeout suspended stopped =>
    exact (line.tweak rfl rfl).arise (placed.tweak rfl rfl rfl) (by simpa using suspended)
  | enqueue suspended absent perm caller touched =>
    refine line.of_le rfl fun _ ready level => ⟨ready, level, ?_⟩
    rw [lists_setList_of_ne k (by simp)]
  | @start u change fresh suspended mask base own =>
    refine line.of_le rfl fun _ ready level => ?_
    have other : t ≠ u := by
      intro same
      rw [same, fresh] at ready
      cases ready
    rw [thread_upd_of_ne k other]
    exact ⟨ready, level, le_rfl⟩
  | priority touched level =>
    exact line.changePriority placed level fun absent same => (spared absent).2 (same ▸ touched)
  | switch found => exact ⟨_, line.switch placed found⟩

/-- Sequences of moves that do not touch a ready thread keep its place in the line. -/
theorem InLine.moves {past : List (KernelObs τ)} (line : InLine t priority ahead past k new)
    (good : Good idle k) (spared : (∀ level, .switched t level ∉ new) → ¬ N.stop t ∧ ¬ N.tune t)
    (moves : Moves idle N k next) :
    ∃ more, InLine t priority ahead past next (new ++ more) := by
  induction moves with
  | refl => exact ⟨[], by simpa using line⟩
  | tail before move ih =>
    obtain ⟨more, line⟩ := ih
    have still : (∀ level, .switched t level ∉ new ++ more) → ¬ N.stop t ∧ ¬ N.tune t :=
      fun absent => spared fun level member => absent level (List.mem_append_left _ member)
    -- A thread that is not switched to in the end was not switched to before.
    obtain ⟨further, line⟩ := line.move (good.moves before).toPlaced still move
    exact ⟨more ++ further, by simpa using line⟩

variable {start : BitVec 32}

/-- The event suspends a thread, or changes its priority, that need not be the running one. -/
def Names (t : τ) : KernelEvent τ κ → Prop
  | .suspend named | .changePriority named _ => named = t
  | _ => False

omit [DecidableEq τ] [DecidableEq κ] in
/-- A ready thread is only touched by an event that names it. -/
theorem Placed.spared (placed : Placed idle k) (ready : (k.thread t).stat = .ready)
    {event : KernelEvent τ κ} (unnamed : ¬ Names t event) :
    ¬ (k.touched event).stop t ∧ ¬ (k.touched event).tune t := by
  have away : t ≠ k.current := fun same => placed.current.1 (same ▸ ready)
  cases event with
  | suspend | changePriority => simp [touched, Names] at unnamed ⊢; exact Ne.symm unnamed
  | _ => simp [touched, away]

/-- A run in which no event suspends a thread or changes its priority from outside. -/
abbrev Unnamed (idle t : τ) : Kernel τ κ → Kernel τ κ → Prop :=
  Relation.ReflTransGen fun k next => ∃ event, ¬ Names t event ∧ Step idle event k next

/-- A ready thread keeps its place in the line over a whole run. -/
theorem InLine.run {past : List (KernelObs τ)} (line : InLine t priority ahead past k new)
    (good : Good idle k) (timed : Timed start k) (later : Unnamed idle t k next) :
    ∃ more, InLine t priority ahead past next (new ++ more) := by
  -- By induction on the run, with what holds in each of its states.
  suffices held : Good idle next ∧ Timed start next ∧ ∃ more,
    InLine t priority ahead past next (new ++ more) from
    held.2.2
  induction later with
  | refl => exact ⟨good, timed, [], by simpa using line⟩
  | tail _ step ih =>
    obtain ⟨good, timed, more, line⟩ := ih
    obtain ⟨event, unnamed, allowed, taken⟩ := step
    obtain ⟨next, done, returned⟩ := good.run timed allowed
    obtain rfl := Option.some.inj (done.symm.trans taken)
    -- Until its turn the thread is ready, so an event that does not name it spares it.
    obtain ⟨further, line⟩ := line.moves good
      (fun absent => good.toPlaced.spared (line.ready absent).1 unnamed) returned.moves
    exact ⟨good.moves returned.moves, timed.steps returned.timed, more ++ further, by
      simpa using line⟩

/-- Three threads of one priority that give way to each other. -/
def turnsThreads (t : DemoThread) : Fin 32 × BitVec 32 :=
  if t = .idle then demoThreads .idle else demoThreads .low

/-- The priority that the three share. -/
def turnsPriority : Fin 32 := DemoThread.low.priority

/-- What is observed until the second and the third are ready behind the first. -/
def turnsTrace : List (KernelObs DemoThread) :=
  [.timer (.stopped .low), .switched .low turnsPriority, .timer (.stopped .middle),
    .timer (.stopped .high)]

/-- What is observed when the running thread then gives way twice. -/
def turnsTaken : List (KernelObs DemoThread) :=
  [.switched .middle turnsPriority, .switched .high turnsPriority]

/-- The threads are started, and then the running thread gives way twice. -/
def turnsRun : Option (Kernel DemoThread Unit × Kernel DemoThread Unit) := do
  let k ← exec .idle (init .idle 0 turnsThreads) [.startup .low, .startup .middle, .startup .high]
  let next ← exec .idle k [.yield, .yield]
  return (k, next)

end Kernel
end MultifunctionClock
