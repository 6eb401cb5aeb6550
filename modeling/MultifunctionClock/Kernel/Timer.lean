import MultifunctionClock.Lib.Reach
import MultifunctionClock.Lib.Trace
import MultifunctionClock.Lib.Wrapping

/-!
The hard timers of the kernel: one list in the order of the timeouts, on a tick counter that wraps.

Every timer fires in the tick it was started for, however often the counter wraps.
-/

namespace MultifunctionClock

open Wrapping

/-- `struct rt_timer`, with the two flags of its object that the hard timers use. -/
structure RtTimer where
  initTick : BitVec 32
  timeoutTick : BitVec 32
  periodic : Bool
  activated : Bool
deriving DecidableEq

/-- The tick counter and the timers. -/
structure Timers (θ : Type) where
  /-- `rt_tick`. -/
  tick : BitVec 32
  /-- `rt_timer_list`, whose skip list has one level. -/
  list : List θ
  /-- The temporary list of `rt_timer_check`, for the timer whose timeout function is running. -/
  held : Option θ
  timer : θ → RtTimer

/-- What can be observed of the timers. -/
inductive TimerObs (θ : Type) where
  /-- The tick counter moved on. -/
  | ticked
  /-- A timer was started for a number of ticks. -/
  | started (timer : θ) (ticks : ℕ)
  /-- A timer was stopped. -/
  | stopped (timer : θ)
  /-- The timeout function of a timer was called. -/
  | fired (timer : θ)
deriving DecidableEq

namespace Timers

variable {θ : Type} [DecidableEq θ]

/-- One timer gets another record. -/
def put (s : Timers θ) (t : θ) (record : RtTimer) : Timers θ :=
  { s with timer := Function.update s.timer t record }

/-- `_rt_timer_remove`, and the flag that goes with it. -/
def remove (s : Timers θ) (t : θ) : Timers θ :=
  { s.put t { s.timer t with activated := false } with
    list := s.list.erase t
    held := s.held.filter (· ≠ t) }

/-- One timer is to fire later than another, as `rt_timer_start` compares them. -/
def Later (timer : θ → RtTimer) (t other : θ) : Prop :=
  (timer other).timeoutTick - (timer t).timeoutTick ≠ 0 ∧
    (timer other).timeoutTick - (timer t).timeoutTick < half

instance (timer : θ → RtTimer) : DecidableRel (Later timer) := fun t other =>
  inferInstanceAs (Decidable ((timer other).timeoutTick - (timer t).timeoutTick ≠ 0 ∧
    (timer other).timeoutTick - (timer t).timeoutTick < half))

/--
The part of `rt_timer_start` behind its assertion.

The timer goes in front of the first one that is later, so behind those of the same timeout.
-/
def enlist (s : Timers θ) (t : θ) : Timers θ :=
  let s := s.put t
    { s.timer t with timeoutTick := s.tick + (s.timer t).initTick, activated := true }
  { s with list := s.list.orderedInsert (Later s.timer) t }

/-- `rt_timer_start`. There is no result when its assertion on the number of ticks fails. -/
def rtTimerStart (s : Timers θ) (t : θ) : Option (Timers θ) :=
  let s := s.remove t
  if (s.timer t).initTick < half then some (s.enlist t) else none

/-- `rt_timer_stop`, whose result no caller in the kernel uses. -/
def rtTimerStop (s : Timers θ) (t : θ) : Timers θ :=
  if (s.timer t).activated then s.remove t else s

/-- `rt_timer_detach`, as far as it concerns the timer itself. -/
def rtTimerDetach (s : Timers θ) (t : θ) : Timers θ := s.remove t

/-- `RT_TIMER_CTRL_SET_TIME` of `rt_timer_control`. -/
def setTime (s : Timers θ) (t : θ) (ticks : BitVec 32) : Timers θ :=
  s.put t { s.timer t with initTick := ticks }

/-- `RT_TIMER_CTRL_SET_ONESHOT` and `RT_TIMER_CTRL_SET_PERIODIC` of `rt_timer_control`. -/
def setPeriodic (s : Timers θ) (t : θ) (periodic : Bool) : Timers θ :=
  s.put t { s.timer t with periodic := periodic }

end Timers

/-- A call of the timer interface, by a thread or by a timeout function. -/
inductive TimerCall (θ : Type) where
  | setTime (timer : θ) (ticks : BitVec 32)
  | setPeriodic (timer : θ) (periodic : Bool)
  | start (timer : θ)
  | stop (timer : θ)
  | detach (timer : θ)

/--
A call, or a tick with the calls that the timeout functions make, in the order of their turns.
-/
inductive TimerEvent (θ : Type) where
  | call (call : TimerCall θ)
  | tick (timeouts : List (List (TimerCall θ)))

namespace Timers

variable {θ : Type} [DecidableEq θ]

/-- One call. A call whose assertion fails does not return. -/
def call (s : Timers θ) : TimerCall θ → Option (Timers θ × List (TimerObs θ))
  | .setTime t ticks => some (s.setTime t ticks, [])
  | .setPeriodic t periodic => some (s.setPeriodic t periodic, [])
  | .start t => (s.rtTimerStart t).map fun next => (next, [.started t (s.timer t).initTick.toNat])
  | .stop t => some (s.rtTimerStop t, [.stopped t])
  | .detach t => some (s.rtTimerDetach t, [.stopped t])

/-- The calls of one timeout function. -/
def calls : Timers θ → List (TimerCall θ) → Option (Timers θ × List (TimerObs θ))
  | s, [] => some (s, [])
  | s, first :: rest => do
    let (next, new) ← s.call first
    let (last, more) ← next.calls rest
    return (last, new ++ more)

/-- `rt_timer_check` takes a timer out of its list. Only a one-shot timer loses its flag by that. -/
def take (s : Timers θ) (t : θ) : Timers θ :=
  { s.put t { s.timer t with activated := (s.timer t).activated && (s.timer t).periodic } with
    list := s.list.erase t
    held := some t }

/-- The end of a turn of `rt_timer_check`, behind the timeout function. -/
def giveBack (s : Timers θ) (t : θ) : Option (Timers θ × List (TimerObs θ)) :=
  -- The function has detached, stopped or started the timer itself.
  if s.held = none then some (s, [])
  else
    let s := { s with held := none }
    -- A periodic timer is started again, if the function left it periodic.
    if (s.timer t).periodic ∧ (s.timer t).activated then
      (s.rtTimerStart t).map fun next => (next, [.started t (s.timer t).initTick.toNat])
    else some (s, [])

/--
The loop of `rt_timer_check`, given the calls of the timeout functions that it runs.

It takes as many turns as timers are due, which the first argument has to allow for.
-/
def rtTimerCheck : ℕ → List (List (TimerCall θ)) → Timers θ →
    Option (Timers θ × List (TimerObs θ))
  | 0, _, _ => none
  | turns + 1, timeouts, s =>
    match s.list with
    | [] => some (s, [])
    | t :: _ =>
      -- The list is in order, so the loop ends at the first timer that is not due.
      if s.tick - (s.timer t).timeoutTick < half then do
        let (called, made) ← (s.take t).calls (timeouts.headD [])
        let (back, again) ← called.giveBack t
        let (last, more) ← rtTimerCheck turns timeouts.tail back
        return (last, .fired t :: made ++ again ++ more)
      else some (s, [])

/-- `rt_tick_increase` as far as it concerns the timers. -/
def rtTickIncrease (s : Timers θ) (timeouts : List (List (TimerCall θ))) :
    Option (Timers θ × List (TimerObs θ)) := do
  let (last, new) ← rtTimerCheck (s.list.length + 1) timeouts { s with tick := s.tick + 1 }
  return (last, .ticked :: new)

/-- One call or tick. -/
def step (s : Timers θ) : TimerEvent θ → Option (Timers θ × List (TimerObs θ))
  | .call call => s.call call
  | .tick timeouts => s.rtTickIncrease timeouts

/-- A number of ticks that a timer can repeat. With none it would fire again at once, and again. -/
def Period (ticks : BitVec 32) : Prop := ticks ≠ 0 ∧ ticks < half

instance (ticks : BitVec 32) : Decidable (Period ticks) :=
  inferInstanceAs (Decidable (ticks ≠ 0 ∧ ticks < half))

/--
Every timer has a period but the brief ones, which are never periodic.

A brief timer may be started for no ticks at all, and is then due in the next tick.
-/
structure Steady (brief : θ → Prop) (s : Timers θ) : Prop where
  period : ∀ t, ¬brief t → Period (s.timer t).initTick
  kind : ∀ t, (s.timer t).periodic = true → ¬brief t

end Timers

/-- The settings of a timer leave it a period, unless it is brief. -/
def TimerCall.Sound {θ : Type} (brief : θ → Prop) : TimerCall θ → Prop
  | .setTime t ticks => brief t ∨ Timers.Period ticks
  | .setPeriodic t periodic => periodic = true → ¬brief t
  | .start _ | .stop _ | .detach _ => True

/-- A call that a timeout function may make. It starts no brief timer, which would fire at once. -/
def TimerCall.Timely {θ : Type} (brief : θ → Prop) : TimerCall θ → Prop
  | .start t => ¬brief t
  | call => call.Sound brief

instance {θ : Type} (brief : θ → Prop) [DecidablePred brief] : DecidablePred (TimerCall.Sound brief)
  | .setTime t ticks => inferInstanceAs (Decidable (brief t ∨ Timers.Period ticks))
  | .setPeriodic t periodic => inferInstanceAs (Decidable (periodic = true → ¬brief t))
  | .start _ | .stop _ | .detach _ => inferInstanceAs (Decidable True)

instance {θ : Type} (brief : θ → Prop) [DecidablePred brief] :
    DecidablePred (TimerCall.Timely brief)
  | .start t => inferInstanceAs (Decidable ¬brief t)
  | .setTime t ticks => inferInstanceAs (Decidable (TimerCall.Sound brief (.setTime t ticks)))
  | .setPeriodic t periodic =>
    inferInstanceAs (Decidable (TimerCall.Sound brief (.setPeriodic t periodic)))
  | .stop _ | .detach _ => inferInstanceAs (Decidable True)

/-- A timely call is sound. -/
theorem TimerCall.Timely.sound {θ : Type} {brief : θ → Prop} {call : TimerCall θ}
    (timely : call.Timely brief) : call.Sound brief := by
  cases call with
  | start t => exact trivial
  | setTime | setPeriodic | stop | detach => exact timely

namespace Timers

variable {θ : Type} [DecidableEq θ]

/-- What may happen: sound settings, and timeout functions whose calls are timely. -/
def Sound (brief : θ → Prop) (_ : Timers θ) : TimerEvent θ → Prop
  | .call call => call.Sound brief
  | .tick timeouts => ∀ calls ∈ timeouts, ∀ call ∈ calls, call.Timely brief

instance (brief : θ → Prop) [DecidablePred brief] (s : Timers θ) : DecidablePred (s.Sound brief)
  | .call call => inferInstanceAs (Decidable (call.Sound brief))
  | .tick timeouts =>
    inferInstanceAs (Decidable (∀ calls ∈ timeouts, ∀ call ∈ calls, call.Timely brief))

/-- `rt_system_timer_init`, and `_rt_timer_init` of all timers. -/
def init (tick : BitVec 32) (initTick : θ → BitVec 32) (periodic : θ → Bool) : Timers θ where
  tick := tick
  list := []
  held := none
  timer t := ⟨initTick t, 0, periodic t, false⟩

end Timers

/-- What the timers are for: the number of ticks so far, and the tick in which each timer is due. -/
structure Alarms (θ : Type) where
  ticks : ℕ
  due : θ → Option ℕ

namespace Alarms

variable {θ : Type} [DecidableEq θ]

/-- One observation more. A timer is due after its ticks, but not before the next tick. -/
def see (a : Alarms θ) : TimerObs θ → Alarms θ
  | .ticked => { a with ticks := a.ticks + 1 }
  | .started t ticks => { a with due := Function.update a.due t (some (a.ticks + max ticks 1)) }
  | .stopped t | .fired t => { a with due := Function.update a.due t none }

/-- What a trace leaves to be done. -/
def ofTrace (trace : List (TimerObs θ)) : Alarms θ := trace.foldl see ⟨0, fun _ => none⟩

/-- One more observation. -/
@[simp] theorem ofTrace_concat (trace : List (TimerObs θ)) (event : TimerObs θ) :
    ofTrace (trace ++ [event]) = (ofTrace trace).see event := by
  simp [ofTrace]

/-- A timer fires in the tick in which it is due. -/
def Punctual (before : List (TimerObs θ)) (event : TimerObs θ) : Prop :=
  ∀ t, event = .fired t → (ofTrace before).due t = some (ofTrace before).ticks

end Alarms

namespace Timers

variable {θ : Type} [DecidableEq θ]

/--
The timers do what is left to be done.

Each timer in the list has a deadline, and its timeout is the counter at that deadline.
No deadline is in the past by more than the tick that is being handled.
-/
structure Tracks (start : BitVec 32) (next : ℕ) (deadline : θ → ℕ) (s : Timers θ) (a : Alarms θ) :
    Prop where
  tick : s.tick = after start a.ticks
  nodup : s.list.Nodup
  active : ∀ t ∈ s.list, (s.timer t).activated = true
  timeout : ∀ t ∈ s.list, (s.timer t).timeoutTick = after start (deadline t)
  low : ∀ t ∈ s.list, next ≤ deadline t + 1
  high : ∀ t ∈ s.list, deadline t < a.ticks + 2147483647
  sorted : s.list.Pairwise fun one other => deadline one ≤ deadline other
  due : ∀ t ∈ s.list, a.due t = some (max (deadline t) next)
  idle : ∀ t ∉ s.list, a.due t = none

variable {start : BitVec 32} {next : ℕ} {deadline : θ → ℕ} {s : Timers θ} {a : Alarms θ} {t : θ}

/-- A timer that leaves the list is no longer due, whatever becomes of its record. -/
theorem Tracks.erase (tracks : Tracks start next deadline s a) {s' : Timers θ}
    (tick : s'.tick = s.tick) (list : s'.list = s.list.erase t)
    (others : ∀ other, other ≠ t → s'.timer other = s.timer other) :
    Tracks start next deadline s' { a with due := Function.update a.due t none } := by
  -- All other timers keep their records and their order.
  have member : ∀ other, other ∈ s'.list ↔ other ≠ t ∧ other ∈ s.list := fun other => by
    rw [list]
    exact tracks.nodup.mem_erase_iff
  have listed : ∀ other ∈ s'.list, other ∈ s.list := fun other inside =>
    ((member other).mp inside).2
  have same : ∀ other ∈ s'.list, s'.timer other = s.timer other := fun other inside =>
    others other ((member other).mp inside).1
  constructor
  case tick => exact tick.trans tracks.tick
  case nodup => exact list ▸ tracks.nodup.erase t
  case active =>
    intro other inside
    rw [same other inside]
    exact tracks.active other (listed other inside)
  case timeout =>
    intro other inside
    rw [same other inside]
    exact tracks.timeout other (listed other inside)
  case low => exact fun other inside => tracks.low other (listed other inside)
  case high => exact fun other inside => tracks.high other (listed other inside)
  case sorted => exact list ▸ tracks.sorted.sublist List.erase_sublist
  case due =>
    intro other inside
    exact (Function.update_of_ne ((member other).mp inside).1 _ _).trans
      (tracks.due other (listed other inside))
  case idle =>
    intro other outside
    by_cases equal : other = t
    · subst equal
      exact Function.update_self _ _ _
    · refine (Function.update_of_ne equal _ _).trans (tracks.idle other fun inside => ?_)
      exact outside ((member other).mpr ⟨equal, inside⟩)

/-- A timer that is removed is no longer due. -/
theorem Tracks.remove (tracks : Tracks start next deadline s a) (t : θ) :
    Tracks start next deadline (s.remove t) { a with due := Function.update a.due t none } :=
  tracks.erase rfl rfl fun _ distinct => Function.update_of_ne distinct _ _

/-- An element that is put in front of the first larger one keeps a list in order. -/
theorem pairwise_orderedInsert {α : Type} (size : α → ℕ) (before : α → α → Prop)
    [DecidableRel before] (x : α) {list : List α} (less : ∀ y ∈ list, before x y ↔ size x < size y)
    (sorted : list.Pairwise fun one other => size one ≤ size other) :
    (list.orderedInsert before x).Pairwise fun one other => size one ≤ size other := by
  -- By induction on the list, with the case whether its head is the first larger element.
  induction list with
  | nil => simp
  | cons y list ih =>
    obtain ⟨head, tail⟩ := List.pairwise_cons.mp sorted
    have largerIff := less y (by simp)
    by_cases larger : before x y
    · rw [List.orderedInsert_cons, if_pos larger]
      have bound := largerIff.mp larger
      -- The element is the new head, and everything behind it is at least as large as the old one.
      refine List.pairwise_cons.mpr ⟨fun z member => ?_, sorted⟩
      rcases List.mem_cons.mp member with rfl | later
      · omega
      · have := head z later
        omega
    · rw [List.orderedInsert_cons, if_neg larger]
      have bound := mt largerIff.mpr larger
      refine List.pairwise_cons.mpr
        ⟨fun z member => ?_, ih (fun z inside => less z (by simp [inside])) tail⟩
      -- The old head stays, and what follows it is the element or was there before.
      rcases List.mem_cons.mp ((List.perm_orderedInsert _ _ _).mem_iff.mp member) with rfl | later
      · omega
      · exact head z later

/-- Only the timer itself gets another record. -/
theorem timer_enlist_of_ne (s : Timers θ) {t other : θ} (distinct : other ≠ t) :
    (s.enlist t).timer other = s.timer other := Function.update_of_ne distinct _ _

/-- A timer that is started gets its timeout and its flag. -/
theorem timer_enlist_self (s : Timers θ) (t : θ) : (s.enlist t).timer t = { s.timer t with
    timeoutTick := s.tick + (s.timer t).initTick, activated := true } := Function.update_self _ _ _

/-- The list gets the one timer more. -/
theorem perm_enlist (s : Timers θ) (t : θ) : (s.enlist t).list.Perm (t :: s.list) :=
  List.perm_orderedInsert _ _ _

/-- Who is in the list then. -/
theorem mem_enlist {other : θ} : other ∈ (s.enlist t).list ↔ other = t ∨ other ∈ s.list :=
  (s.perm_enlist t).mem_iff.trans List.mem_cons

omit [DecidableEq θ] in
/-- The timeout tick that a timer gets is its deadline on the counter. -/
theorem Tracks.timeout_new (tracks : Tracks start next deadline s a) (t : θ) :
    s.tick + (s.timer t).initTick = after start (a.ticks + (s.timer t).initTick.toNat) := by
  rw [after_add, tracks.tick, BitVec.ofNat_toNat, BitVec.setWidth_eq]

/-- A timer is put behind those whose deadlines are not later. -/
theorem Tracks.sorted_enlist (tracks : Tracks start next deadline s a) (outside : t ∉ s.list)
    (small : (s.timer t).initTick < half) (early : a.ticks ≤ next) {moment : ℕ}
    (new : moment = a.ticks + (s.timer t).initTick.toNat) :
    (s.enlist t).list.Pairwise fun one other =>
      Function.update deadline t moment one ≤ Function.update deadline t moment other := by
  have bound : (s.timer t).initTick.toNat < 2147483647 := small
  have apart : ∀ other ∈ s.list, other ≠ t := fun other listed same => outside (same ▸ listed)
  refine pairwise_orderedInsert _ _ t (fun other listed => ?_) ?_
  · -- Both deadlines lie within half the range of the counter.
    have low := tracks.low other listed
    have high := tracks.high other listed
    rw [Function.update_self, Function.update_of_ne (apart other listed), Later, new]
    simp only [Timers.put, Function.update_self, Function.update_of_ne (apart other listed)]
    rw [tracks.timeout other listed, tracks.timeout_new t]
    exact later_iff start (by omega) (by omega)
  · refine tracks.sorted.imp_of_mem fun one other => ?_
    rw [Function.update_of_ne (apart _ one), Function.update_of_ne (apart _ other)]
    exact id

/-- A timer that is put into the list is due after its ticks. -/
theorem Tracks.enlist (tracks : Tracks start next deadline s a) (outside : t ∉ s.list)
    (small : (s.timer t).initTick < half) (early : a.ticks ≤ next)
    (dueIn : max (a.ticks + (s.timer t).initTick.toNat) next =
      a.ticks + max (s.timer t).initTick.toNat 1) :
    Tracks start next (Function.update deadline t (a.ticks + (s.timer t).initTick.toNat))
      (s.enlist t) (a.see (.started t (s.timer t).initTick.toNat)) := by
  have bound : (s.timer t).initTick.toNat < 2147483647 := small
  -- Each timer in the list is the new one, or one that was there and is as it was.
  have apart : ∀ other ∈ s.list, other ≠ t := fun other listed same => outside (same ▸ listed)
  have deadlineOther : ∀ other ∈ s.list, Function.update deadline t
      (a.ticks + (s.timer t).initTick.toNat) other = deadline other := fun other listed =>
    Function.update_of_ne (apart other listed) _ _
  constructor
  case tick => exact tracks.tick
  case nodup => exact (s.perm_enlist t).nodup_iff.mpr (List.nodup_cons.mpr ⟨outside, tracks.nodup⟩)
  case active =>
    intro other inside
    rcases mem_enlist.mp inside with rfl | listed
    · rw [timer_enlist_self]
    · rw [timer_enlist_of_ne s (apart other listed)]
      exact tracks.active other listed
  case timeout =>
    intro other inside
    rcases mem_enlist.mp inside with rfl | listed
    · rw [timer_enlist_self, Function.update_self]
      exact tracks.timeout_new other
    · rw [timer_enlist_of_ne s (apart other listed), deadlineOther other listed]
      exact tracks.timeout other listed
  case low =>
    intro other inside
    rcases mem_enlist.mp inside with rfl | listed
    · rw [Function.update_self]
      omega
    · rw [deadlineOther other listed]
      exact tracks.low other listed
  case high =>
    intro other inside
    show _ < a.ticks + 2147483647
    rcases mem_enlist.mp inside with rfl | listed
    · rw [Function.update_self]
      omega
    · rw [deadlineOther other listed]
      exact tracks.high other listed
  case sorted => exact tracks.sorted_enlist outside small early rfl
  case due =>
    intro other inside
    rcases mem_enlist.mp inside with rfl | listed
    · rw [Function.update_self, dueIn]
      exact Function.update_self _ _ _
    · rw [deadlineOther other listed]
      exact (Function.update_of_ne (apart other listed) _ _).trans (tracks.due other listed)
  case idle =>
    intro other absent
    have distinct : other ≠ t := fun equal => absent (mem_enlist.mpr (.inl equal))
    exact (Function.update_of_ne distinct _ _).trans
      (tracks.idle other fun listed => absent (mem_enlist.mpr (.inr listed)))

/-- The settings of a timer stay when it is taken out of the list. -/
@[simp] theorem initTick_remove (s : Timers θ) (t other : θ) :
    ((s.remove t).timer other).initTick = (s.timer other).initTick := by
  by_cases equal : other = t <;> simp [Timers.remove, Timers.put, equal]

/-- The kind of a timer stays when it is taken out of the list. -/
@[simp] theorem periodic_remove (s : Timers θ) (t other : θ) :
    ((s.remove t).timer other).periodic = (s.timer other).periodic := by
  by_cases equal : other = t <;> simp [Timers.remove, Timers.put, equal]

/-- The settings of a timer stay when it is put into the list. -/
@[simp] theorem initTick_enlist (s : Timers θ) (t other : θ) :
    ((s.enlist t).timer other).initTick = (s.timer other).initTick := by
  by_cases equal : other = t <;> simp [Timers.enlist, Timers.put, equal]

/-- The kind of a timer stays when it is put into the list. -/
@[simp] theorem periodic_enlist (s : Timers θ) (t other : θ) :
    ((s.enlist t).timer other).periodic = (s.timer other).periodic := by
  by_cases equal : other = t <;> simp [Timers.enlist, Timers.put, equal]

/-- `rt_timer_start` succeeds for a number of ticks within half the range. -/
theorem rtTimerStart_eq (small : (s.timer t).initTick < half) :
    s.rtTimerStart t = some ((s.remove t).enlist t) := by
  simp [rtTimerStart, small]

/-- A timer that is started is due after its ticks, whether it was running or not. -/
theorem Tracks.started (tracks : Tracks start next deadline s a)
    (small : (s.timer t).initTick < half) (early : a.ticks ≤ next)
    (dueIn : max (a.ticks + (s.timer t).initTick.toNat) next =
      a.ticks + max (s.timer t).initTick.toNat 1) :
    Tracks start next (Function.update deadline t (a.ticks + (s.timer t).initTick.toNat))
      ((s.remove t).enlist t) (a.see (.started t (s.timer t).initTick.toNat)) := by
  -- It is taken out first, so that it is in the list once.
  have fresh := (tracks.remove t).enlist (t := t) tracks.nodup.not_mem_erase
  simp only [initTick_remove, Alarms.see, Function.update_idem] at fresh
  exact fresh small early dueIn

omit [DecidableEq θ] in
/-- When no timer is due, the handling of the tick is over. -/
theorem Tracks.settle (tracks : Tracks start a.ticks deadline s a)
    (none_due : ∀ t ∈ s.list, a.ticks < deadline t) :
    Tracks start (a.ticks + 1) deadline s a where
  __ := tracks
  low t listed := by
    have := none_due t listed
    omega
  due t listed := by
    -- The deadline lies ahead, so it is the tick in which the timer is due either way.
    rw [tracks.due t listed, max_eq_left (none_due t listed).le, max_eq_left (none_due t listed)]

omit [DecidableEq θ] in
/-- `rt_timer_check` tests whether the deadline of the first timer has been reached. -/
theorem Tracks.reached_iff (tracks : Tracks start a.ticks deadline s a) (listed : t ∈ s.list) :
    s.tick - (s.timer t).timeoutTick < half ↔ deadline t ≤ a.ticks := by
  have low := tracks.low t listed
  have high := tracks.high t listed
  rw [tracks.tick, tracks.timeout t listed]
  exact Wrapping.reached_iff start (by omega) (by omega)

/-- New settings of a timer do not move it in the list. -/
theorem Tracks.put (tracks : Tracks start next deadline s a) {record : RtTimer}
    (timeout : record.timeoutTick = (s.timer t).timeoutTick)
    (activated : record.activated = (s.timer t).activated) :
    Tracks start next deadline (s.put t record) a := by
  refine { tracks with active := fun other listed => ?_, timeout := fun other listed => ?_ }
  · rw [← tracks.active other listed]
    by_cases equal : other = t <;> simp [Timers.put, equal, activated]
  · rw [← tracks.timeout other listed]
    by_cases equal : other = t <;> simp [Timers.put, equal, timeout]

omit [DecidableEq θ] in
/-- Whether a timer is held does not matter to what is due. -/
theorem Tracks.setHeld (tracks : Tracks start next deadline s a) (held : Option θ) :
    Tracks start next deadline { s with held := held } a := { tracks with }

variable {brief : θ → Prop}

/-- New settings keep the timers steady. -/
theorem Steady.put (steady : s.Steady brief) {record : RtTimer}
    (period : ¬brief t → Period record.initTick) (kind : record.periodic = true → ¬brief t) :
    (s.put t record).Steady brief := by
  constructor
  · intro other long
    by_cases equal : other = t
    · subst equal
      simpa [Timers.put] using period long
    · simpa [Timers.put, equal] using steady.period other long
  · intro other
    by_cases equal : other = t
    · subst equal
      simpa [Timers.put] using kind
    · simpa [Timers.put, equal] using steady.kind other

omit [DecidableEq θ] in
/-- The settings are all that matters to whether the timers are steady. -/
theorem Steady.of_eq {s' : Timers θ} (steady : s.Steady brief)
    (initTick : ∀ t, (s'.timer t).initTick = (s.timer t).initTick)
    (periodic : ∀ t, (s'.timer t).periodic = (s.timer t).periodic) : s'.Steady brief := by
  constructor
  · intro t long
    rw [initTick]
    exact steady.period t long
  · intro t repeats
    rw [periodic] at repeats
    exact steady.kind t repeats

/-- Sound calls keep the timers steady. -/
theorem Steady.call (steady : s.Steady brief) {call : TimerCall θ} (sound : call.Sound brief)
    {s' : Timers θ} {new : List (TimerObs θ)} (taken : s.call call = some (s', new)) :
    s'.Steady brief := by
  cases call with
  | setTime t ticks =>
    obtain ⟨rfl, -⟩ := Prod.mk.inj (Option.some.inj taken)
    exact steady.put (fun long => sound.resolve_left long) (steady.kind t)
  | setPeriodic t periodic =>
    obtain ⟨rfl, -⟩ := Prod.mk.inj (Option.some.inj taken)
    exact steady.put (steady.period t) sound
  | start t =>
    obtain ⟨begun, started, same⟩ := Option.map_eq_some_iff.mp taken
    obtain ⟨rfl, -⟩ := Prod.mk.inj same
    -- Starting a timer writes its timeout and its flag only.
    obtain ⟨-, rfl⟩ := (Option.ite_none_right_eq_some.mp started).imp id Option.some.inj
    exact steady.of_eq (by simp) (by simp)
  | stop t =>
    obtain ⟨rfl, -⟩ := Prod.mk.inj (Option.some.inj taken)
    rw [rtTimerStop]
    split
    · exact steady.of_eq (by simp) (by simp)
    · exact steady
  | detach t =>
    obtain ⟨rfl, -⟩ := Prod.mk.inj (Option.some.inj taken)
    exact steady.of_eq (by simp [rtTimerDetach]) (by simp [rtTimerDetach])

/-- Every timer that is due afterwards was due before. -/
def NoneSooner (now : ℕ) (deadline ahead : θ → ℕ) (s s' : Timers θ) : Prop :=
  ∀ t ∈ s'.list, ahead t ≤ now → t ∈ s.list ∧ deadline t ≤ now

/--
A call keeps track of what is to be done.

In the middle of the handling of a tick a timer has to be started for at least one tick, and then no
timer has become due.
-/
theorem Tracks.call (tracks : Tracks start next deadline s a) (early : a.ticks ≤ next)
    {call : TimerCall θ} {s' : Timers θ} {new : List (TimerObs θ)}
    (taken : s.call call = some (s', new))
    (later : ∀ t, call = .start t → next = a.ticks → 0 < (s.timer t).initTick.toNat)
    (tight : next ≤ a.ticks + 1) :
    ∃ ahead, Tracks start next ahead s' (new.foldl Alarms.see a) ∧
      (next = a.ticks → NoneSooner a.ticks deadline ahead s s') := by
  -- A timer that leaves the list cannot become due by that.
  have erased : ∀ t, NoneSooner a.ticks deadline deadline s (s.remove t) :=
    fun t other inside due =>
    ⟨List.mem_of_mem_erase inside, due⟩
  cases call with
  | setTime t ticks =>
    obtain ⟨rfl, rfl⟩ := Prod.mk.inj (Option.some.inj taken)
    exact ⟨deadline, tracks.put rfl rfl, fun _ _ inside due => ⟨inside, due⟩⟩
  | setPeriodic t periodic =>
    obtain ⟨rfl, rfl⟩ := Prod.mk.inj (Option.some.inj taken)
    exact ⟨deadline, tracks.put rfl rfl, fun _ _ inside due => ⟨inside, due⟩⟩
  | start t =>
    obtain ⟨begun, started, same⟩ := Option.map_eq_some_iff.mp taken
    obtain ⟨rfl, rfl⟩ := Prod.mk.inj same
    obtain ⟨small, rfl⟩ := (Option.ite_none_right_eq_some.mp started).imp id Option.some.inj
    rw [initTick_remove] at small
    have positive := later t rfl
    refine ⟨_, tracks.started small early (by omega), fun now other inside due => ?_⟩
    -- The timer itself has its deadline ahead, and the others have theirs as before.
    rcases List.mem_cons.mp ((perm_enlist _ t).mem_iff.mp inside) with rfl | listed
    · rw [Function.update_self] at due
      have := positive now
      omega
    · obtain ⟨distinct, listed⟩ := tracks.nodup.mem_erase_iff.mp listed
      rw [Function.update_of_ne distinct] at due
      exact ⟨listed, due⟩
  | stop t =>
    obtain ⟨rfl, rfl⟩ := Prod.mk.inj (Option.some.inj taken)
    rw [rtTimerStop]
    split
    · exact ⟨deadline, tracks.remove t, fun _ => erased t⟩
    · -- A timer without the flag is not in the list, so it was not due either.
      rename_i stopped
      have idle := tracks.idle t fun listed => stopped (tracks.active t listed)
      refine ⟨deadline, ?_, fun _ _ inside due => ⟨inside, due⟩⟩
      simpa [Alarms.see, ← idle] using tracks
  | detach t =>
    obtain ⟨rfl, rfl⟩ := Prod.mk.inj (Option.some.inj taken)
    exact ⟨deadline, tracks.remove t, fun _ => erased t⟩

/-! ## The handling of a tick -/

/--
The timers in the middle of the handling of a tick.

All of them have fired on time so far, and at most a number of them is still to fire.
-/
structure Checking (start : BitVec 32) (brief : θ → Prop) (seen : List (TimerObs θ)) (left : ℕ)
    (s : Timers θ) : Prop where
  steady : s.Steady brief
  past : Trace.Always Alarms.Punctual seen
  tracks : ∃ deadline, Tracks start (Alarms.ofTrace seen).ticks deadline s (Alarms.ofTrace seen) ∧
    s.list.countP (fun t => deadline t ≤ (Alarms.ofTrace seen).ticks) ≤ left

variable {seen : List (TimerObs θ)} {left : ℕ}

omit [DecidableEq θ] in
/-- No more timers are due than were due before, when none has become due. -/
theorem countP_le_of_noneSooner {now : ℕ} {ahead : θ → ℕ} {s' : Timers θ} (nodup : s'.list.Nodup)
    (sooner : NoneSooner now deadline ahead s s') :
    s'.list.countP (fun t => ahead t ≤ now) ≤ s.list.countP fun t => deadline t ≤ now := by
  rw [List.countP_eq_length_filter, List.countP_eq_length_filter]
  -- What is due afterwards is a part of what was due, without repetitions.
  refine (List.subperm_of_subset (nodup.filter _) fun t member => ?_).length_le
  obtain ⟨inside, due⟩ := List.mem_filter.mp member
  obtain ⟨listed, was⟩ := sooner t inside (of_decide_eq_true due)
  exact List.mem_filter.mpr ⟨listed, decide_eq_true was⟩

/-- A call shows no timer firing, and no tick. -/
theorem call_quiet {call : TimerCall θ} {s' : Timers θ} {new : List (TimerObs θ)}
    (taken : s.call call = some (s', new)) :
    (∀ event ∈ new, ∀ t, event ≠ .fired t) ∧ ∀ a : Alarms θ,
      (new.foldl Alarms.see a).ticks = a.ticks := by
  cases call with
  | start t =>
    obtain ⟨begun, -, same⟩ := Option.map_eq_some_iff.mp taken
    obtain ⟨-, rfl⟩ := Prod.mk.inj same
    exact ⟨by simp, fun a => rfl⟩
  | setTime | setPeriodic | stop | detach =>
    obtain ⟨-, rfl⟩ := Prod.mk.inj (Option.some.inj taken)
    exact ⟨by simp, fun a => rfl⟩

/-- What is seen without a timer firing is on time. -/
theorem always_append_quiet {new : List (TimerObs θ)} (past : Trace.Always Alarms.Punctual seen)
    (quiet : ∀ event ∈ new, ∀ t, event ≠ .fired t) : Trace.Always Alarms.Punctual (seen ++ new) :=
  past.append fun event member _ t fires => (quiet event member t fires).elim

/-- A timeout function can make its calls, and no timer becomes due by them. -/
theorem Checking.call (checking : Checking start brief seen left s) (call : TimerCall θ)
    (timely : call.Timely brief) :
    ∃ s' new, s.call call = some (s', new) ∧ Checking start brief (seen ++ new) left s' := by
  obtain ⟨steady, past, deadline, tracks, few⟩ := checking
  -- Only a start can fail, and the timer that is started has a period.
  have period : ∀ t, call = .start t → Period (s.timer t).initTick := by
    rintro t rfl
    exact steady.period t timely
  have returns : ∃ s' new, s.call call = some (s', new) := by
    cases call with
    | start t =>
      rw [Timers.call, rtTimerStart_eq (period t rfl).2]
      exact ⟨_, _, rfl⟩
    | setTime | setPeriodic | stop | detach => exact ⟨_, _, rfl⟩
  obtain ⟨s', new, taken⟩ := returns
  obtain ⟨quiet, still⟩ := call_quiet taken
  obtain ⟨ahead, after, sooner⟩ := tracks.call (le_refl _) taken
    (fun t begins _ => Nat.pos_of_ne_zero fun zero =>
      (period t begins).1 (BitVec.eq_of_toNat_eq zero))
    (Nat.le_succ _)
  have trace : Alarms.ofTrace (seen ++ new) = new.foldl Alarms.see (Alarms.ofTrace seen) :=
    List.foldl_append
  refine ⟨s', new, taken, steady.call timely.sound taken, always_append_quiet past quiet, ahead, ?_⟩
  rw [trace, still]
  exact ⟨after, (countP_le_of_noneSooner after.nodup (sooner rfl)).trans few⟩

/-- All calls of a timeout function together. -/
theorem Checking.calls (checking : Checking start brief seen left s) {calls : List (TimerCall θ)}
    (timely : ∀ call ∈ calls, call.Timely brief) :
    ∃ s' new, s.calls calls = some (s', new) ∧ Checking start brief (seen ++ new) left s' := by
  -- The calls are made one by one, and each leaves the next one a state of the same kind.
  induction calls generalizing s seen with
  | nil => exact ⟨s, [], rfl, by rwa [List.append_nil]⟩
  | cons call calls ih =>
    obtain ⟨middle, new, taken, checking⟩ := checking.call call (timely call (by simp))
    obtain ⟨last, more, rest, checking⟩ := ih checking fun other member =>
      timely other (by simp [member])
    refine ⟨last, new ++ more, by simp [Timers.calls, taken, rest], ?_⟩
    rwa [← List.append_assoc]

/-- The first timer of the list fires in the tick in which it is due. -/
theorem Checking.take {rest : List θ} (checking : Checking start brief seen (left + 1) s)
    (first : s.list = t :: rest) (reached : s.tick - (s.timer t).timeoutTick < half) :
    Checking start brief (seen ++ [.fired t]) left (s.take t) := by
  obtain ⟨steady, past, deadline, tracks, few⟩ := checking
  have listed : t ∈ s.list := by simp [first]
  have reached := (tracks.reached_iff listed).mp reached
  refine ⟨steady.of_eq (fun u => ?_) (fun u => ?_), past.concat ?_, deadline, ?_, ?_⟩
  · by_cases same : u = t <;> simp [Timers.take, Timers.put, same]
  · by_cases same : u = t <;> simp [Timers.take, Timers.put, same]
  · rintro other same
    obtain rfl : t = other := by simpa using same
    rw [tracks.due t listed, max_eq_right reached]
  · rw [Alarms.ofTrace_concat]
    exact tracks.erase rfl rfl fun _ distinct => Function.update_of_ne distinct _ _
  · -- Of the timers that were due, this one is gone.
    simp only [first, List.countP_cons, reached, decide_true, if_true] at few
    simpa [Timers.take, first, Alarms.see] using few

/-- Behind the timeout function a periodic timer is started again, and is not due any more. -/
theorem Checking.giveBack (checking : Checking start brief seen left s) (t : θ) :
    ∃ s' new, s.giveBack t = some (s', new) ∧ Checking start brief (seen ++ new) left s' := by
  rw [Timers.giveBack]
  split
  · exact ⟨s, [], rfl, by rwa [List.append_nil]⟩
  · obtain ⟨steady, past, deadline, tracks, few⟩ := checking
    have free : Checking start brief seen left { s with held := none } :=
      ⟨steady.of_eq (fun _ => rfl) fun _ => rfl, past, deadline, tracks.setHeld none, few⟩
    dsimp only
    split
    · -- The start is a call like those of the timeout function.
      rename_i again
      exact free.call (.start t) (steady.kind t again.1)
    · exact ⟨_, [], rfl, by rwa [List.append_nil]⟩

omit [DecidableEq θ] in
/-- When the first timer of the list is not due, none is. -/
theorem Tracks.settle_of_first {rest : List θ} (tracks : Tracks start a.ticks deadline s a)
    (first : s.list = t :: rest) (early : a.ticks < deadline t) :
    Tracks start (a.ticks + 1) deadline s a := by
  have sorted := tracks.sorted
  rw [first] at sorted
  refine tracks.settle fun other inside => ?_
  rw [first] at inside
  -- The list is in the order of the deadlines.
  rcases List.mem_cons.mp inside with rfl | later
  · exact early
  · exact early.trans_le ((List.pairwise_cons.mp sorted).1 other later)

/--
The loop of `rt_timer_check` ends, and fires each timer that is due.

As many turns are enough as timers have a deadline that has been reached.
-/
theorem rtTimerCheck_spec (turns : ℕ) {timeouts : List (List (TimerCall θ))}
    (timely : ∀ calls ∈ timeouts, ∀ call ∈ calls, call.Timely brief)
    (checking : Checking start brief seen left s) (enough : left < turns) :
    ∃ last new deadline, rtTimerCheck turns timeouts s = some (last, new) ∧ last.Steady brief ∧
      Trace.Always Alarms.Punctual (seen ++ new) ∧
      Tracks start ((Alarms.ofTrace (seen ++ new)).ticks + 1) deadline last
        (Alarms.ofTrace (seen ++ new)) := by
  -- Each turn takes one timer that is due, and none becomes due.
  induction turns generalizing s seen left timeouts with
  | zero => omega
  | succ turns ih =>
    obtain ⟨steady, past, deadline, tracks, few⟩ := checking
    rw [rtTimerCheck]
    split
    · rename_i empty
      refine ⟨s, [], deadline, rfl, steady, by simpa using past, ?_⟩
      simpa using tracks.settle fun t listed => by simp [empty] at listed
    · rename_i t rest first
      have listed : t ∈ s.list := by simp [first]
      split
      · rename_i reached
        -- One timer is due, so at least one turn was counted.
        obtain ⟨left, rfl⟩ : ∃ fewer, left = fewer + 1 := by
          have due := (tracks.reached_iff listed).mp reached
          simp only [first, List.countP_cons, due, decide_true, if_true] at few
          exact ⟨left - 1, by omega⟩
        have taken := Checking.take ⟨steady, past, deadline, tracks, few⟩ first reached
        have made : ∀ call ∈ timeouts.headD [], call.Timely brief := by
          cases timeouts with
          | nil => simp
          | cons calls later => exact timely calls (by simp)
        obtain ⟨called, new, calls, checking⟩ := taken.calls made
        obtain ⟨back, again, given, checking⟩ := checking.giveBack t
        obtain ⟨last, more, ahead, done, goes_on, always, settled⟩ := ih
          (fun calls member => timely calls (List.mem_of_mem_tail member)) checking (by omega)
        refine ⟨last, .fired t :: new ++ again ++ more, ahead, ?_, goes_on, ?_, ?_⟩
        · simp only [calls, Option.bind_eq_bind, Option.bind_some, given, done]
          rfl
        · simpa using always
        · simpa using settled
      · rename_i early
        have ahead := not_le.mp (mt (tracks.reached_iff listed).mpr early)
        refine ⟨s, [], deadline, rfl, steady, by simpa using past, ?_⟩
        rw [List.append_nil]
        exact tracks.settle_of_first first ahead

/-- A tick is handled: the timers that are due in it fire. -/
theorem Tracks.tick_increase
    (tracks : Tracks start ((Alarms.ofTrace seen).ticks + 1) deadline s (Alarms.ofTrace seen))
    (steady : s.Steady brief) (past : Trace.Always Alarms.Punctual seen)
    (timeouts : List (List (TimerCall θ)))
    (timely : ∀ calls ∈ timeouts, ∀ call ∈ calls, call.Timely brief) :
    ∃ last new ahead, s.rtTickIncrease timeouts = some (last, new) ∧ last.Steady brief ∧
      Trace.Always Alarms.Punctual (seen ++ new) ∧
      Tracks start ((Alarms.ofTrace (seen ++ new)).ticks + 1) ahead last
        (Alarms.ofTrace (seen ++ new)) := by
  -- The counter has moved on, and no deadline lies behind it by more than one tick.
  have moved : Tracks start (Alarms.ofTrace (seen ++ [.ticked])).ticks deadline
      { s with tick := s.tick + 1 } (Alarms.ofTrace (seen ++ [.ticked])) := by
    rw [Alarms.ofTrace_concat]
    refine { tracks with tick := ?_, high := fun t listed => ?_ }
    · rw [tracks.tick]
      exact (after_succ _ _).symm
    · have := tracks.high t listed
      show _ < (Alarms.ofTrace seen).ticks + 1 + 2147483647
      omega
  have checking : Checking start brief (seen ++ [.ticked]) s.list.length
      { s with tick := s.tick + 1 } :=
    ⟨steady.of_eq (fun _ => rfl) fun _ => rfl, past.concat (by rintro t ⟨⟩), deadline, moved,
      List.countP_le_length⟩
  obtain ⟨last, new, ahead, done, goes_on, always, settled⟩ :=
    rtTimerCheck_spec (s.list.length + 1) timely checking (Nat.lt_succ_self _)
  refine ⟨last, .ticked :: new, ahead, ?_, goes_on, by simpa using always, by simpa using settled⟩
  rw [rtTickIncrease, done]
  rfl

/-- The timers keep track over a whole run, and fire on time. -/
theorem tracks_of_run {initTick : θ → BitVec 32} {periodic : θ → Bool}
    (periods : ∀ t, ¬brief t → Period (initTick t)) (kinds : ∀ t, periodic t = true → ¬brief t)
    (run : Reach.Reaches step (Sound brief) (init start initTick periodic) s seen) :
    s.Steady brief ∧ Trace.Always Alarms.Punctual seen ∧ ∃ deadline,
      Tracks start ((Alarms.ofTrace seen).ticks + 1) deadline s (Alarms.ofTrace seen) := by
  refine run.invariant (fun s seen => s.Steady brief ∧ Trace.Always Alarms.Punctual seen ∧
      ∃ deadline, Tracks start ((Alarms.ofTrace seen).ticks + 1) deadline s (Alarms.ofTrace seen))
    ⟨⟨periods, kinds⟩, Trace.always_nil _, fun _ => 0, ?_⟩ ?_
  · constructor <;> simp [init, Alarms.ofTrace]
  · rintro s seen event next new ⟨steady, past, deadline, tracks⟩ sound taken
    cases event with
    | call call =>
      obtain ⟨quiet, still⟩ := call_quiet taken
      obtain ⟨ahead, after, -⟩ :=
        tracks.call (Nat.le_succ _) taken (fun _ _ now => by omega) (le_refl _)
      -- Between two ticks any timer may be started, also for no ticks at all.
      refine ⟨steady.call sound taken, always_append_quiet past quiet, ahead, ?_⟩
      rw [show Alarms.ofTrace (seen ++ new) = new.foldl Alarms.see (Alarms.ofTrace seen) from
        List.foldl_append, still]
      exact after
    | tick timeouts =>
      obtain ⟨last, fired, ahead, done, goes_on, always, settled⟩ :=
        tracks.tick_increase steady past timeouts sound
      obtain ⟨rfl, rfl⟩ := Prod.mk.inj (Option.some.inj (done.symm.trans taken))
      exact ⟨goes_on, always, ahead, settled⟩

/-! ## One-shot timers -/

/-- No timer is periodic. -/
def OneShot (s : Timers θ) : Prop := ∀ t, (s.timer t).periodic = false

/-- No timer is made periodic, and the timeout functions leave the timers alone. -/
def Plain (_ : Timers θ) : TimerEvent θ → Prop
  | .call call => ∀ t periodic, call ≠ .setPeriodic t periodic
  | .tick timeouts => timeouts = []

omit [DecidableEq θ] in
/-- One-shot timers may all be brief. -/
theorem Plain.sound {event : TimerEvent θ} (plain : s.Plain event) :
    s.Sound (fun _ => True) event := by
  cases event with
  | call call =>
    cases call with
    | setTime t ticks => exact .inl trivial
    | setPeriodic t periodic => exact (plain t periodic rfl).elim
    | start | stop | detach => exact trivial
  | tick timeouts =>
    obtain rfl : timeouts = [] := plain
    simp [Sound]

/--
The loop of `rt_timer_check` takes one-shot timers out of the list from its front.

Their flags are cleared, and nothing else changes.
-/
theorem OneShot.rtTimerCheck (turns : ℕ) {s last : Timers θ} {new : List (TimerObs θ)}
    (shots : s.OneShot) (done : Timers.rtTimerCheck turns [] s = some (last, new)) :
    ∃ gone, new = gone.map .fired ∧ s.list = gone ++ last.list ∧ last.tick = s.tick ∧
      ∀ t, last.timer t =
        { s.timer t with activated := (s.timer t).activated && decide (t ∉ gone) } := by
  -- By induction on the turns: each takes the first timer of the list, or is the last one.
  induction turns generalizing s new with
  | zero => cases done
  | succ turns ih =>
    rw [Timers.rtTimerCheck] at done
    split at done
    · obtain ⟨rfl, rfl⟩ := Prod.mk.inj (Option.some.inj done)
      exact ⟨[], by simp⟩
    · rename_i t rest first
      split at done
      · -- The timeout function makes no call, and the timer is not started again.
        have back : (s.take t).giveBack t = some ({ s.take t with held := none }, []) := by
          simp [Timers.giveBack, Timers.take, Timers.put, shots t]
        -- The turn is taken apart into the timeout function, the end of the turn and the rest.
        obtain ⟨⟨called, made⟩, ran, done⟩ := Option.bind_eq_some_iff.mp done
        obtain ⟨rfl, rfl⟩ := Prod.mk.inj (Option.some.inj ran)
        obtain ⟨⟨free, again⟩, given, done⟩ := Option.bind_eq_some_iff.mp done
        obtain ⟨rfl, rfl⟩ := Prod.mk.inj (Option.some.inj (back.symm.trans given))
        obtain ⟨⟨final, more⟩, later, same⟩ := Option.bind_eq_some_iff.mp done
        obtain ⟨rfl, rfl⟩ := Prod.mk.inj (Option.some.inj same)
        obtain ⟨gone, fires, list, tick, records⟩ := ih (s := { s.take t with held := none })
          (fun other => by
            by_cases equal : other = t <;> simp [Timers.take, Timers.put, equal, shots _]) later
        refine ⟨t :: gone, by simp [fires], ?_, tick, fun other => ?_⟩
        · simpa [Timers.take, first] using list
        · rw [records other]
          by_cases equal : other = t <;> simp [Timers.take, Timers.put, equal, shots _]
      · obtain ⟨rfl, rfl⟩ := Prod.mk.inj (Option.some.inj done)
        exact ⟨[], by simp⟩

/-- A tick takes one-shot timers out of the list. -/
theorem OneShot.rtTickIncrease {s last : Timers θ} {new : List (TimerObs θ)} (shots : s.OneShot)
    (done : s.rtTickIncrease [] = some (last, new)) :
    ∃ gone, new = .ticked :: gone.map .fired ∧ s.list = gone ++ last.list ∧
      ∀ t, last.timer t =
        { s.timer t with activated := (s.timer t).activated && decide (t ∉ gone) } := by
  obtain ⟨⟨final, more⟩, check, same⟩ := Option.bind_eq_some_iff.mp done
  obtain ⟨rfl, rfl⟩ := Prod.mk.inj (Option.some.inj same)
  obtain ⟨gone, fires, list, -, records⟩ :=
    OneShot.rtTimerCheck _ (s := { s with tick := s.tick + 1 }) shots check
  exact ⟨gone, by rw [fires], list, records⟩

/-- Only timers that were running before can be running after another one was stopped. -/
theorem activated_rtTimerStop {s : Timers θ} {t u : θ}
    (active : ((s.rtTimerStop t).timer u).activated = true) :
    u ≠ t ∧ (s.timer u).activated = true := by
  rw [rtTimerStop] at active
  split at active
  · by_cases same : u = t
    · simp [Timers.remove, Timers.put, same] at active
    · exact ⟨same, by simpa [Timers.remove, Timers.put, same] using active⟩
  · rename_i stopped
    -- Without the flag nothing changes.
    exact ⟨fun same => stopped (same ▸ active), active⟩

/-- Only the timer itself and those that were running can be running after it was started. -/
theorem activated_enlist {s : Timers θ} {t u : θ}
    (active : (((s.remove t).enlist t).timer u).activated = true) :
    u = t ∨ (s.timer u).activated = true := by
  by_cases same : u = t
  · exact .inl same
  · exact .inr (by simpa [Timers.remove, Timers.put, Timers.enlist, same] using active)

/-- A call that makes no timer periodic leaves them all one-shot. -/
theorem OneShot.call (shots : s.OneShot) {call : TimerCall θ}
    (plain : ∀ t periodic, call ≠ .setPeriodic t periodic) {next : Timers θ}
    {new : List (TimerObs θ)} (taken : s.call call = some (next, new)) : next.OneShot := by
  intro other
  cases call with
  | setTime t ticks =>
    obtain ⟨rfl, -⟩ := Prod.mk.inj (Option.some.inj taken)
    by_cases same : other = t <;> simp [Timers.setTime, Timers.put, same, shots _]
  | setPeriodic t periodic => exact (plain t periodic rfl).elim
  | start t =>
    obtain ⟨begun, started, same⟩ := Option.map_eq_some_iff.mp taken
    obtain ⟨rfl, -⟩ := Prod.mk.inj same
    obtain ⟨-, rfl⟩ := (Option.ite_none_right_eq_some.mp started).imp id Option.some.inj
    simp [shots other]
  | stop t =>
    obtain ⟨rfl, -⟩ := Prod.mk.inj (Option.some.inj taken)
    rw [rtTimerStop]
    split <;> simp [shots other]
  | detach t =>
    obtain ⟨rfl, -⟩ := Prod.mk.inj (Option.some.inj taken)
    simp [rtTimerDetach, shots other]

/-- Timers stay one-shot, and their runs are sound. -/
theorem OneShot.run (shots : s.OneShot) {last : Timers θ}
    (run : Reach.Reaches step Plain s last seen) :
    last.OneShot ∧ Reach.Reaches step (Sound fun _ => True) s last seen := by
  refine run.invariant (fun last seen => last.OneShot ∧
    Reach.Reaches step (Sound fun _ => True) s last seen) ⟨shots, .refl⟩ ?_
  intro state seen event next new holds plain taken
  obtain ⟨shots, sound⟩ := holds
  refine ⟨?_, sound.step plain.sound taken⟩
  cases event with
  | call call => exact shots.call plain taken
  | tick timeouts =>
    obtain rfl : timeouts = [] := plain
    obtain ⟨gone, -, -, records⟩ := shots.rtTickIncrease taken
    intro other
    rw [records other]
    exact shots other

/--
The events of a run over the wrap of the counter.

The timeout function of the periodic timer first starts the other timer again, and later stops its
own timer. That of the other one starts its own timer.
-/
def wrapEvents : List (TimerEvent Bool) :=
  [.call (.start true), .call (.start false), .tick [], .tick [[.start false]], .tick [],
    .tick [[.stop true]], .tick [[.start false]], .tick []]

/-- What is observed in that run. -/
def wrapTrace : List (TimerObs Bool) :=
  [.started true 2, .started false 3, .ticked, .ticked, .fired true, .started false 3,
    .started true 2, .ticked, .ticked, .fired true, .stopped true, .ticked, .fired false,
    .started false 3, .ticked]

end Timers
end MultifunctionClock
