import MultifunctionClock.Kernel.Mailbox
import MultifunctionClock.Kernel.Monitor

/-!
`rt_mb_send_wait` and `rt_mb_recv` with their loops, on the threads of the kernel.

Threads and interrupts use one mailbox in any order. No mail is lost, taken twice or overtaken, and
no thread is left waiting for a mail that is there.
-/

namespace MultifunctionClock

/-- The two ends of a mailbox. -/
inductive MbSide where
  | recv
  | send
deriving DecidableEq

instance : Fintype MbSide := ⟨{.recv, .send}, fun side => by cases side <;> simp⟩

/-- The lists of a mailbox, and the order in which threads wait in them. -/
structure MbLinks (κ : Type) where
  /-- `suspend_thread` and `suspend_sender_thread`. -/
  list : MbSide → κ
  distinct : Function.Injective list
  flag : IpcFlag

/-- Where a thread is in a call of the mailbox, with the ticks that are left and `tick_delta`. -/
inductive MbCall (μ : Type) where
  | out
  | recv (timeout since : BitVec 32)
  | send (value : μ) (timeout since : BitVec 32)
deriving DecidableEq

/-- What can be observed of the mailbox. -/
inductive MbObs (τ μ : Type) where
  /-- A mail came into the mailbox. -/
  | sent (value : μ)
  /-- A thread took a mail. -/
  | received (thread : τ) (value : μ)
  /-- A call of a thread returned. -/
  | returned (thread : τ) (result : IpcResult)
deriving DecidableEq

/-- The side that a thread waits on. -/
def MbCall.side {μ : Type} : MbCall μ → Option MbSide
  | .out => none
  | .recv .. => some .recv
  | .send .. => some .send

/-- The ticks that a call still waits. -/
def MbCall.timeout {μ : Type} : MbCall μ → BitVec 32
  | .out => 0
  | .recv timeout _ | .send _ timeout _ => timeout

/-- The tick in which a call began to wait. -/
def MbCall.since {μ : Type} : MbCall μ → BitVec 32
  | .out => 0
  | .recv _ since | .send _ _ since => since

/-- What is left of the ticks when a thread looks again. -/
def timeLeft (timeout since now : BitVec 32) : BitVec 32 :=
  if 0 < timeout.toInt then
    -- Both differences may wrap, and a negative rest counts as none.
    let left := timeout - (now - since)
    if left.toInt < 0 then 0 else left
  else timeout

/-- What is left of a time can be waited for. -/
theorem Waitable.left {timeout since now : BitVec 32} (waitable : Waitable timeout)
    (soon : now - since < 0x80000000#32) : Waitable (timeLeft timeout since now) := by
  rw [timeLeft]
  split
  · rename_i positive
    have small := waitable positive
    dsimp only
    split
    · simp [Waitable]
    · -- The difference does not wrap, so it is not longer than the time itself.
      rename_i left
      intro _
      generalize now - since = passed at *
      have bound : timeout.toNat < 2147483647 := small
      have early : passed.toNat < 2147483648 := soon
      show (timeout - passed).toNat < 2147483647
      rw [BitVec.toInt_eq_toNat_cond] at left
      rw [BitVec.toNat_sub] at left ⊢
      split at left <;> omega
  · exact waitable

/-- The kernel, one mailbox and where its threads are in its calls. -/
structure MbHost (τ κ μ : Type) where
  kernel : Kernel τ κ
  mb : Mailbox μ
  call : τ → MbCall μ
  /-- What was observed so far. -/
  seen : List (MbObs τ μ)

/-- A call of the running thread, the rest of its call, or an interrupt. -/
inductive MbEvent (τ κ μ : Type) where
  | recv (timeout : BitVec 32)
  | send (value : μ) (timeout : BitVec 32)
  /-- The running thread goes on in its call. -/
  | back
  /-- An interrupt calls `rt_mb_send`. -/
  | isrSend (value : μ)
  /-- One turn of the loops of `rt_mb_detach`. -/
  | dismiss (side : MbSide)
  /-- Anything else that the kernel does. -/
  | kernel (event : KernelEvent τ κ)

namespace MbHost

variable {τ κ μ : Type} [DecidableEq τ] [DecidableEq κ] [Inhabited μ]

/-- The running thread returns from its call. -/
def leave (s : MbHost τ κ μ) (result : IpcResult) : MbHost τ κ μ :=
  { s with
    call := Function.update s.call s.kernel.current .out
    seen := s.seen ++ [.returned s.kernel.current result] }

/-- The part of `rt_mb_send_wait` behind its loop, for a sender of any kind. -/
def deliver (links : MbLinks κ) (s : MbHost τ κ μ) (value : μ) (room : s.mb.entry ≠ s.mb.size) :
    MbHost τ κ μ :=
  { s with
    mb := s.mb.put value room
    kernel := s.kernel.wakeFirst (links.list .recv)
    seen := s.seen ++ [.sent value] }

/-- The part of `rt_mb_recv` behind its loop. -/
def collect (links : MbLinks κ) (s : MbHost τ κ μ) (filled : s.mb.entry ≠ 0) : MbHost τ κ μ :=
  { s with
    mb := s.mb.take filled
    kernel := s.kernel.wakeFirst (links.list .send)
    seen := s.seen ++ [.received s.kernel.current (s.mb.msgPool.getD s.mb.outOffset default)] }

/-- The running thread waits on one side, in the loop of its call. -/
def wait (links : MbLinks κ) (s : MbHost τ κ μ) (side : MbSide) (timeout : BitVec 32)
    (call : MbCall μ) :
    Option (MbHost τ κ μ) := do
  let kernel ← s.kernel.run (.wait (links.list side) links.flag (waitTimer timeout))
  return { s with kernel := kernel, call := Function.update s.call s.kernel.current call }

/-- A turn of the loop of `rt_mb_recv`, and what follows it. -/
def recvTurn (links : MbLinks κ) (s : MbHost τ κ μ) (timeout : BitVec 32) : Option (MbHost τ κ μ) :=
  if empty : s.mb.entry = 0 then
    if timeout = 0 then
      -- The error is cleared first, and then set.
      some { s.leave .etimeout with
        kernel := s.kernel.upd s.kernel.current fun thread => { thread with error := .etimeout } }
    else s.wait links .recv timeout (.recv timeout s.kernel.timers.tick)
  else some ((s.collect links empty).leave .eok)

/-- A turn of the loop of `rt_mb_send_wait`, and what follows it. -/
def sendTurn (links : MbLinks κ) (s : MbHost τ κ μ) (value : μ) (timeout : BitVec 32) :
    Option (MbHost τ κ μ) :=
  if full : s.mb.entry = s.mb.size then
    if timeout = 0 then
      some { s.leave .efull with
        kernel := s.kernel.upd s.kernel.current fun thread => { thread with error := .eok } }
    else s.wait links .send timeout (.send value timeout s.kernel.timers.tick)
  else some ((s.deliver links value full).leave .eok)

/-- `rt_mb_recv`, until it returns or waits. -/
def rtMbRecv (links : MbLinks κ) (s : MbHost τ κ μ) (timeout : BitVec 32) : Option (MbHost τ κ μ) :=
  if s.mb.attached then
    -- Who does not wait is turned away before the loop.
    if s.mb.entry = 0 ∧ timeout = 0 then some (s.leave .etimeout) else s.recvTurn links timeout
  else none

/-- `rt_mb_send_wait`, until it returns or waits. -/
def rtMbSendWait (links : MbLinks κ) (s : MbHost τ κ μ) (value : μ) (timeout : BitVec 32) :
    Option (MbHost τ κ μ) :=
  if s.mb.attached then
    -- Who does not wait is turned away before the loop.
    if s.mb.entry = s.mb.size ∧ timeout = 0 then some (s.leave .efull)
    else s.sendTurn links value timeout
  else none

/-- `rt_mb_send` in an interrupt, which does not wait. -/
def isrSend (links : MbLinks κ) (s : MbHost τ κ μ) (value : μ) : Option (MbHost τ κ μ) :=
  if s.mb.attached then
    if full : s.mb.entry = s.mb.size then some s else some (s.deliver links value full)
  else none

omit [Inhabited μ] in
/-- A send that does not wait does to the mailbox what it does without threads. -/
theorem mb_isrSend (links : MbLinks κ) (s : MbHost τ κ μ) (value : μ) :
    (s.isrSend links value).map (·.mb) = (rtMbSend s.mb value).map (·.2) := by
  rw [isrSend, rtMbSend]
  split
  · split <;> rfl
  · rfl

/-- A receive that does not wait does to the mailbox what it does without threads. -/
theorem mb_rtMbRecv (links : MbLinks κ) (s : MbHost τ κ μ) :
    (s.rtMbRecv links 0).map (·.mb) = (MultifunctionClock.rtMbRecv s.mb).map (·.2) := by
  rw [rtMbRecv, MultifunctionClock.rtMbRecv]
  split
  · -- An empty mailbox is seen by the first test, so the loop is entered only with a mail.
    by_cases empty : s.mb.entry = 0
    · simp [empty, leave]
    · simp [empty, recvTurn, leave, collect]
  · rfl

/-- The running thread goes on behind `rt_schedule` in the loop of its call. -/
def back (links : MbLinks κ) (s : MbHost τ κ μ) : Option (MbHost τ κ μ) :=
  let code := (s.kernel.thread s.kernel.current).error
  match s.call s.kernel.current with
  | .out => none
  | .recv timeout since =>
    if code ≠ .eok then some (s.leave code.result)
    else s.recvTurn links (timeLeft timeout since s.kernel.timers.tick)
  | .send value timeout since =>
    if code ≠ .eok then some (s.leave code.result)
    else s.sendTurn links value (timeLeft timeout since s.kernel.timers.tick)

/-- One event. There is no result when an assertion fails. -/
def step (links : MbLinks κ) (s : MbHost τ κ μ) : MbEvent τ κ μ → Option (MbHost τ κ μ)
  | .recv timeout => s.rtMbRecv links timeout
  | .send value timeout => s.rtMbSendWait links value timeout
  | .back => s.back links
  | .isrSend value => s.isrSend links value
  | .dismiss side => (s.kernel.resumeError (links.list side)).map fun kernel =>
    { s with kernel := kernel }
  | .kernel event => (s.kernel.run event).map fun kernel => { s with kernel := kernel }

/--
What may happen next.

A thread in a call of the mailbox is not suspended or woken by others, and the lists of the mailbox
are its own. A thread goes on in its call before half the range of the tick counter has passed.
-/
def Allowed (idle : τ) (links : MbLinks κ) (s : MbHost τ κ μ) : MbEvent τ κ μ → Prop
  | .recv timeout | .send _ timeout =>
    (s.kernel.thread s.kernel.current).stat = .running ∧ s.call s.kernel.current = .out ∧
      (timeout ≠ 0 → s.kernel.current ≠ idle) ∧ Waitable timeout
  | .back => (s.kernel.thread s.kernel.current).stat = .running ∧ s.call s.kernel.current ≠ .out ∧
    s.kernel.timers.tick - (s.call s.kernel.current).since < 0x80000000#32
  | .isrSend _ => True
  | .dismiss side => s.kernel.lists (.waiting (links.list side)) ≠ []
  | .kernel event => s.kernel.Allowed idle event ∧
    (∀ t, s.call t ≠ .out → ¬ (s.kernel.touched event).stop t ∧ ¬ (s.kernel.touched event).wake t) ∧
    ∀ side, ¬ (s.kernel.touched event).join (links.list side)

instance [Fintype τ] [DecidableEq μ] (idle : τ) (links : MbLinks κ) (s : MbHost τ κ μ) :
    DecidablePred (s.Allowed idle links)
  | .recv timeout | .send _ timeout => inferInstanceAs (Decidable
      ((s.kernel.thread s.kernel.current).stat = .running ∧ s.call s.kernel.current = .out ∧
        (timeout ≠ 0 → s.kernel.current ≠ idle) ∧ Waitable timeout))
  | .back => inferInstanceAs (Decidable
      ((s.kernel.thread s.kernel.current).stat = .running ∧ s.call s.kernel.current ≠ .out ∧
        s.kernel.timers.tick - (s.call s.kernel.current).since < 0x80000000#32))
  | .isrSend _ => inferInstanceAs (Decidable True)
  | .dismiss side => inferInstanceAs (Decidable (s.kernel.lists (.waiting (links.list side)) ≠ []))
  | .kernel event => inferInstanceAs (Decidable (s.kernel.Allowed idle event ∧
      (∀ t, s.call t ≠ .out → ¬ (s.kernel.touched event).stop t ∧
        ¬ (s.kernel.touched event).wake t) ∧
      ∀ side, ¬ (s.kernel.touched event).join (links.list side)))

/-- One allowed event happens. -/
def Step (idle : τ) (links : MbLinks κ) (s next : MbHost τ κ μ) : Prop :=
  ∃ event, s.Allowed idle links event ∧ s.step links event = some next

/-- A list of events in a row, each of them allowed. -/
def exec [Fintype τ] [DecidableEq μ] (idle : τ) (links : MbLinks κ) (s : MbHost τ κ μ)
    (events : List (MbEvent τ κ μ)) : Option (MbHost τ κ μ) :=
  events.foldlM (fun s event => if s.Allowed idle links event then s.step links event else none) s

/-- No thread but the idle one has been started, and the mailbox is new. -/
def init (idle : τ) (start : BitVec 32) (thread : τ → Fin 32 × BitVec 32) (msgPool : List μ)
    (nonempty : 0 < msgPool.length) (fits : msgPool.length ≤ 65535) : MbHost τ κ μ where
  kernel := Kernel.init idle start thread
  mb := rtMbInit msgPool nonempty fits
  call _ := .out
  seen := []

/-- What there is to take on each side: mails, and room for mails. -/
def tokens (mb : Mailbox μ) : MbSide → ℕ
  | .recv => mb.entry
  | .send => mb.size - mb.entry

/-! ## What holds between the events -/

end MbHost

/-- The mail that came. -/
def MbObs.sent? {τ μ : Type} : MbObs τ μ → Option μ
  | .sent value => some value
  | .received .. | .returned .. => none

/-- The mail that was taken. -/
def MbObs.received? {τ μ : Type} : MbObs τ μ → Option μ
  | .received _ value => some value
  | .sent _ | .returned .. => none

/-- A mail that is taken is not sent. -/
@[simp] theorem MbObs.sent?_received {τ μ : Type} (t : τ) (value : μ) :
    (MbObs.received t value).sent? = none := rfl

/-- A call that returns sends nothing. -/
@[simp] theorem MbObs.sent?_returned {τ μ : Type} (t : τ) (result : IpcResult) :
    (MbObs.returned t result : MbObs τ μ).sent? = none := rfl

/-- A call that returns takes nothing. -/
@[simp] theorem MbObs.received?_returned {τ μ : Type} (t : τ) (result : IpcResult) :
    (MbObs.returned t result : MbObs τ μ).received? = none := rfl

/-- A mail that is taken is taken. -/
@[simp] theorem MbObs.received?_received {τ μ : Type} (t : τ) (value : μ) :
    (MbObs.received t value).received? = some value := rfl

namespace MbHost

variable {τ κ μ : Type} [DecidableEq τ] [DecidableEq κ] [Inhabited μ] [Fintype τ] {idle : τ}
  {start : BitVec 32} {links : MbLinks κ} {s next : MbHost τ κ μ}

/--
What holds between the events.

The threads in calls are monitored on both sides,
and the mails are those that were sent and not yet taken.
-/
structure Sound (idle : τ) (start : BitVec 32) (links : MbLinks κ) (s : MbHost τ κ μ) : Prop where
  good : Kernel.Good idle s.kernel
  timed : Kernel.Timed start s.kernel
  monitored : Kernel.Monitored idle links.list s.kernel (fun t => (s.call t).side) (tokens s.mb)
  waitable : ∀ t, Waitable (s.call t).timeout
  attached : s.mb.attached = true
  mails : s.seen.filterMap MbObs.sent? = s.seen.filterMap MbObs.received? ++ s.mb.mails

omit [DecidableEq κ] [Inhabited μ] [Fintype τ] in
/-- A call of one thread changes the side of that thread. -/
theorem side_update (call : τ → MbCall μ) (t : τ) (place : MbCall μ) :
    (fun u => (Function.update call t place u).side) =
      Function.update (fun u => (call u).side) t place.side := by
  funext u
  by_cases same : u = t <;> simp [same]

omit [Inhabited μ] in
/-- Room is taken by a mail, which can then be taken itself. -/
theorem tokens_put (mb : Mailbox μ) (value : μ) (room : mb.entry ≠ mb.size) :
    tokens (mb.put value room) = Function.update
      (Function.update (tokens mb) .send (tokens mb .send - 1)) .recv (tokens mb .recv + 1) := by
  -- A mailbox that has room does not reach the end of its counter.
  have bound := mb.size_le
  have entry := mb.entry_le
  have counted : (if mb.entry < rtMbEntryMax then mb.entry + 1 else mb.entry) = mb.entry + 1 :=
    if_pos (by unfold rtMbEntryMax; omega)
  funext side
  cases side with
  | recv => simp [tokens, Mailbox.put, counted]
  | send =>
    simp only [tokens, Mailbox.put, counted, Function.update_self, ne_eq, reduceCtorEq,
      not_false_eq_true,
      Function.update_of_ne]
    omega

omit [Inhabited μ] in
/-- A mail is taken, which leaves room for another. -/
theorem tokens_take (mb : Mailbox μ) (filled : mb.entry ≠ 0) :
    tokens (mb.take filled) = Function.update
      (Function.update (tokens mb) .recv (tokens mb .recv - 1)) .send (tokens mb .send + 1) := by
  have entry := mb.entry_le
  have counted : (if mb.entry > 0 then mb.entry - 1 else mb.entry) = mb.entry - 1 :=
    if_pos (by omega)
  funext side
  cases side with
  | recv => simp [tokens, Mailbox.take, counted]
  | send =>
    simp only [tokens, Mailbox.take, counted, Function.update_self]
    omega

/-- What the kernel does without touching the threads in calls keeps everything. -/
theorem Sound.moves (sound : Sound idle start links s) {N : Kernel.Touched τ κ}
    {kernel : Kernel τ κ} (untouched : ∀ t, s.call t ≠ .out → ¬ N.stop t ∧ ¬ N.wake t)
    (join : ∀ side, ¬ N.join (links.list side))
    (returned : Kernel.Returned idle N s.kernel kernel) :
    Sound idle start links { s with kernel := kernel } := by
  -- Only a thread in a call has a side.
  have inside : ∀ t side, (s.call t).side = some side → s.call t ≠ .out := by
    intro t side place out
    simp [out, MbCall.side] at place
  exact { sound with
    good := sound.good.moves returned.moves
    timed := sound.timed.steps returned.timed
    monitored := sound.monitored.moves sound.good
      (fun t side place => (untouched t (inside t side place)).1)
      (fun t side place => (untouched t (inside t side place)).2) join returned.moves }

omit [DecidableEq κ] in
/--
The running thread returns without a mail or room, when there is none or it was not woken for it.
-/
theorem Sound.leave (sound : Sound idle start links s)
    (runs : (s.kernel.thread s.kernel.current).stat = .running)
    (nothing : ∀ side, (s.call s.kernel.current).side = some side →
      (s.kernel.thread s.kernel.current).error = .eok → tokens s.mb side = 0) (result : IpcResult) :
    Sound idle start links (s.leave result) := by
  refine { sound with monitored := ?_, waitable := fun t => ?_, mails := ?_ }
  · rw [MbHost.leave, side_update]
    -- A thread that was woken for something must not leave it behind.
    refine sound.monitored.leave (.inr runs) (fun _ => le_rfl) fun side member => .inl ?_
    obtain ⟨inside, -, error⟩ := Kernel.mem_woken.mp member
    exact nothing side inside error
  · by_cases same : t = s.kernel.current
    · simp [MbHost.leave, same, MbCall.timeout, Waitable]
    · simpa [MbHost.leave, same] using sound.waitable t
  · simp [MbHost.leave, sound.mails, List.filterMap_cons]

/-- The running thread sets its error when it is in no call any more. -/
theorem Sound.errno (sound : Sound idle start links s) (out : s.call s.kernel.current = .out)
    (code : ThreadError) : Sound idle start links
      { s with kernel := s.kernel.upd s.kernel.current fun thread =>
        { thread with error := code } } := by
  have move : Kernel.Move idle { stop := (· = s.kernel.current) } s.kernel
      (s.kernel.upd s.kernel.current fun thread => { thread with error := code }) :=
        .errno code (.inl rfl)
  -- The running thread is in no call, and no other one is touched.
  refine sound.moves (fun t inside => ⟨fun same => inside ?_, id⟩) (fun _ => id)
    (.single move rfl rfl)
  rw [show t = s.kernel.current from same]
  exact out

/-- The running thread waits when there is nothing to take. -/
theorem Sound.wait (sound : Sound idle start links s)
    (runs : (s.kernel.thread s.kernel.current).stat = .running) (busy : s.kernel.current ≠ idle)
    {side : MbSide} (same_side : ∀ side', (s.call s.kernel.current).side = some side' →
      side' = side)
    (nothing : tokens s.mb side = 0) (call : MbCall μ) (place : call.side = some side)
    (waitable : Waitable call.timeout) :
    ∃ next, s.wait links side call.timeout call = some next ∧ Sound idle start links next := by
  obtain ⟨kernel, done, returned, waits⟩ :=
    sound.good.waits runs busy (links.list side) links.flag waitable.timer
  -- The mailbox is as before, and the thread is in the list of its side.
  refine ⟨_, by rw [MbHost.wait, done]; rfl, ?_⟩
  refine { sound with
    good := sound.good.moves returned.moves
    timed := sound.timed.steps returned.timed
    monitored := ?_
    waitable := fun t => ?_ }
  · rw [side_update, place]
    exact sound.monitored.wait links.distinct (.inr runs) busy same_side nothing waits
  · by_cases same : t = s.kernel.current
    · simpa [same] using waitable
    · simpa [same] using sound.waitable t

omit [DecidableEq κ] in
/-- A thread that took something on its side has left its call. -/
theorem Sound.taken (sound : Sound idle start links s)
    (runs : (s.kernel.thread s.kernel.current).stat = .running) {side : MbSide}
    (same_side : ∀ side', (s.call s.kernel.current).side = some side' → side' = side)
    (some_left : tokens s.mb side ≠ 0) :
    Kernel.Monitored idle links.list s.kernel
      (fun t => (Function.update s.call s.kernel.current .out t).side)
      (Function.update (tokens s.mb) side (tokens s.mb side - 1)) := by
  rw [side_update]
  -- There is one thing less on its side, for which it had been woken.
  refine sound.monitored.leave (.inr runs) (fun side' => ?_) fun side' member => .inr ?_
  · by_cases own : side' = side
    · rw [own, Function.update_self]
      omega
    · rw [Function.update_of_ne own]
  · rw [same_side side' (Kernel.mem_woken.mp member).1, Function.update_self]
    omega

omit [DecidableEq κ] in
/-- A thread that has left its call does not wait. -/
theorem Sound.waitable_out (sound : Sound idle start links s) (t : τ) :
    Waitable (Function.update s.call s.kernel.current .out t).timeout := by
  by_cases same : t = s.kernel.current
  · simp [same, MbCall.timeout, Waitable]
  · simpa [same] using sound.waitable t

/-- A sender that found room puts its mail in, and the first receiver that waits is woken. -/
theorem Sound.deliver (sound : Sound idle start links s) (value : μ) (room : s.mb.entry ≠ s.mb.size)
    {call : τ → MbCall μ} (waitable : ∀ t, Waitable (call t).timeout)
    (taken : Kernel.Monitored idle links.list s.kernel (fun t => (call t).side)
      (Function.update (tokens s.mb) .send (tokens s.mb .send - 1)))
    (new : List (MbObs τ μ)) (sent : new.filterMap MbObs.sent? = [value])
    (received : new.filterMap MbObs.received? = []) :
    Sound idle start links
      { s.deliver links value room with call := call, seen := s.seen ++ new } := by
  have woken := sound.good.wakeFirst (links.list .recv)
  refine { sound with
    good := sound.good.moves woken.moves
    timed := sound.timed.steps woken.timed
    monitored := ?_
    waitable := waitable
    mails := ?_ }
  · -- The sender has taken its room, and then gives a mail.
    have given := taken.give sound.good .recv
    rw [Function.update_of_ne (by simp)] at given
    simp only [MbHost.deliver, tokens_put]
    exact given
  · simp only [MbHost.deliver, List.filterMap_append, sound.mails, Mailbox.mails_put, sent,
      received, List.append_nil, List.append_assoc]

/-- A receiver that found a mail takes it, and the first sender that waits is woken. -/
theorem Sound.collect (sound : Sound idle start links s) (filled : s.mb.entry ≠ 0)
    (taken : Kernel.Monitored idle links.list s.kernel
      (fun t => (Function.update s.call s.kernel.current .out t).side)
      (Function.update (tokens s.mb) .recv (tokens s.mb .recv - 1))) :
    Sound idle start links ((s.collect links filled).leave .eok) := by
  have woken := sound.good.wakeFirst (links.list .send)
  refine { sound with
    good := sound.good.moves woken.moves
    timed := sound.timed.steps woken.timed
    monitored := ?_
    waitable := ?_
    mails := ?_ }
  · -- The receiver has taken its mail, and then gives room.
    have given := taken.give sound.good .send
    rw [Function.update_of_ne (by simp)] at given
    simp only [MbHost.leave, MbHost.collect, tokens_take, Kernel.current_wakeFirst]
    exact given
  · simp only [MbHost.leave, MbHost.collect, Kernel.current_wakeFirst]
    exact sound.waitable_out
  · simp only [MbHost.leave, MbHost.collect, List.filterMap_append, sound.mails,
      Kernel.current_wakeFirst]
    rw [s.mb.mails_eq_cons filled]
    simp [List.filterMap_cons]

/-- A turn of the loop of `rt_mb_recv` keeps everything. -/
theorem Sound.recvTurn (sound : Sound idle start links s)
    (runs : (s.kernel.thread s.kernel.current).stat = .running) {timeout : BitVec 32}
    (busy : timeout ≠ 0 → s.kernel.current ≠ idle) (waitable : Waitable timeout)
    (same_side : ∀ side, (s.call s.kernel.current).side = some side → side = .recv) :
    ∃ next, s.recvTurn links timeout = some next ∧ Sound idle start links next := by
  rw [MbHost.recvTurn]
  split
  · rename_i empty
    split
    · -- The time is up, and there is nothing.
      refine ⟨_, rfl, (sound.leave runs (fun side inside _ => ?_) .etimeout).errno ?_ .etimeout⟩
      · rw [same_side side inside]
        exact empty
      · simp [MbHost.leave]
    · rename_i some_time
      exact sound.wait runs (busy some_time) same_side empty (.recv timeout _) rfl waitable
  · rename_i filled
    exact ⟨_, rfl, sound.collect filled (sound.taken runs same_side filled)⟩

/-- A turn of the loop of `rt_mb_send_wait` keeps everything. -/
theorem Sound.sendTurn (sound : Sound idle start links s)
    (runs : (s.kernel.thread s.kernel.current).stat = .running) {timeout : BitVec 32} (value : μ)
    (busy : timeout ≠ 0 → s.kernel.current ≠ idle) (waitable : Waitable timeout)
    (same_side : ∀ side, (s.call s.kernel.current).side = some side → side = .send) :
    ∃ next, s.sendTurn links value timeout = some next ∧ Sound idle start links next := by
  have entry := s.mb.entry_le
  rw [MbHost.sendTurn]
  split
  · rename_i full
    have no_room : tokens s.mb .send = 0 := by simp [tokens, full]
    split
    · -- The time is up, and there is no room.
      refine ⟨_, rfl, (sound.leave runs (fun side inside _ => ?_) .efull).errno ?_ .eok⟩
      · rw [same_side side inside]
        exact no_room
      · simp [MbHost.leave]
    · rename_i some_time
      exact sound.wait runs (busy some_time) same_side no_room (.send value timeout _) rfl waitable
  · rename_i room
    have left : tokens s.mb .send ≠ 0 := by
      simp only [tokens]
      omega
    refine ⟨_, rfl, ?_⟩
    -- The mail comes in first, and then the call returns.
    have sent := sound.deliver value room sound.waitable_out (sound.taken runs same_side left)
      [.sent value, .returned s.kernel.current .eok] rfl rfl
    simpa [MbHost.leave, MbHost.deliver] using sent

/-- A thread that goes on in its call returns with its error, or looks again on its side. -/
theorem Sound.back (sound : Sound idle start links s)
    (runs : (s.kernel.thread s.kernel.current).stat = .running)
    (inside : s.call s.kernel.current ≠ .out)
    (soon : s.kernel.timers.tick - (s.call s.kernel.current).since < 0x80000000#32) :
    ∃ next, s.back links = some next ∧ Sound idle start links next := by
  have waitable : Waitable (s.call s.kernel.current).timeout := sound.waitable s.kernel.current
  rw [MbHost.back]
  cases call : s.call s.kernel.current with
  | out => exact absurd call inside
  | recv timeout since =>
    rw [call] at waitable soon
    -- Only threads that may wait are in a call, so it may wait again.
    have busy := sound.monitored.busy s.kernel.current .recv (by simp [call, MbCall.side])
    dsimp only
    split
    · rename_i code
      exact ⟨_, rfl, sound.leave runs (fun _ _ eok => absurd eok code) _⟩
    · exact sound.recvTurn runs (fun _ => busy) (waitable.left soon) (by simp [call, MbCall.side])
  | send value timeout since =>
    rw [call] at waitable soon
    have busy := sound.monitored.busy s.kernel.current .send (by simp [call, MbCall.side])
    dsimp only
    split
    · rename_i code
      exact ⟨_, rfl, sound.leave runs (fun _ _ eok => absurd eok code) _⟩
    · exact sound.sendTurn runs value (fun _ => busy) (waitable.left soon)
        (by simp [call, MbCall.side])

/-- An interrupt puts a mail in if there is room, and is in no call itself. -/
theorem Sound.isrSend (sound : Sound idle start links s) (value : μ) :
    ∃ next, s.isrSend links value = some next ∧ Sound idle start links next := by
  rw [MbHost.isrSend, if_pos sound.attached]
  split
  · exact ⟨s, rfl, sound⟩
  · rename_i room
    -- The room it takes may be what a sender was woken for, who then looks in vain and waits again.
    refine ⟨_, rfl, sound.deliver value room sound.waitable
      (sound.monitored.fewer fun side => ?_) [.sent value] rfl rfl⟩
    by_cases own : side = .send
    · rw [own, Function.update_self]
      omega
    · rw [Function.update_of_ne own]

/-- Every event that may happen is handled, and keeps everything. -/
theorem Sound.step (sound : Sound idle start links s) {event : MbEvent τ κ μ}
    (allowed : s.Allowed idle links event) :
    ∃ next, s.step links event = some next ∧ Sound idle start links next := by
  cases event with
  | recv timeout =>
    obtain ⟨runs, out, busy, waitable⟩ := allowed
    rw [MbHost.step, MbHost.rtMbRecv, if_pos sound.attached]
    split
    · exact ⟨_, rfl, sound.leave runs (by simp [out, MbCall.side]) .etimeout⟩
    · exact sound.recvTurn runs busy waitable (by simp [out, MbCall.side])
  | send value timeout =>
    obtain ⟨runs, out, busy, waitable⟩ := allowed
    rw [MbHost.step, MbHost.rtMbSendWait, if_pos sound.attached]
    split
    · exact ⟨_, rfl, sound.leave runs (by simp [out, MbCall.side]) .efull⟩
    · exact sound.sendTurn runs value busy waitable (by simp [out, MbCall.side])
  | back =>
    obtain ⟨runs, inside, soon⟩ := allowed
    exact sound.back runs inside soon
  | isrSend value => exact sound.isrSend value
  | dismiss side =>
    obtain ⟨kernel, done, returned, t, dismissed⟩ := sound.good.dismisses allowed
    exact ⟨{ s with kernel := kernel }, by rw [MbHost.step, done]; rfl, { sound with
      good := sound.good.moves returned.moves
      timed := sound.timed.steps returned.timed
      monitored := sound.monitored.dismiss dismissed }⟩
  | kernel event =>
    obtain ⟨allowed, untouched, join⟩ := allowed
    obtain ⟨kernel, done, returned⟩ := sound.good.run sound.timed allowed
    exact ⟨_, by rw [MbHost.step, done]; rfl, sound.moves untouched join returned⟩

/-! ## Runs -/

/-- A state that can be reached from a new mailbox on a kernel that has just started. -/
def Reached (idle : τ) (start : BitVec 32) (links : MbLinks κ) (s : MbHost τ κ μ) : Prop :=
  ∃ thread msgPool nonempty fits,
    Relation.ReflTransGen (Step idle links) (init idle start thread msgPool nonempty fits) s

omit [DecidableEq κ] in
/-- A new mailbox on a kernel that has just started. -/
theorem sound_init (links : MbLinks κ) (thread : τ → Fin 32 × BitVec 32) (msgPool : List μ)
    (nonempty : 0 < msgPool.length) (fits : msgPool.length ≤ 65535) :
    Sound idle start links (init idle start thread msgPool nonempty fits) where
  good := Kernel.good_init idle start thread
  timed := .refl
  monitored := {
    listed := fun side t => iff_of_false List.not_mem_nil (by simp [init, MbCall.side])
    hopeful := fun t side inside => by simp [init, MbCall.side] at inside
    alive := fun t side inside => by simp [init, MbCall.side] at inside
    busy := fun t side inside => by simp [init, MbCall.side] at inside
    covered := fun side => Wakeup.covered_of_none fun waits => waits rfl }
  waitable := fun t => by simp [init, MbCall.timeout, Waitable]
  attached := rfl
  mails := by simp [init]

/-- What holds between the events holds in every state that is reached. -/
theorem sound_of_reached (reached : Reached idle start links s) : Sound idle start links s := by
  obtain ⟨thread, msgPool, nonempty, fits, run⟩ := reached
  -- The induction follows the run, one event at a time.
  induction run with
  | refl => exact sound_init links thread msgPool nonempty fits
  | tail _ step ih =>
    obtain ⟨event, allowed, taken⟩ := step
    -- The step that was taken is the one that keeps everything.
    obtain ⟨next, done, sound⟩ := ih.step allowed
    rw [taken] at done
    exact Option.some.inj done ▸ sound

/-- A list of events that can be executed leads to a state that can be reached. -/
theorem reached_of_exec [DecidableEq μ] {thread : τ → Fin 32 × BitVec 32} {msgPool : List μ}
    {nonempty : 0 < msgPool.length} {fits : msgPool.length ≤ 65535} {events : List (MbEvent τ κ μ)}
    (done : exec idle links (init idle start thread msgPool nonempty fits) events = some s) :
    Reached idle start links s :=
  ⟨thread, msgPool, nonempty, fits, Reach.reflTransGen_of_foldlM (fun _ _ event _ taken =>
    ⟨event, Option.ite_none_right_eq_some.mp taken⟩) done⟩

/-- The lists of a mailbox that is the only object. -/
def demoLinks : MbLinks MbSide := ⟨id, Function.injective_id, .fifo⟩

/-- A mailbox with one place. -/
def demoStart : MbHost DemoThread MbSide ℕ := init .idle 0 demoThreads [0] (by simp) (by simp)

end MbHost
end MultifunctionClock
