import MultifunctionClock.Lib.Cyclic

/-! Kernel mailboxes: the ring of words behind `rt_mb_send` and `rt_mb_recv` refines a queue. -/

namespace MultifunctionClock

open Cyclic

/-- Results of the mailbox calls, named after the error codes. -/
inductive RtErr where
  | eok
  | efull
  | etimeout
deriving DecidableEq, Repr

/--
`struct rt_mailbox` over its pool of words.

A mail is one machine word, and its type says whether the senders put a pointer or a number into it.
The counters are those of the source.
Their relation is part of the type, so a ring that lost track of its mails cannot be written down.
-/
structure Mailbox (μ : Type) where
  /-- The object type is `RT_Object_Class_MailBox`. Detaching clears it. -/
  attached : Bool
  msgPool : List μ
  size : ℕ
  entry : ℕ
  inOffset : ℕ
  outOffset : ℕ
  pool_length : msgPool.length = size
  /-- The size is a `rt_uint16_t`. -/
  size_le : size ≤ 65535
  entry_le : entry ≤ size
  out_lt : outOffset < size
  in_eq : inOffset = (outOffset + entry) % size
deriving DecidableEq

/-- `RT_MB_ENTRY_MAX`. -/
def rtMbEntryMax : ℕ := 65535

variable {μ : Type}

/-- `rt_mb_init` of a pool of a positive number of words. -/
def rtMbInit (msgPool : List μ) (nonempty : 0 < msgPool.length) (fits : msgPool.length ≤ 65535) :
    Mailbox μ where
  attached := true
  msgPool := msgPool
  size := msgPool.length
  entry := 0
  inOffset := 0
  outOffset := 0
  pool_length := rfl
  size_le := fits
  entry_le := by omega
  out_lt := nonempty
  in_eq := by simp

namespace Mailbox

/-- The write position lies inside the pool. -/
theorem in_lt (mb : Mailbox μ) : mb.inOffset < mb.size := by
  -- The write position is a remainder by the size, which the read position shows to be positive.
  rw [mb.in_eq]
  exact Nat.mod_lt _ (by have := mb.out_lt; omega)

/-- The part of `rt_mb_send_wait` that stores a word, once the ring is known to have room. -/
def put (mb : Mailbox μ) (value : μ) (room : mb.entry ≠ mb.size) : Mailbox μ :=
  { mb with
    msgPool := mb.msgPool.set mb.inOffset value
    inOffset := if mb.inOffset + 1 ≥ mb.size then 0 else mb.inOffset + 1
    -- The size is at most `rtMbEntryMax`, so the overflow check of the source always passes here.
    entry := if mb.entry < rtMbEntryMax then mb.entry + 1 else mb.entry
    pool_length := by simp [mb.pool_length]
    entry_le := by
      have := mb.entry_le
      split <;> omega
    in_eq := by
      -- Both the write position and the counter move on by one.
      have bound := mb.size_le
      have entry := mb.entry_le
      rw [advance_eq mb.in_lt, if_pos (show mb.entry < rtMbEntryMax by unfold rtMbEntryMax; omega),
        mb.in_eq, Nat.mod_add_mod, Nat.add_assoc] }

/-- The part of `rt_mb_recv` that takes a word, once the ring is known not to be empty. -/
def take (mb : Mailbox μ) (filled : mb.entry ≠ 0) : Mailbox μ :=
  { mb with
    outOffset := if mb.outOffset + 1 ≥ mb.size then 0 else mb.outOffset + 1
    entry := if mb.entry > 0 then mb.entry - 1 else mb.entry
    entry_le := by
      have := mb.entry_le
      split <;> omega
    out_lt := by
      have := mb.out_lt
      split <;> omega
    in_eq := by
      -- The read position moves on by one as the counter goes down by one.
      rw [advance_eq mb.out_lt, if_pos (show mb.entry > 0 by omega), mb.in_eq, Nat.mod_add_mod]
      congr 1
      omega }

variable [Inhabited μ]

/-- The queued mails, oldest first. -/
def mails (mb : Mailbox μ) : List μ := window mb.msgPool mb.outOffset mb.entry

/-- As many mails are queued as the entry counter says. -/
@[simp] theorem length_mails (mb : Mailbox μ) : mb.mails.length = mb.entry := length_window _ _ _

/-- Storing a word appends it to the queue. -/
theorem mails_put (mb : Mailbox μ) (value : μ) (room : mb.entry ≠ mb.size) :
    (mb.put value room).mails = mb.mails ++ [value] := by
  -- The word goes to the slot behind the window of queued mails, and the window grows by that slot.
  have bound := mb.size_le
  have entry := mb.entry_le
  have counted : (if mb.entry < rtMbEntryMax then mb.entry + 1 else mb.entry) = mb.entry + 1 :=
    if_pos (by unfold rtMbEntryMax; omega)
  have slot : mb.inOffset = (mb.outOffset + mb.entry) % mb.msgPool.length := by
    rw [mb.in_eq, mb.pool_length]
  simp only [mails, put, counted, slot]
  exact window_push (by rw [mb.pool_length]; omega) value

/-- Taking a word removes the oldest mail. -/
theorem mails_eq_cons (mb : Mailbox μ) (filled : mb.entry ≠ 0) :
    mb.mails = mb.msgPool.getD mb.outOffset default :: (mb.take filled).mails := by
  -- The window starts at the read position, and what follows is the window of the next position.
  obtain ⟨count, counted⟩ : ∃ count, mb.entry = count + 1 := ⟨mb.entry - 1, by omega⟩
  have popped := window_pop mb.msgPool mb.outOffset count
  rw [mb.pool_length, Nat.mod_eq_of_lt mb.out_lt] at popped
  simp only [mails, take, counted, popped, advance_eq mb.out_lt]
  simp

end Mailbox

/--
`rt_mb_send`, which is `rt_mb_send_wait` without waiting.

There is no result when the assertion on the object type fails, since its handler never returns.
-/
def rtMbSend (mb : Mailbox μ) (value : μ) : Option (RtErr × Mailbox μ) :=
  if mb.attached then
    -- A full ring is refused at once, since the caller does not wait.
    if full : mb.entry = mb.size then some (.efull, mb)
    else some (.eok, mb.put value full)
  else none

/--
`rt_mb_recv` up to the point where it would have to wait.

An empty mailbox gives a timeout to a caller that does not wait, and suspends one that waits.
-/
def rtMbRecv [Inhabited μ] (mb : Mailbox μ) : Option ((RtErr × μ) × Mailbox μ) :=
  if mb.attached then
    if empty : mb.entry = 0 then some ((.etimeout, default), mb)
    else some ((.eok, mb.msgPool.getD mb.outOffset default), mb.take empty)
  else none

/-- `rt_mb_detach`: the object type is cleared, and the ring stays as it is. -/
def rtMbDetach (mb : Mailbox μ) : Mailbox μ := { mb with attached := false }

/-- A new mailbox is empty. -/
@[simp] theorem mails_rtMbInit [Inhabited μ] (msgPool : List μ) (nonempty : 0 < msgPool.length)
    (fits : msgPool.length ≤ 65535) : (rtMbInit msgPool nonempty fits).mails = [] := rfl

/-- Detaching does not touch the queue. -/
@[simp] theorem mails_rtMbDetach [Inhabited μ] (mb : Mailbox μ) :
    (rtMbDetach mb).mails = mb.mails := rfl

/-- A send fails its assertion exactly on a detached mailbox. -/
theorem rtMbSend_eq_none_iff {mb : Mailbox μ} {value : μ} :
    rtMbSend mb value = none ↔ mb.attached = false := by
  -- Past the assertion, both a full and a free ring give a result.
  unfold rtMbSend
  split
  · rename_i attached
    split <;> simp [attached]
  · rename_i detached
    simpa using detached

/-- What a send can do: refuse when full and change nothing, or append one mail. -/
theorem rtMbSend_cases [Inhabited μ] {mb next : Mailbox μ} {value : μ} {err : RtErr}
    (sent : rtMbSend mb value = some (err, next)) :
    mb.attached = true ∧ next.attached = true ∧ next.size = mb.size ∧
      ((err = .efull ∧ mb.entry = mb.size ∧ next = mb) ∨
        (err = .eok ∧ mb.entry < mb.size ∧ next.mails = mb.mails ++ [value])) := by
  -- The assertion comes first, and then the test for a full ring decides.
  unfold rtMbSend at sent
  split at sent
  · rename_i attached
    split at sent
    · rename_i full
      simp only [Option.some.injEq, Prod.mk.injEq] at sent
      obtain ⟨rfl, rfl⟩ := sent
      exact ⟨attached, attached, rfl, .inl ⟨rfl, full, rfl⟩⟩
    · rename_i room
      simp only [Option.some.injEq, Prod.mk.injEq] at sent
      obtain ⟨rfl, rfl⟩ := sent
      have := mb.entry_le
      exact ⟨attached, attached, rfl, .inr ⟨rfl, by omega, mb.mails_put value room⟩⟩
  · cases sent

/-- A send never waits, and a mailbox that is attached answers it. -/
theorem exists_rtMbSend {mb : Mailbox μ} (attached : mb.attached = true) (value : μ) :
    ∃ result, rtMbSend mb value = some result :=
  Option.ne_none_iff_exists'.mp fun failed => by
    rw [rtMbSend_eq_none_iff, attached] at failed
    cases failed

/-- What a receive can do: find nothing, or take the oldest mail. -/
theorem rtMbRecv_cases [Inhabited μ] {mb next : Mailbox μ} {value : μ} {err : RtErr}
    (received : rtMbRecv mb = some ((err, value), next)) :
    mb.attached = true ∧ next.attached = true ∧ next.size = mb.size ∧
      ((err = .etimeout ∧ mb.mails = [] ∧ next = mb) ∨
        (err = .eok ∧ mb.mails = value :: next.mails)) := by
  -- The assertion comes first, and then the test for an empty ring decides.
  unfold rtMbRecv at received
  split at received
  · rename_i attached
    split at received
    · rename_i empty
      simp only [Option.some.injEq, Prod.mk.injEq] at received
      obtain ⟨⟨rfl, -⟩, rfl⟩ := received
      exact ⟨attached, attached, rfl, .inl ⟨rfl, List.length_eq_zero_iff.mp (by simp [empty]), rfl⟩⟩
    · rename_i filled
      simp only [Option.some.injEq, Prod.mk.injEq] at received
      obtain ⟨⟨rfl, rfl⟩, rfl⟩ := received
      exact ⟨attached, attached, rfl, .inr ⟨rfl, mb.mails_eq_cons filled⟩⟩
  · cases received

/-- A receive from an empty mailbox times out. -/
theorem rtMbRecv_of_empty [Inhabited μ] {mb : Mailbox μ} (attached : mb.attached = true)
    (empty : mb.mails = []) : rtMbRecv mb = some ((.etimeout, default), mb) := by
  -- The entry counter is the length of the queue.
  have none_queued : mb.entry = 0 := by rw [← mb.length_mails, empty]; rfl
  simp [rtMbRecv, attached, none_queued]

/-- A receive from a mailbox with mails gives the oldest. -/
theorem rtMbRecv_of_cons [Inhabited μ] {mb : Mailbox μ} {value : μ} {rest : List μ}
    (attached : mb.attached = true) (queued : mb.mails = value :: rest) :
    ∃ next, rtMbRecv mb = some ((.eok, value), next) := by
  -- The head of the queue is the word at the read position.
  have filled : mb.entry ≠ 0 := by rw [← mb.length_mails, queued]; simp
  have head := mb.mails_eq_cons filled
  rw [queued, List.cons.injEq] at head
  exact ⟨mb.take filled, by simp only [rtMbRecv, attached, if_true, dif_neg filled, ← head.1]⟩

end MultifunctionClock
