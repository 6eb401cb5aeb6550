import MultifunctionClock.Lib.Heap

/-!
Publication through one shared block.

A producer rewrites the same block for every item and mails its handle, and the mails may be lost.
A consumer that takes any mail then reads the latest item, however old the mail is.
-/

namespace Shared

variable {ο ι : Type}

/-- A producer's block, the mails on their way to the consumer, and the latest item. -/
structure Published (owner : ο) (sized : Bytes → Prop) (shows : ι → Bytes → Prop) (heap : Heap ο)
    (block : Option ℕ) (mails : List ℕ) (last : Option ι) : Prop where
  -- The block belongs to the producer for good.
  owned : ∀ handle, block = some handle → (heap handle).owner = some owner
  sized : ∀ handle, block = some handle → sized (heap handle).bytes
  -- Every mail carries the handle of the one block.
  mailed : ∀ mail ∈ mails, block = some mail
  idle : block = none → last = none
  -- A mail is sent only after an item was written.
  started : last = none → mails = []
  shown : ∀ handle item, block = some handle → last = some item → shows item (heap handle).bytes

variable {owner : ο} {sized : Bytes → Prop} {shows : ι → Bytes → Prop} {heap next : Heap ο}
  {block : Option ℕ} {mails : List ℕ} {last : Option ι}

/-- Before the producer has its block there is nothing to keep. -/
theorem Published.start (heap : Heap ο) : Published owner sized shows heap none [] none := by
  constructor <;> simp

/-- The producer gets its block. -/
theorem Published.alloc (held : Published owner sized shows heap none mails last)
    {handle : ℕ} {bytes : Bytes} (fits : sized bytes) :
    Published owner sized shows (heap.alloc handle owner bytes) (some handle) mails last := by
  -- Nothing was published before, so there is no mail and no item yet.
  have nothing := held.idle rfl
  have empty := held.started nothing
  subst nothing empty
  refine ⟨?_, ?_, by simp, fun _ => rfl, fun _ => rfl, by simp⟩
  · rintro _ ⟨rfl⟩
    simp [Heap.alloc]
  · rintro _ ⟨rfl⟩
    simpa [Heap.alloc] using fits

/-- What other owners do does not matter. -/
theorem Published.keeps (held : Published owner sized shows heap block mails last) {who : ο}
    (act : Heap.Act who heap next) (other : owner ≠ who) :
    Published owner sized shows next block mails last := by
  -- The block is not theirs, so it is the same block afterwards.
  have same : ∀ handle, block = some handle → next handle = heap handle :=
    fun handle mine => act.keeps (held.owned handle mine) other
  refine ⟨?_, ?_, held.mailed, held.idle, held.started, ?_⟩
  · intro handle mine
    rw [same handle mine]
    exact held.owned handle mine
  · intro handle mine
    rw [same handle mine]
    exact held.sized handle mine
  · intro handle item mine latest
    rw [same handle mine]
    exact held.shown handle item mine latest

/-- The producer rewrites its block for an item, and the mail for it is queued or lost. -/
theorem Published.rewrite {handle : ℕ}
    (held : Published owner sized shows heap (some handle) mails last) {bytes : Bytes} {item : ι}
    {queued : List ℕ} (fits : sized bytes) (writes : shows item bytes)
    (sent : queued = mails ∨ queued = mails ++ [handle]) :
    Published owner sized shows (heap.write handle bytes) (some handle) queued (some item) := by
  refine ⟨?_, ?_, ?_, by simp, by simp, ?_⟩
  · -- Writing changes no owner.
    rintro _ ⟨rfl⟩
    simpa using held.owned handle rfl
  · rintro _ ⟨rfl⟩
    simpa [Heap.write] using fits
  · -- Every mail carries the one handle, the new mail included.
    intro mail member
    rcases sent with rfl | rfl
    · exact held.mailed mail member
    · rcases List.mem_append.mp member with early | late
      · exact held.mailed mail early
      · rw [List.mem_singleton.mp late]
  · -- The block now holds what was just written.
    rintro _ _ ⟨rfl⟩ ⟨rfl⟩
    simpa [Heap.write] using writes

/-- The consumer takes a mail and finds the latest item behind it. -/
theorem Published.receive {mail : ℕ}
    (held : Published owner sized shows heap block (mail :: mails) last) :
    Published owner sized shows heap block mails last ∧
      ∃ item, last = some item ∧ shows item (heap mail).bytes := by
  -- The mail leads to the block, and the block shows the latest item.
  have mine := held.mailed mail (by simp)
  refine ⟨⟨held.owned, held.sized, fun other member => held.mailed other (by simp [member]),
    held.idle, ?_, held.shown⟩, ?_⟩
  · intro nothing
    have := held.started nothing
    simp at this
  · cases latest : last with
    | none =>
      -- Without an item there was no mail to take.
      have := held.started latest
      simp at this
    | some item => exact ⟨item, rfl, held.shown mail item mine latest⟩

end Shared
