import Mathlib.Data.Fintype.Basic
import Mathlib.Tactic

/-! Which thread the kernel may run: strict priorities over the threads that are ready. -/

namespace MultifunctionClock

/-- The field `stat` of `struct rt_thread`. The thread that runs counts as ready. -/
inductive ThreadStat where
  | init
  | ready
  | suspend
  | close
deriving DecidableEq

variable {τ : Type} {priority : τ → ℕ} {stat : τ → ThreadStat} {thread other : τ}

/-- `rt_schedule` may let a thread run: it is ready, and no ready thread has a smaller number. -/
structure Scheduled (priority : τ → ℕ) (stat : τ → ThreadStat) (thread : τ) : Prop where
  ready : stat thread = .ready
  first : ∀ other, stat other = .ready → priority thread ≤ priority other

/-- The choice among finitely many threads can be computed. -/
instance [Fintype τ] (priority : τ → ℕ) (stat : τ → ThreadStat) (thread : τ) :
    Decidable (Scheduled priority stat thread) :=
  decidable_of_iff
    (stat thread = .ready ∧ ∀ other, stat other = .ready → priority thread ≤ priority other)
    ⟨fun ⟨ready, first⟩ => ⟨ready, first⟩, fun picked => ⟨picked.ready, picked.first⟩⟩

/-- While a thread runs, every thread that is more urgent is out of the ready lists. -/
theorem Scheduled.not_ready (picked : Scheduled priority stat thread)
    (urgent : priority other < priority thread) : stat other ≠ .ready := by
  -- A ready thread of a smaller number would have been picked instead.
  intro ready
  have := picked.first other ready
  omega

end MultifunctionClock
