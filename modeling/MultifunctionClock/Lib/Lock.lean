import Mathlib.Data.List.Count
import Mathlib.Tactic

/-!
A lock that its owner can take again, and that is handed over to one who waits for it.

Who is handed the lock owns it before knowing so. Whatever happens, at most one is inside.
-/

namespace Lock

variable {α : Type} [DecidableEq α]

/-- Who owns a lock, how often, and whether the owner has yet to hear of it. -/
structure State (α : Type) where
  owner : Option α
  hold : ℕ
  pending : Bool

/-- What can be seen of a lock. -/
inductive Obs (α : Type) where
  | took (who : α)
  | gave (who : α)
deriving DecidableEq

/-- What can happen to a lock, with what is seen of it. -/
inductive Act : State α → List (Obs α) → State α → Prop
  | stay (state) : Act state [] state
  | enter (who hold pending) : Act ⟨none, hold, pending⟩ [.took who] ⟨some who, 1, false⟩
  | again (who hold) : Act ⟨some who, hold, false⟩ [.took who] ⟨some who, hold + 1, false⟩
  | give (who hold) : Act ⟨some who, hold + 1, false⟩ [.gave who] ⟨some who, hold, false⟩
  | free (who pending) : Act ⟨some who, 1, false⟩ [.gave who] ⟨none, 0, pending⟩
  /-- The lock goes straight to another. -/
  | hand (who other) : Act ⟨some who, 1, false⟩ [.gave who] ⟨some other, 1, true⟩
  /-- The new owner hears of it. -/
  | hear (who) : Act ⟨some who, 1, true⟩ [.took who] ⟨some who, 1, false⟩

/-- How often one is inside. -/
def State.inside (state : State α) (who : α) : ℕ :=
  if state.owner = some who ∧ state.pending = false then state.hold else 0

/--
Everybody has taken the lock as often as they gave it back, and as often again as they are inside.
-/
def Held (state : State α) (seen : List (Obs α)) : Prop :=
  ∀ who, seen.count (.took who) = seen.count (.gave who) + state.inside who

variable {state next : State α} {seen new : List (Obs α)} {who other : α}

/-- Whatever happens to the lock is counted. -/
theorem Held.act (held : Held state seen) (act : Act state new next) : Held next (seen ++ new) := by
  intro who
  -- What is seen in a step changes one of the two counts by one, or none.
  have before := held who
  simp only [State.inside] at before
  cases act with
  | stay => simpa [State.inside] using before
  | enter one | again one | give one | free one | hear one | hand one other =>
    -- Only the one who takes or gives is counted anew.
    by_cases same : one = who <;> simp_all [State.inside] <;> omega

/-- One who took the lock more often than gave it back is the owner. -/
theorem Held.owner (held : Held state seen)
    (inside : seen.count (.gave who) < seen.count (.took who)) :
    state.owner = some who ∧ state.pending = false := by
  -- One who is outside has given back all that was taken.
  by_contra outside
  have counted := held who
  rw [State.inside, if_neg outside] at counted
  omega

/-- Nobody gives the lock back more often than taken. -/
theorem Held.le (held : Held state seen) (who : α) :
    seen.count (.gave who) ≤ seen.count (.took who) := by
  rw [held who]
  exact Nat.le_add_right _ _

/-- At most one is inside. -/
theorem Held.exclusive (held : Held state seen)
    (one : seen.count (.gave who) < seen.count (.took who))
    (two : seen.count (.gave other) < seen.count (.took other)) : who = other :=
  Option.some.inj ((held.owner one).1.symm.trans (held.owner two).1)

end Lock
