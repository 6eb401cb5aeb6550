import Mathlib.Data.Finset.Card
import Mathlib.Tactic

/-!
Waking those who wait for something countable, one for each that comes.

A waiter that was woken looks again before it takes anything, and others may have been faster. While
anybody still waits, there are never more things to take than waiters that
were woken and have yet to look.
-/

namespace Wakeup

variable {α : Type} [DecidableEq α] {count : ℕ} {waiting : Prop} {woken : Finset α} {x : α}

/-- While anybody waits, what there is to take does not exceed those who will look for it. -/
def Covered (count : ℕ) (waiting : Prop) (woken : Finset α) : Prop := waiting → count ≤ woken.card

omit [DecidableEq α] in
/-- Less to take, fewer who wait and more who were woken do no harm. -/
theorem Covered.mono (covered : Covered count waiting woken) {fewer : ℕ} {still : Prop}
    {more : Finset α} (less : fewer ≤ count) (only : still → waiting) (subset : woken ⊆ more) :
    Covered fewer still more :=
  fun waits => less.trans ((covered (only waits)).trans (Finset.card_le_card subset))

/-- One thing more comes, and with it one waiter more is woken. -/
theorem Covered.wake (covered : Covered count waiting woken) (waits : waiting) {still : Prop}
    (fresh : x ∉ woken) {more : Finset α} (subset : insert x woken ⊆ more) :
    Covered (count + 1) still more := by
  intro _
  have bound := covered waits
  have grown := Finset.card_le_card subset
  -- The new waiter makes up for the new thing.
  rw [Finset.card_insert_of_notMem fresh] at grown
  omega

omit [DecidableEq α] in
/-- When nobody waits, anything may come. -/
theorem covered_of_none (none : ¬ waiting) : Covered count waiting woken := fun waits =>
    absurd waits none

omit [DecidableEq α] in
/-- When there is nothing to take, anybody may wait. -/
theorem covered_zero : Covered 0 waiting woken := fun _ => Nat.zero_le _

/-- A waiter that was woken takes one thing. -/
theorem Covered.take (covered : Covered (count + 1) waiting woken) {still : Prop}
    (only : still → waiting) {rest : Finset α} (subset : woken.erase x ⊆ rest) :
    Covered count still rest := by
  intro waits
  have bound := covered (only waits)
  have left := Finset.card_le_card subset
  -- At most the taker itself is missing from those who were woken.
  have one := Finset.pred_card_le_card_erase (s := woken) (a := x)
  omega

end Wakeup
