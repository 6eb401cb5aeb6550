import Mathlib.Data.Fin.Tuple.Basic
import Mathlib.Tactic

/-! Small sets kept in the bits of a word: adding and dropping one element,
    and the least element. -/

namespace Bitmap

variable {w : ℕ}

/-- The lowest bit that is set. -/
def lowest (word : BitVec w) : Option (Fin w) := Fin.find? fun bit => word.getLsbD bit

/-- The lowest bit is set, and none below it. -/
theorem lowest_eq_some {word : BitVec w} {bit : Fin w} : lowest word = some bit ↔
    word.getLsbD bit = true ∧ ∀ lower < bit, word.getLsbD lower = false := Fin.find?_eq_some_iff

/-- A word that is not zero has a lowest bit. -/
theorem exists_lowest {word : BitVec w} (nonzero : word ≠ 0) : ∃ bit, lowest word = some bit := by
  rw [← Option.isSome_iff_exists, Option.isSome_iff_ne_none]
  intro none
  -- Without any bit the word would be zero.
  refine nonzero (BitVec.eq_of_getLsbD_eq fun bit inside => ?_)
  rw [BitVec.ofNat_eq_ofNat, BitVec.getLsbD_zero]
  exact Fin.find?_eq_none_iff.mp none ⟨bit, inside⟩

/-- The bit of an element. -/
theorem getLsbD_twoPow_fin (one other : Fin w) :
    (BitVec.twoPow w one).getLsbD other = decide (other = one) := by
  simp [Fin.ext_iff, eq_comm]

/-- An element is added to the set. -/
theorem getLsbD_add (word : BitVec w) (one other : Fin w) :
    (word ||| BitVec.twoPow w one).getLsbD other =
      (word.getLsbD other || decide (other = one)) := by
  rw [BitVec.getLsbD_or, getLsbD_twoPow_fin]

/-- An element is dropped from the set. -/
theorem getLsbD_drop (word : BitVec w) (one other : Fin w) :
    (word &&& ~~~BitVec.twoPow w one).getLsbD other =
      (word.getLsbD other && !decide (other = one)) := by
  rw [BitVec.getLsbD_and, BitVec.getLsbD_not, getLsbD_twoPow_fin]
  simp

end Bitmap
