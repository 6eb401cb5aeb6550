import Mathlib.Tactic

/-! Memories as functions of the address, and the effect of writing a list of cells into one. -/

namespace Overlay

variable {β : Type}

/-- The memory after `data` was written from the address `base` on. -/
def overlay (mem : ℕ → β) (base : ℕ) (data : List β) : ℕ → β := fun address =>
  if base ≤ address then (data[address - base]?).getD (mem address) else mem address

/-- Writing nothing changes nothing. -/
@[simp] theorem overlay_nil (mem : ℕ → β) (base : ℕ) : overlay mem base [] = mem := by
  funext address
  simp [overlay]

/-- Writing a list is writing its first cell and then the rest behind it. -/
theorem overlay_cons (mem : ℕ → β) (base : ℕ) (cell : β) (rest : List β) :
    overlay (Function.update mem base cell) (base + 1) rest = overlay mem base (cell :: rest) := by
  funext address
  rcases lt_trichotomy address base with before | rfl | behind
  · simp [overlay, Function.update_of_ne before.ne, show ¬base + 1 ≤ address by omega,
      show ¬base ≤ address by omega]
  · simp [overlay]
  · -- Behind the first cell, the position in the rest is one less.
    obtain ⟨step, rfl⟩ : ∃ step, address = base + 1 + step := ⟨address - (base + 1), by omega⟩
    simp [overlay, Function.update_of_ne behind.ne',
      show base + 1 + step - base = step + 1 by omega,
      show base ≤ base + 1 + step by omega]

/-- Two lists, the second written right behind the first, are one list. -/
theorem overlay_append (mem : ℕ → β) (base : ℕ) (first second : List β) :
    overlay (overlay mem base first) (base + first.length) second =
      overlay mem base (first ++ second) := by
  -- The cells of the first list are written one by one.
  induction first generalizing mem base with
  | nil => simp
  | cons cell first ih =>
    rw [List.cons_append, ← overlay_cons, ← overlay_cons, ← ih, List.length_cons]
    congr 1
    omega

/-- What was written is read back from where it was written. -/
theorem map_range_overlay (mem : ℕ → β) (base : ℕ) (data : List β) :
    ((List.range data.length).map fun i => overlay mem base data (base + i)) = data := by
  -- Position by position, the address lies inside what was written.
  apply List.ext_getElem
  · simp
  · intro i _ below
    simp [overlay, List.getElem?_eq_getElem below]

/-- Each address holds the cell that was written to it, or what it held before. -/
theorem overlay_zero_apply (mem : ℕ → β) (data : List β) (address : ℕ) :
    overlay mem 0 data address = (data[address]?).getD (mem address) := by
  simp [overlay]

end Overlay
