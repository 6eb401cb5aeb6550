import Mathlib.Tactic

/-! Cyclic windows: what a ring of slots holds between a read position and a write position. -/

namespace Cyclic

variable {α : Type} [Inhabited α]

/-- The `count` slots from `start` on, wrapping at the end of the ring. -/
def window (slots : List α) (start count : ℕ) : List α :=
  (List.range count).map fun i => slots.getD ((start + i) % slots.length) default

/-- A window has as many entries as were asked for. -/
@[simp] theorem length_window (slots : List α) (start count : ℕ) :
    (window slots start count).length = count := by
  simp [window]

/-- Advancing a position with a test at the end is advancing modulo the size. -/
theorem advance_eq {position size : ℕ} (inside : position < size) :
    (if position + 1 ≥ size then 0 else position + 1) = (position + 1) % size := by
  -- Only the last position wraps.
  split
  · rw [show position + 1 = size by omega, Nat.mod_self]
  · rw [Nat.mod_eq_of_lt (by omega)]

/-- Distinct offsets inside one turn of the ring reach distinct slots. -/
theorem offset_ne (start : ℕ) {i j size : ℕ} (ordered : i < j) (inside : j < size) :
    (start + i) % size ≠ (start + j) % size := by
  -- Two offsets that meet differ by a whole turn, and less than one turn lies between them.
  intro same
  have cycle : (j - i) % size = 0 := by
    have := Nat.sub_mod_eq_zero_of_mod_eq same.symm
    rwa [show start + j - (start + i) = j - i by omega] at this
  rw [Nat.mod_eq_of_lt (by omega)] at cycle
  omega

/-- Writing the slot behind a window that is not full appends to it. -/
theorem window_push {slots : List α} {start count : ℕ} (room : count < slots.length) (value : α) :
    window (slots.set ((start + count) % slots.length) value) start (count + 1) =
      window slots start count ++ [value] := by
  have slot : (start + count) % slots.length < slots.length := Nat.mod_lt _ (by omega)
  simp only [window, List.range_succ, List.map_append, List.map_cons, List.map_nil, List.length_set]
  congr 1
  · -- The written slot lies behind the window, so no entry of it changes.
    apply List.map_congr_left
    intro i member
    have other := offset_ne start (List.mem_range.mp member) room
    rw [List.getD_eq_getElem?_getD, List.getElem?_set_ne other.symm, ← List.getD_eq_getElem?_getD]
  · simp [List.getD_eq_getElem?_getD, slot]

/-- A window that is not empty is its first slot and the window from the next position on. -/
theorem window_pop (slots : List α) (start count : ℕ) :
    window slots start (count + 1) =
      slots.getD (start % slots.length) default ::
        window slots ((start + 1) % slots.length) count := by
  -- Every entry behind the first is the same slot, counted from the next position.
  simp only [window, List.range_succ_eq_map, List.map_cons, Nat.add_zero, List.map_map]
  congr 1
  apply List.map_congr_left
  intro i _
  simp only [Function.comp, Nat.mod_add_mod]
  congr 2
  omega

end Cyclic
