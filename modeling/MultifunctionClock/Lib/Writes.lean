import MultifunctionClock.Lib.Bytes

/-! Sequences of writes to a memory, and the part of the memory that they stay inside. -/

namespace Bytes

/-- A write of some bytes from an offset on. -/
structure Write where
  offset : ℕ
  data : Bytes
deriving DecidableEq

/-- The memory after some writes, in their order. -/
def apply (writes : List Write) (memory : Bytes) : Bytes :=
  writes.foldl (fun memory write => store write.offset write.data memory) memory

/-- No byte from `size` on is written. -/
def Within (size : ℕ) (writes : List Write) : Prop :=
  ∀ write ∈ writes, write.offset + write.data.length ≤ size

instance (size : ℕ) (writes : List Write) : Decidable (Within size writes) :=
  inferInstanceAs (Decidable (∀ write ∈ writes, _))

/-- Writes in a row take effect one after the other. -/
theorem apply_append (first second : List Write) (memory : Bytes) :
    apply (first ++ second) memory = apply second (apply first memory) := List.foldl_append

/-- Writes of single bytes, one behind the other. -/
def bytewise (offset count : ℕ) (values : ℕ → UInt8) : List Write :=
  (List.range count).map fun i => ⟨offset + i, [values i]⟩

/-- Writes of single bytes in a row are one write. -/
theorem apply_bytewise {offset : ℕ} {memory : Bytes} (inside : offset ≤ memory.length) (count : ℕ)
    (values : ℕ → UInt8) :
    apply (bytewise offset count values) memory =
      store offset ((List.range count).map values) memory := by
  -- By induction on the count: the last byte goes right behind those already written.
  induction count with
  | zero => simp [bytewise, apply, store]
  | succ count ih =>
    have last : bytewise offset (count + 1) values =
        bytewise offset count values ++ [⟨offset + count, [values count]⟩] := by
      simp [bytewise, List.range_succ]
    rw [last, apply_append, ih, List.range_succ, List.map_append]
    exact store_store inside (by simp)

/-- Bytes in a row stay inside a block exactly when the last one does. -/
theorem within_bytewise_iff {size offset count : ℕ} {values : ℕ → UInt8} :
    Within size (bytewise offset count values) ↔ count = 0 ∨ offset + count ≤ size := by
  constructor
  · -- The last of the writes reaches furthest.
    intro within
    rcases Nat.eq_zero_or_pos count with none | some
    · exact .inl none
    · have last := within ⟨offset + (count - 1), [values (count - 1)]⟩
        (List.mem_map.mpr ⟨count - 1, by simp; omega, rfl⟩)
      simp only [List.length_singleton] at last
      omega
  · intro fits write member
    obtain ⟨i, below, rfl⟩ := List.mem_map.mp member
    have := List.mem_range.mp below
    simp only [List.length_singleton]
    omega

end Bytes
