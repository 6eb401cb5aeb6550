import Mathlib.Tactic

/-! A 32-bit counter that wraps, compared through the difference of two of its values. -/

namespace Wrapping

/-- The largest counter value halved, as the comparisons of the counter use it. -/
def half : BitVec 32 := 0x7FFFFFFF

/-- The counter a number of steps after some value. -/
def after (start : BitVec 32) (steps : ℕ) : BitVec 32 := start + BitVec.ofNat 32 steps

/-- No step leaves the counter. -/
@[simp] theorem after_zero (start : BitVec 32) : after start 0 = start := by simp [after]

/-- Steps add up. -/
theorem after_add (start : BitVec 32) (first second : ℕ) :
    after start (first + second) = after start first + BitVec.ofNat 32 second := by
  rw [after, after, BitVec.ofNat_add, BitVec.add_assoc]

/-- One more step is one more count. -/
theorem after_succ (start : BitVec 32) (steps : ℕ) :
    after start (steps + 1) = after start steps + 1 :=
  after_add start steps 1

/-- The difference of two counter values does not depend on where the counter started. -/
theorem after_sub_after (start : BitVec 32) (one other : ℕ) :
    after start one - after start other = BitVec.ofNat 32 one - BitVec.ofNat 32 other := by
  -- The common start cancels.
  unfold after
  bv_omega

/-- Within half the range, the difference tells whether one value has been reached by the other. -/
theorem reached_iff (start : BitVec 32) {now goal : ℕ} (ahead : goal ≤ now + 2147483649)
    (behind : now < goal + 2147483647) :
    after start now - after start goal < half ↔ goal ≤ now := by
  -- Seen as numbers, the difference is the distance or its complement to the full range.
  rw [after_sub_after, BitVec.lt_def, BitVec.toNat_sub, BitVec.toNat_ofNat, BitVec.toNat_ofNat]
  show _ < 2147483647 ↔ _
  omega

/-- Within half the range, the difference tells whether one value lies strictly behind the other. -/
theorem later_iff (start : BitVec 32) {one other : ℕ} (ahead : one < other + 2147483647)
    (behind : other ≤ one + 2147483649) :
    (after start one - after start other ≠ 0 ∧ after start one - after start other < half) ↔
      other < one := by
  -- A difference of zero is taken out of the comparison above.
  rw [reached_iff start behind ahead, after_sub_after]
  have equal : BitVec.ofNat 32 one - BitVec.ofNat 32 other = 0 ↔ one = other := by
    rw [← BitVec.toNat_inj, BitVec.toNat_sub, BitVec.toNat_ofNat, BitVec.toNat_ofNat]
    show _ = 0 ↔ _
    omega
  rw [ne_eq, equal]
  omega

end Wrapping
