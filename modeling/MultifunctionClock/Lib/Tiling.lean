import Mathlib.Data.List.Chain
import Mathlib.Data.List.TakeWhile
import Mathlib.Tactic

/-!
A region that is cut into blocks, each behind a header of the same width.

A block is used or free. Where a block starts is the width of what is in front of it.
-/

/-- A block: the bytes behind its header, and whether it is used. -/
structure Block where
  size : ℕ
  used : Bool
deriving DecidableEq

namespace Tiling

variable {H start m n : ℕ} {blocks front back : List Block} {block : Block} {u : Bool}
  {span : ℕ × ℕ}

/-! ## Widths -/

/-- The width of some blocks with their headers. -/
def width (H : ℕ) (blocks : List Block) : ℕ := (blocks.map fun block => H + block.size).sum

/-- No block takes no room. -/
@[simp] theorem width_nil : width H [] = 0 := rfl

/-- A block takes room for its header and its bytes. -/
@[simp] theorem width_cons : width H (block :: back) = H + block.size + width H back := rfl

/-- Parts take room one after the other. -/
@[simp] theorem width_append : width H (front ++ back) = width H front + width H back := by
  simp [width]

/-! ## Where the used blocks are -/

/-- Where the used blocks start and what size they have, from the low ones to the high ones. -/
def spans (H : ℕ) : ℕ → List Block → List (ℕ × ℕ)
  | _, [] => []
  | start, block :: rest =>
    (if block.used then [(start, block.size)] else []) ++ spans H (start + H + block.size) rest

/-- Of no blocks none is used. -/
@[simp] theorem spans_nil : spans H start [] = [] := rfl

/-- The first block counts when it is used, and the rest starts behind it. -/
@[simp] theorem spans_cons : spans H start (block :: back) =
    (if block.used then [(start, block.size)] else []) ++ spans H (start + H + block.size) back :=
  rfl

/-- The second part starts where the first one ends. -/
@[simp] theorem spans_append :
    spans H start (front ++ back) = spans H start front ++
      spans H (start + width H front) back := by
  -- What is in front only moves the start of the rest.
  induction front generalizing start with
  | nil => simp
  | cons block front ih =>
    rw [List.cons_append, spans_cons, spans_cons, ih, List.append_assoc, width_cons]
    simp only [Nat.add_assoc]

/-- Used blocks lie in the region. -/
theorem bounds_of_mem_spans (member : span ∈ spans H start blocks) :
    start ≤ span.1 ∧ span.1 + H + span.2 ≤ start + width H blocks := by
  -- A used block is the first one, or lies in the rest, which starts behind the first.
  induction blocks generalizing start with
  | nil => cases member
  | cons block rest ih =>
    rw [width_cons]
    rcases List.mem_append.mp member with here | later
    · split at here
      · obtain rfl := List.mem_singleton.mp here
        dsimp only
        omega
      · cases here
    · have := ih later
      omega

/-- Used blocks lie apart, the low ones first. -/
theorem pairwise_spans (start : ℕ) (blocks : List Block) :
    (spans H start blocks).Pairwise fun one other => one.1 + H + one.2 ≤ other.1 := by
  -- Every block lies in front of the rest of the region.
  induction blocks generalizing start with
  | nil => exact List.Pairwise.nil
  | cons block rest ih =>
    refine List.pairwise_append.mpr ⟨?_, ih _, fun one here other later => ?_⟩
    · split
      · exact List.pairwise_singleton _ _
      · exact List.Pairwise.nil
    · split at here
      · obtain rfl := List.mem_singleton.mp here
        exact (bounds_of_mem_spans later).1
      · cases here

/-- Different used blocks lie apart. -/
theorem spans_apart {one other : ℕ × ℕ} (here : one ∈ spans H start blocks)
    (there : other ∈ spans H start blocks) (distinct : one ≠ other) : one.1 + H + one.2 ≤ other.1 ∨
      other.1 + H + other.2 ≤ one.1 := by
  -- One of the two comes first in the list, which is in order.
  have apart : (spans H start blocks).Pairwise fun one other =>
      one.1 + H + one.2 ≤ other.1 ∨ other.1 + H + other.2 ≤ one.1 :=
    (pairwise_spans start blocks).imp fun before => .inl before
  have symmetric : Std.Symm fun one other : ℕ × ℕ => one.1 + H + one.2 ≤ other.1 ∨
    other.1 + H + other.2 ≤ one.1 :=
    ⟨fun _ _ => Or.symm⟩
  exact apart.forall here there distinct

/-- Around one used block the others start elsewhere. -/
theorem ne_of_spans {before after : List (ℕ × ℕ)} {place size : ℕ} (positive : 0 < H)
    (whole : spans H start blocks = before ++ [(place, size)] ++ after) : ∀ span ∈ before ++ after,
      span.1 ≠ place := by
  -- Blocks in front end before it, and blocks behind start after its end.
  have pairs := pairwise_spans (H := H) start blocks
  rw [whole, List.append_assoc, List.singleton_append, List.pairwise_append,
    List.pairwise_cons] at pairs
  obtain ⟨-, ⟨later, -⟩, earlier⟩ := pairs
  intro span member
  rcases List.mem_append.mp member with early | late
  · have := earlier span early (place, size) (by simp)
    dsimp only at this
    omega
  · have := later span late
    dsimp only at this
    omega

/-- A used block has its place among the others. -/
theorem exists_of_mem_spans (member : span ∈ spans H start blocks) :
    ∃ front back, blocks = front ++ ⟨span.2, true⟩ :: back ∧ start + width H front = span.1 := by
  -- The block is the first one, or has its place in the rest.
  induction blocks generalizing start with
  | nil => cases member
  | cons block rest ih =>
    rcases List.mem_append.mp member with here | later
    · split at here
      · rename_i used
        obtain rfl := List.mem_singleton.mp here
        exact ⟨[], rest, by rw [List.nil_append, ← used], rfl⟩
      · cases here
    · obtain ⟨front, back, rfl, place⟩ := ih later
      refine ⟨block :: front, back, rfl, ?_⟩
      rw [width_cons, ← place]
      omega

/-- Without spans all blocks are free. -/
theorem free_of_spans_eq_nil (none_used : spans H start blocks = []) : ∀ block ∈ blocks,
    block.used = false := by
  -- A used first block would be in the list.
  induction blocks generalizing start with
  | nil => simp
  | cons block rest ih =>
    rw [spans_cons, List.append_eq_nil_iff] at none_used
    intro other member
    rcases List.mem_cons.mp member with rfl | member
    · by_contra used
      rw [Bool.not_eq_false] at used
      simp [used] at none_used
    · exact ih none_used.2 other member

/-! ## What is used -/

/-- The width of the used blocks. -/
def used (H : ℕ) (blocks : List Block) : ℕ := width H (blocks.filter (·.used))

/-- No block uses no memory. -/
@[simp] theorem used_nil : used H [] = 0 := rfl

/-- A used block counts with its header. -/
@[simp] theorem used_cons :
    used H (block :: back) = (if block.used then H + block.size else 0) + used H back := by
  rw [used, List.filter_cons]
  split <;> simp [used]

/-- The used memory of two parts adds up. -/
@[simp] theorem used_append : used H (front ++ back) = used H front + used H back := by
  simp [used]

/-! ## The lowest free block -/

/-- Where the first free block starts, or the end of the region. -/
def lowest (H : ℕ) (blocks : List Block) : ℕ := width H (blocks.takeWhile (·.used))

/-- Without blocks the walk does not start. -/
@[simp] theorem lowest_nil : lowest H [] = 0 := rfl

/-- The walk stops at a free block, and passes a used one. -/
@[simp] theorem lowest_cons :
    lowest H (block :: back) = if block.used then H + block.size + lowest H back else 0 := by
  rw [lowest, List.takeWhile_cons]
  split <;> simp [lowest]

/-- Behind used blocks only, the lowest free block is that of the rest. -/
theorem lowest_append_of_used (all : ∀ block ∈ front, block.used = true) (back : List Block) :
    lowest H (front ++ back) = width H front + lowest H back := by
  rw [lowest, List.takeWhile_append_of_pos (by simpa using all), width_append]
  rfl

/-- Behind a free block, the lowest free block does not depend on the rest. -/
theorem lowest_append_of_free (free : ∃ block ∈ front, block.used = false) (back : List Block) :
    lowest H (front ++ back) = lowest H front := by
  -- The walk stops at that free block at the latest.
  induction front with
  | nil => simp at free
  | cons first front ih =>
    rw [List.cons_append, lowest_cons, lowest_cons]
    split
    · rename_i taken
      obtain ⟨block, member, free⟩ := free
      rcases List.mem_cons.mp member with rfl | member
      · rw [taken] at free
        cases free
      · rw [ih ⟨block, member, free⟩]
    · rfl

/-- The lowest free block lies in the region. -/
theorem lowest_le (blocks : List Block) : lowest H blocks ≤ width H blocks := by
  -- Each block that is passed takes its width.
  induction blocks with
  | nil => simp
  | cons block back ih =>
    rw [lowest_cons, width_cons]
    split <;> omega

/-- In front of a free block there is nothing lower. -/
theorem lowest_le_of_free (free : block.used = false) :
    lowest H (front ++ block :: back) ≤ width H front := by
  -- Either all in front is used and this is the lowest, or a lower one lies in front.
  by_cases all : ∀ block ∈ front, block.used = true
  · rw [lowest_append_of_used all]
    simp [free]
  · push Not at all
    rw [lowest_append_of_free (by simpa using all)]
    exact lowest_le front

/-- The lowest free block is there when all in front of it is used. -/
theorem lowest_eq_iff (positive : 0 < H) (free : block.used = false) :
    lowest H (front ++ block :: back) = width H front ↔ ∀ block ∈ front, block.used = true := by
  constructor
  · -- A free block further in front would be lower.
    intro here other member
    by_contra unused
    rw [Bool.not_eq_true] at unused
    obtain ⟨early, late, rfl⟩ := List.append_of_mem member
    rw [List.append_assoc, List.cons_append] at here
    have lower : lowest H (early ++ other :: (late ++ block :: back)) ≤ width H early :=
      lowest_le_of_free unused
    rw [here, width_append, width_cons] at lower
    omega
  · intro all
    rw [lowest_append_of_used all, lowest_cons, free]
    simp

/-- When a block is freed, it is the lowest unless there is a lower one. -/
theorem lowest_free : lowest H (front ++ ⟨n, false⟩ :: back) =
    min (width H front) (lowest H (front ++ ⟨n, true⟩ :: back)) := by
  -- With a free block in front nothing changes,
  -- and otherwise the freed block is the first free one.
  by_cases all : ∀ block ∈ front, block.used = true
  · rw [lowest_append_of_used all, lowest_append_of_used all]
    simp
  · push Not at all
    rw [lowest_append_of_free (by simpa using all), lowest_append_of_free (by simpa using all)]
    have := lowest_le (H := H) front
    omega

/-- A used block may be seen as two. -/
theorem lowest_split : lowest H (front ++ ⟨m + H + n, true⟩ :: back) =
    lowest H (front ++ ⟨m, true⟩ :: ⟨n, true⟩ :: back) := by
  -- Both ways the walk passes the same width.
  by_cases all : ∀ block ∈ front, block.used = true
  · simp [lowest_append_of_used all, Nat.add_assoc]
  · push Not at all
    rw [lowest_append_of_free (by simpa using all), lowest_append_of_free (by simpa using all)]

/-- When a block behind the lowest free one changes, that stays. -/
theorem lowest_congr {rest : List Block}
    (elsewhere : lowest H (front ++ block :: back) ≠ width H front) (free : block.used = false) :
    lowest H (front ++ rest) = lowest H (front ++ block :: back) := by
  -- Some block in front is free, since otherwise the lowest would be here.
  by_cases all : ∀ block ∈ front, block.used = true
  · rw [lowest_append_of_used all, lowest_cons, free] at elsewhere
    simp at elsewhere
  · push Not at all
    rw [lowest_append_of_free (by simpa using all), lowest_append_of_free (by simpa using all)]

/-- No free block starts in front of the lowest. -/
theorem exists_lowest (H : ℕ) (blocks : List Block) :
    ∃ front back, blocks = front ++ back ∧ width H front = lowest H blocks ∧
      ∀ front' n back', blocks = front' ++ ⟨n, false⟩ :: back' → ∃ mid,
        back = mid ++ ⟨n, false⟩ :: back' := by
  -- The used blocks at the start are passed, and a free block is not among them.
  refine ⟨_, _, (List.takeWhile_append_dropWhile (p := (·.used))).symm, rfl,
    fun front' n back' cut => ?_⟩
  rw [← List.takeWhile_append_dropWhile (p := (·.used)) (l := blocks)] at cut
  rcases List.append_eq_append_iff.mp cut with ⟨mid, -, rest⟩ | ⟨mid, early, rest⟩
  · exact ⟨mid, rest⟩
  · cases mid with
    | nil => exact ⟨[], by simpa using rest.symm⟩
    | cons first mid =>
      obtain ⟨rfl, -⟩ := List.cons.inj rest
      have used := List.mem_takeWhile_imp (p := (·.used)) (l := blocks) (x := ⟨n, false⟩)
        (by rw [early]; simp)
      cases used

/-! ## Free blocks in a row -/

/-- There are no two free blocks in a row. -/
def Plugged (blocks : List Block) : Prop := blocks.IsChain fun one other => one.used = true ∨
    other.used = true

/-- When all is free and no two free blocks are in a row, there is one block. -/
theorem Plugged.eq_singleton (plugged : Plugged blocks)
    (free : ∀ block ∈ blocks, block.used = false) (some_block : blocks ≠ []) :
    ∃ size, blocks = [⟨size, false⟩] := by
  -- A second block would be free next to a free one.
  match blocks with
  | [] => exact absurd rfl some_block
  | [⟨size, used⟩] =>
    have free : used = false := free ⟨size, used⟩ (by simp)
    exact ⟨size, by rw [free]⟩
  | one :: other :: rest =>
    have either := (List.isChain_cons_cons.mp plugged).1
    simp [free] at either

/-- Around a used block the parts can be looked at on their own. -/
theorem plugged_append_cons (used : block.used = true) :
    Plugged (front ++ block :: back) ↔ Plugged front ∧ Plugged back := by
  -- The used block is the neighbour on both sides.
  have left : Plugged (front ++ [block]) ↔ Plugged front := by
    rw [Plugged, List.isChain_append]
    simp [Plugged, used]
  have right : Plugged (block :: back) ↔ Plugged back := by
    cases back <;> simp [Plugged, used]
  rw [Plugged, List.isChain_split]
  exact and_congr left right

/-- The parts around a block have no two free blocks in a row when the whole has not. -/
theorem Plugged.parts (plugged : Plugged (front ++ block :: back)) :
    Plugged front ∧ Plugged (block :: back) :=
  ⟨List.IsChain.left_of_append plugged, List.IsChain.right_of_append plugged⟩

/-- The sizes do not matter for that. -/
theorem plugged_iff : Plugged blocks ↔ (blocks.map (·.used)).IsChain fun one other => one = true ∨
    other = true := by
  rw [List.isChain_map, Plugged]

/-- Parts that end and start with a free block can share it. -/
theorem Plugged.share (early : Plugged (front ++ [⟨m, false⟩]))
    (late : Plugged (⟨n, false⟩ :: back)) (size : ℕ) :
    Plugged (front ++ ⟨size, false⟩ :: back) := by
  -- Only whether the blocks are used matters, and there the two are the same.
  rw [plugged_iff, List.map_append, List.map_cons] at *
  exact List.isChain_split.mpr ⟨early, late⟩

/-- Two free blocks in a row become one, which changes nothing for the used blocks. -/
theorem spans_join : spans H start (front ++ ⟨m + H + n, false⟩ :: back) =
    spans H start (front ++ ⟨m, false⟩ :: ⟨n, false⟩ :: back) := by
  simp [Nat.add_assoc]

/-- Joining free blocks changes nothing for the used memory. -/
theorem used_join : used H (front ++ ⟨m + H + n, false⟩ :: back) =
    used H (front ++ ⟨m, false⟩ :: ⟨n, false⟩ :: back) := by
  simp

/-- Joining free blocks leaves the lowest of them where it is. -/
theorem lowest_join : lowest H (front ++ ⟨m + H + n, false⟩ :: back) =
    lowest H (front ++ ⟨m, false⟩ :: ⟨n, false⟩ :: back) := by
  -- The first of the two free blocks is where the walk stops.
  by_cases all : ∀ block ∈ front, block.used = true
  · simp [lowest_append_of_used all]
  · push Not at all
    rw [lowest_append_of_free (by simpa using all), lowest_append_of_free (by simpa using all)]

end Tiling
