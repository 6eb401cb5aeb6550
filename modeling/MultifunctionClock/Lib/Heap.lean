import MultifunctionClock.Lib.Bytes

/-! A heap of blocks that are reached by handles and belong to whoever allocated them. -/

/-- A block: its owner while it is allocated, and the bytes that stay in it when it is not. -/
structure Cell (ο : Type) where
  owner : Option ο
  bytes : Bytes

/-- A heap, as a map from handles to blocks. -/
abbrev Heap (ο : Type) := ℕ → Cell ο

namespace Heap

variable {ο : Type}

/-- The block of a handle is allocated. -/
def Live (heap : Heap ο) (handle : ℕ) : Prop := (heap handle).owner.isSome

instance (heap : Heap ο) (handle : ℕ) : Decidable (heap.Live handle) :=
  inferInstanceAs (Decidable ((heap handle).owner.isSome = true))

/-- A heap with one block replaced. -/
def set (heap : Heap ο) (handle : ℕ) (cell : Cell ο) : Heap ο :=
  fun other => if other = handle then cell else heap other

/-- Allocation of a handle, with the bytes that happen to be in the block. -/
def alloc (heap : Heap ο) (handle : ℕ) (owner : ο) (bytes : Bytes) : Heap ο :=
  heap.set handle ⟨some owner, bytes⟩

/-- Writing the bytes of a block. -/
def write (heap : Heap ο) (handle : ℕ) (bytes : Bytes) : Heap ο :=
  heap.set handle { heap handle with bytes := bytes }

/-- Freeing a block, whose bytes stay until the handle is allocated again. -/
def free (heap : Heap ο) (handle : ℕ) : Heap ο := heap.set handle { heap handle with owner := none }

/-- A replaced block is the new one. -/
@[simp] theorem set_same (heap : Heap ο) (handle : ℕ) (cell : Cell ο) :
    heap.set handle cell handle = cell :=
  if_pos rfl

/-- All other blocks stay as they were. -/
theorem set_other (heap : Heap ο) {handle other : ℕ} (distinct : other ≠ handle) (cell : Cell ο) :
    heap.set handle cell other = heap other := if_neg distinct

/-- Writing to a block keeps every owner. -/
@[simp] theorem owner_write (heap : Heap ο) (handle other : ℕ) (bytes : Bytes) :
    (heap.write handle bytes other).owner = (heap other).owner := by
  -- The written block keeps its owner, and every other block is kept whole.
  by_cases same : other = handle
  · rw [same, write, set_same]
  · rw [write, set_other heap same]

/-- Only finitely many blocks are allocated. -/
def Finite (heap : Heap ο) : Prop := ∃ bound, ∀ handle, bound ≤ handle → (heap handle).owner = none

/-- Some handle is left for another block. -/
theorem Finite.exists_free {heap : Heap ο} (finite : heap.Finite) :
    ∃ handle, (heap handle).owner = none := by
  -- The bound itself is not in use.
  obtain ⟨bound, free⟩ := finite
  exact ⟨bound, free bound (le_refl _)⟩

/-- Replacing one block leaves finitely many allocated. -/
theorem Finite.set {heap : Heap ο} (finite : heap.Finite) (handle : ℕ) (cell : Cell ο) :
    (heap.set handle cell).Finite := by
  -- A bound behind the replaced handle still works.
  obtain ⟨bound, free⟩ := finite
  refine ⟨max bound (handle + 1), fun other large => ?_⟩
  rw [set_other heap (by omega), free other (by omega)]

/--
What an owner may do in one step: allocate an unused handle, or write or free a block of its own.
-/
inductive Act (who : ο) (heap : Heap ο) : Heap ο → Prop
  -- Most steps do not touch the heap.
  | idle : Act who heap heap
  -- The allocator may hand out any handle that is not in use, with any bytes in it.
  | alloc {handle : ℕ} {bytes : Bytes} (unused : (heap handle).owner = none) :
      Act who heap (heap.alloc handle who bytes)
  -- Only the owner writes a block or frees it.
  | write {handle : ℕ} {bytes : Bytes} (owned : (heap handle).owner = some who) :
      Act who heap (heap.write handle bytes)
  | free {handle : ℕ} (owned : (heap handle).owner = some who) : Act who heap (heap.free handle)

/-- A step of one owner leaves the blocks of all others alone. -/
theorem Act.keeps {who owner : ο} {heap next : Heap ο} {handle : ℕ} (act : Act who heap next)
    (owned : (heap handle).owner = some owner) (other : owner ≠ who) :
    next handle = heap handle := by
  -- The handle that is allocated, written or freed has a different owner,
  -- so it is a different handle.
  cases act with
  | idle => rfl
  | alloc unused =>
    refine set_other heap ?_ _
    rintro rfl
    rw [owned] at unused
    cases unused
  | write own =>
    refine set_other heap ?_ _
    rintro rfl
    rw [owned] at own
    exact other (Option.some.inj own)
  | free own =>
    refine set_other heap ?_ _
    rintro rfl
    rw [owned] at own
    exact other (Option.some.inj own)

/-- One step leaves finitely many blocks allocated. -/
theorem Act.finite {who : ο} {heap next : Heap ο} (act : Act who heap next) (finite : heap.Finite) :
    next.Finite := by
  -- Each kind of step replaces one block at most.
  cases act with
  | idle => exact finite
  | alloc _ => exact finite.set _ _
  | write _ => exact finite.set _ _
  | free _ => exact finite.set _ _

end Heap
