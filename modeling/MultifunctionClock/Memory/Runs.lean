import MultifunctionClock.Lib.Heap
import MultifunctionClock.Lib.Reach
import MultifunctionClock.Memory.Calls

/-!
The heap of the kernel under all its users.

Whatever the users do in turn, the blocks that they hold behave like those of an abstract heap,
where a block is written and freed by its owner only.
-/

namespace MultifunctionClock

open Tiling

/-- The heap, and what was handed out: who may use a block, and how many bytes of it. -/
structure HeapHost (ο : Type) where
  mem : SmallMem
  grants : ℕ → Option (ο × ℕ)

/-- What a user of the heap may do. -/
inductive HeapEvent (ο : Type) where
  | malloc (who : ο) (size : ℕ)
  | free (who : ο) (rmem : ℕ)
  -- Some bytes of a block are written, by its owner or by `rt_memset` and `rt_memcpy` in its calls.
  | write (who : ο) (rmem offset : ℕ) (data : Bytes)
  -- The part of `rt_realloc` under the semaphore. The rest of it consists of the other events.
  | resize (who : ο) (rmem newsize : ℕ)

/-- Who makes the call. -/
def HeapEvent.who {ο : Type} : HeapEvent ο → ο
  | .malloc who _ | .free who _ | .write who _ _ _ | .resize who _ _ => who

namespace HeapHost

variable {ο : Type}

/-- One event. There is no result when an assertion fails or a loop does not end. -/
def step (s : HeapHost ο) : HeapEvent ο → Option (HeapHost ο)
  | .malloc who size => do
    let (result, mem) ← s.mem.rtMalloc size
    match result with
    | none => return ⟨mem, s.grants⟩
    | some rmem => return ⟨mem, Function.update s.grants rmem (some (who, size))⟩
  | .free _ rmem => do
    let mem ← s.mem.rtFree (some rmem)
    return ⟨mem, Function.update s.grants rmem none⟩
  | .write _ rmem offset data => some ⟨s.mem.store (rmem + offset) data, s.grants⟩
  | .resize who rmem newsize => do
    let (resized, mem) ← s.mem.resize rmem (rtAlign newsize)
    match resized with
    | .done => return ⟨mem, Function.update s.grants rmem (some (who, newsize))⟩
    | .move _ => return ⟨mem, s.grants⟩

/-- A user holds a block for at least some bytes. -/
def Owns (s : HeapHost ο) (who : ο) (rmem size : ℕ) : Prop :=
  ∃ n, s.grants rmem = some (who, n) ∧ size ≤ n

instance [DecidableEq ο] (s : HeapHost ο) (who : ο) (rmem size : ℕ) :
    Decidable (s.Owns who rmem size) :=
  decidable_of_iff ((s.grants rmem).any fun grant => decide (grant.1 = who ∧ size ≤ grant.2)) <| by
    rw [Option.any_eq_true]
    constructor
    · intro ⟨⟨owner, n⟩, granted, holds⟩
      obtain ⟨rfl, le⟩ := of_decide_eq_true holds
      exact ⟨n, granted, le⟩
    · intro ⟨n, granted, le⟩
      exact ⟨(who, n), granted, decide_eq_true ⟨rfl, le⟩⟩

/--
What the users keep to.

They free, write and resize only what they hold, and write inside what they asked for.
No size is so large that it wraps when it is aligned.
A size of zero makes `rt_realloc` a call of `rt_free`, which is an event of its own.
-/
def Allowed (s : HeapHost ο) : HeapEvent ο → Prop
  | .malloc _ size => size ≤ 2 ^ 32 - 4
  | .free who rmem => s.Owns who rmem 0
  | .write who rmem offset data => s.Owns who rmem (offset + data.length)
  | .resize who rmem newsize => s.Owns who rmem 0 ∧ 0 < newsize ∧ newsize ≤ 2 ^ 32 - 4

instance [DecidableEq ο] (s : HeapHost ο) : DecidablePred s.Allowed
  | .malloc _ size => inferInstanceAs (Decidable (size ≤ 2 ^ 32 - 4))
  | .free who rmem => inferInstanceAs (Decidable (s.Owns who rmem 0))
  | .write who rmem offset data =>
    inferInstanceAs (Decidable (s.Owns who rmem (offset + data.length)))
  | .resize who rmem newsize =>
    inferInstanceAs (Decidable (s.Owns who rmem 0 ∧ 0 < newsize ∧ newsize ≤ 2 ^ 32 - 4))

/-- One allowed event happens. -/
def Step (s next : HeapHost ο) : Prop := ∃ event, s.Allowed event ∧ s.step event = some next

/-- A list of events in a row, each of them allowed. -/
def exec [DecidableEq ο] (s : HeapHost ο) (events : List (HeapEvent ο)) : Option (HeapHost ο) :=
  events.foldlM (fun s event => if s.Allowed event then s.step event else none) s

/-! ## The abstract heap -/

/-- What an event does to an abstract heap. -/
inductive Effect : HeapEvent ο → Heap ο → Heap ο → Prop
  -- There may be no room for a block.
  | refuse {who : ο} {size : ℕ} {heap : Heap ο} : Effect (.malloc who size) heap heap
  -- A new block has at least the bytes that were asked for.
  | malloc {who : ο} {size handle : ℕ} {bytes : Bytes} {heap : Heap ο}
      (unused : (heap handle).owner = none) (room : size ≤ bytes.length) :
      Effect (.malloc who size) heap (heap.alloc handle who bytes)
  | free {who : ο} {rmem : ℕ} {heap : Heap ο} (owned : (heap rmem).owner = some who) :
      Effect (.free who rmem) heap (heap.free rmem)
  -- The bytes that are written are inside the block.
  | write {who : ο} {rmem offset : ℕ} {data : Bytes} {heap : Heap ο}
      (owned : (heap rmem).owner = some who)
      (inside : offset + data.length ≤ (heap rmem).bytes.length) :
      Effect (.write who rmem offset data) heap
        (heap.write rmem (Bytes.store offset data (heap rmem).bytes))
  -- A block that is resized in place is kept, or cut to what is still asked for.
  | keep {who : ο} {rmem newsize : ℕ} {heap : Heap ο} : Effect (.resize who rmem newsize) heap heap
  | cut {who : ο} {rmem newsize size : ℕ} {heap : Heap ο} (owned : (heap rmem).owner = some who)
      (enough : newsize ≤ size) (less : size ≤ (heap rmem).bytes.length) :
      Effect (.resize who rmem newsize) heap (heap.write rmem ((heap rmem).bytes.take size))

/-- Every event is an act of its own user. -/
theorem Effect.act {event : HeapEvent ο} {heap heap' : Heap ο} (effect : Effect event heap heap') :
    Heap.Act event.who heap heap' := by
  cases effect with
  | refuse | keep => exact .idle
  | malloc unused _ => exact .alloc unused
  | free owned => exact .free owned
  | write owned _ | cut owned _ _ => exact .write owned

/--
The abstract heap has what the users hold.

A block has at least the bytes that were asked for,
and they are those of the memory behind its address.
-/
structure Shows (s : HeapHost ο) (heap : Heap ο) : Prop where
  held : ∀ rmem who n, s.grants rmem = some (who, n) →
    ∃ bytes, heap rmem = ⟨some who, bytes⟩ ∧ n ≤ bytes.length ∧
      bytes = s.mem.slice rmem bytes.length
  free : ∀ rmem, s.grants rmem = none → (heap rmem).owner = none

/-- The bytes of the heap, and what was handed out, stand for the blocks of an abstract heap. -/
structure Represents (s : HeapHost ο) (blocks : List Block) (heap : Heap ο) : Prop where
  sound : Sound s.mem blocks
  held : ∀ ptr m, (ptr, m) ∈ spans sizeofStructMem 0 blocks → ∃ who n,
    s.grants (ptr + sizeofStructMem) = some (who, n) ∧ n ≤ m ∧
      heap (ptr + sizeofStructMem) = ⟨some who, s.mem.slice (ptr + sizeofStructMem) m⟩
  placed : ∀ rmem grant, s.grants rmem = some grant →
    ∃ ptr m, rmem = ptr + sizeofStructMem ∧ (ptr, m) ∈ spans sizeofStructMem 0 blocks
  others : ∀ rmem, s.grants rmem = none → (heap rmem).owner = none

variable {s next : HeapHost ο} {blocks : List Block} {heap : Heap ο} {event : HeapEvent ο}

namespace Represents

/-- What was handed out is a used block of the abstract heap. -/
theorem block (represents : Represents s blocks heap) {rmem n : ℕ} {who : ο}
    (granted : s.grants rmem = some (who, n)) :
    ∃ ptr m, rmem = ptr + sizeofStructMem ∧ (ptr, m) ∈ spans sizeofStructMem 0 blocks ∧ n ≤ m ∧
      heap rmem = ⟨some who, s.mem.slice rmem m⟩ := by
  -- The address is that of a used block, which has one owner.
  obtain ⟨ptr, m, rfl, member⟩ := represents.placed rmem _ granted
  obtain ⟨owner, n', granted', le, cell⟩ := represents.held ptr m member
  rw [granted] at granted'
  obtain ⟨rfl, rfl⟩ := Prod.mk.inj (Option.some.inj granted')
  exact ⟨ptr, m, rfl, member, le, cell⟩

/-- The abstract heap has what the users hold. -/
theorem shows (represents : Represents s blocks heap) : Shows s heap where
  held rmem who n granted := by
    obtain ⟨ptr, m, rfl, member, le, cell⟩ := represents.block granted
    have length := represents.sound.length_slice member
    exact ⟨_, cell, by rw [length]; exact le, by rw [length]⟩
  free := represents.others

/-- One block was taken, freed or changed, in the bytes and in the abstract heap. -/
theorem swap {mem : SmallMem} {blocks' : List Block} {heap' : Heap ο}
    {old new : List (ℕ × ℕ)} {ptr : ℕ} {grant : Option (ο × ℕ)}
    (represents : Represents s blocks heap) (swapped : Swapped s.mem blocks mem blocks' old new)
    (olds : ∀ span ∈ old, span.1 = ptr) (fresh : (∃ k, old = [(ptr, k)]) ∨ ∃ m, new = [(ptr, m)])
    (same : ∀ rmem, rmem ≠ ptr + sizeofStructMem → heap' rmem = heap rmem)
    (there : (new = [] ∧ grant = none ∧ (heap' (ptr + sizeofStructMem)).owner = none) ∨
      ∃ m who n, new = [(ptr, m)] ∧ grant = some (who, n) ∧ n ≤ m ∧
        heap' (ptr + sizeofStructMem) = ⟨some who, mem.slice (ptr + sizeofStructMem) m⟩) :
    Represents ⟨mem, Function.update s.grants (ptr + sizeofStructMem) grant⟩ blocks' heap' := by
  -- Every address is that of the block in question, or one where nothing changes.
  obtain ⟨before, after, early, late, keeps⟩ := swapped.spans
  have elsewhere : ∀ span ∈ before ++ after, span.1 ≠ ptr := by
    rcases fresh with ⟨k, rfl⟩ | ⟨m, rfl⟩
    · exact ne_of_spans (by simp [sizeofStructMem]) early
    · exact ne_of_spans (by simp [sizeofStructMem]) late
  refine ⟨swapped.sound, fun p m member => ?_, fun rmem grant' granted => ?_,
    fun rmem none_granted => ?_⟩
  · rw [late] at member
    simp only [List.mem_append] at member
    by_cases changed : (p, m) ∈ new
    · rcases there with ⟨rfl, -, -⟩ | ⟨m', who, n, rfl, rfl, le, cell⟩
      · cases changed
      · obtain ⟨rfl, rfl⟩ := Prod.mk.inj (List.mem_singleton.mp changed)
        exact ⟨who, n, Function.update_self .., le, cell⟩
    · -- A block elsewhere stays as it is.
      have kept : (p, m) ∈ before ++ after := by
        rw [List.mem_append]
        tauto
      have apart : p + sizeofStructMem ≠ ptr + sizeofStructMem := fun same =>
        elsewhere _ kept (Nat.add_right_cancel same)
      obtain ⟨who, n, granted, le, cell⟩ := represents.held p m (by
        rw [early]
        simp only [List.mem_append] at kept ⊢
        tauto)
      refine ⟨who, n, ?_, le, ?_⟩
      · dsimp only
        rw [Function.update_of_ne apart]
        exact granted
      · dsimp only
        rw [same _ apart, cell, keeps (p, m) kept]
  · dsimp only at granted
    by_cases here : rmem = ptr + sizeofStructMem
    · subst here
      rw [Function.update_self] at granted
      rcases there with ⟨-, rfl, -⟩ | ⟨m, who, n, rfl, -, -, -⟩
      · cases granted
      · exact ⟨ptr, m, rfl, by rw [late]; simp⟩
    · rw [Function.update_of_ne here] at granted
      obtain ⟨p, m, rfl, member⟩ := represents.placed rmem grant' granted
      refine ⟨p, m, rfl, ?_⟩
      rw [early] at member
      rw [late]
      simp only [List.mem_append] at member ⊢
      rcases member with (member | member) | member
      · exact .inl (.inl member)
      · exact absurd (congrArg (· + sizeofStructMem) (olds _ member)) here
      · exact .inr member
  · dsimp only at none_granted
    by_cases here : rmem = ptr + sizeofStructMem
    · subst here
      rw [Function.update_self] at none_granted
      rcases there with ⟨-, -, unowned⟩ | ⟨m, who, n, -, rfl, -, -⟩
      · exact unowned
      · cases none_granted
    · rw [Function.update_of_ne here] at none_granted
      rw [same rmem here]
      exact represents.others rmem none_granted

end Represents

/-- What one event does in both heaps, which leaves what others hold. -/
structure Simulates (event : HeapEvent ο) (s : HeapHost ο) (heap : Heap ο) (next : HeapHost ο)
    (blocks' : List Block) (heap' : Heap ο) : Prop where
  represents : Represents next blocks' heap'
  effect : Effect event heap heap'
  capacity : next.mem.memSizeAligned = s.mem.memSizeAligned
  keeps : ∀ rmem who n, s.grants rmem = some (who, n) → who ≠ event.who →
    next.grants rmem = some (who, n)

namespace Represents

/-- `rt_malloc` gives nothing and changes nothing, or hands out a block that nobody holds. -/
theorem malloc (represents : Represents s blocks heap) (who : ο) {size : ℕ}
    (small : size ≤ 2 ^ 32 - 4) :
    ∃ next blocks' heap', s.step (.malloc who size) = some next ∧
      Simulates (.malloc who size) s heap next blocks' heap' := by
  -- A new block starts where no block was, so nobody holds it.
  rw [step]
  rcases represents.sound.rtMalloc
    size with ⟨result, -⟩ | ⟨ptr, mem, blocks', m, result, room, swapped⟩
  · rw [result]
    exact ⟨s, blocks, heap, rfl, represents, .refuse, rfl, fun _ _ _ granted _ => granted⟩
  · rw [result]
    have unheld : s.grants (ptr + sizeofStructMem) = none := by
      by_contra granted
      obtain ⟨grant, granted⟩ := Option.ne_none_iff_exists'.mp granted
      obtain ⟨p, k, same, member⟩ := represents.placed _ _ granted
      obtain ⟨before, after, early, late, -⟩ := swapped.spans
      refine ne_of_spans (by simp [sizeofStructMem]) late (p, k) ?_ (Nat.add_right_cancel same).symm
      rw [early] at member
      simpa using member
    have enough : size ≤ m := (le_rtAlign small).1.trans (by omega)
    obtain ⟨before, after, -, late, -⟩ := swapped.spans
    have length := swapped.sound.length_slice (show (ptr, m) ∈ _ by rw [late]; simp)
    refine ⟨_, blocks', heap.alloc (ptr + sizeofStructMem) who
      (mem.slice (ptr + sizeofStructMem) m), rfl, ?_, ?_, swapped.capacity,
      fun rmem owner n granted _ => ?_⟩
    · exact represents.swap swapped (by simp) (.inr ⟨m, rfl⟩)
        (fun rmem other => Heap.set_other heap other _)
        (.inr ⟨m, who, size, rfl, rfl, enough, Heap.set_same ..⟩)
    · exact .malloc (represents.others _ unheld) (by rw [length]; exact enough)
    · have other : rmem ≠ ptr + sizeofStructMem := fun same => by
        rw [same, unheld] at granted
        cases granted
      dsimp only
      rw [Function.update_of_ne other]
      exact granted

/-- `rt_free` takes back a block of its user. -/
theorem free (represents : Represents s blocks heap) {who : ο} {rmem : ℕ}
    (owns : s.Owns who rmem 0) :
    ∃ next blocks' heap', s.step (.free who rmem) = some next ∧
      Simulates (.free who rmem) s heap next blocks' heap' := by
  -- The block leaves both heaps.
  obtain ⟨n, granted, -⟩ := owns
  obtain ⟨ptr, m, rfl, member, -, cell⟩ := represents.block granted
  obtain ⟨mem, blocks', result, swapped⟩ := represents.sound.rtFree member
  rw [step, result]
  refine ⟨_, blocks', heap.free (ptr + sizeofStructMem), rfl, ?_, .free (by rw [cell]),
    swapped.capacity, fun other owner k granted' distinct => ?_⟩
  · exact represents.swap swapped (by simp) (.inl ⟨m, rfl⟩)
      (fun other distinct => Heap.set_other heap distinct _)
      (.inl ⟨rfl, rfl, by rw [Heap.free, Heap.set_same]⟩)
  · have elsewhere : other ≠ ptr + sizeofStructMem := fun same => by
      rw [same, granted] at granted'
      exact distinct (Prod.mk.inj (Option.some.inj granted')).1.symm
    dsimp only
    rw [Function.update_of_ne elsewhere]
    exact granted'

/-- What a user writes into its block is in it, and in no other. -/
theorem write (represents : Represents s blocks heap) {who : ο} {rmem offset : ℕ} {data : Bytes}
    (owns : s.Owns who rmem (offset + data.length)) :
    ∃ next blocks' heap', s.step (.write who rmem offset data) = some next ∧
      Simulates (.write who rmem offset data) s heap next blocks' heap' := by
  -- Other blocks lie apart from the bytes that are written.
  obtain ⟨n, granted, le⟩ := owns
  obtain ⟨ptr, m, rfl, member, le', cell⟩ := represents.block granted
  obtain ⟨sound, own, others⟩ := represents.sound.store member (le.trans le')
  have length := represents.sound.length_slice member
  refine ⟨_, blocks, heap.write (ptr + sizeofStructMem) (Bytes.store offset data
    (heap (ptr + sizeofStructMem)).bytes), rfl, ⟨sound, fun p k held => ?_, represents.placed,
      fun other free => ?_⟩, .write (by rw [cell]) ?_, rfl, fun _ _ _ granted _ => granted⟩
  · by_cases here : (p, k) = (ptr, m)
    · obtain ⟨rfl, rfl⟩ := Prod.mk.inj here
      refine ⟨who, n, granted, le', ?_⟩
      rw [Heap.write, Heap.set_same, cell, own]
    · have apart := spans_apart held member here
      dsimp only at apart
      have distinct : p + sizeofStructMem ≠ ptr + sizeofStructMem := by
        simp only [sizeofStructMem] at apart ⊢
        omega
      obtain ⟨owner, n', granted', le'', cell'⟩ := represents.held p k held
      refine ⟨owner, n', granted', le'', ?_⟩
      rw [Heap.write, Heap.set_other heap distinct, cell', others _ _ (by omega)]
  · rw [Heap.owner_write]
    exact represents.others other free
  · rw [cell]
    dsimp only
    rw [length]
    exact le.trans le'

/-- `rt_realloc` keeps a block where it is, with its first bytes, or changes nothing yet. -/
theorem resize (represents : Represents s blocks heap) {who : ο} {rmem newsize : ℕ}
    (owns : s.Owns who rmem 0) (positive : 0 < newsize) (small : newsize ≤ 2 ^ 32 - 4) :
    ∃ next blocks' heap', s.step (.resize who rmem newsize) = some next ∧
      Simulates (.resize who rmem newsize) s heap next blocks' heap' := by
  -- The owner stays the same, and the block keeps its address unless it has to be moved.
  obtain ⟨n, granted, -⟩ := owns
  obtain ⟨ptr, k, rfl, member, le, cell⟩ := represents.block granted
  obtain ⟨room, aligned⟩ := le_rtAlign small
  have elsewhere : ∀ other owner i, s.grants other = some (owner, i) → owner ≠ who →
      Function.update s.grants (ptr + sizeofStructMem) (some (who, newsize)) other =
          some (owner, i) := by
    intro other owner i granted' distinct
    rw [Function.update_of_ne]
    · exact granted'
    · intro same
      rw [same, granted] at granted'
      exact distinct (Prod.mk.inj (Option.some.inj granted')).1.symm
  rw [step]
  rcases represents.sound.resize member (show 0 < rtAlign newsize by omega) aligned with
    ⟨same, result⟩ | ⟨mem, blocks', result, less, swapped, slice⟩ | result
  · rw [result]
    obtain ⟨before, after, whole⟩ := List.append_of_mem member
    have swapped : Swapped s.mem blocks s.mem blocks [(ptr, k)] [(ptr, k)] :=
      ⟨represents.sound, rfl, before, after, by simp [whole], by simp [whole], fun _ _ => rfl⟩
    refine ⟨_, blocks, heap, rfl, ?_, .keep, rfl, elsewhere⟩
    exact represents.swap swapped (by simp) (.inl ⟨k, rfl⟩) (fun _ _ => rfl)
      (.inr ⟨k, who, newsize, rfl, rfl, by omega, cell⟩)
  · rw [result]
    have first : (s.mem.slice (ptr + sizeofStructMem) k).take (rtAlign newsize) =
        mem.slice (ptr + sizeofStructMem) (rtAlign newsize) := by
      rw [slice, SmallMem.slice, SmallMem.slice, List.take_take, min_eq_left less]
    have fits : rtAlign newsize ≤ (heap (ptr + sizeofStructMem)).bytes.length := by
      rw [cell]
      dsimp only
      rw [represents.sound.length_slice member]
      exact less
    refine ⟨_, blocks', heap.write (ptr + sizeofStructMem)
      ((heap (ptr + sizeofStructMem)).bytes.take (rtAlign newsize)), rfl, ?_,
      .cut (by rw [cell]) room fits, swapped.capacity, elsewhere⟩
    refine represents.swap swapped (by simp) (.inl ⟨k, rfl⟩)
      (fun other distinct => Heap.set_other heap distinct _)
      (.inr ⟨rtAlign newsize, who, newsize, rfl, rfl, room, ?_⟩)
    rw [Heap.write, Heap.set_same, cell, first]
  · rw [result]
    exact ⟨s, blocks, heap, rfl, represents, .keep, rfl, fun _ _ _ granted _ => granted⟩

/-- Every allowed event is handled, and does to the abstract heap what it should. -/
theorem simulate (represents : Represents s blocks heap) (allowed : s.Allowed event) :
    ∃ next blocks' heap', s.step event = some next ∧ Simulates event s heap next blocks' heap' := by
  -- There is one lemma for each kind of event.
  cases event with
  | malloc who size => exact represents.malloc who allowed
  | free who rmem => exact represents.free allowed
  | write who rmem offset data => exact represents.write allowed
  | resize who rmem newsize => exact represents.resize allowed.1 allowed.2.1 allowed.2.2

end Represents

/-! ## Runs -/

/-- What `rt_system_heap_init` makes of some memory, in which there is room for a block. -/
def Started (mem : SmallMem) : Prop :=
  ∃ beginAddr endAddr memory, endAddr < 2 ^ 32 ∧
    SmallMem.rtSystemHeapInit beginAddr endAddr memory = some mem ∧
    minSizeAligned ≤ mem.memSizeAligned ∧
    memory.length = mem.memSizeAligned + 2 * sizeofStructMem

/-- A heap of which nothing was handed out. -/
def fresh (mem : SmallMem) : HeapHost ο := ⟨mem, fun _ => none⟩

/-- The states of the heap, from `rt_system_heap_init` of some memory on. -/
def Reached (s : HeapHost ο) : Prop :=
  ∃ mem, Started mem ∧ Relation.ReflTransGen Step (fresh mem) s

/-- An abstract heap where nothing is allocated. -/
def emptyHeap : Heap ο := fun _ => ⟨none, []⟩

/-- A new heap stands for the abstract heap where nothing is allocated. -/
theorem represents_fresh {mem : SmallMem} (started : Started mem) :
    Represents (fresh mem : HeapHost ο) [⟨mem.memSizeAligned, false⟩] emptyHeap := by
  obtain ⟨beginAddr, endAddr, memory, small, done, least, length⟩ := started
  refine ⟨sound_init done small least length, ?_, ?_, ?_⟩
  · intro ptr m member
    simp at member
  · intro rmem grant granted
    cases granted
  · intro rmem _
    rfl

/-- Every state stands for an abstract heap. -/
theorem represents_of_reached (reached : Reached s) : ∃ blocks heap, Represents s blocks heap := by
  obtain ⟨mem, started, run⟩ := reached
  -- The induction follows the run, one event at a time.
  induction run with
  | refl => exact ⟨_, _, represents_fresh started⟩
  | tail _ step ih =>
    obtain ⟨event, allowed, taken⟩ := step
    obtain ⟨blocks, heap, represents⟩ := ih
    obtain ⟨next, blocks', heap', done, simulates⟩ := represents.simulate allowed
    obtain rfl := Option.some.inj (done.symm.trans taken)
    exact ⟨blocks', heap', simulates.represents⟩

/-- What the users hold starts inside the heap. -/
theorem lt_of_granted (reached : Reached s) {rmem n : ℕ} {who : ο}
    (granted : s.grants rmem = some (who, n)) :
    rmem < s.mem.heapEnd + 1 := by
  -- The block of the address lies inside the heap.
  obtain ⟨blocks, heap, represents⟩ := represents_of_reached reached
  obtain ⟨ptr, m, rfl, member, -, -⟩ := represents.block granted
  have bounds := (bounds_of_mem_spans member).2
  have total := represents.sound.laid.total
  dsimp only at bounds
  rw [SmallMem.heapEnd]
  omega

/-- A heap of 60 bytes after some events of two users. -/
def demo (events : List (HeapEvent Bool)) : Option (HeapHost Bool) :=
  (SmallMem.rtSystemHeapInit 0 84 (List.replicate 84 0)).bind fun mem => exec (fresh mem) events

/-- Such a heap is well started. -/
theorem started_demo {mem : SmallMem}
    (done : SmallMem.rtSystemHeapInit 0 84 (List.replicate 84 0) = some mem) : Started mem := by
  -- The size of the memory is computed.
  have size : (SmallMem.rtSystemHeapInit 0 84 (List.replicate 84 0)).map (·.memSizeAligned) =
      some 60 := by
    decide +kernel
  rw [done] at size
  have size : mem.memSizeAligned = 60 := Option.some.inj size
  refine ⟨0, 84, List.replicate 84 0, by norm_num, done, ?_, ?_⟩
  · simp [size, minSizeAligned]
  · simp [size, sizeofStructMem]

/-- Such a state can be reached. -/
theorem reached_demo {events : List (HeapEvent Bool)} {s : HeapHost Bool}
    (taken : demo events = some s) : Reached s := by
  obtain ⟨mem, done, taken⟩ := Option.bind_eq_some_iff.mp taken
  exact ⟨mem, started_demo done, Reach.reflTransGen_of_foldlM
    (fun _ _ event _ taken => ⟨event, Option.ite_none_right_eq_some.mp taken⟩) taken⟩

/-- Two users get a block each, and the second writes into its own. -/
def demoEvents : List (HeapEvent Bool) :=
  [.malloc true 8, .malloc false 12, .write false 36 0 [7, 8]]

/-- They hold their blocks. -/
theorem demo_grants :
    ∃ s, demo demoEvents = some s ∧ s.grants 12 = some (true, 8) ∧
      s.grants 36 = some (false, 12) := by
  -- The run is computed.
  have done : (demo demoEvents).map (fun s => (s.grants 12, s.grants 36)) =
      some (some (true, 8), some (false, 12)) := by
    decide +kernel
  obtain ⟨s, taken, view⟩ := Option.map_eq_some_iff.mp done
  exact ⟨s, taken, (Prod.mk.inj view).1, (Prod.mk.inj view).2⟩

/-- A run of the users, with all its events in their order. -/
inductive Run (start : HeapHost ο) : List (HeapEvent ο) → HeapHost ο → Prop
  | refl : Run start [] start
  | step {events : List (HeapEvent ο)} {s next : HeapHost ο} {event : HeapEvent ο} :
      Run start events s → s.Allowed event → s.step event = some next →
      Run start (events ++ [event]) next

/--
A run of the users, and one of an abstract heap beside it.

Both take the same events, and after each of them the abstract heap has what the users hold.
-/
inductive Lockstep (start : HeapHost ο) : List (HeapEvent ο) → HeapHost ο → Heap ο → Prop
  | refl : Lockstep start [] start emptyHeap
  | step {events : List (HeapEvent ο)} {s next : HeapHost ο} {heap heap' : Heap ο}
      {event : HeapEvent ο} :
      Lockstep start events s heap → s.step event = some next → Effect event heap heap' →
      Shows next heap' → Lockstep start (events ++ [event]) next heap'

/-- The abstract heap that a run leads to, beside it. -/
theorem lockstep_of_run {mem : SmallMem} (started : Started mem) {events : List (HeapEvent ο)}
    (run : Run (fresh mem) events s) :
    ∃ blocks heap, Represents s blocks heap ∧ Lockstep (fresh mem) events s heap := by
  -- The induction follows the run, and each event is simulated by itself.
  induction run with
  | refl => exact ⟨_, _, represents_fresh started, .refl⟩
  | step _ allowed taken ih =>
    obtain ⟨blocks, heap, represents, lockstep⟩ := ih
    obtain ⟨next, blocks', heap', done, simulates⟩ := represents.simulate allowed
    obtain rfl := Option.some.inj (done.symm.trans taken)
    exact ⟨blocks', heap', simulates.represents,
      lockstep.step taken simulates.effect simulates.represents.shows⟩

/--
The allocator refines a heap of owned blocks.

Beside every run there is one of an abstract heap that takes the same events: a block is allocated
where nobody has one, it is written and freed by its owner, and after each event every user holds
the bytes that the abstract heap has for it.
Whatever may happen next is handled in the same way,
so no assertion fails and no loop goes on for ever.
-/
theorem heap_refines {mem : SmallMem} (started : Started mem) {events : List (HeapEvent ο)}
    (run : Run (fresh mem) events s) :
    ∃ heap, Lockstep (fresh mem) events s heap ∧ Shows s heap ∧
      ∀ event, s.Allowed event → ∃ next heap', s.step event = some next ∧
        Effect event heap heap' ∧ Shows next heap' := by
  obtain ⟨blocks, heap, represents, lockstep⟩ := lockstep_of_run started run
  refine ⟨heap, lockstep, represents.shows, fun event allowed => ?_⟩
  obtain ⟨next, _, heap', done, simulates⟩ := represents.simulate allowed
  exact ⟨next, heap', done, simulates.effect, simulates.represents.shows⟩

/-- A list of events that can be executed is a run. -/
theorem run_of_exec [DecidableEq ο] {start middle : HeapHost ο} {before events : List (HeapEvent ο)}
    (early : Run start before middle) (taken : exec middle events = some s) :
    Run start (before ++ events) s := by
  -- The first event continues the run, and the rest of the list follows it.
  induction events generalizing middle before with
  | nil =>
    obtain rfl := Option.some.inj taken
    simpa using early
  | cons event rest ih =>
    rw [exec, List.foldlM_cons] at taken
    obtain ⟨next, first, later⟩ := Option.bind_eq_some_iff.mp taken
    obtain ⟨allowed, done⟩ := Option.ite_none_right_eq_some.mp first
    simpa using ih (early.step allowed done) later

/-- Two users get a block each, and the abstract heap has what the second writes into its own. -/
theorem heap_refines_demo : ∃ (s : HeapHost Bool) (mem : SmallMem) (heap : Heap Bool),
    Lockstep (fresh mem) demoEvents s heap ∧ s.grants 36 = some (false, 12) ∧
    ∃ bytes, heap 36 = ⟨some false, bytes⟩ ∧ 12 ≤ bytes.length ∧
      bytes = s.mem.slice 36 bytes.length := by
  obtain ⟨s, taken, -, second⟩ := demo_grants
  obtain ⟨mem, done, taken⟩ := Option.bind_eq_some_iff.mp taken
  obtain ⟨heap, lockstep, shows, -⟩ := heap_refines (started_demo done) (run_of_exec .refl taken)
  exact ⟨s, mem, heap, lockstep, second, shows.held 36 false 12 second⟩

/--
What is handed out is aligned, inside the heap and apart.

In every run, the bytes of different blocks do not meet,
nor does a block meet the header of another.
-/
theorem blocks_apart (reached : Reached s) {rmem n : ℕ} {who : ο}
    (granted : s.grants rmem = some (who, n)) :
    rmem % 4 = 0 ∧ sizeofStructMem ≤ rmem ∧ rmem + n ≤ s.mem.heapEnd ∧
      ∀ other owner k, s.grants other = some (owner, k) → other ≠ rmem →
        rmem + n + sizeofStructMem ≤ other ∨ other + k + sizeofStructMem ≤ rmem := by
  -- The used blocks of the heap lie apart, each with its header.
  obtain ⟨blocks, heap, represents⟩ := represents_of_reached reached
  obtain ⟨ptr, m, rfl, member, le, -⟩ := represents.block granted
  have bounds := (bounds_of_mem_spans member).2
  have total := represents.sound.laid.total
  dsimp only at bounds
  refine ⟨?_, by omega, by rw [SmallMem.heapEnd]; omega, fun other owner k granted' distinct => ?_⟩
  · obtain ⟨front, back, whole, place⟩ := exists_of_mem_spans member
    have start := width_mod front fun block here =>
      represents.sound.sizes block (by rw [whole]; simp [here])
    simp only [sizeofStructMem] at place start ⊢
    omega
  · obtain ⟨ptr', m', rfl, member', le', -⟩ := represents.block granted'
    have apart := spans_apart member member' fun same => distinct (by rw [(Prod.mk.inj same).1])
    dsimp only at apart
    omega

/-- The blocks of two users lie apart. -/
theorem blocks_apart_demo : ∃ s : HeapHost Bool, Reached s ∧ s.grants 12 = some (true, 8) ∧
    s.grants 36 = some (false, 12) ∧ 36 + 12 ≤ s.mem.heapEnd := by
  obtain ⟨s, taken, first, second⟩ := demo_grants
  have reached := reached_demo taken
  exact ⟨s, reached, first, second, (blocks_apart reached second).2.2.1⟩

/-- One allowed event of somebody else happens. -/
def StepOfOthers (who : ο) (s next : HeapHost ο) : Prop :=
  ∃ event : HeapEvent ο, event.who ≠ who ∧ s.Allowed event ∧ s.step event = some next

/-- Of a block that stays in the abstract heap, the bytes that were asked for stay. -/
theorem Represents.slice_eq {blocks' : List Block} {heap' : Heap ο}
    (represents : Represents s blocks heap) (represents' : Represents next blocks' heap')
    {rmem n : ℕ} {who : ο} (granted : s.grants rmem = some (who, n))
    (granted' : next.grants rmem = some (who, n)) (same : heap' rmem = heap rmem) :
    next.mem.slice rmem n = s.mem.slice rmem n := by
  -- Both blocks have at least the bytes that were asked for.
  obtain ⟨-, m, -, -, le, cell⟩ := represents.block granted
  obtain ⟨-, m', -, -, le', cell'⟩ := represents'.block granted'
  rw [cell, cell', Cell.mk.injEq] at same
  rw [← next.mem.take_slice le', ← s.mem.take_slice le, same.2]

/--
A block belongs to its owner.

From every state that can be reached, whatever the other users do, a block stays allocated, and the
bytes that were asked for stay as they are.
-/
theorem contents_kept (reached : Reached s) {rmem n : ℕ} {who : ο}
    (granted : s.grants rmem = some (who, n))
    (later : Relation.ReflTransGen (StepOfOthers who) s next) :
    next.grants rmem = some (who, n) ∧ next.mem.slice rmem n = s.mem.slice rmem n := by
  -- The invariant goes along, since the steps of the others are steps of the run.
  have all : (∃ blocks heap, Represents next blocks heap) ∧ next.grants rmem = some (who, n) ∧
      next.mem.slice rmem n = s.mem.slice rmem n := by
    induction later with
    | refl =>
      obtain ⟨blocks, heap, represents⟩ := represents_of_reached reached
      exact ⟨⟨blocks, heap, represents⟩, granted, rfl⟩
    | tail _ step ih =>
      obtain ⟨⟨blocks, heap, represents⟩, granted', slice⟩ := ih
      obtain ⟨event, other, allowed, taken⟩ := step
      obtain ⟨last, blocks', heap', done, simulates⟩ := represents.simulate allowed
      rw [taken] at done
      obtain rfl := Option.some.inj done
      have kept := simulates.keeps rmem who n granted' (Ne.symm other)
      obtain ⟨-, m, -, -, -, cell⟩ := represents.block granted'
      have same := simulates.effect.act.keeps (show (heap rmem).owner = some who by rw [cell])
        (Ne.symm other)
      exact ⟨⟨blocks', heap', simulates.represents⟩, kept,
        (represents.slice_eq simulates.represents granted' kept same).trans slice⟩
  exact all.2

/-- One user frees its block, and that of the other keeps its bytes. -/
theorem contents_kept_demo : ∃ s next : HeapHost Bool, Reached s ∧ s.grants 36 = some (false, 12) ∧
    Relation.ReflTransGen (StepOfOthers false) s next ∧ next.grants 12 = none ∧
    next.mem.slice 36 12 = s.mem.slice 36 12 := by
  obtain ⟨s, taken, -, second⟩ := demo_grants
  have done : ((demo demoEvents).bind fun s => exec s [.free true 12]).map (·.grants 12) =
      some none := by
    decide +kernel
  obtain ⟨next, freed, gone⟩ := Option.map_eq_some_iff.mp done
  rw [taken, Option.bind_some] at freed
  have later : Relation.ReflTransGen (StepOfOthers false) s next := by
    refine Reach.reflTransGen_of_foldlM (fun state after event member taken => ?_) freed
    obtain rfl := List.mem_singleton.mp member
    obtain ⟨allowed, done⟩ := Option.ite_none_right_eq_some.mp taken
    exact ⟨.free true 12, by simp [HeapEvent.who], allowed, done⟩
  exact ⟨s, next, reached_demo taken, second, later, gone,
    (contents_kept (reached_demo taken) second later).2⟩

/--
Nothing leaks, and nothing stays cut up.

In every run, when all blocks have been freed, the heap is one free block again, as it was at first,
and no memory counts as used.
-/
theorem all_freed (reached : Reached s) (free : ∀ rmem, s.grants rmem = none) :
    s.mem.usedMem = 0 ∧ s.mem.lfree = 0 ∧
      s.mem.header 0 = ⟨heapMagic, 0, s.mem.memSizeAligned + sizeofStructMem, 0⟩ := by
  -- All blocks are free and no two of them are neighbours, so there is one.
  obtain ⟨blocks, heap, represents⟩ := represents_of_reached reached
  have none_used : spans sizeofStructMem 0 blocks = [] := by
    apply List.eq_nil_iff_forall_not_mem.mpr
    intro span member
    obtain ⟨who, n, granted, -⟩ := represents.held span.1 span.2 member
    rw [free] at granted
    cases granted
  have total := represents.sound.laid.total
  have some_block : blocks ≠ [] := by
    intro empty
    rw [empty, width_nil] at total
    simp only [sizeofStructMem] at total
    omega
  obtain ⟨size, rfl⟩ :=
    represents.sound.plugged.eq_singleton (free_of_spans_eq_nil none_used) some_block
  have here := (show Laid s.mem ([] ++ [⟨size, false⟩]) from represents.sound.laid).header_eq
  refine ⟨represents.sound.counted.trans (by simp), represents.sound.lowest.trans (by simp), ?_⟩
  rw [width_nil] at here
  rw [width_cons, width_nil] at total
  rw [here]
  simp only [flagOf, lastStart, Bool.false_eq_true, if_false, HeapMem.mk.injEq, true_and, and_true]
  dsimp only at total
  omega

/-- Two users free their blocks, the first one first. -/
theorem all_freed_demo : ∃ s : HeapHost Bool, Reached s ∧
    demo (demoEvents ++ [.free true 12, .free false 36]) = some s ∧ s.mem.usedMem = 0 := by
  have done : (demo (demoEvents ++ [.free true 12, .free false 36])).map
      (fun s => (s.mem.heapEnd, (List.range 73).all fun rmem => (s.grants rmem).isNone)) =
          some (72, true) := by
    decide +kernel
  obtain ⟨s, taken, view⟩ := Option.map_eq_some_iff.mp done
  obtain ⟨heap_end, none_held⟩ := Prod.mk.inj view
  have reached := reached_demo taken
  refine ⟨s, reached, taken, (all_freed reached fun rmem => ?_).1⟩
  -- Nothing is held outside the heap, and inside it all addresses were looked at.
  by_contra held
  obtain ⟨⟨who, n⟩, granted⟩ := Option.ne_none_iff_exists'.mp held
  have inside := lt_of_granted reached granted
  rw [heap_end] at inside
  have unheld := List.all_eq_true.mp none_held rmem (List.mem_range.mpr inside)
  rw [granted] at unheld
  cases unheld

/-! ## Calls that are made of several events -/

/-- What is held besides one block keeps its bytes. -/
def Spares (s : HeapHost ο) (rmem : ℕ) (mem : SmallMem) : Prop :=
  ∀ other owner n, s.grants other = some (owner, n) → other ≠ rmem →
    mem.slice other n = s.mem.slice other n

/-- Where the bytes of all other blocks stay, those that were asked for stay. -/
theorem Represents.spares (represents : Represents s blocks heap) {ptr : ℕ} {mem : SmallMem}
    (kept : ∀ span ∈ spans sizeofStructMem 0 blocks, span.1 ≠ ptr →
      mem.slice (span.1 + sizeofStructMem) span.2 = s.mem.slice (span.1 + sizeofStructMem) span.2) :
    s.Spares (ptr + sizeofStructMem) mem := by
  intro other owner n granted distinct
  obtain ⟨p, m, rfl, member, le, -⟩ := represents.block granted
  have same := kept (p, m) member fun same => distinct (congrArg (· + sizeofStructMem) same)
  rw [← mem.take_slice le, same, s.mem.take_slice le]

end HeapHost
end MultifunctionClock
