import MultifunctionClock.Memory.Parts

/-!
What each call of the heap does to its blocks.

Every call keeps the same invariant, and the bytes of all blocks that it is not about.
-/

namespace MultifunctionClock

open Tiling

/--
The heap is in order.

Sizes are aligned and no block is empty, no two free blocks are in a row,
and the variables say what they should.
-/
structure Sound (s : SmallMem) (blocks : List Block) : Prop where
  laid : Laid s blocks
  least : minSizeAligned ≤ s.memSizeAligned
  sizes : ∀ block ∈ blocks, 0 < block.size ∧ block.size % 4 = 0
  plugged : Plugged blocks
  lowest : s.lfree = Tiling.lowest sizeofStructMem blocks
  counted : s.usedMem = Tiling.used sizeofStructMem blocks
  top : s.usedMem ≤ s.maxMem

variable {s next : SmallMem} {blocks front back : List Block} {block : Block}
  {size n m k fuel : ℕ} {u : Bool}

/-- After `rt_system_heap_init` there is one free block, of all the memory that was given. -/
theorem sound_init {beginAddr endAddr : ℕ} {memory : Bytes}
    (done : SmallMem.rtSystemHeapInit beginAddr endAddr memory = some s) (small : endAddr < 2 ^ 32)
    (least : minSizeAligned ≤ s.memSizeAligned)
    (length : memory.length = s.memSizeAligned + 2 * sizeofStructMem) :
    Sound s [⟨s.memSizeAligned, false⟩] := by
  -- Two headers are written, one at each end.
  unfold SmallMem.rtSystemHeapInit at done
  dsimp only at done
  split at done
  · rename_i room
    have same := Option.some.inj done
    obtain ⟨size, size_eq⟩ : ∃ size, endAddr / 4 * 4 - rtAlign beginAddr - 2 * sizeofStructMem =
      size := ⟨_, rfl⟩
    rw [size_eq] at same
    subst same
    simp only [SmallMem.memSizeAligned_setHeader] at least length ⊢
    have bound : size + 2 * sizeofStructMem < 2 ^ 32 := by
      simp only [sizeofStructMem] at *
      omega
    have aligned : size % 4 = 0 := by
      rw [rtAlign] at size_eq
      simp only [sizeofStructMem] at *
      omega
    -- The header of the stub is written behind that of the block.
    have length' : (⟨memory, size, 0, 0, 0⟩ : SmallMem).memory.length =
      size + 2 * sizeofStructMem := length
    have inside : 0 + sizeofStructMem ≤
      (⟨memory, size, 0, 0, 0⟩ : SmallMem).memory.length := by omega
    have fits : HeapMem.Fits ⟨heapMagic, 0, size + sizeofStructMem, 0⟩ :=
      fits_block false (by omega) (by omega)
    have fits' : HeapMem.Fits ⟨heapMagic, 1, size + sizeofStructMem, size + sizeofStructMem⟩ :=
      fits_block true (by omega) (by omega)
    have first := SmallMem.header_setHeader_self inside fits
    have inside' : size + sizeofStructMem + sizeofStructMem ≤
      ((⟨memory, size, 0, 0, 0⟩ : SmallMem).setHeader 0
        ⟨heapMagic, 0, size + sizeofStructMem, 0⟩).memory.length := by
      rw [SmallMem.length_setHeader inside]
      omega
    have second := SmallMem.header_setHeader_self inside' fits'
    refine ⟨⟨?_, bound, ⟨?_, trivial⟩, ?_, ?_⟩, least, ?_, List.isChain_singleton _, ?_, ?_, ?_⟩
    · rw [SmallMem.length_setHeader inside', SmallMem.length_setHeader inside]
      exact length
    · rw [SmallMem.header_setHeader_of_apart inside' (.inl (by omega)), first]
      simp only [flagOf, Bool.false_eq_true, if_false, HeapMem.mk.injEq, true_and, and_true]
      omega
    · simp only [width_cons, width_nil, SmallMem.memSizeAligned_setHeader]
      omega
    · rw [SmallMem.heapEnd_setHeader, SmallMem.heapEnd_setHeader, SmallMem.heapEnd]
      dsimp only
      rw [second]
    · intro block member
      obtain rfl := List.mem_singleton.mp member
      simp only [minSizeAligned] at least
      dsimp only
      omega
    · simp
    · simp
    · simp
  · cases done

/-- A used block has all its bytes. -/
theorem Sound.length_slice (sound : Sound s blocks) {ptr : ℕ}
    (member : (ptr, m) ∈ spans sizeofStructMem 0 blocks) :
    (s.slice (ptr + sizeofStructMem) m).length = m := by
  have inside := (bounds_of_mem_spans member).2
  have total := sound.laid.total
  have length := sound.laid.length
  dsimp only at inside
  rw [SmallMem.slice, List.length_take, List.length_drop]
  omega

/--
Some used blocks at one place were replaced by others, and the heap is in order.

The bytes of all other blocks stay.
-/
structure Swapped (s : SmallMem) (blocks : List Block) (next : SmallMem) (blocks' : List Block)
    (old new : List (ℕ × ℕ)) : Prop where
  sound : Sound next blocks'
  capacity : next.memSizeAligned = s.memSizeAligned
  spans : ∃ before after, Tiling.spans sizeofStructMem 0 blocks = before ++ old ++ after ∧
    Tiling.spans sizeofStructMem 0 blocks' = before ++ new ++ after ∧ Keeps s next (before ++ after)

/-- The blocks that were not replaced are still there, with their bytes. -/
theorem Swapped.kept {blocks' : List Block} {old new : List (ℕ × ℕ)}
    (swapped : Swapped s blocks next blocks' old new)
    {span : ℕ × ℕ} (member : span ∈ Tiling.spans sizeofStructMem 0 blocks) (stays : span ∉ old) :
    span ∈ Tiling.spans sizeofStructMem 0 blocks' ∧
      next.slice (span.1 + sizeofStructMem) span.2 = s.slice (span.1 + sizeofStructMem) span.2 := by
  -- The block is in front of the place or behind it.
  obtain ⟨before, after, early, late, keeps⟩ := swapped.spans
  rw [early] at member
  rw [late]
  simp only [List.mem_append] at member ⊢
  exact ⟨by tauto, keeps span (by rw [List.mem_append]; tauto)⟩

/--
Nothing of a size can be had: each free block is too small,
or is the last one and has just that size.
-/
def Refused (blocks : List Block) (size : ℕ) : Prop :=
  ∀ front n back, blocks = front ++ ⟨n, false⟩ :: back → n < size ∨ (n = size ∧ back = [])

namespace Sound

/-- After a free block was taken, the lowest free block is found again. -/
theorem lowest_take (sound : Sound s (front ++ ⟨k, false⟩ :: back)) {taken : SmallMem}
    {rest : List Block} (laid : Laid taken (front ++ ⟨m, true⟩ :: rest))
    (same : taken.lfree = s.lfree) :
    taken.lowestFree (width sizeofStructMem front) =
      some (Tiling.lowest sizeofStructMem (front ++ ⟨m, true⟩ :: rest)) := by
  -- If the block was the lowest, all in front of it is used, and the loop goes on from here.
  have low := same.trans sound.lowest
  unfold SmallMem.lowestFree
  split
  · rename_i here
    have all := (lowest_eq_iff (H := sizeofStructMem) (by simp [sizeofStructMem]) rfl).mp
        (low.symm.trans here.symm)
    have enough := laid.length_lt
    rw [List.length_append] at enough
    rw [← here, laid.nextFree_spec (by omega), lowest_append_of_used all]
  · rename_i elsewhere
    rw [lowest_congr (fun here => elsewhere (low.trans here).symm) rfl, ← low]

/-- A free block that was taken, or its first part, is one more used block. -/
theorem swapped_take (sound : Sound s (front ++ ⟨k, false⟩ :: back)) {rest : List Block}
    (laid : Laid next (front ++ ⟨m, true⟩ :: rest))
    (capacity : next.memSizeAligned = s.memSizeAligned)
    (used : next.usedMem = s.usedMem + (m + sizeofStructMem))
    (top : next.maxMem = max s.maxMem next.usedMem)
    (keeps : Keeps s next (Tiling.spans sizeofStructMem 0 (front ++ ⟨k, false⟩ :: back)))
    (lowest : next.lfree = Tiling.lowest sizeofStructMem (front ++ ⟨m, true⟩ :: rest))
    (positive : 0 < size) (aligned : size % 4 = 0) (shape : (m = k ∧ rest = back) ∨
      ∃ n, k = size + sizeofStructMem + n ∧ minSizeAligned ≤ n ∧ m = size ∧
        rest = ⟨n, false⟩ :: back) :
    Swapped s (front ++ ⟨k, false⟩ :: back) next (front ++ ⟨m, true⟩ :: rest) []
      [(width sizeofStructMem front, m)] := by
  -- In both cases the used block is the first of what takes the place of the free one.
  obtain ⟨early, late⟩ := sound.plugged.parts
  have whole := sound.sizes ⟨k, false⟩ (by simp)
  have counted := sound.counted
  rw [used_append, used_cons] at counted
  have sizes : ∀ block ∈ front ++ back, 0 < block.size ∧ block.size % 4 = 0 := fun block member =>
    sound.sizes block (by
      rw [List.mem_append] at member
      rw [List.mem_append, List.mem_cons]
      tauto)
  dsimp only at whole
  have after : spans sizeofStructMem (width sizeofStructMem front + sizeofStructMem + m) rest =
        spans sizeofStructMem (width sizeofStructMem front + sizeofStructMem + k) back ∧
      Tiling.used sizeofStructMem rest = Tiling.used sizeofStructMem back ∧ Plugged rest ∧
      ∀ block ∈ ⟨m, true⟩ :: rest, 0 < block.size ∧ block.size % 4 = 0 := by
    rcases shape with ⟨rfl, rfl⟩ | ⟨n, rfl, least, rfl, rfl⟩
    · refine ⟨rfl, rfl, List.IsChain.tail late, fun block member => ?_⟩
      rcases List.mem_cons.mp member with rfl | member
      · exact whole
      · exact sizes block (by simp [member])
    · refine ⟨by simp [Nat.add_assoc], by simp, ?_, fun block member => ?_⟩
      · rw [plugged_iff] at late ⊢
        exact late
      · simp only [minSizeAligned, sizeofStructMem] at *
        rcases List.mem_cons.mp member with rfl | member
        · exact ⟨positive, aligned⟩
        rcases List.mem_cons.mp member with rfl | member
        · dsimp only
          omega
        · exact sizes block (by simp [member])
  obtain ⟨spans_eq, used_eq, plugged, sizes'⟩ := after
  refine ⟨⟨laid, capacity ▸ sound.least, fun block member => ?_,
    (plugged_append_cons rfl).mpr ⟨early, plugged⟩,
    lowest, ?_, ?_⟩, capacity, Tiling.spans sizeofStructMem 0 front,
    Tiling.spans sizeofStructMem (width sizeofStructMem front + sizeofStructMem + k) back, ?_, ?_,
      ?_⟩
  · rcases List.mem_append.mp member with member | member
    · exact sizes block (by simp [member])
    · exact sizes' block member
  · rw [used, counted, used_append, used_cons, used_eq]
    simp only [Bool.false_eq_true, if_false, if_true]
    omega
  · rw [top]
    exact le_max_right _ _
  · simp
  · rw [spans_append, spans_cons, Nat.zero_add, spans_eq]
    simp
  · simpa using keeps

/--
`rt_malloc` of an aligned size takes the first block that is large enough,
if the search comes to one.
-/
theorem mallocAligned (sound : Sound s blocks) (positive : 0 < size)
    (limit : size ≤ s.memSizeAligned) (aligned : size % 4 = 0) :
    (s.mallocAligned size = some (none, s) ∧ Refused blocks size) ∨
      ∃ ptr next blocks' m,
        s.mallocAligned size = some (some (ptr + sizeofStructMem), next) ∧ size ≤ m ∧
        Swapped s blocks next blocks' [] [(ptr, m)] := by
  -- The search starts at the lowest free block, so it misses none.
  obtain ⟨early, late, rfl, low, behind⟩ := exists_lowest sizeofStructMem blocks
  have enough := sound.laid.length_lt
  rw [List.length_append] at enough
  unfold SmallMem.mallocAligned
  rw [sound.lowest, ← low]
  rcases sound.laid.search_spec limit (show late.length < s.memory.length by omega) with
    ⟨mid, k, back, rfl, fits, found⟩ | ⟨found, small⟩
  · rw [found]
    -- The block is taken.
    rw [← List.append_assoc] at sound
    generalize front_eq : early ++ mid = front at *
    obtain ⟨m, rest, laid, ⟨capacity, lfree, used, top⟩, keeps, shape⟩ := sound.laid.take_spec fits
    simp only [Option.bind_eq_bind, Option.bind_some]
    generalize s.take (width sizeofStructMem front) size = taken at *
    have lowest := sound.lowest_take laid lfree
    have start := width_mod front fun block member => sound.sizes block (by simp [member])
    have large : size ≤ m := by rcases shape with ⟨rfl, -⟩ | ⟨n, -, -, rfl, -⟩ <;> omega
    rw [← List.append_assoc, front_eq, lowest, Option.bind_some]
    have laid' := laid.setLfree (Tiling.lowest sizeofStructMem (front ++ ⟨m, true⟩ :: rest))
    have keeps' := keeps.setLfree (Tiling.lowest sizeofStructMem (front ++ ⟨m, true⟩ :: rest))
    have swapped := sound.swapped_take laid' (SmallMem.memSizeAligned_setLfree.trans capacity)
      (SmallMem.usedMem_setLfree.trans used)
      (by rw [SmallMem.maxMem_setLfree, SmallMem.usedMem_setLfree, top, used]) keeps'
      SmallMem.lfree_setLfree positive aligned shape
    have asserted : width sizeofStructMem front + sizeofStructMem + size ≤ taken.heapEnd ∧
        (width sizeofStructMem front + sizeofStructMem) % 4 = 0 ∧
            width sizeofStructMem front % 4 = 0 := by
      have parts := laid.parts
      dsimp only at parts
      rw [SmallMem.heapEnd]
      refine ⟨by omega, ?_, start⟩
      simp only [sizeofStructMem] at start ⊢
      omega
    rw [SmallMem.heapEnd_setLfree, if_pos asserted]
    exact .inr ⟨width sizeofStructMem front, _, _, m, rfl, large, swapped⟩
  · rw [found]
    refine .inl ⟨rfl, fun front n back cut => ?_⟩
    obtain ⟨mid, rest⟩ := behind front n back cut
    exact small mid n back rest

/-- `rt_malloc`: nothing, or a block that is large enough. -/
theorem rtMalloc (sound : Sound s blocks) (size : ℕ) :
    (s.rtMalloc size = some (none, s) ∧
        (size = 0 ∨ s.memSizeAligned < rtAlign size ∨
          Refused blocks (max (rtAlign size) minSizeAligned))) ∨
      ∃ ptr next blocks' m, s.rtMalloc size = some (some (ptr + sizeofStructMem), next) ∧
        max (rtAlign size) minSizeAligned ≤ m ∧ Swapped s blocks next blocks' [] [(ptr, m)] := by
  -- The tests in front of the search decide first.
  have least := sound.least
  unfold SmallMem.rtMalloc
  split
  · rename_i zero
    exact .inl ⟨rfl, .inl zero⟩
  · dsimp only
    split
    · rename_i large
      exact .inl ⟨rfl, .inr (.inl large)⟩
    · have aligned : max (rtAlign size) minSizeAligned % 4 = 0 := by
        simp only [rtAlign, minSizeAligned]
        omega
      have positive : 0 < max (rtAlign size) minSizeAligned := by
        simp only [minSizeAligned]
        omega
      rcases sound.mallocAligned positive (by omega) aligned with ⟨result, refused⟩ | granted
      · exact .inl ⟨result, .inr (.inr refused)⟩
      · exact .inr granted

/-- A free block is joined with its neighbours, and the heap is in order again. -/
theorem plug (laid : Laid s (front ++ ⟨k, false⟩ :: back))
    (least : minSizeAligned ≤ s.memSizeAligned)
    (sizes : ∀ block ∈ front ++ ⟨k, false⟩ :: back, 0 < block.size ∧ block.size % 4 = 0)
    (early : Plugged front) (late : Plugged back)
    (low : s.lfree = Tiling.lowest sizeofStructMem (front ++ ⟨k, false⟩ :: back))
    (counted : s.usedMem = Tiling.used sizeofStructMem (front ++ ⟨k, false⟩ :: back))
    (top : s.usedMem ≤ s.maxMem) :
    ∃ next blocks', s.plugHoles (width sizeofStructMem front) = some next ∧ Sound next blocks' ∧
      next.memSizeAligned = s.memSizeAligned ∧
      spans sizeofStructMem 0 blocks' = spans sizeofStructMem 0 (front ++ ⟨k, false⟩ :: back) ∧
      Keeps s next (spans sizeofStructMem 0 (front ++ ⟨k, false⟩ :: back)) := by
  -- Joining free blocks changes nothing that the variables count.
  obtain ⟨next, blocks', result, joined, plugged⟩ := laid.plugHoles early late low
  obtain ⟨capacity, used, top'⟩ := joined.stats
  exact ⟨next, blocks', result, ⟨joined.laid, capacity ▸ least, joined.sizes sizes, plugged,
    joined.lfree.trans (low.trans joined.lowest.symm), used.trans (counted.trans joined.used.symm),
    by rwa [used, top']⟩, capacity, joined.spans, joined.keeps⟩

/-- A block that was made free is free, and the variables follow. -/
theorem release_spec (sound : Sound s (front ++ ⟨m, true⟩ :: back)) :
    Laid (s.release (width sizeofStructMem front)) (front ++ ⟨m, false⟩ :: back) ∧
      Keeps s (s.release (width sizeofStructMem front))
        (spans sizeofStructMem 0 (front ++ ⟨m, true⟩ :: back)) ∧
      (s.release (width sizeofStructMem front)).memSizeAligned = s.memSizeAligned ∧
      (s.release (width sizeofStructMem front)).lfree = min (width sizeofStructMem front) s.lfree ∧
      (s.release (width sizeofStructMem front)).usedMem = s.usedMem - (sizeofStructMem + m) ∧
      (s.release (width sizeofStructMem front)).maxMem = s.maxMem := by
  -- One header is written, and two variables follow.
  have laid1 := sound.laid.write false rfl
  have keeps1 := sound.laid.keeps_write ⟨heapMagic, flagOf false,
    width sizeofStructMem front + sizeofStructMem + m, lastStart 0 0 front⟩
  have amount : width sizeofStructMem front + sizeofStructMem + m - width sizeofStructMem front =
      sizeofStructMem + m := by omega
  have free : flagOf false = 0 := rfl
  unfold SmallMem.release
  rw [sound.laid.header_eq]
  dsimp only
  rw [free] at laid1 keeps1
  have lfree : (s.setHeader (width sizeofStructMem front) ⟨heapMagic, 0,
    width sizeofStructMem front + sizeofStructMem + m, lastStart 0 0 front⟩).lfree = s.lfree := rfl
  have used : (s.setHeader (width sizeofStructMem front) ⟨heapMagic, 0,
    width sizeofStructMem front + sizeofStructMem + m, lastStart 0 0 front⟩).usedMem =
      s.usedMem := rfl
  have top : (s.setHeader (width sizeofStructMem front) ⟨heapMagic, 0,
    width sizeofStructMem front + sizeofStructMem + m, lastStart 0 0 front⟩).maxMem =
      s.maxMem := rfl
  have aligned : (s.setHeader (width sizeofStructMem front)
    ⟨heapMagic, 0, width sizeofStructMem front +
    sizeofStructMem + m, lastStart 0 0 front⟩).memSizeAligned = s.memSizeAligned := rfl
  generalize s.setHeader (width sizeofStructMem front) ⟨heapMagic, 0,
    width sizeofStructMem front + sizeofStructMem + m, lastStart 0 0 front⟩ = s1 at *
  rw [amount]
  split
  · rename_i lower
    rw [lfree] at lower
    exact ⟨laid1.of_same rfl rfl, keeps1.of_same rfl, aligned, (min_eq_left (le_of_lt lower)).symm,
      congrArg (· - (sizeofStructMem + m)) used, top⟩
  · rename_i lower
    rw [lfree] at lower
    exact ⟨laid1.of_same rfl rfl, keeps1.of_same rfl, aligned,
      lfree.trans (min_eq_right (not_lt.mp lower)).symm,
      congrArg (· - (sizeofStructMem + m)) used, top⟩

/-- `rt_free` of a used block takes that block away, and nothing else. -/
theorem rtFree (sound : Sound s blocks) {ptr : ℕ}
    (held : (ptr, m) ∈ spans sizeofStructMem 0 blocks) :
    ∃ next blocks', s.rtFree (some (ptr + sizeofStructMem)) = some next ∧
      Swapped s blocks next blocks' [(ptr, m)] [] := by
  obtain ⟨front, back, whole, place⟩ := exists_of_mem_spans held
  rw [Nat.zero_add] at place
  dsimp only at whole place
  subst whole place
  have here := sound.laid.header_eq
  have parts := sound.laid.parts
  have start := width_mod front fun block member => sound.sizes block (by simp [member])
  have size := sound.sizes ⟨m, true⟩ (by simp)
  have counted := sound.counted
  have top := sound.top
  obtain ⟨early, late⟩ := (plugged_append_cons rfl).mp sound.plugged
  dsimp only at parts here size
  rw [used_append, used_cons] at counted
  simp only [if_true] at counted
  -- The block is made free, and then joined with its neighbours.
  obtain ⟨laid, keeps, aligned, lfree, used, top'⟩ := sound.release_spec
  have sizes : ∀ block ∈ front ++ ⟨m, false⟩ :: back, 0 < block.size ∧ block.size % 4 = 0 := by
    intro block member
    rw [List.mem_append, List.mem_cons] at member
    rcases member with member | rfl | member
    · exact sound.sizes block (by simp [member])
    · exact size
    · exact sound.sizes block (by simp [member])
  have asserted : (width sizeofStructMem front + sizeofStructMem) % 4 = 0 ∧
      width sizeofStructMem front + sizeofStructMem < s.heapEnd ∧
      sizeofStructMem ≤ width sizeofStructMem front + sizeofStructMem := by
    simp only [SmallMem.heapEnd, sizeofStructMem] at start parts ⊢
    omega
  have allocated : flagOf true ≠ 0 ∧ True := ⟨by simp [flagOf], trivial⟩
  rw [SmallMem.rtFree, if_pos asserted]
  simp only [Nat.add_sub_cancel, here]
  rw [if_pos allocated]
  generalize s.release (width sizeofStructMem front) = s1 at *
  obtain ⟨next, blocks', result, sound', capacity, spans_eq, keeps'⟩ :=
    plug laid (aligned ▸ sound.least) sizes early late (by rw [lfree, lowest_free, sound.lowest])
      (by rw [used, counted, used_append, used_cons]
          simp only [Bool.false_eq_true, if_false]
          omega) (by omega)
  have others : spans sizeofStructMem 0 (front ++ ⟨m, false⟩ :: back) =
    spans sizeofStructMem 0 front ++
      spans sizeofStructMem (width sizeofStructMem front + sizeofStructMem + m) back := by simp
  rw [others] at spans_eq keeps'
  refine ⟨next, blocks', result, sound', capacity.trans aligned, spans sizeofStructMem 0 front,
    spans sizeofStructMem (width sizeofStructMem front + sizeofStructMem + m) back, by simp,
        by simpa using spans_eq, ?_⟩
  refine Keeps.trans (fun span member => keeps span ?_) keeps'
  rw [spans_append, List.mem_append]
  exact (List.mem_append.mp member).imp_right fun late => by simpa using .inr late

/-- The end of a used block was made free, and the variables follow. -/
theorem shrink_spec (sound : Sound s (front ++ ⟨m + sizeofStructMem + n, true⟩ :: back))
    (amount : ℕ) :
    Laid (s.shrink (width sizeofStructMem front)
      (width sizeofStructMem front + sizeofStructMem + m) amount)
      (front ++ ⟨m, true⟩ :: ⟨n, false⟩ :: back) ∧
    (∀ start size, start + size ≤ width sizeofStructMem front ∨
        (width sizeofStructMem front + sizeofStructMem ≤ start ∧
          start + size ≤ width sizeofStructMem front + sizeofStructMem + m) ∨
        width sizeofStructMem front + sizeofStructMem + (m + sizeofStructMem + n) +
          sizeofStructMem ≤ start →
      (s.shrink (width sizeofStructMem front)
          (width sizeofStructMem front + sizeofStructMem + m) amount).slice start
        size = s.slice start size) ∧
    (s.shrink (width sizeofStructMem front)
        (width sizeofStructMem front + sizeofStructMem + m) amount).memSizeAligned =
      s.memSizeAligned ∧
    (s.shrink (width sizeofStructMem front) (width sizeofStructMem front + sizeofStructMem + m)
      amount).lfree =
      min (width sizeofStructMem front + sizeofStructMem + m) s.lfree ∧
    (s.shrink (width sizeofStructMem front) (width sizeofStructMem front + sizeofStructMem + m)
      amount).usedMem =
      s.usedMem - amount ∧
    (s.shrink (width sizeofStructMem front) (width sizeofStructMem front + sizeofStructMem + m)
      amount).maxMem =
      s.maxMem := by
  have laid0 := (sound.laid.spend amount).cut
  have slices : ∀ start size, start + size ≤ width sizeofStructMem front ∨
        (width sizeofStructMem front + sizeofStructMem ≤ start ∧
          start + size ≤ width sizeofStructMem front + sizeofStructMem + m) ∨
        width sizeofStructMem front + sizeofStructMem + (m + sizeofStructMem + n) +
          sizeofStructMem ≤ start →
      ((s.spend amount).cut (width sizeofStructMem front)
          (width sizeofStructMem front + sizeofStructMem + m)).slice
        start size = s.slice start size := fun start size apart =>
          (sound.laid.spend amount).slice_cut apart
  obtain ⟨aligned, used, top⟩ := (s.spend amount).sameStats_cut (width sizeofStructMem front)
    (width sizeofStructMem front + sizeofStructMem + m)
  have lfree : ((s.spend amount).cut (width sizeofStructMem front)
    (width sizeofStructMem front + sizeofStructMem + m)).lfree = s.lfree := SmallMem.lfree_cut
  rw [SmallMem.memSizeAligned_spend] at aligned
  rw [SmallMem.usedMem_spend] at used
  rw [SmallMem.maxMem_spend] at top
  unfold SmallMem.shrink
  dsimp only
  generalize (s.spend amount).cut (width sizeofStructMem front)
    (width sizeofStructMem front + sizeofStructMem + m) = s1 at *
  rw [lfree]
  split
  · rename_i lower
    refine ⟨laid0.setLfree _, fun start size apart => ?_,
      SmallMem.memSizeAligned_setLfree.trans aligned, ?_,
      SmallMem.usedMem_setLfree.trans used, SmallMem.maxMem_setLfree.trans top⟩
    · rw [SmallMem.slice_setLfree]
      exact slices start size apart
    · rw [SmallMem.lfree_setLfree, min_eq_left (le_of_lt lower)]
  · rename_i lower
    refine ⟨laid0, fun start size apart => slices start size apart, aligned, ?_, used, top⟩
    rw [lfree, min_eq_right (not_lt.mp lower)]

/-- A used block gets smaller where it is: it keeps its first bytes, and the end is free. -/
theorem resize_shrink (sound : Sound s (front ++ ⟨m + sizeofStructMem + n, true⟩ :: back))
    (positive : 0 < m) (aligned : m % 4 = 0) (positive' : 0 < n) :
    ∃ next blocks',
      (s.shrink (width sizeofStructMem front) (width sizeofStructMem front + sizeofStructMem + m)
        (sizeofStructMem + n)).plugHoles (width sizeofStructMem front + sizeofStructMem + m) =
          some next ∧
      Swapped s (front ++ ⟨m + sizeofStructMem + n, true⟩ :: back) next blocks'
        [(width sizeofStructMem front, m + sizeofStructMem + n)]
        [(width sizeofStructMem front, m)] ∧
      next.slice (width sizeofStructMem front + sizeofStructMem) m =
        s.slice (width sizeofStructMem front + sizeofStructMem) m := by
  -- The end of the block is a free block next to a used one,
  -- so only what is behind it can be joined.
  obtain ⟨laid, slices, aligned', lfree, used, top'⟩ := sound.shrink_spec (sizeofStructMem + n)
  have size := sound.sizes ⟨m + sizeofStructMem + n, true⟩ (by simp)
  have counted := sound.counted
  have top := sound.top
  have least := sound.least
  obtain ⟨early, late⟩ := (plugged_append_cons rfl).mp sound.plugged
  generalize s.shrink (width sizeofStructMem front)
    (width sizeofStructMem front + sizeofStructMem + m)
    (sizeofStructMem + n) = s1 at *
  rw [List.append_cons] at laid
  have place : width sizeofStructMem (front ++ [⟨m, true⟩]) =
      width sizeofStructMem front + sizeofStructMem + m := by
    simp only [width_append, width_cons, width_nil]
    omega
  have sizes : ∀ block ∈ front ++ [⟨m, true⟩] ++ ⟨n, false⟩ :: back,
      0 < block.size ∧ block.size % 4 = 0 := by
    intro block member
    simp only [List.mem_append, List.mem_cons, List.not_mem_nil, or_false] at member
    rcases member with (member | rfl) | rfl | member
    · exact sound.sizes block (by simp [member])
    · exact ⟨positive, aligned⟩
    · simp only [sizeofStructMem] at size ⊢
      omega
    · exact sound.sizes block (by simp [member])
  have plugged : Plugged (front ++ [⟨m, true⟩]) :=
    (plugged_append_cons rfl).mpr ⟨early, List.isChain_nil⟩
  have low : s1.lfree =
      Tiling.lowest sizeofStructMem (front ++ [⟨m, true⟩] ++ ⟨n, false⟩ :: back) := by
    rw [lfree, lowest_free, place, ← List.append_cons, ← lowest_split, sound.lowest]
  have counted1 : s1.usedMem =
      Tiling.used sizeofStructMem (front ++ [⟨m, true⟩] ++ ⟨n, false⟩ :: back) := by
    rw [used, counted]
    simp only [used_append, used_cons, used_nil, Bool.false_eq_true, if_false, if_true]
    omega
  obtain ⟨next, blocks', result, sound', capacity, spans_eq, keeps⟩ :=
    plug laid (aligned' ▸ least) sizes plugged late low counted1 (by omega)
  rw [place] at result
  have spans_eq' : spans sizeofStructMem 0 (front ++ [⟨m, true⟩] ++ ⟨n, false⟩ :: back) =
      spans sizeofStructMem 0 front ++ [(width sizeofStructMem front, m)] ++
        spans sizeofStructMem (width sizeofStructMem front + sizeofStructMem +
            (m + sizeofStructMem + n)) back := by
    simp [Nat.add_assoc]
  rw [spans_eq'] at spans_eq keeps
  refine ⟨next, blocks', result, ⟨sound', capacity.trans aligned', spans sizeofStructMem 0 front,
    spans sizeofStructMem
      (width sizeofStructMem front + sizeofStructMem + (m + sizeofStructMem + n)) back,
    by simp, spans_eq, fun span member => ?_⟩, ?_⟩
  · rw [keeps span (by simp only [List.mem_append] at member ⊢; tauto)]
    refine slices _ _ ?_
    rcases List.mem_append.mp member with early | late
    · have := (bounds_of_mem_spans early).2
      omega
    · have := (bounds_of_mem_spans late).1
      omega
  · rw [keeps (width sizeofStructMem front, m) (by simp)]
    exact slices _ _ (.inr (.inl ⟨le_refl _, le_refl _⟩))

/--
The part of `rt_realloc` under the semaphore: the block is kept, gets smaller, or has to be moved.
-/
theorem resize (sound : Sound s blocks) {ptr newsize : ℕ}
    (held : (ptr, k) ∈ spans sizeofStructMem 0 blocks) (positive : 0 < newsize)
    (aligned : newsize % 4 = 0) :
    (newsize = k ∧ s.resize (ptr + sizeofStructMem) newsize = some (.done, s)) ∨
      (∃ next blocks', s.resize (ptr + sizeofStructMem) newsize = some (.done, next) ∧ newsize ≤ k ∧
        Swapped s blocks next blocks' [(ptr, k)] [(ptr, newsize)] ∧
        next.slice (ptr + sizeofStructMem) newsize = s.slice (ptr + sizeofStructMem) newsize) ∨
      s.resize (ptr + sizeofStructMem) newsize = some (.move k, s) := by
  -- The size that the header gives is that of the block.
  obtain ⟨front, back, whole, place⟩ := exists_of_mem_spans held
  rw [Nat.zero_add] at place
  dsimp only at whole place
  subst whole place
  have here := sound.laid.header_eq
  have parts := sound.laid.parts
  have bound := sound.laid.bound
  have size := sound.sizes ⟨k, true⟩ (by simp)
  dsimp only at parts here size
  have inside : ¬ s.heapEnd ≤ width sizeofStructMem front + sizeofStructMem := by
    rw [SmallMem.heapEnd]
    omega
  have size_eq : sub32
    (sub32 (width sizeofStructMem front + sizeofStructMem + k) (width sizeofStructMem front))
      sizeofStructMem = k := by
    have inner : sub32 (width sizeofStructMem front + sizeofStructMem + k)
      (width sizeofStructMem front) =
        sizeofStructMem + k := by
      rw [sub32_eq (by omega) (by omega)]
      omega
    rw [inner, sub32_eq (by omega) (by omega)]
    omega
  rw [SmallMem.resize, if_neg inside, if_neg (by omega)]
  simp only [Nat.add_sub_cancel, here, size_eq]
  by_cases same : k = newsize
  · rw [if_pos same]
    exact .inl ⟨same.symm, rfl⟩
  rw [if_neg same]
  by_cases room : newsize + sizeofStructMem + minSizeAligned < k
  · -- There is enough behind the new size for another block.
    obtain ⟨n, rfl⟩ : ∃ n, k = newsize + sizeofStructMem + n :=
      ⟨k - newsize - sizeofStructMem, by omega⟩
    obtain ⟨next, blocks', result, swapped, slice⟩ := sound.resize_shrink positive aligned
      (by simp only [minSizeAligned] at room; omega)
    have amount : newsize + sizeofStructMem + n - newsize = sizeofStructMem + n := by omega
    rw [if_pos room, amount, result]
    exact .inr (.inl ⟨next, blocks', rfl, by omega, swapped, slice⟩)
  · rw [if_neg room]
    exact .inr (.inr rfl)

/--
Bytes that are written into a used block stay in it: the blocks and all other bytes are the same.
-/
theorem store (sound : Sound s blocks) {ptr offset : ℕ} {data : Bytes}
    (held : (ptr, m) ∈ spans sizeofStructMem 0 blocks) (room : offset + data.length ≤ m) :
    Sound (s.store (ptr + sizeofStructMem + offset) data) blocks ∧
      (s.store (ptr + sizeofStructMem + offset) data).slice (ptr + sizeofStructMem) m =
        Bytes.store offset data (s.slice (ptr + sizeofStructMem) m) ∧
      ∀ start size, start + size ≤ ptr + sizeofStructMem ∨ ptr + sizeofStructMem + m ≤ start →
        (s.store (ptr + sizeofStructMem + offset) data).slice start size = s.slice start size := by
  -- The bytes lie inside the block, where no header is.
  have bounds := (bounds_of_mem_spans held).2
  have total := sound.laid.total
  have length := sound.laid.length
  dsimp only at bounds
  have inside : ptr + sizeofStructMem + offset + data.length ≤ s.memory.length := by omega
  have others : ∀ start size, start + size ≤ ptr + sizeofStructMem ∨
    ptr + sizeofStructMem + m ≤ start →
      (s.store (ptr + sizeofStructMem + offset) data).slice start size = s.slice start size :=
    fun start size apart => Bytes.slice_store_of_disjoint inside (by omega)
  refine ⟨{ sound with laid := ?_ }, Bytes.slice_store_inside room inside, others⟩
  -- No header lies in the block.
  obtain ⟨front, back, whole, place⟩ := exists_of_mem_spans held
  rw [Nat.zero_add] at place
  dsimp only at whole place
  subst whole place
  have parts := sound.laid.parts
  have header : ∀ at_, at_ + sizeofStructMem ≤ width sizeofStructMem front + sizeofStructMem ∨
      width sizeofStructMem front + sizeofStructMem + m ≤ at_ →
      (s.store (width sizeofStructMem front + sizeofStructMem + offset) data).header at_ =
        s.header at_ :=
    fun at_ apart => congrArg HeapMem.decode (others at_ sizeofStructMem apart)
  obtain ⟨early, here, late⟩ := linked_append.mp sound.laid.linked
  rw [Nat.zero_add] at here late
  dsimp only at parts here late
  refine ⟨(Bytes.length_store inside).trans length, sound.laid.bound, linked_append.mpr
    ⟨early.congr fun at_ _ before => header at_ (.inl (by omega)), ?_, ?_⟩, total, ?_⟩
  · rw [Nat.zero_add, header _ (.inl (le_refl _))]
    exact here
  · rw [Nat.zero_add]
    exact late.congr fun at_ behind _ => header at_ (.inr behind)
  · have stub := sound.laid.stub
    rwa [← header s.heapEnd (.inr (by rw [SmallMem.heapEnd]; omega))] at stub

/--
Another block is taken for what is in a block, which is copied there, and the old block is freed.
-/
theorem move {ptr newsize p : ℕ} {s1 : SmallMem} {blocks1 : List Block}
    (held : (ptr, k) ∈ spans sizeofStructMem 0 blocks)
    (swapped : Swapped s blocks s1 blocks1 [] [(p, m)]) (room : newsize ≤ m) :
    ∃ next blocks', (s1.memcpy (p + sizeofStructMem) (ptr + sizeofStructMem) (min k newsize)).rtFree
        (some (ptr + sizeofStructMem)) = some next ∧
      Sound next blocks' ∧ (p, m) ∈ spans sizeofStructMem 0 blocks' ∧
      next.slice (p + sizeofStructMem) (min k newsize) =
        s.slice (ptr + sizeofStructMem) (min k newsize) ∧
      ∀ span ∈ spans sizeofStructMem 0 blocks, span.1 ≠ ptr →
        span ∈ spans sizeofStructMem 0 blocks' ∧
        next.slice (span.1 + sizeofStructMem) span.2 =
          s.slice (span.1 + sizeofStructMem) span.2 := by
  -- The new block is apart from the old one, so copying and freeing do not touch each other.
  obtain ⟨before, after, early, late, -⟩ := swapped.spans
  have elsewhere : ∀ span ∈ spans sizeofStructMem 0 blocks, span.1 ≠ p := by
    intro span member
    rw [early, List.append_nil] at member
    exact ne_of_spans (by simp [sizeofStructMem]) late span member
  have new1 : (p, m) ∈ spans sizeofStructMem 0 blocks1 := by
    rw [late]
    simp
  obtain ⟨held1, slice1⟩ := swapped.kept held (by simp)
  dsimp only at slice1
  -- As many bytes are copied as both blocks have.
  have bounds := (bounds_of_mem_spans held1).2
  have total := swapped.sound.laid.total
  have length := swapped.sound.laid.length
  dsimp only at bounds
  have copied : (s1.slice (ptr + sizeofStructMem) (min k newsize)).length = min k newsize := by
    rw [SmallMem.slice, List.length_take, List.length_drop]
    omega
  obtain ⟨sound2, own, others⟩ := swapped.sound.store new1 (show 0 +
    (s1.slice (ptr + sizeofStructMem) (min k newsize)).length ≤ m by omega)
  have same : s1.memcpy (p + sizeofStructMem) (ptr + sizeofStructMem) (min k newsize) =
    s1.store (p + sizeofStructMem + 0) (s1.slice (ptr + sizeofStructMem) (min k newsize)) := rfl
  rw [same]
  generalize s1.store (p + sizeofStructMem + 0) (s1.slice (ptr + sizeofStructMem) (min k newsize)) =
    s2 at *
  obtain ⟨next, blocks', freed, swapped'⟩ := sound2.rtFree held1
  have apart : (p, m) ∉ [(ptr, k)] := by
    have := elsewhere _ held
    dsimp only at this
    simp only [List.mem_singleton, Prod.mk.injEq, not_and]
    omega
  obtain ⟨new3, slice3⟩ := swapped'.kept new1 apart
  dsimp only at slice3
  refine ⟨next, blocks', freed, swapped'.sound, new3, ?_, fun span member distinct => ?_⟩
  · rw [← next.take_slice (show min k newsize ≤ m by omega), slice3, own, Bytes.store_zero,
      List.take_append_of_le_length (by omega), s1.take_slice (le_refl _),
      ← s1.take_slice (min_le_left k newsize),
      slice1, s.take_slice (min_le_left k newsize)]
  · obtain ⟨member1, kept1⟩ := swapped.kept member (by simp)
    have distinct' : span ≠ (p, m) := fun same => elsewhere span member (by rw [same])
    have away := spans_apart member1 new1 distinct'
    dsimp only at away
    obtain ⟨member3, kept3⟩ := swapped'.kept member1 fun here =>
      distinct (by rw [List.mem_singleton.mp here])
    exact ⟨member3, kept3.trans ((others _ _ (by omega)).trans kept1)⟩

/--
`rt_realloc` of a used block, when nobody comes in between.

It gives nothing and changes nothing, or gives a block that has room, with the bytes that both sizes
have. The other blocks stay, with their bytes.
-/
theorem rtRealloc (sound : Sound s blocks) {ptr newsize : ℕ}
    (held : (ptr, k) ∈ spans sizeofStructMem 0 blocks) (positive : 0 < newsize)
    (small : newsize ≤ 2 ^ 32 - 4) :
    s.rtRealloc (some (ptr + sizeofStructMem)) newsize = some (none, s) ∨
      ∃ p m next blocks', s.rtRealloc (some (ptr + sizeofStructMem)) newsize =
          some (some (p + sizeofStructMem), next) ∧
        Sound next blocks' ∧ (p, m) ∈ spans sizeofStructMem 0 blocks' ∧ newsize ≤ m ∧
        next.slice (p + sizeofStructMem) (min k newsize) =
          s.slice (ptr + sizeofStructMem) (min k newsize) ∧
        ∀ span ∈ spans sizeofStructMem 0 blocks, span.1 ≠ ptr →
          span ∈ spans sizeofStructMem 0 blocks' ∧
          next.slice (span.1 + sizeofStructMem) span.2 =
            s.slice (span.1 + sizeofStructMem) span.2 := by
  -- The part under the semaphore decides whether the block has to be moved.
  obtain ⟨room, aligned⟩ := le_rtAlign small
  unfold SmallMem.rtRealloc
  dsimp only
  by_cases large : s.memSizeAligned < rtAlign newsize
  · rw [if_pos large]
    exact .inl rfl
  rw [if_neg large, if_neg (by omega)]
  rcases sound.resize held (show 0 < rtAlign newsize by omega) aligned with
    ⟨same, result⟩ | ⟨next, blocks', result, less, swapped, slice⟩ | result
  · rw [result]
    exact .inr ⟨ptr, k, s, blocks, rfl, sound, held, by omega, rfl, fun span member _ =>
      ⟨member, rfl⟩⟩
  · rw [result]
    refine .inr ⟨ptr, rtAlign newsize, next, blocks', rfl, swapped.sound, ?_, room, ?_,
        fun span member distinct => ?_⟩
    · obtain ⟨before, after, -, late, -⟩ := swapped.spans
      rw [late]
      simp
    · rw [← next.take_slice (show min k newsize ≤ rtAlign newsize by omega), slice,
        s.take_slice (by omega)]
    · exact swapped.kept member fun here => distinct (by rw [List.mem_singleton.mp here])
  · rw [result]
    simp only [Option.bind_eq_bind, Option.bind_some]
    rcases sound.rtMalloc
      (rtAlign newsize) with ⟨nothing, -⟩ | ⟨p, s1, blocks1, m, granted, enough, swapped⟩
    · rw [nothing]
      exact .inl rfl
    · have again : rtAlign newsize ≤ rtAlign (rtAlign newsize) := by
        have bound := sound.laid.bound
        exact (le_rtAlign (by simp only [sizeofStructMem] at bound; omega)).1
      obtain ⟨next, blocks', freed, sound', new, slice, others⟩ :=
        move held swapped (show rtAlign newsize ≤ m by omega)
      rw [granted]
      simp only [Option.bind_some, freed]
      refine .inr ⟨p, m, next, blocks', rfl, sound', new, by omega, ?_, others⟩
      have less : min k newsize ≤ min k (rtAlign newsize) := by omega
      rw [← next.take_slice less, slice, s.take_slice less]

/--
`rt_calloc` of a product that does not wrap.

It gives nothing and changes nothing, or gives a new block, where all that was asked for is zero.
The other blocks stay, with their bytes.
-/
theorem rtCalloc (sound : Sound s blocks) {count : ℕ} (small : count * size ≤ 2 ^ 32 - 4) :
    s.rtCalloc count size = some (none, s) ∨
      ∃ p m next blocks', s.rtCalloc count size = some (some (p + sizeofStructMem), next) ∧
        Sound next blocks' ∧
        (p, m) ∈ spans sizeofStructMem 0 blocks' ∧
        next.slice (p + sizeofStructMem) (count * size) = List.replicate (count * size) 0 ∧
        ∀ span ∈ spans sizeofStructMem 0 blocks,
          span.1 ≠ p ∧ span ∈ spans sizeofStructMem 0 blocks' ∧
          next.slice (span.1 + sizeofStructMem) span.2 =
            s.slice (span.1 + sizeofStructMem) span.2 := by
  -- The new block is filled after it was taken.
  have total : count * size % 2 ^ 32 = count * size := Nat.mod_eq_of_lt (by omega)
  unfold SmallMem.rtCalloc
  dsimp only
  rw [total]
  rcases sound.rtMalloc
    (count * size) with ⟨nothing, -⟩ | ⟨p, s1, blocks1, m, granted, enough, swapped⟩
  · rw [nothing]
    exact .inl rfl
  · have room := (le_rtAlign small).1
    obtain ⟨before, after, early, late, -⟩ := swapped.spans
    have new : (p, m) ∈ spans sizeofStructMem 0 blocks1 := by
      rw [late]
      simp
    obtain ⟨sound', own, others⟩ := swapped.sound.store new (show 0 +
      (List.replicate (count * size) (0 : UInt8)).length ≤ m by rw [List.length_replicate]; omega)
    rw [granted]
    refine .inr ⟨p, m,
      s1.store (p + sizeofStructMem + 0) (List.replicate (count * size) 0), blocks1,
        rfl, sound', new,
      ?_, fun span member => ?_⟩
    · rw [← SmallMem.take_slice _ (show count * size ≤ m by omega), own, Bytes.store_zero,
        List.take_append_of_le_length (by rw [List.length_replicate]),
        List.take_of_length_le (by rw [List.length_replicate])]
    · have elsewhere : span.1 ≠ p := by
        rw [early, List.append_nil] at member
        exact ne_of_spans (by simp [sizeofStructMem]) late span member
      obtain ⟨member1, kept⟩ := swapped.kept member (by simp)
      have away := spans_apart member1 new fun same => elsewhere (by rw [same])
      dsimp only at away
      exact ⟨elsewhere, member1, (others _ _ (by omega)).trans kept⟩

end Sound

end MultifunctionClock
