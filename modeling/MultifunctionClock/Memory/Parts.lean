import MultifunctionClock.Memory.Layout

/-!
What the parts of the calls do to the blocks of the heap.

The loops find a block, a free block is taken, and free blocks in a row are joined.
-/

namespace MultifunctionClock

open Tiling

/-- The bytes of some used blocks stay. -/
def Keeps (s next : SmallMem) (spans : List (ℕ × ℕ)) : Prop :=
  ∀ span ∈ spans, next.slice (span.1 + sizeofStructMem) span.2 =
    s.slice (span.1 + sizeofStructMem) span.2

/-- Bytes that stay twice stay. -/
theorem Keeps.trans {s next last : SmallMem} {spans : List (ℕ × ℕ)} (early : Keeps s next spans)
    (late : Keeps next last spans) : Keeps s last spans :=
  fun span member => (late span member).trans (early span member)

/-- Only the bytes matter. -/
theorem Keeps.of_same {s next last : SmallMem} {spans : List (ℕ × ℕ)} (keeps : Keeps s next spans)
    (memory : last.memory = next.memory) : Keeps s last spans := by
  -- A range is read from the bytes only.
  intro span member
  rw [SmallMem.slice, memory]
  exact keeps span member

/-- Setting the lowest free block touches no bytes. -/
theorem Keeps.setLfree {s next : SmallMem} {spans : List (ℕ × ℕ)}
    (keeps : Keeps s next spans) (ptr : ℕ) :
    Keeps s (next.setLfree ptr) spans := keeps.of_same rfl

/-- A difference that does not go below zero is an ordinary one. -/
theorem sub32_eq {one other : ℕ} (le : other ≤ one) (small : one < 2 ^ 32) :
    sub32 one other = one - other := by
  rw [sub32]
  omega

/-- A number of bytes that does not wrap has room in its aligned size. -/
theorem le_rtAlign {size : ℕ} (small : size ≤ 2 ^ 32 - 4) :
    size ≤ rtAlign size ∧ rtAlign size % 4 = 0 := by
  rw [rtAlign]
  omega

-- Larger sizes wrap: such a request passes the test against the heap, and gets the smallest block.
example : rtAlign (2 ^ 32 - 3) = 0 := rfl

/-- The first bytes of a range. -/
theorem SmallMem.take_slice (s : SmallMem) {start size n : ℕ} (le : n ≤ size) :
    (s.slice start size).take n = s.slice start n := by
  rw [slice, slice, List.take_take, min_eq_left le]

variable {s next : SmallMem} {blocks front back : List Block} {block : Block}
  {size n m k fuel : ℕ} {u : Bool}

/-- Blocks of aligned sizes start at aligned addresses. -/
theorem width_mod (blocks : List Block)
    (sizes : ∀ block ∈ blocks, 0 < block.size ∧ block.size % 4 = 0) :
    width sizeofStructMem blocks % 4 = 0 := by
  -- Each block adds its header and its size, both aligned.
  induction blocks with
  | nil => rfl
  | cons block rest ih =>
    have here := (sizes block (by simp)).2
    have later := ih fun other member => sizes other (by simp [member])
    simp only [width_cons, sizeofStructMem] at *
    omega

namespace Laid

/-- Only the bytes and the size matter. -/
theorem of_same (laid : Laid s blocks) (memory : next.memory = s.memory)
    (aligned : next.memSizeAligned = s.memSizeAligned) : Laid next blocks := by
  -- Headers are read from the bytes only.
  have header_eq : next.header = s.header :=
    funext fun at_ => by rw [SmallMem.header, memory, SmallMem.header]
  obtain ⟨length, bound, linked, total, stub⟩ := laid
  exact ⟨by rw [memory, aligned, length], by rwa [aligned], by rwa [header_eq], by
    rw [total, aligned],
    by rwa [header_eq, SmallMem.heapEnd, aligned]⟩

/-- The layout does not depend on the lowest free block. -/
theorem setLfree (laid : Laid s blocks) (ptr : ℕ) : Laid (s.setLfree ptr) blocks :=
  laid.of_same rfl rfl

/-- The layout does not depend on the counts. -/
theorem spend (laid : Laid s blocks) (amount : ℕ) : Laid (s.spend amount) blocks :=
  laid.of_same rfl rfl

/-- There are fewer blocks than bytes. -/
theorem length_lt (laid : Laid s blocks) : blocks.length < s.memory.length := by
  -- Each block takes more than one byte.
  have short : ∀ blocks : List Block, blocks.length ≤ width sizeofStructMem blocks := by
    intro blocks
    induction blocks with
    | nil => simp
    | cons block rest ih =>
      simp only [width_cons, List.length_cons, sizeofStructMem] at *
      omega
  have := short blocks
  have total := laid.total
  have length := laid.length
  simp only [sizeofStructMem] at *
  omega

/-! ## The loops -/

/--
The search ends, and finds the first free block that is large enough.

It does not look at blocks that start too high, and gives up when it comes to one.
-/
theorem search_spec (laid : Laid s (front ++ back)) (limit : size ≤ s.memSizeAligned)
    (enough : back.length < fuel) :
    (∃ mid n rest, back = mid ++ ⟨n, false⟩ :: rest ∧ size ≤ n ∧
        s.search size fuel (width sizeofStructMem front) =
          some (some (width sizeofStructMem (front ++ mid)))) ∨
      (s.search size fuel (width sizeofStructMem front) = some none ∧
        ∀ mid n rest, back = mid ++ ⟨n, false⟩ :: rest → n < size ∨ (n = size ∧ rest = [])) := by
  -- The induction follows the blocks that are left, from where the search is.
  have bound := laid.bound
  have total := laid.total
  induction back generalizing front fuel with
  | nil =>
    obtain ⟨fuel, rfl⟩ : ∃ rest, fuel = rest + 1 := ⟨fuel - 1, by simp at enough; omega⟩
    refine .inr ⟨?_, by simp⟩
    rw [List.append_nil] at total
    rw [SmallMem.search, sub32_eq limit (by omega), if_neg (by omega)]
  | cons block rest ih =>
    obtain ⟨fuel, rfl⟩ : ∃ rest, fuel = rest + 1 := ⟨fuel - 1, by simp at enough; omega⟩
    have here := laid.header_eq
    have parts := laid.parts
    have size_eq : sub32 (width sizeofStructMem front + sizeofStructMem + block.size)
        (width sizeofStructMem front + sizeofStructMem) = block.size := by
      rw [sub32_eq (by omega) (by omega)]
      omega
    rw [SmallMem.search, sub32_eq limit (by omega), here]
    dsimp only
    rw [size_eq]
    by_cases low : width sizeofStructMem front < s.memSizeAligned - size
    · rw [if_pos low]
      by_cases found : flagOf block.used = 0 ∧ size ≤ block.size
      · rw [if_pos found]
        have free : block.used = false := by
          have := found.1
          cases used : block.used <;> simp_all [flagOf]
        exact .inl ⟨[], block.size, rest, by rw [List.nil_append, ← free],
          found.2, by rw [List.append_nil]⟩
      · rw [if_neg found]
        have place : width sizeofStructMem front + sizeofStructMem + block.size =
            width sizeofStructMem (front ++ [block]) := by
          simp only [width_append, width_cons, width_nil]
          omega
        have laid' : Laid s ((front ++ [block]) ++ rest) := by rwa [← List.append_cons]
        rw [place]
        rcases ih laid' (by simpa using enough)
          laid'.total with ⟨mid, n, rest', rfl, fits, result⟩ |
            ⟨result, small⟩
        · exact .inl ⟨block :: mid, n, rest', rfl, fits, by rw [result, ← List.append_cons]⟩
        · refine .inr ⟨result, fun mid n rest' cut => ?_⟩
          cases mid with
          | nil =>
            obtain ⟨rfl, rfl⟩ := List.cons.inj cut
            simp only [flagOf, Bool.false_eq_true, if_false, true_and] at found
            exact .inl (by omega)
          | cons first mid =>
            exact small mid n rest' (List.cons.inj cut).2
    · rw [if_neg low]
      -- The blocks that are left have no more room than what is asked for.
      refine .inr ⟨rfl, fun mid n rest' cut => ?_⟩
      rw [cut] at total
      simp only [width_append, width_cons] at total
      cases rest' with
      | nil =>
        rw [width_nil] at total
        by_cases exact : n = size
        · exact .inr ⟨exact, rfl⟩
        · exact .inl (by omega)
      | cons last rest' =>
        rw [width_cons] at total
        simp only [sizeofStructMem] at *
        exact .inl (by omega)

/-- The loop that looks for a free block ends, and finds the lowest. -/
theorem nextFree_spec (laid : Laid s (front ++ back)) (enough : back.length < fuel) :
    s.nextFree fuel (width sizeofStructMem front) =
      some (width sizeofStructMem front + Tiling.lowest sizeofStructMem back) := by
  -- The induction follows the blocks that are left, and ends at the stub.
  induction back generalizing front fuel with
  | nil =>
    obtain ⟨fuel, rfl⟩ : ∃ rest, fuel = rest + 1 := ⟨fuel - 1, by simp at enough; omega⟩
    have total := laid.total
    rw [List.append_nil] at total
    rw [SmallMem.nextFree, if_neg (fun further => further.2 total)]
    rfl
  | cons block rest ih =>
    obtain ⟨fuel, rfl⟩ : ∃ rest, fuel = rest + 1 := ⟨fuel - 1, by simp at enough; omega⟩
    have parts := laid.parts
    have inside : width sizeofStructMem front ≠ s.heapEnd := by
      simp only [SmallMem.heapEnd, sizeofStructMem] at *
      omega
    rw [SmallMem.nextFree, laid.header_eq, lowest_cons]
    cases used : block.used with
    | false =>
      rw [if_neg (fun further => further.1 rfl)]
      rfl
    | true =>
      have place : width sizeofStructMem front + sizeofStructMem + block.size =
          width sizeofStructMem (front ++ [block]) := by
        simp only [width_append, width_cons, width_nil]
        omega
      have laid' : Laid s ((front ++ [block]) ++ rest) := by rwa [← List.append_cons]
      rw [if_pos ⟨by simp [flagOf], inside⟩, if_pos rfl]
      dsimp only
      rw [place, ih laid' (by simpa using enough), ← place]
      congr 1
      omega

end Laid

/-! ## Taking a block -/

namespace Laid

/-- How the used memory is counted when a block is taken. -/
def Accounted (s next : SmallMem) (size : ℕ) : Prop :=
  next.memSizeAligned = s.memSizeAligned ∧ next.lfree = s.lfree ∧ next.usedMem = s.usedMem + size ∧
    next.maxMem = max s.maxMem (s.usedMem + size)

/-- The header of a block is written, which keeps the bytes of all blocks. -/
theorem keeps_write (laid : Laid s (front ++ ⟨k, u⟩ :: back)) (mem : HeapMem) :
    Keeps s (s.setHeader (width sizeofStructMem front) mem)
      (spans sizeofStructMem 0 (front ++ ⟨k, u⟩ :: back)) := by
  -- A used block has its bytes behind its own header.
  intro span member
  have parts := laid.parts
  have length := laid.length
  refine SmallMem.slice_setHeader (by omega) ?_
  rw [spans_append] at member
  rcases List.mem_append.mp member with early | late
  · have := (bounds_of_mem_spans early).2
    omega
  · have := (bounds_of_mem_spans late).1
    omega

/-- A free block is cut in two, which keeps the bytes of the used blocks. -/
theorem keeps_cut (laid : Laid s (front ++ ⟨m + sizeofStructMem + n, false⟩ :: back)) :
    Keeps s (s.cut (width sizeofStructMem front)
      (width sizeofStructMem front + sizeofStructMem + m))
      (spans sizeofStructMem 0 (front ++ ⟨m + sizeofStructMem + n, false⟩ :: back)) := by
  -- The headers that are written lie in the free block and behind it.
  intro span member
  refine laid.slice_cut ?_
  rw [spans_append] at member
  rcases List.mem_append.mp member with early | late
  · have := (bounds_of_mem_spans early).2
    omega
  · simp only [spans_cons, Bool.false_eq_true, if_false, List.nil_append] at late
    have := (bounds_of_mem_spans late).1
    omega

/-- A free block becomes used, and the used memory is counted. -/
theorem mark_spec (laid : Laid s (front ++ ⟨k, false⟩ :: back)) (amount : ℕ) :
    Laid (s.mark (width sizeofStructMem front) amount) (front ++ ⟨k, true⟩ :: back) ∧
      Accounted s (s.mark (width sizeofStructMem front) amount) amount ∧
      Keeps s (s.mark (width sizeofStructMem front) amount)
        (spans sizeofStructMem 0 (front ++ ⟨k, false⟩ :: back)) := by
  -- The header is written twice, and the second time it stays the same.
  unfold SmallMem.mark
  rw [laid.header_eq]
  dsimp only
  have first := laid.write true rfl
  have laid1 : Laid ((s.setHeader (width sizeofStructMem front) ⟨heapMagic, 1,
      width sizeofStructMem front + sizeofStructMem + k, lastStart 0 0 front⟩).account amount)
      (front ++ ⟨k, true⟩ :: back) := first.of_same rfl rfl
  refine ⟨laid1.write true (by rw [laid1.header_eq]), ⟨rfl, rfl, rfl, rfl⟩,
    Keeps.trans (laid.keeps_write _) fun span member => laid1.keeps_write _ span ?_⟩
  rw [spans_append, List.mem_append] at member ⊢
  exact member.imp_right fun late => by simpa using .inr (by simpa using late)

/--
The block that was found is used, and what is left of it is a free block if that is worth a header.
-/
theorem take_spec (laid : Laid s (front ++ ⟨k, false⟩ :: back)) (fits : size ≤ k) :
    ∃ m rest, Laid (s.take (width sizeofStructMem front) size) (front ++ ⟨m, true⟩ :: rest) ∧
      Accounted s (s.take (width sizeofStructMem front) size) (m + sizeofStructMem) ∧
      Keeps s (s.take (width sizeofStructMem front) size)
        (spans sizeofStructMem 0 (front ++ ⟨k, false⟩ :: back)) ∧
      ((m = k ∧ rest = back) ∨
        ∃ n, k = size + sizeofStructMem + n ∧ minSizeAligned ≤ n ∧ m = size ∧
          rest = ⟨n, false⟩ :: back) := by
  -- The test for another block decides whether the rest is cut off first.
  have parts := laid.parts
  have bound := laid.bound
  have here := laid.header_eq
  dsimp only at parts here
  have size_eq : sub32 (width sizeofStructMem front + sizeofStructMem + k)
      (width sizeofStructMem front + sizeofStructMem) = k := by
    rw [sub32_eq (by omega) (by omega)]
    omega
  unfold SmallMem.take
  rw [here]
  dsimp only
  rw [size_eq]
  split
  · -- There is room for another block.
    rename_i room
    obtain ⟨n, rfl⟩ : ∃ n, k = size + sizeofStructMem + n := ⟨k - size - sizeofStructMem, by omega⟩
    obtain ⟨laid2, ⟨aligned, lfree, used, top⟩, keeps⟩ :=
      laid.cut.mark_spec (size + sizeofStructMem)
    obtain ⟨aligned', used', top'⟩ := s.sameStats_cut (width sizeofStructMem front)
      (width sizeofStructMem front + sizeofStructMem + size)
    refine ⟨size, ⟨n, false⟩ :: back, laid2,
      ⟨aligned.trans aligned', lfree.trans SmallMem.lfree_cut, ?_, ?_⟩,
      laid.keeps_cut.trans fun span member => keeps span ?_, .inr ⟨n, rfl, by omega, rfl, rfl⟩⟩
    · rw [used, used']
    · rw [top, used', top']
    · rw [← spans_join]
      exact member
  · -- The whole block is used.
    have amount : width sizeofStructMem front + sizeofStructMem + k - width sizeofStructMem front =
        k + sizeofStructMem := by omega
    rw [amount]
    obtain ⟨laid1, accounted, keeps⟩ := laid.mark_spec (k + sizeofStructMem)
    exact ⟨k, back, laid1, accounted, keeps, .inl ⟨rfl, rfl⟩⟩

end Laid

/-! ## Plugging holes -/

/-- Free blocks were joined. The used blocks and the variables stay. -/
structure Joined (s : SmallMem) (blocks : List Block) (next : SmallMem)
    (blocks' : List Block) : Prop where
  laid : Laid next blocks'
  lfree : next.lfree = s.lfree
  lowest : Tiling.lowest sizeofStructMem blocks' = Tiling.lowest sizeofStructMem blocks
  spans : Tiling.spans sizeofStructMem 0 blocks' = Tiling.spans sizeofStructMem 0 blocks
  used : Tiling.used sizeofStructMem blocks' = Tiling.used sizeofStructMem blocks
  stats : s.SameStats next
  keeps : Keeps s next (Tiling.spans sizeofStructMem 0 blocks)
  sizes : (∀ block ∈ blocks, 0 < block.size ∧ block.size % 4 = 0) →
    ∀ block ∈ blocks', 0 < block.size ∧ block.size % 4 = 0

namespace Joined

/-- Nothing is joined. -/
theorem refl (laid : Laid s blocks) : Joined s blocks s blocks :=
  ⟨laid, rfl, rfl, rfl, rfl, ⟨rfl, rfl, rfl⟩, fun _ _ => rfl, id⟩

/-- Joining twice is joining. -/
theorem trans {last : SmallMem} {blocks' blocks'' : List Block}
    (early : Joined s blocks next blocks') (late : Joined next blocks' last blocks'') :
    Joined s blocks last blocks'' where
  laid := late.laid
  lfree := late.lfree.trans early.lfree
  lowest := late.lowest.trans early.lowest
  spans := late.spans.trans early.spans
  used := late.used.trans early.used
  stats := ⟨late.stats.1.trans early.stats.1, late.stats.2.1.trans early.stats.2.1,
    late.stats.2.2.trans early.stats.2.2⟩
  keeps := early.keeps.trans (early.spans ▸ late.keeps)
  sizes all := late.sizes (early.sizes all)

/-- A free block takes in the free block behind it. -/
theorem join (laid : Laid s (front ++ ⟨m, false⟩ :: ⟨n, false⟩ :: back))
    (low : s.lfree = Tiling.lowest sizeofStructMem (front ++ ⟨m, false⟩ :: ⟨n, false⟩ :: back)) :
    Joined s (front ++ ⟨m, false⟩ :: ⟨n, false⟩ :: back)
      (s.join (width sizeofStructMem front) (width sizeofStructMem front + sizeofStructMem + m))
      (front ++ ⟨m + sizeofStructMem + n, false⟩ :: back) where
  laid := laid.join
  lfree := by
    -- The lowest free block is not behind the first of the two.
    have lower : Tiling.lowest sizeofStructMem (front ++ ⟨m, false⟩ :: ⟨n, false⟩ :: back) ≤
        width sizeofStructMem front := lowest_le_of_free rfl
    rw [SmallMem.lfree_join, if_neg]
    rw [low]
    simp only [sizeofStructMem] at *
    omega
  lowest := lowest_join
  spans := spans_join
  used := used_join
  stats := SmallMem.sameStats_join
  keeps span member := by
    refine laid.slice_join ?_
    rw [spans_append] at member
    rcases List.mem_append.mp member with early | late
    · have := (bounds_of_mem_spans early).2
      omega
    · simp only [spans_cons, Bool.false_eq_true, if_false, List.nil_append] at late
      have := (bounds_of_mem_spans late).1
      omega
  sizes all block member := by
    have first := all ⟨m, false⟩ (by simp)
    have second := all ⟨n, false⟩ (by simp)
    rw [List.mem_append, List.mem_cons] at member
    rcases member with early | rfl | late
    · exact all block (by simp [early])
    · simp only [sizeofStructMem] at *
      omega
    · exact all block (by simp [late])

end Joined

/-- Looking forward, a free block takes in the next one if that is free. -/
theorem Laid.plugForward (laid : Laid s (front ++ ⟨k, false⟩ :: back)) (plugged : Plugged back)
    (low : s.lfree = Tiling.lowest sizeofStructMem (front ++ ⟨k, false⟩ :: back)) :
    ∃ k' back', Joined s (front ++ ⟨k, false⟩ :: back) (s.plugForward (width sizeofStructMem front))
      (front ++ ⟨k', false⟩ :: back') ∧ Plugged (⟨k', false⟩ :: back') := by
  -- What lies behind is the stub, a free block or a used one.
  have parts := laid.parts
  unfold SmallMem.plugForward
  rw [laid.header_eq]
  dsimp only at parts ⊢
  cases back with
  | nil =>
    rw [width_nil, Nat.add_zero] at parts
    rw [if_neg fun joins => joins.2.2 parts]
    exact ⟨k, [], .refl laid, List.isChain_singleton _⟩
  | cons block back =>
    have there := (linked_append.mp laid.linked).2.2.1
    rw [Nat.zero_add] at there
    dsimp only at there
    rw [there]
    obtain ⟨n, used⟩ := block
    cases used with
    | false =>
      rw [if_pos]
      · refine ⟨k + sizeofStructMem + n, back, .join laid low, ?_⟩
        cases back with
        | nil => exact List.isChain_singleton _
        | cons third back =>
          have chain := List.isChain_cons_cons.mp plugged
          exact List.isChain_cons_cons.mpr ⟨.inr (by simpa using chain.1), chain.2⟩
      · rw [width_cons] at parts
        refine ⟨?_, rfl, ?_⟩ <;> simp only [SmallMem.heapEnd, sizeofStructMem] at * <;> omega
    | true =>
      rw [if_neg fun joins => absurd joins.2.1 (by simp [flagOf])]
      exact ⟨k, ⟨n, true⟩ :: back, .refl laid, List.isChain_cons_cons.mpr ⟨.inr rfl, plugged⟩⟩

/-- Looking backward, a free block is taken in by the one in front of it if that is free. -/
theorem Laid.plugBackward (laid : Laid s (front ++ ⟨k, false⟩ :: back)) (early : Plugged front)
    (late : Plugged (⟨k, false⟩ :: back))
    (low : s.lfree = Tiling.lowest sizeofStructMem (front ++ ⟨k, false⟩ :: back)) :
    ∃ blocks', Joined s (front ++ ⟨k, false⟩ :: back)
      (s.plugBackward (width sizeofStructMem front)) blocks' ∧
      Plugged blocks' := by
  -- What lies in front is nothing, a free block or a used one.
  unfold SmallMem.plugBackward
  rw [laid.header_eq]
  dsimp only
  induction front using List.reverseRecOn with
  | nil =>
    rw [if_neg fun joins => joins.1 rfl]
    exact ⟨_, .refl laid, late⟩
  | append_singleton front block =>
    obtain ⟨m, used⟩ := block
    rw [lastStart_append_cons, Nat.zero_add]
    have laid' : Laid s (front ++ ⟨m, used⟩ :: ⟨k, false⟩ :: back) := by
      rwa [← List.append_cons] at laid
    rw [laid'.header_eq]
    have place : width sizeofStructMem (front ++ [⟨m, used⟩]) =
        width sizeofStructMem front + sizeofStructMem + m := by
      simp only [width_append, width_cons, width_nil]
      omega
    rw [place]
    rw [← List.append_cons] at low ⊢
    cases used with
    | false =>
      rw [if_pos ⟨by simp only [sizeofStructMem]; omega, rfl⟩]
      exact ⟨_, .join laid' low, early.share late _⟩
    | true =>
      rw [if_neg fun joins => absurd joins.2 (by simp [flagOf])]
      exact ⟨_, .refl laid', (plugged_append_cons rfl).mpr ⟨early.parts.1, late⟩⟩

/-- `plug_holes` joins a free block with its neighbours, so that no two free blocks are in a row. -/
theorem Laid.plugHoles (laid : Laid s (front ++ ⟨k, false⟩ :: back)) (early : Plugged front)
    (late : Plugged back)
    (low : s.lfree = Tiling.lowest sizeofStructMem (front ++ ⟨k, false⟩ :: back)) :
    ∃ next blocks', s.plugHoles (width sizeofStructMem front) = some next ∧
      Joined s (front ++ ⟨k, false⟩ :: back) next blocks' ∧ Plugged blocks' := by
  -- The assertions hold, and then both neighbours are looked at.
  have parts := laid.parts
  obtain ⟨k', back', forward, plugged⟩ := laid.plugForward late low
  obtain ⟨blocks', backward, plugged'⟩ := forward.laid.plugBackward early plugged
    (forward.lfree.trans (low.trans forward.lowest.symm))
  refine ⟨_, blocks', ?_, forward.trans backward, plugged'⟩
  rw [SmallMem.plugHoles, if_pos]
  rw [laid.header_eq]
  refine ⟨?_, rfl⟩
  simp only [SmallMem.heapEnd, sizeofStructMem] at *
  omega

end MultifunctionClock
