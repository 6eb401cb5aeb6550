import MultifunctionClock.Lib.Tiling
import MultifunctionClock.Memory.SmallMem

/-!
The headers of the heap cut it into blocks.

What the calls do to the headers is done to the blocks: a block changes its state, is cut in two, or
takes in the next one. The bytes of the other blocks stay.
-/

namespace MultifunctionClock

open Tiling

namespace HeapMem

/-- The fields have room in their bytes. -/
def Fits (mem : HeapMem) : Prop := mem.magic < 2 ^ 16 ∧ mem.used < 2 ^ 16 ∧ mem.next < 2 ^ 32 ∧
    mem.prev < 2 ^ 32

/-- A header has its twelve bytes. -/
@[simp] theorem length_encode (mem : HeapMem) : mem.encode.length = sizeofStructMem := by
  simp [encode, sizeofStructMem]

/-- A header is read back. -/
theorem decode_encode {mem : HeapMem} (fits : mem.Fits) : decode mem.encode = mem := by
  -- Each field is cut out of the bytes where it was put.
  obtain ⟨magic, used, next, prev⟩ := fits
  have two : (2 : ℕ) ^ 16 = 256 ^ 2 := by norm_num
  have four : (2 : ℕ) ^ 32 = 256 ^ 4 := by norm_num
  rw [two] at magic used
  rw [four] at next prev
  have parts : decode mem.encode = ⟨LittleEndian.decode (LittleEndian.encode 2 mem.magic),
      LittleEndian.decode (LittleEndian.encode 2 mem.used),
        LittleEndian.decode (LittleEndian.encode 4 mem.next),
      LittleEndian.decode (LittleEndian.encode 4 mem.prev)⟩ := by
    have past : ∀ count value offset, count ≤ offset →
      (LittleEndian.encode count value).drop offset = [] :=
      fun count value offset short => List.drop_of_length_le (by simpa using short)
    have whole : (LittleEndian.encode 4 mem.prev).take 4 = LittleEndian.encode 4 mem.prev :=
      List.take_of_length_le (by simp)
    simp [decode, encode, List.drop_append, past, whole]
  rw [parts, LittleEndian.decode_encode magic, LittleEndian.decode_encode used,
    LittleEndian.decode_encode next, LittleEndian.decode_encode prev]

/-- Whatever is read has room. -/
theorem decode_fits (bytes : Bytes) : (decode bytes).Fits := by
  -- A field of so many bytes has room in as many.
  have room : ∀ (part : Bytes) (count : ℕ), part.length ≤ count →
    LittleEndian.decode part < 256 ^ count :=
    fun part count short =>
      (LittleEndian.decode_lt part).trans_le (Nat.pow_le_pow_right (by norm_num) short)
  refine ⟨room _ 2 ?_, room _ 2 ?_, room _ 4 ?_, room _ 4 ?_⟩ <;> simp

end HeapMem

namespace SmallMem

variable {s : SmallMem} {ptr other start size : ℕ} {mem : HeapMem}

/-! ## Writing headers -/

/-- A header that was written is read back. -/
theorem header_setHeader_self (inside : ptr + sizeofStructMem ≤ s.memory.length) (fits : mem.Fits) :
    (s.setHeader ptr mem).header ptr = mem := by
  rw [header, setHeader, Bytes.drop_store_same (by omega), ← mem.length_encode, List.take_left,
    HeapMem.decode_encode fits]

/-- A range of bytes that a header is not written to stays. -/
theorem slice_setHeader (inside : ptr + sizeofStructMem ≤ s.memory.length)
    (apart : start + size ≤ ptr ∨ ptr + sizeofStructMem ≤ start) :
    ((s.setHeader ptr mem).memory.drop start).take size = (s.memory.drop start).take size := by
  rw [setHeader]
  exact Bytes.slice_store_of_disjoint (by simpa using inside) (by simpa using apart)

/-- Other headers stay. -/
theorem header_setHeader_of_apart (inside : ptr + sizeofStructMem ≤ s.memory.length)
    (apart : other + sizeofStructMem ≤ ptr ∨ ptr + sizeofStructMem ≤ other) :
    (s.setHeader ptr mem).header other = s.header other := by
  rw [header, slice_setHeader inside apart, header]

/-- A header has its place in the heap. -/
@[simp] theorem length_setHeader (inside : ptr + sizeofStructMem ≤ s.memory.length) :
    (s.setHeader ptr mem).memory.length = s.memory.length := by
  rw [setHeader]
  exact Bytes.length_store (by simpa using inside)

/-- Writing a header leaves the size alone. -/
@[simp] theorem memSizeAligned_setHeader :
    (s.setHeader ptr mem).memSizeAligned = s.memSizeAligned := rfl

/-- Writing a header leaves the end where it is. -/
@[simp] theorem heapEnd_setHeader : (s.setHeader ptr mem).heapEnd = s.heapEnd := rfl

/-- Writing a header leaves the lowest free block alone. -/
@[simp] theorem lfree_setHeader : (s.setHeader ptr mem).lfree = s.lfree := rfl

/-- Writing a header leaves the count of used memory alone. -/
@[simp] theorem usedMem_setHeader : (s.setHeader ptr mem).usedMem = s.usedMem := rfl

/-- Writing a header leaves the highest count alone. -/
@[simp] theorem maxMem_setHeader : (s.setHeader ptr mem).maxMem = s.maxMem := rfl

/-- Setting the lowest free block leaves the end where it is. -/
@[simp] theorem heapEnd_setLfree : (s.setLfree ptr).heapEnd = s.heapEnd := rfl

/-- Setting the lowest free block leaves the size alone. -/
@[simp] theorem memSizeAligned_setLfree : (s.setLfree ptr).memSizeAligned = s.memSizeAligned := rfl

/-- The lowest free block is the one that was set. -/
@[simp] theorem lfree_setLfree : (s.setLfree ptr).lfree = ptr := rfl

/-- Setting the lowest free block leaves the count of used memory alone. -/
@[simp] theorem usedMem_setLfree : (s.setLfree ptr).usedMem = s.usedMem := rfl

/-- Setting the lowest free block leaves the highest count alone. -/
@[simp] theorem maxMem_setLfree : (s.setLfree ptr).maxMem = s.maxMem := rfl

/-- Counting leaves the size alone. -/
@[simp] theorem memSizeAligned_spend : (s.spend size).memSizeAligned = s.memSizeAligned := rfl

/-- Memory that is freed is no longer counted. -/
@[simp] theorem usedMem_spend : (s.spend size).usedMem = s.usedMem - size := rfl

/-- Counting down leaves the highest count alone. -/
@[simp] theorem maxMem_spend : (s.spend size).maxMem = s.maxMem := rfl

/-- What is read has room. -/
theorem fits_header (s : SmallMem) (ptr : ℕ) : (s.header ptr).Fits := HeapMem.decode_fits _

end SmallMem

/-! ## Blocks -/

/-- The field `used` of a block. -/
def flagOf (used : Bool) : ℕ := if used then 1 else 0

/-- The header of a block has room in its bytes when its addresses have. -/
theorem fits_block (used : Bool) {next prev : ℕ} (small : next < 2 ^ 32) (small' : prev < 2 ^ 32) :
    HeapMem.Fits ⟨heapMagic, flagOf used, next, prev⟩ :=
  ⟨by simp [heapMagic], by cases used <;> simp [flagOf], small, small'⟩

/--
The headers from an address on stand for some blocks,
the first of which has another block in front of it.
-/
def Linked (header : ℕ → HeapMem) : ℕ → ℕ → List Block → Prop
  | _, _, [] => True
  | prev, ptr, block :: rest =>
    header ptr = ⟨heapMagic, flagOf block.used, ptr + sizeofStructMem + block.size, prev⟩ ∧
      Linked header ptr (ptr + sizeofStructMem + block.size) rest

/-- Where the last of some blocks starts. -/
def lastStart : ℕ → ℕ → List Block → ℕ
  | prev, _, [] => prev
  | _, ptr, block :: rest => lastStart ptr (ptr + sizeofStructMem + block.size) rest

variable {header header' : ℕ → HeapMem} {prev ptr : ℕ} {blocks front back : List Block}
  {block : Block}

/-- Blocks in a row are linked when each part is. -/
theorem linked_append : Linked header prev ptr (front ++ back) ↔
    Linked header prev ptr front ∧
      Linked header (lastStart prev ptr front) (ptr + width sizeofStructMem front) back := by
  -- The header in front of the rest is that of the last block before it.
  induction front generalizing prev ptr with
  | nil => simp [Linked, lastStart]
  | cons block front ih =>
    rw [List.cons_append, Linked, Linked, ih, and_assoc, lastStart, width_cons]
    simp only [Nat.add_assoc]

/-- Blocks whose headers stay are still linked. -/
theorem Linked.congr (linked : Linked header prev ptr blocks)
    (same : ∀ at_, ptr ≤ at_ → at_ + sizeofStructMem ≤ ptr + width sizeofStructMem blocks →
      header' at_ = header at_) : Linked header' prev ptr blocks := by
  -- Each header lies in its own block.
  induction blocks generalizing prev ptr with
  | nil => trivial
  | cons block rest ih =>
    obtain ⟨here, later⟩ := linked
    rw [width_cons] at same
    refine ⟨?_, ih later fun at_ behind inside => same at_ (by omega) (by omega)⟩
    rw [same ptr le_rfl (by omega), here]

/--
Blocks are linked to another block in front of them, when that is written to the first header.
-/
theorem Linked.relink (linked : Linked header prev ptr blocks) {prev' : ℕ}
    (first : blocks ≠ [] → header' ptr = { header ptr with prev := prev' })
    (same : ∀ at_, ptr + sizeofStructMem ≤ at_ →
      at_ + sizeofStructMem ≤ ptr + width sizeofStructMem blocks →
      header' at_ = header at_) : Linked header' prev' ptr blocks := by
  -- Only the first header says what is in front of it.
  cases blocks with
  | nil => trivial
  | cons block rest =>
    obtain ⟨here, later⟩ := linked
    rw [width_cons] at same
    refine ⟨?_, later.congr fun at_ behind inside => same at_ (by omega) (by omega)⟩
    rw [first (by simp), here]

/-- The last block in front of an address starts there. -/
theorem lastStart_append_cons :
    lastStart prev ptr (front ++ [block]) = ptr + width sizeofStructMem front := by
  -- Each block moves the start on by its width.
  induction front generalizing prev ptr with
  | nil => simp [lastStart]
  | cons first front ih =>
    rw [List.cons_append, lastStart, ih, width_cons]
    omega

/--
The heap is cut into blocks by its headers.

The stub at the end is never freed, so what it has in front of it is not read.
-/
structure Laid (s : SmallMem) (blocks : List Block) : Prop where
  length : s.memory.length = s.memSizeAligned + 2 * sizeofStructMem
  bound : s.memSizeAligned + 2 * sizeofStructMem < 2 ^ 32
  linked : Linked s.header 0 0 blocks
  total : width sizeofStructMem blocks = s.memSizeAligned + sizeofStructMem
  stub : (s.header s.heapEnd).used = 1

namespace Laid

variable {s : SmallMem} {n m : ℕ} {u v : Bool}

/-- The header of a block. -/
theorem header_eq (laid : Laid s (front ++ block :: back)) :
    s.header (width sizeofStructMem front) = ⟨heapMagic, flagOf block.used,
      width sizeofStructMem front + sizeofStructMem + block.size, lastStart 0 0 front⟩ := by
  -- The blocks in front take their widths.
  have linked := (linked_append.mp laid.linked).2
  rw [Nat.zero_add] at linked
  exact linked.1

/-- Where the parts of the heap lie. -/
theorem parts (laid : Laid s (front ++ block :: back)) :
    width sizeofStructMem front + sizeofStructMem + block.size + width sizeofStructMem back =
      s.memSizeAligned + sizeofStructMem := by
  have total := laid.total
  simp only [width_append, width_cons] at total
  omega

/-- The header of a block is written, so that it has another state. -/
theorem write (laid : Laid s (front ++ ⟨n, u⟩ :: back)) (v : Bool) {mem : HeapMem}
    (same : mem = ⟨heapMagic, flagOf v, width sizeofStructMem front + sizeofStructMem + n,
      lastStart 0 0 front⟩) :
    Laid (s.setHeader (width sizeofStructMem front) mem) (front ++ ⟨n, v⟩ :: back) := by
  -- The header keeps its links, and no other header is touched.
  have parts := laid.parts
  have bound := laid.bound
  have length := laid.length
  have inside : width sizeofStructMem front + sizeofStructMem ≤ s.memory.length := by
    simp only [sizeofStructMem] at *
    omega
  have fits : mem.Fits := by
    have before := laid.header_eq ▸ s.fits_header (width sizeofStructMem front)
    obtain ⟨magic, -, next, prev⟩ := before
    rw [same]
    exact ⟨magic, by cases v <;> simp [flagOf], next, prev⟩
  obtain ⟨early, here, late⟩ := linked_append.mp laid.linked
  refine ⟨?_, bound, linked_append.mpr ⟨early.congr fun at_ _ before => ?_, ?_,
    late.congr fun at_ behind _ => ?_⟩,
    ?_, ?_⟩
  · rw [SmallMem.length_setHeader inside]
    exact length
  · exact SmallMem.header_setHeader_of_apart inside (.inl (by omega))
  · rw [Nat.zero_add, SmallMem.header_setHeader_self inside fits]
    exact same
  · exact SmallMem.header_setHeader_of_apart inside (.inr (by omega))
  · simpa using laid.total
  · rw [SmallMem.heapEnd_setHeader, SmallMem.header_setHeader_of_apart inside (.inr ?_)]
    · exact laid.stub
    · simp only [SmallMem.heapEnd, sizeofStructMem] at *
      omega

/-- The blocks behind some others are linked to the last of those. -/
theorem of_setPrev (linked : Linked s.header 0 0 front)
    (late : Linked s.header prev (width sizeofStructMem front) back)
    (length : s.memory.length = s.memSizeAligned + 2 * sizeofStructMem)
    (bound : s.memSizeAligned + 2 * sizeofStructMem < 2 ^ 32)
    (total : width sizeofStructMem (front ++ back) = s.memSizeAligned + sizeofStructMem)
    (stub : (s.header s.heapEnd).used = 1) (small : lastStart 0 0 front < 2 ^ 32) :
    Laid (s.setPrev (width sizeofStructMem front) (lastStart 0 0 front)) (front ++ back) := by
  -- One header is written, behind all blocks of the front.
  have parts := total
  rw [width_append] at parts
  generalize next_eq : width sizeofStructMem front = next at *
  have inside : next + sizeofStructMem ≤ s.memory.length := by omega
  have read := s.fits_header next
  have first : (s.setPrev next (lastStart 0 0 front)).header next =
      { s.header next with prev := lastStart 0 0 front } :=
    SmallMem.header_setHeader_self inside ⟨read.1, read.2.1, read.2.2.1, small⟩
  have others : ∀ at_, at_ + sizeofStructMem ≤ next ∨ next + sizeofStructMem ≤ at_ →
      (s.setPrev next (lastStart 0 0 front)).header at_ = s.header at_ := fun at_ apart =>
    SmallMem.header_setHeader_of_apart inside apart
  refine ⟨(SmallMem.length_setHeader inside).trans length, bound,
    linked_append.mpr ⟨?_, ?_⟩, total, ?_⟩
  · exact linked.congr fun at_ _ before => others at_ (.inl (by omega))
  · rw [Nat.zero_add, next_eq]
    exact late.relink (fun _ => first) fun at_ behind _ => others at_ (.inr behind)
  · -- The stub is the first header there, or lies behind it.
    show ((s.setPrev next (lastStart 0 0 front)).header s.heapEnd).used = 1
    cases back with
    | nil =>
      have last : s.heapEnd = next := parts.symm.trans (by simp)
      rw [last] at stub ⊢
      rw [first]
      exact stub
    | cons block rest =>
      rw [width_cons] at parts
      have end_eq : s.heapEnd = s.memSizeAligned + sizeofStructMem := rfl
      rw [others _ (.inr (by omega))]
      exact stub

/-- Two headers are written that lie apart, and all others stay. -/
theorem two_headers {ptr other : ℕ} {mem mem' : HeapMem} (apart : ptr + sizeofStructMem ≤ other)
    (inside : other + sizeofStructMem ≤ s.memory.length) (fits : mem.Fits) (fits' : mem'.Fits) :
    ((s.setHeader other mem').setHeader ptr mem).header ptr = mem ∧
    ((s.setHeader other mem').setHeader ptr mem).header other = mem' ∧
    ((s.setHeader other mem').setHeader ptr mem).memory.length = s.memory.length ∧
    ∀ at_, at_ + sizeofStructMem ≤ ptr ∨ other + sizeofStructMem ≤ at_ →
      ((s.setHeader other mem').setHeader ptr mem).header at_ = s.header at_ := by
  have length : (s.setHeader other mem').memory.length = s.memory.length :=
    SmallMem.length_setHeader inside
  have inside' : ptr + sizeofStructMem ≤ (s.setHeader other mem').memory.length := by omega
  refine ⟨SmallMem.header_setHeader_self inside' fits, ?_,
    (SmallMem.length_setHeader inside').trans length, fun at_ away => ?_⟩
  · rw [SmallMem.header_setHeader_of_apart inside' (.inr apart)]
    exact SmallMem.header_setHeader_self inside fits'
  · rw [SmallMem.header_setHeader_of_apart inside' (by omega)]
    exact SmallMem.header_setHeader_of_apart inside (by omega)

/-- Behind a block that ends where the heap ends there is no other block. -/
theorem back_eq_nil (laid : Laid s (front ++ block :: back))
    (last : width sizeofStructMem front + sizeofStructMem + block.size =
      s.memSizeAligned + sizeofStructMem) : back = [] := by
  have parts := laid.parts
  cases back with
  | nil => rfl
  | cons next rest =>
    rw [width_cons] at parts
    simp only [sizeofStructMem] at parts last
    omega

/-- A block is cut in two. -/
theorem cut (laid : Laid s (front ++ ⟨m + sizeofStructMem + n, u⟩ :: back)) :
    Laid (s.cut (width sizeofStructMem front) (width sizeofStructMem front + sizeofStructMem + m))
      (front ++ ⟨m, u⟩ :: ⟨n, false⟩ :: back) := by
  -- Two headers are written inside the block, and then the one behind it.
  have parts := laid.parts
  have bound := laid.bound
  have length := laid.length
  have here := laid.header_eq
  have small := (s.fits_header (width sizeofStructMem front)).2.2.2
  obtain ⟨early, -, late⟩ := linked_append.mp laid.linked
  rw [Nat.zero_add] at late
  rw [here] at small
  dsimp only at parts here late small
  simp only [SmallMem.cut, here]
  have end_eq : s.heapEnd = s.memSizeAligned + sizeofStructMem := rfl
  have total : width sizeofStructMem (front ++ ⟨m, u⟩ :: ⟨n, false⟩ :: back) =
      s.memSizeAligned + sizeofStructMem := by
    simp only [width_append, width_cons]
    omega
  have nothing_behind := laid.back_eq_nil
  generalize ptr_eq : width sizeofStructMem front = ptr at *
  -- First the new header is written, then the old one.
  have inside : ptr + sizeofStructMem + m + sizeofStructMem ≤ s.memory.length := by omega
  have fits : HeapMem.Fits ⟨heapMagic, flagOf u, ptr + sizeofStructMem + m, lastStart 0 0 front⟩ :=
    fits_block u (by omega) small
  have fits' : HeapMem.Fits
      ⟨heapMagic, 0, ptr + sizeofStructMem + (m + sizeofStructMem + n), ptr⟩ :=
    fits_block false (by omega) (by omega)
  obtain ⟨first, second, length2, others⟩ :=
    two_headers (Nat.le_add_right (ptr + sizeofStructMem) m) inside fits fits'
  rw [SmallMem.header_setHeader_of_apart inside (.inl (by omega)), here]
  rw [length] at length2
  dsimp only
  set s2 := (s.setHeader (ptr + sizeofStructMem + m)
    ⟨heapMagic, 0, ptr + sizeofStructMem + (m + sizeofStructMem + n), ptr⟩).setHeader ptr
    ⟨heapMagic, flagOf u, ptr + sizeofStructMem + m, lastStart 0 0 front⟩
  have behind : ptr + sizeofStructMem + m + sizeofStructMem + n =
      ptr + sizeofStructMem + (m + sizeofStructMem + n) := by omega
  have linked : Linked s2.header 0 0 (front ++ [⟨m, u⟩, ⟨n, false⟩]) := by
    refine linked_append.mpr ⟨early.congr fun at_ _ before => others at_ (.inl (by omega)), ?_⟩
    rw [Nat.zero_add, ptr_eq]
    refine ⟨first, ?_, trivial⟩
    rw [second, behind]
    rfl
  have late2 : Linked s2.header ptr (ptr + sizeofStructMem + (m + sizeofStructMem + n)) back :=
    late.congr fun at_ behind _ => others at_ (.inr (by omega))
  have stub2 : (s2.header s.heapEnd).used = 1 := by
    rw [others s.heapEnd (.inr (by omega))]
    exact laid.stub
  have split_eq : front ++ ⟨m, u⟩ :: ⟨n, false⟩ :: back =
      front ++ [⟨m, u⟩, ⟨n, false⟩] ++ back := by simp
  have width_eq : width sizeofStructMem (front ++ [⟨m, u⟩, ⟨n, false⟩]) =
      ptr + sizeofStructMem + (m + sizeofStructMem + n) := by
    simp only [width_append, width_cons, width_nil, ptr_eq]
    omega
  have last_eq : lastStart 0 0 (front ++ [⟨m, u⟩, ⟨n, false⟩]) = ptr + sizeofStructMem + m := by
    rw [List.append_cons, lastStart_append_cons]
    simp only [width_append, width_cons, width_nil, ptr_eq]
    omega
  rw [split_eq] at total ⊢
  split
  · -- What lies behind the block is linked to the new header.
    rw [← width_eq, ← last_eq]
    exact of_setPrev linked (width_eq ▸ late2) length2 bound total stub2 (by omega)
  · -- Nothing lies behind the block but the stub.
    rename_i last
    obtain rfl := nothing_behind (not_not.mp last)
    rw [List.append_nil] at total ⊢
    exact ⟨length2, bound, linked, total, stub2⟩

/-- A block takes in the next one. -/
theorem join (laid : Laid s (front ++ ⟨m, u⟩ :: ⟨n, v⟩ :: back)) :
    Laid (s.join (width sizeofStructMem front) (width sizeofStructMem front + sizeofStructMem + m))
      (front ++ ⟨m + sizeofStructMem + n, u⟩ :: back) := by
  -- The header of the first block is written, and then the one behind the second.
  have parts := laid.total
  simp only [width_append, width_cons] at parts
  have bound := laid.bound
  have length := laid.length
  have here := laid.header_eq
  have small := (s.fits_header (width sizeofStructMem front)).2.2.2
  obtain ⟨early, -, there, late⟩ := linked_append.mp laid.linked
  rw [Nat.zero_add] at there late
  rw [here] at small
  dsimp only at parts here there late small
  have end_eq : s.heapEnd = s.memSizeAligned + sizeofStructMem := rfl
  have total : width sizeofStructMem (front ++ ⟨m + sizeofStructMem + n, u⟩ :: back) =
      s.memSizeAligned + sizeofStructMem := by
    simp only [width_append, width_cons]
    omega
  generalize ptr_eq : width sizeofStructMem front = ptr at *
  -- Which block is the lowest free one is not seen in the headers.
  set s0 : SmallMem :=
    if s.lfree = ptr + sizeofStructMem + m then { s with lfree := ptr } else s with s0_eq
  have same : s0.memory = s.memory ∧ s0.memSizeAligned = s.memSizeAligned := by
    rw [s0_eq]
    split <;> exact ⟨rfl, rfl⟩
  have header_eq : s0.header = s.header :=
    funext fun at_ => by rw [SmallMem.header, same.1, SmallMem.header]
  simp only [SmallMem.join, ← s0_eq, header_eq, here, there]
  have inside : ptr + sizeofStructMem ≤ s0.memory.length := by
    rw [same.1]
    omega
  have behind : ptr + sizeofStructMem + m + sizeofStructMem + n =
      ptr + sizeofStructMem + (m + sizeofStructMem + n) := by omega
  rw [behind] at late ⊢
  set s1 := s0.setHeader ptr
    ⟨heapMagic, flagOf u, ptr + sizeofStructMem + (m + sizeofStructMem + n),
    lastStart 0 0 front⟩ with s1_eq
  have first : s1.header ptr =
    ⟨heapMagic, flagOf u, ptr + sizeofStructMem + (m + sizeofStructMem + n),
      lastStart 0 0 front⟩ := SmallMem.header_setHeader_self inside (fits_block u (by omega) small)
  have others : ∀ at_, at_ + sizeofStructMem ≤ ptr ∨ ptr + sizeofStructMem ≤ at_ →
      s1.header at_ = s.header at_ := fun at_ apart => by
    rw [← header_eq]
    exact SmallMem.header_setHeader_of_apart inside apart
  have linked : Linked s1.header 0 0 (front ++ [⟨m + sizeofStructMem + n, u⟩]) := by
    refine linked_append.mpr ⟨early.congr fun at_ _ before => others at_ (.inl (by omega)), ?_⟩
    rw [Nat.zero_add, ptr_eq]
    exact ⟨first, trivial⟩
  have late1 : Linked s1.header (ptr + sizeofStructMem + m)
      (ptr + sizeofStructMem + (m + sizeofStructMem + n)) back :=
    late.congr fun at_ behind _ => others at_ (.inr (by omega))
  have length1 : s1.memory.length = s1.memSizeAligned + 2 * sizeofStructMem := by
    rw [s1_eq, SmallMem.length_setHeader inside, SmallMem.memSizeAligned_setHeader, same.1,
      same.2, length]
  have aligned : s1.memSizeAligned = s.memSizeAligned := same.2
  have stub1 : (s1.header s1.heapEnd).used = 1 := by
    rw [SmallMem.heapEnd, aligned, others _ (.inr (by omega))]
    exact laid.stub
  have width_eq : width sizeofStructMem (front ++ [⟨m + sizeofStructMem + n, u⟩]) =
      ptr + sizeofStructMem + (m + sizeofStructMem + n) := by
    simp only [width_append, width_cons, width_nil, ptr_eq]
    omega
  have last_eq : lastStart 0 0 (front ++ [⟨m + sizeofStructMem + n, u⟩]) = ptr := by
    rw [lastStart_append_cons, Nat.zero_add, ptr_eq]
  rw [List.append_cons] at total ⊢
  have laid1 := of_setPrev linked (width_eq ▸ late1) length1 (aligned ▸ bound) (aligned ▸ total)
    stub1 (by omega)
  rwa [width_eq, last_eq] at laid1

end Laid

/-! ## What stays -/

namespace SmallMem

variable {s : SmallMem} {ptr other prev start size : ℕ}

/-- The bytes of a range. -/
def slice (s : SmallMem) (start size : ℕ) : Bytes := (s.memory.drop start).take size

/-- Setting the lowest free block leaves the bytes alone. -/
@[simp] theorem slice_setLfree : (s.setLfree ptr).slice start size = s.slice start size := rfl

/-- Counting leaves the bytes alone. -/
@[simp] theorem slice_spend {amount : ℕ} :
    (s.spend amount).slice start size = s.slice start size := rfl

/-- The variables that cutting and joining do not touch. -/
def SameStats (s next : SmallMem) : Prop :=
  next.memSizeAligned = s.memSizeAligned ∧ next.usedMem = s.usedMem ∧ next.maxMem = s.maxMem

/-- Cutting a block leaves the lowest free block alone. -/
@[simp] theorem lfree_cut : (s.cut ptr other).lfree = s.lfree := by
  unfold cut
  dsimp only
  split <;> rfl

/-- Cutting a block counts nothing. -/
theorem sameStats_cut (s : SmallMem) (ptr other : ℕ) : s.SameStats (s.cut ptr other) := by
  unfold cut
  dsimp only
  split <;> exact ⟨rfl, rfl, rfl⟩

/-- Joining moves the lowest free block when that is the one that is taken in. -/
@[simp] theorem lfree_join :
    (s.join ptr other).lfree = if s.lfree = other then ptr else s.lfree := by
  unfold join
  dsimp only
  split <;> rfl

/-- Joining blocks counts nothing. -/
theorem sameStats_join : s.SameStats (s.join ptr other) := by
  unfold join
  dsimp only
  split <;> exact ⟨rfl, rfl, rfl⟩

/--
A range in front of a header or behind it stays when the block in front of the header changes.
-/
theorem slice_setPrev (inside : ptr + sizeofStructMem ≤ s.memory.length)
    (apart : start + size ≤ ptr ∨ ptr + sizeofStructMem ≤ start) :
    (s.setPrev ptr prev).slice start size = s.slice start size :=
  slice_setHeader inside apart

end SmallMem

namespace Laid

variable {s : SmallMem} {n m start size : ℕ} {u v : Bool}

/-- Cutting a block keeps the bytes of its first part, and of all other blocks. -/
theorem slice_cut (laid : Laid s (front ++ ⟨m + sizeofStructMem + n, u⟩ :: back))
    (apart : start + size ≤ width sizeofStructMem front ∨
      (width sizeofStructMem front + sizeofStructMem ≤ start ∧
        start + size ≤ width sizeofStructMem front + sizeofStructMem + m) ∨
      width sizeofStructMem front + sizeofStructMem + (m + sizeofStructMem + n) +
        sizeofStructMem ≤ start) :
    (s.cut (width sizeofStructMem front) (width sizeofStructMem front + sizeofStructMem + m)).slice
      start size = s.slice start size := by
  -- The three headers that are written lie outside the range.
  have parts := laid.parts
  have length := laid.length
  have here := laid.header_eq
  dsimp only at parts here
  unfold SmallMem.cut
  rw [here]
  dsimp only
  generalize width sizeofStructMem front = ptr at *
  have inside1 : ptr + sizeofStructMem + m + sizeofStructMem ≤ s.memory.length := by omega
  have inside : ∀ mem, ptr + sizeofStructMem ≤
      (s.setHeader (ptr + sizeofStructMem + m) mem).memory.length := fun mem => by
    rw [SmallMem.length_setHeader inside1]
    omega
  have two : ∀ mem mem',
    ((s.setHeader (ptr + sizeofStructMem + m) mem).setHeader ptr mem').slice start size =
      s.slice start size := fun mem mem' =>
    (SmallMem.slice_setHeader (inside mem) (by omega)).trans
      (SmallMem.slice_setHeader inside1 (by omega))
  split
  · rw [SmallMem.slice_setPrev ?_ (by omega), two]
    rw [SmallMem.length_setHeader (inside _), SmallMem.length_setHeader inside1]
    omega
  · exact two _ _

/-- Joining two blocks keeps the bytes of all others. -/
theorem slice_join (laid : Laid s (front ++ ⟨m, u⟩ :: ⟨n, v⟩ :: back))
    (apart : start + size ≤ width sizeofStructMem front ∨
      width sizeofStructMem front + sizeofStructMem + m + sizeofStructMem + n +
        sizeofStructMem ≤ start) :
    (s.join (width sizeofStructMem front) (width sizeofStructMem front + sizeofStructMem + m)).slice
      start size = s.slice start size := by
  -- The two headers that are written lie outside the range.
  have parts := laid.total
  simp only [width_append, width_cons] at parts
  have length := laid.length
  obtain ⟨-, -, there, -⟩ := linked_append.mp laid.linked
  rw [Nat.zero_add] at there
  dsimp only at parts there
  simp only [SmallMem.join]
  generalize width sizeofStructMem front = ptr at *
  set s0 : SmallMem :=
    if s.lfree = ptr + sizeofStructMem + m then { s with lfree := ptr } else s with s0_eq
  have same : s0.memory = s.memory := by
    rw [s0_eq]
    split <;> rfl
  have header_eq : s0.header (ptr + sizeofStructMem + m) =
      s.header (ptr + sizeofStructMem + m) := by
    rw [SmallMem.header, same, SmallMem.header]
  simp only [header_eq, there]
  have inside : ptr + sizeofStructMem ≤ s0.memory.length := by
    rw [same]
    omega
  rw [SmallMem.slice_setPrev ?_ (by omega)]
  · refine (SmallMem.slice_setHeader inside (by omega)).trans ?_
    rw [same, SmallMem.slice]
  · rw [SmallMem.length_setHeader inside, same]
    omega

end Laid

end MultifunctionClock
