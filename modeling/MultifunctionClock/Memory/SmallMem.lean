import MultifunctionClock.Lib.LittleEndian

/-!
The heap of the kernel: `rt_malloc`, `rt_realloc` and `rt_free` over one array of bytes.

The headers of the blocks stand in the same bytes as the data. What a call does under `heap_sem` is
modelled as a whole. Addresses are counted from `heap_ptr`, which is aligned.
-/

namespace MultifunctionClock

/-- `struct heap_mem`. -/
structure HeapMem where
  magic : ℕ
  used : ℕ
  next : ℕ
  prev : ℕ
deriving DecidableEq

/-- `SIZEOF_STRUCT_MEM`. -/
def sizeofStructMem : ℕ := 12

/-- `MIN_SIZE_ALIGNED`, which is also `MIN_SIZE`. -/
def minSizeAligned : ℕ := 12

/-- `HEAP_MAGIC`. -/
def heapMagic : ℕ := 0x1ea0

/-- `RT_ALIGN` of a number of 32 bits, to `RT_ALIGN_SIZE`. -/
def rtAlign (size : ℕ) : ℕ := (size + 3) % 2 ^ 32 / 4 * 4

/-- A difference of numbers of 32 bits. -/
def sub32 (one other : ℕ) : ℕ := (one + 2 ^ 32 - other) % 2 ^ 32

namespace HeapMem

/-- The bytes of a header. -/
def encode (mem : HeapMem) : Bytes :=
  LittleEndian.encode 2 mem.magic ++ (LittleEndian.encode 2 mem.used ++
    (LittleEndian.encode 4 mem.next ++ LittleEndian.encode 4 mem.prev))

/-- The header in some bytes. -/
def decode (bytes : Bytes) : HeapMem where
  magic := LittleEndian.decode (bytes.take 2)
  used := LittleEndian.decode ((bytes.drop 2).take 2)
  next := LittleEndian.decode ((bytes.drop 4).take 4)
  prev := LittleEndian.decode ((bytes.drop 8).take 4)

end HeapMem

/-- The variables of the heap, with its bytes up to the end of the last header. -/
structure SmallMem where
  memory : Bytes
  memSizeAligned : ℕ
  /-- The lowest free block. -/
  lfree : ℕ
  usedMem : ℕ
  maxMem : ℕ

namespace SmallMem

/-- `heap_end`. -/
def heapEnd (s : SmallMem) : ℕ := s.memSizeAligned + sizeofStructMem

/-- The header at an address. -/
def header (s : SmallMem) (ptr : ℕ) : HeapMem :=
  HeapMem.decode ((s.memory.drop ptr).take sizeofStructMem)

/-- Bytes are written. -/
def store (s : SmallMem) (ptr : ℕ) (data : Bytes) : SmallMem :=
  { s with memory := Bytes.store ptr data s.memory }

/-- A header is written. -/
def setHeader (s : SmallMem) (ptr : ℕ) (mem : HeapMem) : SmallMem :=
  { s with memory := Bytes.store ptr mem.encode s.memory }

/-- The field `prev` of a header is written. -/
def setPrev (s : SmallMem) (ptr prev : ℕ) : SmallMem :=
  s.setHeader ptr { s.header ptr with prev := prev }

/--
`rt_system_heap_init` of a region of memory between two addresses.

There is no result when the region is too small for two headers.
-/
def rtSystemHeapInit (beginAddr endAddr : ℕ) (memory : Bytes) : Option SmallMem :=
  let beginAlign := rtAlign beginAddr
  let endAlign := endAddr / 4 * 4
  if 2 * sizeofStructMem < endAlign ∧ beginAlign ≤ endAlign - 2 * sizeofStructMem then
    let size := endAlign - beginAlign - 2 * sizeofStructMem
    let s : SmallMem := ⟨memory, size, 0, 0, 0⟩
    -- One free block, and behind it a header that is used and points to itself.
    some ((s.setHeader 0 ⟨heapMagic, 0, size + sizeofStructMem, 0⟩).setHeader
      (size + sizeofStructMem)
      ⟨heapMagic, 1, size + sizeofStructMem, size + sizeofStructMem⟩)
  else none

/-- A free block takes in the free block behind it. -/
def join (s : SmallMem) (mem nmem : ℕ) : SmallMem :=
  -- The block that goes away may have been the lowest free one.
  let s := if s.lfree = nmem then { s with lfree := mem } else s
  let next := (s.header nmem).next
  (s.setHeader mem { s.header mem with next := next }).setPrev next mem

/-- The part of `plug_holes` that looks forward. -/
def plugForward (s : SmallMem) (mem : ℕ) : SmallMem :=
  let nmem := (s.header mem).next
  if mem ≠ nmem ∧ (s.header nmem).used = 0 ∧ nmem ≠ s.heapEnd then s.join mem nmem else s

/-- The part of `plug_holes` that looks backward. -/
def plugBackward (s : SmallMem) (mem : ℕ) : SmallMem :=
  let pmem := (s.header mem).prev
  if pmem ≠ mem ∧ (s.header pmem).used = 0 then s.join pmem mem else s

/-- `plug_holes`. There is no result when an assertion fails. -/
def plugHoles (s : SmallMem) (mem : ℕ) : Option SmallMem :=
  if mem < s.heapEnd ∧ (s.header mem).used = 0 then some ((s.plugForward mem).plugBackward mem)
  else none

/-- A block is cut in two. The second part is free. -/
def cut (s : SmallMem) (ptr ptr2 : ℕ) : SmallMem :=
  let next := (s.header ptr).next
  let s := s.setHeader ptr2 ⟨heapMagic, 0, next, ptr⟩
  let s := s.setHeader ptr { s.header ptr with next := ptr2 }
  -- The header at the end of the heap keeps what it has.
  if next ≠ s.memSizeAligned + sizeofStructMem then s.setPrev next ptr2 else s

/-- The used memory grows. -/
def account (s : SmallMem) (size : ℕ) : SmallMem :=
  { s with usedMem := s.usedMem + size, maxMem := max s.maxMem (s.usedMem + size) }

/-- The used memory gets less. -/
def spend (s : SmallMem) (amount : ℕ) : SmallMem := { s with usedMem := s.usedMem - amount }

/-- The lowest free block is another one. -/
def setLfree (s : SmallMem) (ptr : ℕ) : SmallMem := { s with lfree := ptr }

/-- The loop of `rt_malloc` that looks for a block. There is no result when it does not end. -/
def search (s : SmallMem) (size : ℕ) : ℕ → ℕ → Option (Option ℕ)
  | 0, _ => none
  | fuel + 1, ptr =>
    -- The difference wraps when the size is larger, as in the source.
    if ptr < sub32 s.memSizeAligned size then
      let mem := s.header ptr
      if mem.used = 0 ∧ size ≤ sub32 mem.next (ptr + sizeofStructMem) then some (some ptr)
      else s.search size fuel mem.next
    else some none

/--
The loop of `rt_malloc` that looks for the next free block. There is no result when it does not end.
-/
def nextFree (s : SmallMem) : ℕ → ℕ → Option ℕ
  | 0, _ => none
  | fuel + 1, lfree =>
    if (s.header lfree).used ≠ 0 ∧ lfree ≠ s.heapEnd then s.nextFree fuel (s.header lfree).next
    else some lfree

/-- The lowest free block, once a block was taken. -/
def lowestFree (s : SmallMem) (ptr : ℕ) : Option ℕ :=
  if ptr = s.lfree then s.nextFree s.memory.length s.lfree else some s.lfree

/-- A block becomes used. -/
def mark (s : SmallMem) (ptr size : ℕ) : SmallMem :=
  let s := (s.setHeader ptr { s.header ptr with used := 1 }).account size
  s.setHeader ptr { s.header ptr with magic := heapMagic }

/-- The block that was found becomes used, or its first part. -/
def take (s : SmallMem) (ptr size : ℕ) : SmallMem :=
  let next := (s.header ptr).next
  -- The rest has to be large enough for a header and a block.
  if size + sizeofStructMem + minSizeAligned ≤ sub32 next (ptr + sizeofStructMem) then
    (s.cut ptr (ptr + sizeofStructMem + size)).mark ptr (size + sizeofStructMem)
  else s.mark ptr (next - ptr)

/-- `rt_malloc` of a size that is aligned and neither too small nor too large. -/
def mallocAligned (s : SmallMem) (size : ℕ) : Option (Option ℕ × SmallMem) := do
  match ← s.search size s.memory.length s.lfree with
  | none => return (none, s)
  | some ptr =>
    let taken := s.take ptr size
    let lfree ← taken.lowestFree ptr
    let s := taken.setLfree lfree
    -- The assertions before the return.
    if ptr + sizeofStructMem + size ≤ s.heapEnd ∧ (ptr + sizeofStructMem) % 4 = 0 ∧ ptr % 4 = 0 then
      return (some (ptr + sizeofStructMem), s)
    else none

/-- `rt_malloc`. There is no result when an assertion fails or a loop does not end. -/
def rtMalloc (s : SmallMem) (size : ℕ) : Option (Option ℕ × SmallMem) :=
  if size = 0 then some (none, s)
  else
    let size := rtAlign size
    if s.memSizeAligned < size then some (none, s) else s.mallocAligned (max size minSizeAligned)

/-- A block becomes free, before it is joined with its neighbours. -/
def release (s : SmallMem) (ptr : ℕ) : SmallMem :=
  let mem := s.header ptr
  let s := s.setHeader ptr { mem with used := 0, magic := heapMagic }
  let s := if ptr < s.lfree then s.setLfree ptr else s
  s.spend (mem.next - ptr)

/--
`rt_free` of an address, or of no address.

There is no result when an assertion fails, or when the header would stand in front of the heap.
-/
def rtFree (s : SmallMem) : Option ℕ → Option SmallMem
  | none => some s
  | some rmem =>
    if rmem % 4 = 0 ∧ rmem < s.heapEnd ∧ sizeofStructMem ≤ rmem then
      let ptr := rmem - sizeofStructMem
      let mem := s.header ptr
      -- These two are asserted before the block is changed.
      if mem.used ≠ 0 ∧ mem.magic = heapMagic then (s.release ptr).plugHoles ptr else none
    else none

/-- Bytes are copied from one address to another. -/
def memcpy (s : SmallMem) (target source count : ℕ) : SmallMem :=
  s.store target ((s.memory.drop source).take count)

/-- How `rt_realloc` goes on after it has looked at the block. -/
inductive Resized where
  -- The block stays where it is.
  | done
  -- Another block is needed for what is in this one.
  | move (size : ℕ)
deriving DecidableEq

/-- The end of a used block becomes a free block, before that is joined with its neighbour. -/
def shrink (s : SmallMem) (ptr ptr2 amount : ℕ) : SmallMem :=
  let s := (s.spend amount).cut ptr ptr2
  if ptr2 < s.lfree then s.setLfree ptr2 else s

/--
The part of `rt_realloc` under the semaphore, for an aligned size, neither zero nor too large.

There is no result when an assertion fails, or when the header would stand in front of the heap.
-/
def resize (s : SmallMem) (rmem newsize : ℕ) : Option (Resized × SmallMem) :=
  if s.heapEnd ≤ rmem then some (.done, s)
  else if rmem < sizeofStructMem then none
  else
    let ptr := rmem - sizeofStructMem
    let size := sub32 (sub32 (s.header ptr).next ptr) sizeofStructMem
    if size = newsize then some (.done, s)
    -- Only a block that leaves enough behind is cut.
    else if newsize + sizeofStructMem + minSizeAligned < size then do
      let ptr2 := ptr + sizeofStructMem + newsize
      let s ← (s.shrink ptr ptr2 (size - newsize)).plugHoles ptr2
      return (.done, s)
    else some (.move size, s)

/-- `rt_realloc`. There is no result when one of its parts has none. -/
def rtRealloc (s : SmallMem) (rmem : Option ℕ) (newsize : ℕ) : Option (Option ℕ × SmallMem) :=
  let newsize := rtAlign newsize
  if s.memSizeAligned < newsize then some (none, s)
  else if newsize = 0 then do
    let s ← s.rtFree rmem
    return (none, s)
  else
    match rmem with
    | none => s.rtMalloc newsize
    | some rmem => do
      let (resized, s) ← s.resize rmem newsize
      match resized with
      | .done => return (some rmem, s)
      | .move size =>
        let (nmem, s) ← s.rtMalloc newsize
        match nmem with
        | none => return (none, s)
        | some target =>
          let s ← (s.memcpy target rmem (min size newsize)).rtFree (some rmem)
          return (some target, s)

/-- `rt_calloc`. -/
def rtCalloc (s : SmallMem) (count size : ℕ) : Option (Option ℕ × SmallMem) := do
  let total := count * size % 2 ^ 32
  let (p, s) ← s.rtMalloc total
  match p with
  | none => return (none, s)
  | some target => return (some target, s.store target (List.replicate total 0))

end SmallMem
end MultifunctionClock
