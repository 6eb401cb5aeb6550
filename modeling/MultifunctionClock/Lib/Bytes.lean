import Mathlib.Data.List.TakeWhile
import Mathlib.Tactic

/-! Byte memory as lists: stores at an offset, and the strings a zero byte ends. -/

/-- A run of consecutive bytes of memory. -/
abbrev Bytes := List UInt8

namespace Bytes

/-- The bytes of a text whose characters all fit in one byte. -/
def ofText (text : List Char) : Bytes := text.map fun c => UInt8.ofNat c.toNat

/-- Memory after writing `data` from `offset` on. A write past the end makes the memory longer. -/
def store (offset : ℕ) (data memory : Bytes) : Bytes :=
  memory.take offset ++ data ++ memory.drop (offset + data.length)

/-- The string that starts at an offset and runs up to the first zero byte. -/
def cstring (offset : ℕ) (memory : Bytes) : Bytes := (memory.drop offset).takeWhile (· ≠ 0)

/-- The string of an array of `size` bytes, when its terminator lies inside that array. -/
def cstringIn (offset size : ℕ) (memory : Bytes) : Option Bytes :=
  let field := (memory.drop offset).take size
  if 0 ∈ field then some (field.takeWhile (· ≠ 0)) else none

/-- The bytes of two texts in a row. -/
theorem ofText_append (first second : List Char) :
    ofText (first ++ second) = ofText first ++ ofText second := List.map_append

/-- The text of some bytes, one character for each. -/
def toText (bytes : Bytes) : List Char := bytes.map fun byte => Char.ofNat byte.toNat

/-- A text of one-byte characters is read back from its bytes. -/
theorem toText_ofText {text : List Char} (narrow : ∀ c ∈ text, c.toNat < 256) :
    toText (ofText text) = text := by
  rw [toText, ofText, List.map_map]
  -- The number of such a character survives the conversion to a byte.
  have back : ∀ c ∈ text, Char.ofNat (UInt8.ofNat c.toNat).toNat = c := by
    intro c member
    rw [UInt8.toNat_ofNat', Nat.mod_eq_of_lt (narrow c member), Char.ofNat_toNat]
  exact (List.map_congr_left back).trans (List.map_id text)

/-- A write inside the memory keeps its length. -/
theorem length_store {offset : ℕ} {data memory : Bytes}
    (fits : offset + data.length ≤ memory.length) :
    (store offset data memory).length = memory.length := by
  -- The kept front, the data and the kept rest add up to the old length.
  simp only [store, List.length_append, List.length_take, List.length_drop]
  omega

/-- A store at the start followed by the bytes it left alone. -/
theorem store_zero (data memory : Bytes) :
    store 0 data memory = data ++ memory.drop data.length := by
  -- No byte lies in front of the start.
  simp [store]

/-- A store right behind a known front lengthens that front and consumes what followed it. -/
theorem store_append {offset : ℕ} {front : Bytes} (ends : front.length = offset)
    (data rest : Bytes) :
    store offset data (front ++ rest) = front ++ data ++ rest.drop data.length := by
  -- The front is what the store keeps, and the data takes the place of as many bytes behind it.
  subst ends
  simp [store, List.drop_append]

/-- The slice between a front and a rest of known lengths. -/
theorem slice_append {start count : ℕ} {front middle : Bytes} (begins : front.length = start)
    (spans : middle.length = count) (rest : Bytes) :
    ((front ++ (middle ++ rest)).drop start).take count = middle := by
  -- Dropping the front and taking the middle leaves exactly the middle.
  subst begins spans
  simp

/-- Reading from the offset of a store finds the stored bytes first. -/
theorem drop_store_same {offset : ℕ} {data memory : Bytes} (inside : offset ≤ memory.length) :
    (store offset data memory).drop offset = data ++ memory.drop (offset + data.length) := by
  have width : (memory.take offset).length = offset := by simp [inside]
  rw [store, List.append_assoc, List.drop_append, width]
  simp [List.drop_of_length_le (le_of_eq width)]

/-- A zero byte stops the scan, whatever follows it. -/
theorem takeWhile_nul (data rest : Bytes) :
    (data ++ 0 :: rest).takeWhile (· ≠ 0) = data.takeWhile (· ≠ 0) := by
  -- The scan walks the data byte by byte, and stops at the zero at the latest.
  induction data with
  | nil => simp
  | cons byte data ih => simp only [List.cons_append, List.takeWhile_cons, ih]

/-- A text of known bytes is tested for zero bytes by evaluation. -/
theorem plain_of_all {text : Bytes} (none_zero : text.all (· ≠ 0)) : ∀ byte ∈ text, byte ≠ 0 := by
  simpa using none_zero

/-- A text without a zero byte is scanned whole. -/
theorem takeWhile_plain {text : Bytes} (plain : ∀ byte ∈ text, byte ≠ 0) :
    text.takeWhile (· ≠ 0) = text :=
  List.takeWhile_eq_self_iff.mpr (by simpa using plain)

/-- Bytes that were just written with a terminator are read back up to their first zero byte. -/
theorem cstring_store_same {offset : ℕ} {memory : Bytes} (data : Bytes)
    (inside : offset ≤ memory.length) :
    cstring offset (store offset (data ++ [0]) memory) = data.takeWhile (· ≠ 0) := by
  -- Reading starts at the data, whose terminator hides everything behind it.
  rw [cstring, drop_store_same inside, List.append_assoc]
  exact takeWhile_nul data _

/-- A write leaves every byte in front of it alone. -/
theorem take_store {offset count : ℕ} {data memory : Bytes} (before : count ≤ offset)
    (inside : offset ≤ memory.length) :
    (store offset data memory).take count = memory.take count := by
  -- The kept front of the store is at least as long as the part that is read.
  have width : (memory.take offset).length = offset := by simp [inside]
  rw [store, List.append_assoc, List.take_append_of_le_length (by omega), List.take_take]
  congr 1
  omega

/-- Two writes, the second right behind the first, are one write. -/
theorem store_store {offset next : ℕ} {first second memory : Bytes}
    (inside : offset ≤ memory.length) (adjacent : next = offset + first.length) :
    store next second (store offset first memory) = store offset (first ++ second) memory := by
  -- The second write starts where the first one ended, so it only replaces bytes behind it.
  subst adjacent
  have width : (memory.take offset).length = offset := by simp [inside]
  rw [store, store, List.take_append_of_le_length (by simp [width]),
    List.take_of_length_le (by simp [width]), List.drop_append]
  have past : (memory.take offset ++ first).drop (offset + first.length + second.length) = [] :=
    List.drop_of_length_le (by simp [width])
  rw [past, List.nil_append, List.drop_drop, store]
  simp only [List.length_append, width, List.append_assoc]
  congr 4
  omega

/-- A write behind a range of bytes leaves the range alone. -/
theorem slice_store_before {start size offset : ℕ} {data memory : Bytes}
    (before : start + size ≤ offset) (inside : offset ≤ memory.length) :
    ((store offset data memory).drop start).take size = (memory.drop start).take size := by
  -- A slice that ends before the write is a slice of the part that the write keeps.
  rw [List.take_drop, List.take_drop, take_store before inside]

/-- A write inside a range is seen in that range. -/
theorem slice_store_inside {start offset count : ℕ} {data memory : Bytes}
    (room : offset + data.length ≤ count) (fits : start + offset + data.length ≤ memory.length) :
    ((store (start + offset) data memory).drop start).take count =
      store offset data ((memory.drop start).take count) := by
  -- Both sides are the bytes in front of the write, the data,
  -- and what follows up to the end of the range.
  have front : ((memory.drop start).take count).take offset =
      (memory.take (start + offset)).drop start := by
    rw [List.take_take, List.drop_take, min_eq_left (by omega)]
    congr 1
    omega
  have behind : ((memory.drop start).take count).drop (offset + data.length) =
      (memory.drop (start + offset + data.length)).take (count - (offset + data.length)) := by
    rw [List.drop_take, List.drop_drop, Nat.add_assoc]
  have width : ((memory.take (start + offset)).drop start).length = offset := by
    rw [List.length_drop, List.length_take]
    omega
  have reached : start ≤ (memory.take (start + offset)).length := by
    rw [List.length_take]
    omega
  have whole : ((memory.take (start + offset)).drop start).take count =
    (memory.take (start + offset)).drop start :=
    List.take_of_length_le (by omega)
  have written : data.take (count - offset) = data := List.take_of_length_le (by omega)
  rw [store, store, front, behind, List.append_assoc, List.append_assoc,
    List.drop_append_of_le_length reached,
    List.take_append, width, whole, List.take_append, written, Nat.sub_sub]

/-- A write outside a range of bytes leaves the range alone. -/
theorem slice_store_of_disjoint {start size offset : ℕ} {data memory : Bytes}
    (fits : offset + data.length ≤ memory.length)
    (disjoint : start + size ≤ offset ∨ offset + data.length ≤ start) :
    ((store offset data memory).drop start).take size = (memory.drop start).take size := by
  rcases disjoint with before | behind
  · exact slice_store_before before (by omega)
  · -- Everything behind the write is the old memory, shifted by nothing.
    congr 1
    have width : (memory.take offset ++ data).length = offset + data.length := by simp; omega
    rw [store, List.drop_append, width, List.drop_of_length_le (by omega), List.drop_drop,
      List.nil_append]
    congr 1
    omega

/-- A scan cannot end inside bytes that are not zero. -/
theorem length_cstring_ge {offset : ℕ} {memory text : Bytes} (plain : ∀ byte ∈ text, byte ≠ 0)
    (held : (memory.drop offset).take text.length = text) :
    text.length ≤ (cstring offset memory).length := by
  -- The scan passes all of the text before it can meet a zero byte.
  rw [cstring, ← List.take_append_drop text.length (memory.drop offset), held,
    List.takeWhile_append_of_pos (by simpa using plain)]
  simp

/-- Bytes written with a terminator at the start of an array give the string of that array. -/
theorem cstringIn_store_same {offset size : ℕ} {data memory : Bytes}
    (inside : offset ≤ memory.length) (room : data.length < size) :
    cstringIn offset size (store offset (data ++ [0]) memory) = some (data.takeWhile (· ≠ 0)) := by
  -- The array is the data, its terminator, and some bytes to spare.
  obtain ⟨spare, rfl⟩ : ∃ spare, size = (data ++ [0]).length + spare :=
    ⟨size - (data ++ [0]).length, by simp; omega⟩
  rw [cstringIn, drop_store_same inside, List.take_length_add_append]
  simp only [List.append_assoc, List.singleton_append, List.mem_append, List.mem_cons,
    true_or, or_true,
    if_true, takeWhile_nul]

/-- A write outside an array leaves the string of that array alone. -/
theorem cstringIn_store_of_disjoint {start size offset : ℕ} {data memory : Bytes}
    (fits : offset + data.length ≤ memory.length)
    (disjoint : start + size ≤ offset ∨ offset + data.length ≤ start) :
    cstringIn start size (store offset data memory) = cstringIn start size memory := by
  -- The string of an array depends on the bytes of the array only.
  simp only [cstringIn, slice_store_of_disjoint fits disjoint]

/-- A character array inside a structure. -/
structure CharArray where
  offset : ℕ
  size : ℕ
deriving DecidableEq

/-- The string of a character array, when it is terminated inside the array. -/
def CharArray.read (field : CharArray) (memory : Bytes) : Option Bytes :=
  cstringIn field.offset field.size memory

/--
A scan ends inside the first bytes it reads, or runs through all of them and goes on behind them.
-/
theorem cstring_split (offset count : ℕ) (memory : Bytes) :
    cstring offset memory =
      if 0 ∈ (memory.drop offset).take
        count then ((memory.drop offset).take count).takeWhile (· ≠ 0)
      else (memory.drop offset).take count ++ cstring (offset + count) memory := by
  set field := (memory.drop offset).take count with fieldEq
  have parts : memory.drop offset = field ++ memory.drop (offset + count) := by
    rw [fieldEq, ← List.drop_drop, List.take_append_drop]
  rw [cstring, cstring, parts]
  split
  · -- The scan stops at the zero byte, so it does not take all of the field.
    rename_i ends
    rw [List.takeWhile_append, if_neg]
    intro whole
    have all := (List.takeWhile_prefix (· ≠ (0 : UInt8))).eq_of_length whole
    rw [← all] at ends
    simpa using List.all_eq_true.mp List.all_takeWhile 0 ends
  · -- Every byte of the field is passed.
    rename_i plain
    rw [List.takeWhile_append_of_pos]
    intro byte member
    have nonzero : byte ≠ 0 := fun zero => plain (zero ▸ member)
    simpa using nonzero

/-- A string that ends inside its array is read whole by a scan without a limit. -/
theorem CharArray.cstring_of_read {field : CharArray} {memory text : Bytes}
    (held : field.read memory = some text) : cstring field.offset memory = text := by
  -- The array has a terminator, and the scan stops there.
  simp only [CharArray.read, cstringIn] at held
  rw [cstring_split field.offset field.size]
  split at held
  · rename_i ends
    rw [if_pos ends]
    exact Option.some.inj held
  · cases held

/-- A text printed into an array is read back, or runs into what follows the array. -/
theorem CharArray.cstring_of_store {field : CharArray} {memory later text : Bytes}
    (plain : ∀ byte ∈ text, byte ≠ 0) (inside : field.offset ≤ memory.length)
    (kept : (later.drop field.offset).take field.size =
      ((store field.offset (text ++ [0]) memory).drop field.offset).take field.size) :
    cstring field.offset later =
      if text.length < field.size then text
      else text.take field.size ++ cstring (field.offset + field.size) later := by
  rw [drop_store_same inside, List.append_assoc] at kept
  split
  · -- The terminator of the text lies inside the array.
    rename_i room
    have read : field.read later = some text := by
      have same := cstringIn_store_same inside room
      rw [cstringIn, drop_store_same inside, List.append_assoc, ← kept,
        takeWhile_plain plain] at same
      exact same
    exact CharArray.cstring_of_read read
  · -- The array is full of bytes of the text.
    rename_i long
    rw [List.take_append_of_le_length (by omega)] at kept
    have unended : 0 ∉ text.take field.size := fun zero => plain 0 (List.mem_of_mem_take zero) rfl
    rw [cstring_split field.offset field.size, kept, if_neg unended]

end Bytes
