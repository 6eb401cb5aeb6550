import MultifunctionClock.Lib.Bytes

/-! The sensor message that `read_entry_dht` prints from one word of the DHT11 driver. -/

namespace MultifunctionClock

open Bytes

namespace MesgDht

/-- `temp` of `struct mesg_dht`. -/
def temp : CharArray := ⟨0, 12⟩

/-- `humi` of `struct mesg_dht`. -/
def humi : CharArray := ⟨12, 12⟩

/-- Bytes of `struct mesg_dht`. -/
def size : ℕ := 24

/-- A block of the size of a sensor message, with whatever the allocator left in it. -/
abbrev Block := { msg : Bytes // msg.length = MesgDht.size }

end MesgDht

/-- What `sprintf` prints for `%d`. -/
def printedInt (value : ℤ) : Bytes :=
  if value < 0 then ofText ('-' :: Nat.toDigits 10 value.natAbs)
  else ofText (Nat.toDigits 10 value.natAbs)

/-- `strTemp`, the low half of the sensor word. -/
def strTemp (word : BitVec 32) : ℤ := (word &&& 0xffff#32).toInt

/-- `strHumi`, the high half of the sensor word. The mask is unsigned, so the shift is logical. -/
def strHumi (word : BitVec 32) : ℤ := ((word &&& 0xffff0000#32) >>> 16).toInt

/-- The text printed for the temperature. -/
def tempText (word : BitVec 32) : Bytes :=
  ofText "Temp: ".toList ++ printedInt (strTemp word) ++ ofText " C".toList

/-- The text printed for the humidity. -/
def humiText (word : BitVec 32) : Bytes :=
  ofText "Humi: ".toList ++ printedInt (strHumi word) ++ ofText " %".toList

/-- The two `sprintf` calls, in their order. -/
def fillMesgDht (word : BitVec 32) (msg : Bytes) : Bytes :=
  -- The temperature is printed first, and neither call knows the size of its array.
  store MesgDht.humi.offset (humiText word ++ [0])
    (store MesgDht.temp.offset (tempText word ++ [0]) msg)

/-- The two strings of a sensor page. -/
@[ext] structure DhtTexts where
  temp : Bytes
  humi : Bytes
deriving DecidableEq

/-- The strings that drawing the sensor page reads from the message. -/
def readDht (msg : Bytes) : DhtTexts where
  temp := cstring MesgDht.temp.offset msg
  humi := cstring MesgDht.humi.offset msg

/--
The strings that one iteration of `read_entry_dht` makes of a sensor word.

A temperature text without room for its terminator loses its end to the
humidity and runs on into it.
-/
def dhtStrings (word : BitVec 32) : DhtTexts where
  temp :=
    if (tempText word).length < MesgDht.temp.size then tempText word
    else (tempText word).take MesgDht.temp.size ++ humiText word
  humi := humiText word

/-- The decimal digits of a number are the characters from 48 to 57. -/
theorem digit_range {n : ℕ} {c : Char} (digit : c ∈ Nat.toDigits 10 n) :
    48 ≤ c.toNat ∧ c.toNat ≤ 57 := by
  -- Being a digit is a comparison of the character's word.
  have range := Nat.isDigit_of_mem_toDigits (by omega) (by omega) digit
  simp only [Char.isDigit, Bool.and_eq_true, decide_eq_true_eq, ge_iff_le,
    UInt32.le_iff_toNat_le] at range
  exact range

/-- Printed numbers hold no zero byte. -/
theorem printedInt_plain (value : ℤ) : ∀ byte ∈ printedInt value, byte ≠ 0 := by
  -- The sign is not a zero byte, and neither is any digit.
  have digits : ∀ byte ∈ ofText (Nat.toDigits 10 value.natAbs), byte ≠ 0 := by
    intro byte member zero
    -- A digit character is the number of its byte.
    obtain ⟨c, digit, rfl⟩ := List.mem_map.mp member
    have range := digit_range digit
    have small := congrArg UInt8.toNat zero
    rw [UInt8.toNat_ofNat', UInt8.toNat_zero] at small
    omega
  unfold printedInt
  split
  · intro byte member
    rcases List.mem_cons.mp member with rfl | later
    · decide
    · exact digits byte later
  · exact digits

/-- A printed number between texts without a zero byte adds none. -/
theorem plain_around {front back : Bytes} (value : ℤ) (head : ∀ byte ∈ front, byte ≠ 0)
    (tail : ∀ byte ∈ back, byte ≠ 0) : ∀ byte ∈ front ++ printedInt value ++ back, byte ≠ 0 := by
  -- Every byte comes from one of the three parts.
  simp only [List.mem_append, or_imp, forall_and]
  exact ⟨⟨head, printedInt_plain value⟩, tail⟩

/-- The temperature text holds no zero byte. -/
theorem tempText_plain (word : BitVec 32) : ∀ byte ∈ tempText word, byte ≠ 0 :=
  plain_around _ (plain_of_all (by decide)) (plain_of_all (by decide))

/-- The humidity text holds no zero byte. -/
theorem humiText_plain (word : BitVec 32) : ∀ byte ∈ humiText word, byte ≠ 0 :=
  plain_around _ (plain_of_all (by decide)) (plain_of_all (by decide))

/-- Printing never makes a sensor message shorter. -/
theorem length_fillMesgDht {word : BitVec 32} {msg : Bytes} (block : MesgDht.size ≤ msg.length) :
    MesgDht.size ≤ (fillMesgDht word msg).length := by
  -- A text that is too long makes the memory longer, and any other leaves its length.
  simp only [MesgDht.size] at block ⊢
  simp only [fillMesgDht, MesgDht.temp, MesgDht.humi, store, List.length_append, List.length_take,
    List.length_drop]
  omega

/-- Nothing of the old message is left in the strings of a rewritten one. -/
theorem readDht_fillMesgDht {word : BitVec 32} {msg : Bytes} (block : MesgDht.size ≤ msg.length) :
    readDht (fillMesgDht word msg) = dhtStrings word := by
  simp only [MesgDht.size] at block
  have wide : 24 ≤ (store MesgDht.temp.offset (tempText word ++ [0]) msg).length := by
    simp only [MesgDht.temp, store, List.length_append, List.length_take, List.length_drop]
    omega
  -- The humidity is printed last, so its own string is always whole.
  set printed := store MesgDht.temp.offset (tempText word ++ [0]) msg
  have filled : fillMesgDht word msg = store MesgDht.humi.offset (humiText word ++ [0]) printed :=
    rfl
  have humi : cstring MesgDht.humi.offset (fillMesgDht word msg) = humiText word := by
    rw [filled, cstring_store_same _ (by simp [MesgDht.humi]; omega),
      takeWhile_plain (humiText_plain word)]
  -- The second write starts behind the first array,
  -- so the scan of the temperature stops in front of
  -- it or runs on into the humidity.
  have kept : ((fillMesgDht word msg).drop MesgDht.temp.offset).take MesgDht.temp.size =
      (printed.drop MesgDht.temp.offset).take MesgDht.temp.size := by
    rw [filled]
    exact slice_store_before (by decide) (by simp [MesgDht.humi]; omega)
  have temp := MesgDht.temp.cstring_of_store (tempText_plain word) (Nat.zero_le _) kept
  have adjacent : MesgDht.temp.offset + MesgDht.temp.size = MesgDht.humi.offset := rfl
  rw [adjacent, humi] at temp
  rw [readDht, humi, temp]
  rfl

end MultifunctionClock
