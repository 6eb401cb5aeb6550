import MultifunctionClock.Dht.Message
import MultifunctionClock.Lib.Writes

/-! The sensor words whose two numbers fit the message of `read_entry_dht`. -/

namespace MultifunctionClock

open Bytes

/-- The writes of the two `sprintf` calls. -/
def dhtWrites (word : BitVec 32) : List Write :=
  [⟨MesgDht.temp.offset, tempText word ++ [0]⟩, ⟨MesgDht.humi.offset, humiText word ++ [0]⟩]

/-- The message is filled by these writes. -/
theorem fillMesgDht_eq_apply (word : BitVec 32) (msg : Bytes) :
    fillMesgDht word msg = apply (dhtWrites word) msg := rfl

/-- The temperature of a sensor word, its low half. -/
def wordTemp (word : BitVec 32) : ℕ := word.toNat % 2 ^ 16

/-- The humidity of a sensor word, its high half. -/
def wordHumi (word : BitVec 32) : ℕ := word.toNat / 2 ^ 16

/-- The two numbers of a sensor word in decimal, each in its text. -/
def decimalTexts (word : BitVec 32) : DhtTexts where
  temp := ofText ("Temp: ".toList ++ Nat.toDigits 10 (wordTemp word) ++ " C".toList)
  humi := ofText ("Humi: ".toList ++ Nat.toDigits 10 (wordHumi word) ++ " %".toList)

/-- The number between the six characters of a label and the two of a unit. -/
def decodeText (text : Bytes) : ℕ :=
  let digits := (toText text).drop 6
  Nat.ofDigitChars 10 (digits.take (digits.length - 2)) 0

/-- The sensor word that two texts stand for. -/
def decodeTexts (texts : DhtTexts) : BitVec 32 :=
  BitVec.ofNat 32 (decodeText texts.humi * 2 ^ 16 + decodeText texts.temp)

/-- Masking the low half gives the temperature. -/
theorem strTemp_eq (word : BitVec 32) : strTemp word = wordTemp word := by
  -- The mask keeps sixteen bits, which leaves the sign bit clear.
  have masked : (word &&& 0xffff#32).toNat = word.toNat % 2 ^ 16 := by
    rw [BitVec.toNat_and]
    exact Nat.and_two_pow_sub_one_eq_mod word.toNat 16
  rw [strTemp, BitVec.toInt_eq_toNat_of_lt (by rw [masked]; omega), masked, wordTemp]

/-- Masking and shifting the high half gives the humidity. -/
theorem strHumi_eq (word : BitVec 32) : strHumi word = wordHumi word := by
  have small := word.isLt
  -- The shift brings the mask down to the low half, which then holds all that is left of the word.
  have half : ((word &&& 0xffff0000#32) >>> 16).toNat = word.toNat / 2 ^ 16 := by
    rw [BitVec.toNat_ushiftRight, BitVec.toNat_and, Nat.shiftRight_and_distrib,
      Nat.shiftRight_eq_div_pow]
    rw [show (0xffff0000#32).toNat >>> 16 = 2 ^ 16 - 1 from rfl, Nat.and_two_pow_sub_one_eq_mod]
    omega
  rw [strHumi, BitVec.toInt_eq_toNat_of_lt (by rw [half]; omega), half, wordHumi]

/-- A natural number is printed by its digits alone. -/
theorem printedInt_natCast (n : ℕ) : printedInt n = ofText (Nat.toDigits 10 n) := by
  -- There is no sign to print.
  simp [printedInt]

/-- The printed texts are the decimal ones. -/
theorem texts_eq (word : BitVec 32) :
    tempText word = (decimalTexts word).temp ∧ humiText word = (decimalTexts word).humi := by
  -- Both sides are the label, the digits and the unit, converted to bytes apart or together.
  rw [tempText, humiText, strTemp_eq, strHumi_eq, printedInt_natCast, printedInt_natCast,
    decimalTexts]
  simp only [ofText_append, and_self]

/-- A text fits its array with its terminator exactly when its number has at most three digits. -/
theorem length_text_lt_iff {label unit : List Char} (six : label.length = 6) (two : unit.length = 2)
    (n : ℕ) : (ofText (label ++ Nat.toDigits 10 n ++ unit)).length < 12 ↔ n ≤ 999 := by
  -- Eight characters stand around the digits, and one byte is left for the terminator.
  have digits := Nat.length_toDigits_le_iff (n := n) (show 1 < 10 by decide) (show 0 < 3 by decide)
  simp only [ofText, List.length_map, List.length_append, six, two]
  omega

/-- A text is decoded to the number that was printed into it. -/
theorem decodeText_eq {label unit : List Char} (six : label.length = 6) (two : unit.length = 2)
    (narrow : ∀ c ∈ label ++ unit, c.toNat < 256) (n : ℕ) :
    decodeText (ofText (label ++ Nat.toDigits 10 n ++ unit)) = n := by
  -- Every character takes one byte, so the text itself is read back.
  have narrow : ∀ c ∈ label ++ Nat.toDigits 10 n ++ unit, c.toNat < 256 := by
    intro c member
    rcases List.mem_append.mp member with front | back
    · rcases List.mem_append.mp front with label | digit
      · exact narrow c (List.mem_append_left _ label)
      · have range := digit_range digit
        omega
    · exact narrow c (List.mem_append_right _ back)
  rw [decodeText, toText_ofText narrow]
  -- Dropping the label and the unit leaves the digits.
  have digits : (label ++ Nat.toDigits 10 n ++ unit).drop 6 = Nat.toDigits 10 n ++ unit := by
    rw [List.append_assoc, List.drop_append, List.drop_of_length_le six.le, six]
    rfl
  simp only [digits, List.length_append, two, Nat.add_sub_cancel]
  rw [List.take_left' rfl, Nat.ofDigitChars_ten_toDigits]

/-- Both texts of a sensor word can be read back. -/
theorem decodeTexts_decimalTexts (word : BitVec 32) : decodeTexts (decimalTexts word) = word := by
  -- The two numbers are the halves of the word.
  have temp : decodeText (decimalTexts word).temp = wordTemp word :=
    decodeText_eq rfl rfl (by simp) _
  have humi : decodeText (decimalTexts word).humi = wordHumi word :=
    decodeText_eq rfl rfl (by simp) _
  have halves : wordHumi word * 2 ^ 16 + wordTemp word = word.toNat :=
    Nat.div_add_mod' word.toNat (2 ^ 16)
  rw [decodeTexts, temp, humi, halves, BitVec.ofNat_toNat, BitVec.setWidth_eq]

/-- A temperature has at most five digits. -/
theorem length_tempText_le (word : BitVec 32) : (tempText word).length ≤ 13 := by
  -- The low half of the word is below a hundred thousand.
  have small : wordTemp word < 2 ^ 16 := Nat.mod_lt _ (by decide)
  have digits : (Nat.toDigits 10 (wordTemp word)).length ≤ 5 :=
    (Nat.length_toDigits_le_iff (by decide) (by decide)).mpr (by omega)
  have label : "Temp: ".toList.length + " C".toList.length = 8 := rfl
  rw [(texts_eq word).1, decimalTexts]
  simp only [ofText, List.length_map, List.length_append]
  omega

/-- The humidity is at least its label and its unit. -/
theorem length_humiText_ge (word : BitVec 32) : 8 ≤ (humiText word).length := by
  -- The label and the unit alone take eight bytes.
  have label : (ofText "Humi: ".toList).length + (ofText " %".toList).length = 8 := rfl
  simp only [humiText, List.length_append]
  omega

/-- The writes stay inside the message exactly when the humidity leaves room for its terminator. -/
theorem within_dhtWrites_iff (word : BitVec 32) : Within MesgDht.size (dhtWrites word) ↔
    (tempText word).length < 24 ∧ (humiText word).length < 12 := by
  -- The second array begins in the middle of the message.
  simp only [Within, dhtWrites, List.mem_cons, List.not_mem_nil, or_false,
    forall_eq_or_imp, forall_eq,
    List.length_append, List.length_singleton, MesgDht.temp, MesgDht.humi, MesgDht.size]
  omega

/--
The two texts of a sensor word fit the message exactly when both numbers have at most three digits.

Then no byte outside the message is written, the strings that are drawn are the decimal texts, and
the word can be read back from them.
-/
theorem dhtMessage_exact (word : BitVec 32) (msg : MesgDht.Block) (behind : Bytes) :
    (Within MesgDht.size (dhtWrites word) ∧
        readDht (fillMesgDht word (msg ++ behind)) = decimalTexts word ↔
      wordTemp word ≤ 999 ∧ wordHumi word ≤ 999) ∧
    decodeTexts (decimalTexts word) = word := by
  refine ⟨?_, decodeTexts_decimalTexts word⟩
  have block : MesgDht.size ≤ (msg.val ++ behind).length := by simp [msg.property]
  obtain ⟨tempEq, humiEq⟩ := texts_eq word
  have temp : (tempText word).length < 12 ↔ wordTemp word ≤ 999 := by
    rw [tempEq]
    exact length_text_lt_iff rfl rfl _
  have humi : (humiText word).length < 12 ↔ wordHumi word ≤ 999 := by
    rw [humiEq]
    exact length_text_lt_iff rfl rfl _
  rw [within_dhtWrites_iff, readDht_fillMesgDht block, ← temp, ← humi]
  constructor
  · rintro ⟨⟨short, room⟩, shown⟩
    -- A temperature without room would be drawn with the whole humidity behind it.
    refine ⟨?_, room⟩
    by_contra long
    have drawn : (dhtStrings word).temp = (tempText word).take 12 ++ humiText word := if_neg long
    rw [shown, ← tempEq] at drawn
    have length := congrArg List.length drawn
    rw [List.length_append, List.length_take] at length
    -- That is longer than any temperature, which has at most five digits.
    have five := length_tempText_le word
    have eight := length_humiText_ge word
    omega
  · rintro ⟨short, room⟩
    refine ⟨⟨by omega, room⟩, ?_⟩
    have drawn : (dhtStrings word).temp = tempText word := if_pos short
    exact DhtTexts.ext (drawn.trans tempEq) humiEq

end MultifunctionClock
