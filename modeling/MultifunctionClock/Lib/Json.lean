import MultifunctionClock.Lib.Bytes

/-!
JSON texts, read byte by byte.

The reader goes forward until it has completed a value or found an error, and never looks behind
the place where it stops.
The zero byte that ends a C string is no part of any value, so the reader never gets past it.
-/

/-- A JSON value. Of a number nothing is kept but that it is one. -/
inductive Json where
  | null
  | bool (value : Bool)
  | number
  | string (text : Bytes)
  | array (items : List Json)
  | object (members : List (Bytes × Json))

namespace Json

/-- A piece of a string: a byte as it stands, or a UTF-16 unit that was escaped. -/
inductive Piece where
  | byte (byte : UInt8)
  | unit (code : ℕ)

/-- The UTF-8 bytes of a code point. -/
def utf8 (code : ℕ) : Bytes :=
  -- The last bytes of a longer form carry six bits each.
  let tail := fun shift => UInt8.ofNat (0x80 + code / shift % 0x40)
  if code < 0x80 then [UInt8.ofNat code]
  else if code < 0x800 then [UInt8.ofNat (0xC0 + code / 0x40), tail 1]
  else if code < 0x10000 then [UInt8.ofNat (0xE0 + code / 0x1000), tail 0x40, tail 1]
  else [UInt8.ofNat (0xF0 + code / 0x40000), tail 0x1000, tail 0x40, tail 1]

/-- The bytes of a string. -/
def bytesOf : List Piece → Bytes
  | [] => []
  | .byte byte :: pieces => byte :: bytesOf pieces
  | .unit high :: .unit low :: pieces =>
    -- Two surrogates in a row are one code point.
    if 0xD800 ≤ high ∧ high < 0xDC00 ∧ 0xDC00 ≤ low ∧ low < 0xE000 then
      utf8 (0x10000 + (high - 0xD800) * 0x400 + (low - 0xDC00)) ++ bytesOf pieces
    else utf8 high ++ bytesOf (.unit low :: pieces)
  | .unit code :: pieces => utf8 code ++ bytesOf pieces

/-- How far a number has been read. -/
inductive NumberPart where
  | minus
  | zero
  | integer
  | point
  | fraction
  | exponent
  | sign
  | power

/-- A decimal digit. -/
def isDigit (byte : UInt8) : Bool := 0x30 ≤ byte && byte ≤ 0x39

/-- The part that a byte continues a number with. -/
def NumberPart.next (part : NumberPart) (byte : UInt8) : Option NumberPart :=
  match part with
  | .minus =>
    if byte = 0x30 then some .zero else if isDigit byte then some .integer else none
  -- No digit follows a leading zero.
  | .zero =>
    if byte = 0x2E then some .point
    else if byte = 0x65 ∨ byte = 0x45 then some .exponent
    else none
  | .integer =>
    if isDigit byte then some .integer
    else if byte = 0x2E then some .point
    else if byte = 0x65 ∨ byte = 0x45 then some .exponent
    else none
  | .point => if isDigit byte then some .fraction else none
  | .fraction =>
    if isDigit byte then some .fraction
    else if byte = 0x65 ∨ byte = 0x45 then some .exponent
    else none
  | .exponent =>
    if byte = 0x2B ∨ byte = 0x2D then some .sign
    else if isDigit byte then some .power
    else none
  | .sign => if isDigit byte then some .power else none
  | .power => if isDigit byte then some .power else none

/-- The number can end here. -/
def NumberPart.complete : NumberPart → Bool
  | .zero | .integer | .fraction | .power => true
  | .minus | .point | .exponent | .sign => false

/-- A number that breaks off here still begins with a complete one. -/
def NumberPart.begun : NumberPart → Bool
  | .minus => false
  | _ => true

/-- An array or object that is open, with what it holds so far, the latest first. -/
inductive Frame where
  | array (items : List Json)
  /-- The key is there between its end and the end of its value. -/
  | object (members : List (Bytes × Json)) (key : Option Bytes)

/-- What the reader is in the middle of. -/
inductive Mode where
  /-- A value has to come. -/
  | value
  /-- The first value of an array has to come, or its end. -/
  | first
  /-- The first key of an object has to come, or its end. -/
  | firstKey
  /-- A key has to come. -/
  | key
  /-- The colon behind a key has to come. -/
  | colon
  /-- A comma has to come, or the end of the innermost array or object. -/
  | more
  /-- Inside a string, whose pieces are here with the latest first. -/
  | string (pieces : List Piece)
  /-- Behind a backslash in a string. -/
  | escape (pieces : List Piece)
  /-- Inside an escaped unit, with the digits left to come. -/
  | unit (pieces : List Piece) (left code : ℕ)
  /-- Inside a word, with the bytes left to come. -/
  | word (left : Bytes) (value : Json)
  | number (part : NumberPart)

/-- The state of the reader. -/
inductive Reader where
  | reading (mode : Mode) (stack : List Frame)
  | done (value : Json)
  | failed

/-- A value is complete, and goes to the innermost array or object that is open. -/
def put (value : Json) : List Frame → Reader
  | [] => .done value
  | .array items :: stack => .reading .more (.array (value :: items) :: stack)
  | .object members (some key) :: stack =>
    .reading .more (.object ((key, value) :: members) none :: stack)
  | .object members none :: stack =>
    -- Where a key has to come, the value is a string.
    match value with
    | .string text => .reading .colon (.object members (some text) :: stack)
    | _ => .failed

/-- The innermost array or object ends. -/
def close : List Frame → Reader
  | .array items :: stack => put (.array items.reverse) stack
  | .object members _ :: stack => put (.object members.reverse) stack
  | [] => .failed

/-- Space between the parts of a value. -/
def isSpace (byte : UInt8) : Bool := byte = 0x20 || byte = 0x09 || byte = 0x0A || byte = 0x0D

/-- The first byte of a value. -/
def begins (stack : List Frame) (byte : UInt8) : Reader :=
  if byte = 0x22 then .reading (.string []) stack
  else if byte = 0x5B then .reading .first (.array [] :: stack)
  else if byte = 0x7B then .reading .firstKey (.object [] none :: stack)
  else if byte = 0x2D then .reading (.number .minus) stack
  else if byte = 0x30 then .reading (.number .zero) stack
  else if isDigit byte then .reading (.number .integer) stack
  else if byte = 0x6E then .reading (.word [0x75, 0x6C, 0x6C] .null) stack
  else if byte = 0x74 then .reading (.word [0x72, 0x75, 0x65] (.bool true)) stack
  else if byte = 0x66 then .reading (.word [0x61, 0x6C, 0x73, 0x65] (.bool false)) stack
  else .failed

/-- The byte behind a value in an array or object. -/
def follows (stack : List Frame) (byte : UInt8) : Reader :=
  if isSpace byte then .reading .more stack
  else
    match stack with
    | .array _ :: _ =>
      if byte = 0x2C then .reading .value stack
      else if byte = 0x5D then close stack
      else .failed
    | .object _ _ :: _ =>
      if byte = 0x2C then .reading .key stack
      else if byte = 0x7D then close stack
      else .failed
    | [] => .failed

/-- The byte that a short escape stands for. -/
def unescaped (byte : UInt8) : Option UInt8 :=
  if byte = 0x22 ∨ byte = 0x5C ∨ byte = 0x2F then some byte
  else if byte = 0x62 then some 0x08
  else if byte = 0x66 then some 0x0C
  else if byte = 0x6E then some 0x0A
  else if byte = 0x72 then some 0x0D
  else if byte = 0x74 then some 0x09
  else none

/-- The value of a hexadecimal digit. -/
def hexDigit (byte : UInt8) : Option ℕ :=
  if isDigit byte then some (byte.toNat - 0x30)
  else if 0x41 ≤ byte ∧ byte ≤ 0x46 then some (byte.toNat - 0x41 + 10)
  else if 0x61 ≤ byte ∧ byte ≤ 0x66 then some (byte.toNat - 0x61 + 10)
  else none

/-- The reader takes one byte. -/
def Reader.step : Reader → UInt8 → Reader
  | .done value, _ => .done value
  | .failed, _ => .failed
  | .reading mode stack, byte =>
    match mode with
    | .value => if isSpace byte then .reading .value stack else begins stack byte
    -- An array or an object may end right after its bracket.
    | .first =>
      if isSpace byte then .reading .first stack
      else if byte = 0x5D then close stack
      else begins stack byte
    | .firstKey =>
      if isSpace byte then .reading .firstKey stack
      else if byte = 0x7D then close stack
      else if byte = 0x22 then .reading (.string []) stack
      else .failed
    | .key =>
      if isSpace byte then .reading .key stack
      else if byte = 0x22 then .reading (.string []) stack
      else .failed
    | .colon =>
      if isSpace byte then .reading .colon stack
      else if byte = 0x3A then .reading .value stack
      else .failed
    | .more => follows stack byte
    | .string pieces =>
      if byte = 0x22 then put (.string (bytesOf pieces.reverse)) stack
      else if byte = 0x5C then .reading (.escape pieces) stack
      -- Control characters have to be escaped.
      else if byte < 0x20 then .failed
      else .reading (.string (.byte byte :: pieces)) stack
    | .escape pieces =>
      if byte = 0x75 then .reading (.unit pieces 4 0) stack
      else
        match unescaped byte with
        | some meant => .reading (.string (.byte meant :: pieces)) stack
        | none => .failed
    | .unit pieces left code =>
      match hexDigit byte with
      | none => .failed
      | some digit =>
        let code := code * 16 + digit
        -- Four hexadecimal digits make a code unit, which may be half of a pair.
        if left ≤ 1 then .reading (.string (.unit code :: pieces)) stack
        else .reading (.unit pieces (left - 1) code) stack
    -- The three words are read letter by letter.
    | .word left value =>
      match left with
      | [] => .failed
      | [last] => if byte = last then put value stack else .failed
      | expected :: left => if byte = expected then .reading (.word left value) stack else .failed
    | .number part =>
      match part.next byte with
      | some part => .reading (.number part) stack
      | none =>
        -- Only the next byte shows that a number has ended.
        match stack with
        -- At the top nothing need follow, and a number may be cut off where it is.
        | [] => if part.begun then .done .number else .failed
        | frame :: stack =>
          if part.complete then
            match put .number (frame :: stack) with
            | .reading _ stack => follows stack byte
            | stopped => stopped
          else .failed

/-- The reader before the first byte. -/
def Reader.start : Reader := .reading .value []

/-- The reader looks at no further byte. -/
def Reader.stopped : Reader → Bool
  | .reading _ _ => false
  | .done _ | .failed => true

/-- The value that is read when no byte is left. -/
def Reader.result : Reader → Option Json
  | .done value => some value
  | .reading (.number part) [] => if part.begun then some .number else none
  | _ => none

/-- The value that a text begins with, if there is a complete one. -/
def read (text : Bytes) : Option Json := (text.foldl Reader.step .start).result

/-- The reader stops inside a text, at the end of a value or at an error. -/
def Stops (text : Bytes) : Prop := (text.foldl Reader.step .start).stopped = true

instance (text : Bytes) : Decidable (Stops text) := inferInstanceAs (Decidable (_ = true))

/-- A reader that has stopped stays as it is. -/
theorem Reader.foldl_of_stopped {reader : Reader} (stopped : reader.stopped = true) (rest : Bytes) :
    rest.foldl Reader.step reader = reader := by
  -- Byte by byte.
  induction rest with
  | nil => rfl
  | cons byte rest ih =>
    cases reader with
    | reading mode stack => cases stopped
    | done value => exact ih
    | failed => exact ih

/-- What follows the place where the reader stops does not matter. -/
theorem read_append {text : Bytes} (stops : Stops text) (rest : Bytes) :
    read (text ++ rest) = read text := by
  rw [read, List.foldl_append, Reader.foldl_of_stopped stops, read]

/-- A letter in lower case. -/
def lower (byte : UInt8) : UInt8 := if 0x41 ≤ byte ∧ byte ≤ 0x5A then byte + 0x20 else byte

/-- The member of an object under a key, whose case does not matter. -/
def member (json : Json) (key : Bytes) : Option Json :=
  match json with
  | .object members => (members.find? fun entry => entry.1.map lower = key.map lower).map Prod.snd
  | _ => none

/-- The values inside an array or object, in their order. -/
def children : Json → List Json
  | .array items => items
  | .object members => members.map Prod.snd
  | _ => []

end Json
