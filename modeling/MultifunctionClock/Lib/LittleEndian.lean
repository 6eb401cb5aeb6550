import MultifunctionClock.Lib.Bytes

/-! Numbers in memory, with the low byte first. -/

namespace LittleEndian

/-- The low bytes of a number, as many as there is room for. -/
def encode : ℕ → ℕ → Bytes
  | 0, _ => []
  | count + 1, value => UInt8.ofNat (value % 256) :: encode count (value / 256)

/-- The number that some bytes stand for. -/
def decode : Bytes → ℕ
  | [] => 0
  | byte :: rest => byte.toNat + 256 * decode rest

/-- A number takes as many bytes as there is room for. -/
@[simp] theorem length_encode (count value : ℕ) : (encode count value).length = count := by
  induction count generalizing value with
  | zero => rfl
  | succ count ih => simp [encode, ih]

/-- A number that has room is read back. -/
theorem decode_encode {count value : ℕ} (fits : value < 256 ^ count) :
    decode (encode count value) = value := by
  -- The low byte is read back first, and the rest of the number has one byte less.
  induction count generalizing value with
  | zero => simp_all [encode, decode]
  | succ count ih =>
    have rest : value / 256 < 256 ^ count := Nat.div_lt_of_lt_mul (by rwa [pow_succ'] at fits)
    rw [encode, decode, ih rest, UInt8.toNat_ofNat', Nat.mod_mod_of_dvd _ (by norm_num)]
    omega

/-- Some bytes stand for a number that has room in them. -/
theorem decode_lt (bytes : Bytes) : decode bytes < 256 ^ bytes.length := by
  -- The low byte is below 256, and the rest has one byte less.
  induction bytes with
  | nil => simp [decode]
  | cons byte rest ih =>
    have low := byte.toNat_lt
    rw [decode, List.length_cons, pow_succ']
    omega

end LittleEndian
