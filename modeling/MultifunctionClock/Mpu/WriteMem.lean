import MultifunctionClock.Mpu.Port

/-!
Writes to the memory of the motion processor, end to end.

`MPU_Write_Len` has no return statement, so its caller sees any value.
Its buffer is shorter than a bank, and its length has eight bits.
-/

namespace MultifunctionClock

open Bytes

/--
A bus with given results of its transfers, and the values that callers of `MPU_Write_Len` find.

Its state is the number of transfers made so far.
-/
def scripted (results : ℕ → ℕ) (left : ℕ → UInt8) : Port ℕ where
  i2c := true
  send made _ := (results made, made + 1)
  receive made _ len := ((results made, List.replicate len 0), made + 1)
  length_receive _ _ _ := List.length_replicate
  -- The value does not depend on the `res` that was computed.
  result made _ := left (made - 1)

/-- Two transfers were made, and both succeeded. -/
def bothSucceeded (calls : List PortCall) : Bool := calls.length = 2 ∧ calls.all (·.succeeded)

/--
A write to the memory is faithful.

It returns zero exactly when both transfers succeeded.
Then the second message is the register `mem_r_w` and the data.
The port stays inside its buffer.
-/
def WriteFaithful {δ : Type} (port : Port δ) (st : MpuState δ) (memAddr length : UInt16)
    (data : Bytes) :
    Prop :=
  let (err, after) := mpuWriteMem port st memAddr length (some data)
  let calls := after.log.drop st.log.length
  (err = 0 ↔ bothSucceeded calls) ∧
    (bothSucceeded calls → calls.getLast?.bind (·.payload) = some (memRW :: data)) ∧
    ∀ call ∈ calls, call.InBuf

/-- The call that selects the bank. -/
def selectCall (memAddr : UInt16) (num : ℕ) : PortCall :=
  let bytes := [highByte memAddr, lowByte memAddr]
  .write (bufStores bankSel 2 bytes) (some (bankSel :: bytes, num))

/-- The call that writes to the memory, with the length cut to eight bits. -/
def dataCall (length : UInt16) (data : Bytes) (num : ℕ) : PortCall :=
  .write (bufStores memRW length.toUInt8 data) (some (memRW :: data.take length.toUInt8.toNat, num))

/-- The selection of a bank stays inside the buffer. -/
theorem inBuf_selectCall (memAddr : UInt16) (num : ℕ) : (selectCall memAddr num).InBuf :=
  (within_bufStores_iff _ _ _).mpr (by decide)

section Scripted

variable {cfg : ChipCfg} {memAddr length : UInt16} {data : Bytes} {results : ℕ → ℕ}
  {left : ℕ → UInt8}

/-- What a write to the memory does, by the values that the caller finds. -/
theorem mpuWriteMem_scripted (awake : cfg.sensors ≠ 0) (sized : data.length = length.toNat)
    (fits : memAddr.toNat % 256 + length.toNat ≤ 256) :
    mpuWriteMem (scripted results left) (.start cfg 0) memAddr length (some data) =
      if left 0 ≠ 0 then (-1, ⟨cfg, 1, [selectCall memAddr (results 0)]⟩)
      else (if left 1 ≠ 0 then -1 else 0,
        ⟨cfg, 2, [selectCall memAddr (results 0), dataCall length data (results 1)]⟩) := by
  have long : length.toUInt8.toNat ≤ data.length := by
    rw [sized, UInt16.toNat_toUInt8]
    exact Nat.mod_le _ _
  have wired : (scripted results left).i2c = true := rfl
  rw [mpuWriteMem, memAccess_eq awake fits, mpuWriteLen_eq wired (by simp)]
  simp only [mpuWriteLen_eq wired long]
  -- Each value found decides whether the function goes on.
  by_cases first : left 0 = 0
  · by_cases second : left 1 = 0 <;>
      simp [scripted, MpuState.start, first, second, selectCall, dataCall]
  · simp [scripted, MpuState.start, first, selectCall]

/-- The call that writes to the memory stays inside the buffer unless its length is too large. -/
theorem inBuf_dataCall_iff (data : Bytes) (fits : length.toNat ≤ 256) (num : ℕ) :
    (dataCall length data num).InBuf ↔ length.toNat ≤ 49 ∨ length.toNat = 256 := by
  -- The port sees the length modulo 256, so a whole bank counts as nothing.
  have stores := within_bufStores_iff memRW length.toUInt8 data
  rw [UInt16.toNat_toUInt8, bufSize] at stores
  refine stores.trans ?_
  omega

/-- The message holds all of the data, except for a whole bank, whose length is cut to zero. -/
theorem payload_dataCall_iff (sized : data.length = length.toNat)
    (fits : length.toNat ≤ 256) (num : ℕ) :
    (dataCall length data num).payload = some (memRW :: data) ↔ length.toNat ≠ 256 := by
  -- The message holds as many bytes as the eight-bit length says.
  have cut : length.toUInt8.toNat = length.toNat % 256 := UInt16.toNat_toUInt8 length
  have whole : (memRW :: data.take length.toUInt8.toNat = memRW :: data) ↔
      data.length ≤ length.toUInt8.toNat := by
    rw [List.cons.injEq, List.take_eq_self_iff]
    exact and_iff_right rfl
  rw [dataCall, PortCall.payload, Option.some.injEq, whole, cut, sized]
  omega

/-- Both calls succeeded exactly when the one message of each went through. -/
theorem bothSucceeded_iff (first second : ℕ) :
    bothSucceeded [selectCall memAddr first, dataCall length data second] = true ↔
      first = 1 ∧ second = 1 := by
  simp [bothSucceeded, selectCall, dataCall, PortCall.succeeded]

/--
When a write to the memory is faithful, by the values found and the results of the two transfers.
-/
theorem writeFaithful_scripted (awake : cfg.sensors ≠ 0) (sized : data.length = length.toNat)
    (fits : memAddr.toNat % 256 + length.toNat ≤ 256) :
    WriteFaithful (scripted results left) (.start cfg 0) memAddr length data ↔
      left 0 ≠ 0 ∨
        ((left 1 = 0 ↔ results 0 = 1 ∧ results 1 = 1) ∧
          (length.toNat ≤ 49 ∨ length.toNat = 256 ∧ ¬(results 0 = 1 ∧ results 1 = 1))) := by
  have bank : length.toNat ≤ 256 := by omega
  rw [WriteFaithful, mpuWriteMem_scripted awake sized fits]
  by_cases first : left 0 = 0
  · -- Both calls are made, and the second value decides what is returned.
    have returned : (if left 1 ≠ 0 then (-1 : ℤ) else 0) = 0 ↔ left 1 = 0 := by
      split <;> simp_all
    have stays : (∀ call ∈ [selectCall memAddr (results 0), dataCall length data (results 1)],
        call.InBuf) ↔ length.toNat ≤ 49 ∨ length.toNat = 256 := by
      rw [List.forall_mem_cons, List.forall_mem_singleton, and_iff_right (inBuf_selectCall _ _)]
      exact inBuf_dataCall_iff data bank _
    simp only [first, ne_eq, not_true_eq_false, if_false, false_or, MpuState.start, List.length_nil,
      List.drop_zero, bothSucceeded_iff, List.getLast?_cons_cons, List.getLast?_singleton,
      Option.bind_some, payload_dataCall_iff sized bank]
    rw [stays, returned]
    -- A whole bank is sent as nothing, which goes unnoticed only when a transfer fails.
    refine and_congr_right fun _ => ?_
    generalize (results 0 = 1 ∧ results 1 = 1) = both
    by_cases held : both
    · simp only [held, true_implies, not_true_eq_false, and_false, or_false]
      omega
    · simp only [held, false_implies, true_and, not_false_eq_true, and_true]
  · -- The function gives up after the first transfer, and reports that.
    simp [first, MpuState.start, bothSucceeded, inBuf_selectCall]

end Scripted

/--
A write to the memory is faithful only for some of the values that its caller can find.

For a given pair of values, the lengths and the results of the transfers decide.
-/
theorem writeFaithful_iff (cfg : ChipCfg) (memAddr length : UInt16) (data : Bytes) (results : ℕ → ℕ)
    (awake : cfg.sensors ≠ 0) (sized : data.length = length.toNat)
    (fits : memAddr.toNat % 256 + length.toNat ≤ 256) :
    (∀ left, WriteFaithful (scripted results left) (.start cfg 0) memAddr length data ↔
      left 0 ≠ 0 ∨
        ((left 1 = 0 ↔ results 0 = 1 ∧ results 1 = 1) ∧
          (length.toNat ≤ 49 ∨ length.toNat = 256 ∧ ¬(results 0 = 1 ∧ results 1 = 1)))) ∧
    ¬∀ left, WriteFaithful (scripted results left) (.start cfg 0) memAddr length data := by
  refine ⟨fun left => writeFaithful_scripted awake sized fits, fun always => ?_⟩
  by_cases both : results 0 = 1 ∧ results 1 = 1
  · -- Both transfers succeed, and the second value makes it look as if one had failed.
    have late := (writeFaithful_scripted awake sized fits).mp
      (always fun made => if made = 0 then 0 else 1)
    simp [both] at late
  · -- A transfer fails, and both values hide it.
    have silent := (writeFaithful_scripted awake sized fits).mp (always fun _ => 0)
    simp [both] at silent

/-- The configuration of a chip that is awake and has no program yet. -/
def awakeCfg : ChipCfg := ⟨1, 0, 0⟩

/-- Three bytes on a bus that works: the write is faithful when the caller happens to find zeros. -/
theorem writeFaithful_three :
    WriteFaithful (scripted (fun _ => 1) fun _ => 0) (.start awakeCfg 0) 0x0120 3 [7, 8, 9] ∧
    ¬∀ left, WriteFaithful (scripted (fun _ => 1) left) (.start awakeCfg 0) 0x0120 3 [7, 8, 9] := by
  -- Both parts of the theorem are taken at these bytes.
  obtain ⟨exactly, never⟩ := writeFaithful_iff awakeCfg 0x0120 3 [7, 8, 9] (fun _ => 1)
    (by decide) (by decide) (by decide)
  exact ⟨(exactly fun _ => 0).mpr (by decide), never⟩

/-- Both transfers fail, and the write returns zero because its caller finds zeros. -/
theorem writeFaithful_hidden :
    (mpuWriteMem (scripted (fun _ => 0) fun _ => 0) (.start awakeCfg 0) 0x0120 3
      (some [7, 8, 9])).1 = 0 ∧
    ¬WriteFaithful (scripted (fun _ => 0) fun _ => 0) (.start awakeCfg 0) 0x0120 3 [7, 8, 9] := by
  have returns : (mpuWriteMem (scripted (fun _ => 0) fun _ => 0) (.start awakeCfg 0) 0x0120 3
      (some [7, 8, 9])).1 = 0 := by decide +kernel
  refine ⟨returns, fun faithful => ?_⟩
  -- Zero would mean that both transfers succeeded.
  have succeeded := faithful.1.mp returns
  revert succeeded
  decide +kernel

end MultifunctionClock
