import MultifunctionClock.Mpu.Port

/-!
`mpu_load_firmware`: the image is written in chunks, and each chunk is read back and compared.

What holds on any bus: the program counts as loaded only if every byte that was read back is right.
-/

namespace MultifunctionClock

open Bytes

variable {δ : Type}

/-- `LOAD_CHUNK`. -/
def loadChunkSize : UInt16 := 16

/-- `this_write`, by the macro `min` on an `int` difference. -/
def thisWrite (length ii : UInt16) : UInt16 :=
  if loadChunkSize.toNat < length.toNat - ii.toNat then loadChunkSize
  else UInt16.ofNat (length.toNat - ii.toNat)

/-- One iteration of the loop. A result other than zero is returned from the function. -/
def loadChunk (port : Port δ) (st : MpuState δ) (length : UInt16) (firmware cur : Bytes)
    (ii : UInt16) :
    ℤ × Bytes × MpuState δ :=
  let count := thisWrite length ii
  let image := firmware.drop ii.toNat
  let (err, st) := mpuWriteMem port st ii count (some image)
  if err ≠ 0 then (-1, cur, st)
  else
    let (err, cur, st) := mpuReadMem port st ii count (some cur)
    if err ≠ 0 then (-1, cur, st)
    -- `memcmp` of the image and what was read back.
    else if image.take count.toNat ≠ cur.take count.toNat then (-2, cur, st)
    else (0, cur, st)

/-- The number of bytes in a chunk. -/
theorem toNat_thisWrite (length ii : UInt16) :
    (thisWrite length ii).toNat = min 16 (length.toNat - ii.toNat) := by
  -- The difference is below the range of the counter, so its conversion loses nothing.
  have bound := length.toNat_lt
  have size : loadChunkSize.toNat = 16 := rfl
  rw [thisWrite, size]
  split
  · rw [size]
    omega
  · rw [UInt16.toNat_ofNat', Nat.mod_eq_of_lt (by omega)]
    omega

/-- The counter moves on to the end of the chunk and does not wrap around. -/
theorem toNat_add_thisWrite {length ii : UInt16} (below : ii < length) :
    (ii + thisWrite length ii).toNat = ii.toNat + min 16 (length.toNat - ii.toNat) := by
  -- The end of a chunk is at most the length, which the counter can hold.
  have bound := length.toNat_lt
  have order := UInt16.lt_iff_toNat_lt.mp below
  rw [UInt16.toNat_add, toNat_thisWrite, Nat.mod_eq_of_lt]
  omega

/-- A chunk of the image and what follows it. -/
theorem chunk_append {length ii : UInt16} (below : ii < length) (firmware : Bytes) :
    (firmware.drop ii.toNat).take (thisWrite length ii).toNat ++
      firmware.drop (ii + thisWrite length ii).toNat = firmware.drop ii.toNat := by
  rw [toNat_add_thisWrite below, ← toNat_thisWrite, ← List.drop_drop, List.take_append_drop]

/-- The loop of `mpu_load_firmware` from a value of its counter on. -/
def loadChunks (port : Port δ) (st : MpuState δ) (length : UInt16) (firmware cur : Bytes)
    (ii : UInt16) :
    ℤ × MpuState δ :=
  if ii < length then
    match loadChunk port st length firmware cur ii with
    | (err, cur, st) =>
      if err ≠ 0 then (err, st)
      else loadChunks port st length firmware cur (ii + thisWrite length ii)
  else (0, st)
termination_by length.toNat - ii.toNat
decreasing_by
  have order := UInt16.lt_iff_toNat_lt.mp ‹ii < length›
  rw [toNat_add_thisWrite ‹ii < length›]
  omega

/-- `mpu_load_firmware`, with whatever its array `cur` holds at first. -/
def mpuLoadFirmware (port : Port δ) (st : MpuState δ) (length : UInt16) (firmware : Option Bytes)
    (startAddr sampleRate : UInt16) (cur : Bytes) : ℤ × MpuState δ :=
  if st.chipCfg.dmpLoaded ≠ 0 then (-1, st)
  else
    match firmware with
    | none => (-1, st)
    | some firmware =>
      let (err, st) := loadChunks port st length firmware cur 0
      if err ≠ 0 then (err, st)
      else
        let (res, st) := mpuWriteLen port st prgmStartH 2 [highByte startAddr, lowByte startAddr]
        if res ≠ 0 then (-1, st)
        else (0, { st with
          chipCfg := { st.chipCfg with dmpLoaded := 1, dmpSampleRate := sampleRate } })

/-- Everything that was read from the bus so far. -/
def MpuState.readBack (st : MpuState δ) : Bytes := st.log.flatMap (·.bytesRead)

variable {port : Port δ} {st : MpuState δ} {length ii : UInt16} {firmware cur : Bytes}

/-- `MPU_Write_Len` leaves the configuration alone and reads nothing. -/
theorem mpuWriteLen_frame (reg len : UInt8) (databuf : Bytes) :
    (mpuWriteLen port st reg len databuf).2.chipCfg = st.chipCfg ∧
      (mpuWriteLen port st reg len databuf).2.readBack = st.readBack := by
  -- Both branches add one call that writes.
  unfold mpuWriteLen
  split <;> simp [MpuState.readBack, PortCall.bytesRead]

/-- `mpu_write_mem` leaves the configuration alone and reads nothing. -/
theorem mpuWriteMem_frame (memAddr length : UInt16) (data : Option Bytes) :
    (mpuWriteMem port st memAddr length data).2.chipCfg = st.chipCfg ∧
      (mpuWriteMem port st memAddr length data).2.readBack = st.readBack := by
  -- Both calls of the port do.
  have write : ∀ (now : MpuState δ) reg len databuf,
      now.chipCfg = st.chipCfg ∧ now.readBack = st.readBack →
      (mpuWriteLen port now reg len databuf).2.chipCfg = st.chipCfg ∧
        (mpuWriteLen port now reg len databuf).2.readBack = st.readBack := by
    intro now reg len databuf same
    obtain ⟨cfg, read⟩ := @mpuWriteLen_frame δ port now reg len databuf
    exact ⟨cfg.trans same.1, read.trans same.2⟩
  simp only [mpuWriteMem]
  refine memAccess_keeps (fun now => now.chipCfg = st.chipCfg ∧ now.readBack = st.readBack) write ?_
    ⟨rfl, rfl⟩
  exact fun now data same => write now _ _ data same

/-- `MPU_Read_Len` leaves the configuration alone. -/
theorem chipCfg_mpuReadLen (reg len : UInt8) (buf : Bytes) :
    (mpuReadLen port st reg len buf).2.2.chipCfg = st.chipCfg := by
  unfold mpuReadLen
  split <;> rfl

/-- `MPU_Read_Len` on a bus of the right type puts what it reads at the start of the buffer. -/
theorem mpuReadLen_reads (wired : port.i2c = true) (reg len : UInt8) (buf : Bytes) :
    (mpuReadLen port st reg len buf).2.2.readBack =
      st.readBack ++ (mpuReadLen port st reg len buf).2.1.take len.toNat := by
  -- The bytes read are as many as were asked for, and stand at the start of the buffer.
  have size := port.length_receive st.device reg len.toNat
  simp only [mpuReadLen, wired, if_true, MpuState.readBack, List.flatMap_append, List.flatMap_cons,
    List.flatMap_nil, PortCall.bytesRead, store_zero]
  rw [List.append_nil, List.take_left' size]

/-- `mpu_read_mem` leaves the configuration alone. -/
theorem chipCfg_mpuReadMem (memAddr length : UInt16) (data : Option Bytes) :
    (mpuReadMem port st memAddr length data).2.2.chipCfg = st.chipCfg :=
  memAccess_keeps (fun now => now.chipCfg = st.chipCfg)
    (fun _ _ _ _ same => (mpuWriteLen_frame _ _ _).1.trans same)
    (fun _ _ same => (chipCfg_mpuReadLen _ _ _).trans same) rfl

/-- A successful `mpu_read_mem` puts what it reads at the start of the buffer. -/
theorem mpuReadMem_reads (wired : port.i2c = true) {memAddr : UInt16} (short : length.toNat < 256)
    (zero : (mpuReadMem port st memAddr length (some cur)).1 = 0) :
    (mpuReadMem port st memAddr length (some cur)).2.2.readBack =
      st.readBack ++ (mpuReadMem port st memAddr length (some cur)).2.1.take length.toNat := by
  -- The selection reads nothing, and the second call reads all that was asked for.
  have cut : length.toUInt8.toNat = length.toNat := by
    rw [UInt16.toNat_toUInt8, Nat.mod_eq_of_lt short]
  have second := memAccess_of_zero zero
  unfold mpuReadMem
  rw [second, mpuReadLen_reads wired, (mpuWriteLen_frame _ _ _).2, cut]

/-- A chunk leaves the configuration alone. -/
theorem chipCfg_loadChunk :
    (loadChunk port st length firmware cur ii).2.2.chipCfg = st.chipCfg := by
  -- The write and the read leave the configuration alone, whatever their results.
  have written := (@mpuWriteMem_frame δ port st ii (thisWrite length ii)
    (some (firmware.drop ii.toNat))).1
  unfold loadChunk
  simp only
  split_ifs
  · exact written
  · exact (chipCfg_mpuReadMem _ _ _).trans written
  · exact (chipCfg_mpuReadMem _ _ _).trans written
  · exact (chipCfg_mpuReadMem _ _ _).trans written

/-- A chunk that passes was read back as it is in the image. -/
theorem loadChunk_reads (wired : port.i2c = true)
    (zero : (loadChunk port st length firmware cur ii).1 = 0) :
    (loadChunk port st length firmware cur ii).2.2.readBack =
      st.readBack ++ (firmware.drop ii.toNat).take (thisWrite length ii).toNat := by
  have short : (thisWrite length ii).toNat < 256 := by
    rw [toNat_thisWrite]
    omega
  have written := (@mpuWriteMem_frame δ port st ii (thisWrite length ii)
    (some (firmware.drop ii.toNat))).2
  unfold loadChunk at zero ⊢
  simp only at zero ⊢
  split_ifs at zero ⊢ with failed unread differs
  · cases zero
  · cases zero
  · cases zero
  · -- The comparison found no difference.
    rw [mpuReadMem_reads wired short (not_not.mp unread), written, ← not_not.mp differs]

/-- The loop leaves the configuration alone. -/
theorem chipCfg_loadChunks :
    (loadChunks port st length firmware cur ii).2.chipCfg = st.chipCfg := by
  -- By induction along the loop: every chunk does.
  fun_induction loadChunks port st length firmware cur ii with
  | case1 st cur ii below err later after chunk failed =>
    have kept := @chipCfg_loadChunk δ port st length ii firmware cur
    rw [chunk] at kept
    exact kept
  | case2 st cur ii below err later after chunk passed ih =>
    have kept := @chipCfg_loadChunk δ port st length ii firmware cur
    rw [chunk] at kept
    exact ih.trans kept
  | case3 => rfl

/-- A loop that passes read back the rest of the image. -/
theorem loadChunks_reads (wired : port.i2c = true) (sized : firmware.length = length.toNat)
    (zero : (loadChunks port st length firmware cur ii).1 = 0) :
    (loadChunks port st length firmware cur ii).2.readBack =
      st.readBack ++ firmware.drop ii.toNat := by
  -- By induction along the loop: each chunk is followed by the rest behind it.
  fun_induction loadChunks port st length firmware cur ii with
  | case1 st cur ii below err later after chunk failed => exact absurd zero failed
  | case2 st cur ii below err later after chunk passed ih =>
    have read := @loadChunk_reads δ port st length ii firmware cur wired
    rw [chunk] at read
    rw [ih zero, read (not_not.mp passed), List.append_assoc, chunk_append below]
  | case3 st cur ii past =>
    -- The counter has reached the end of the image.
    have order : length.toNat ≤ ii.toNat := UInt16.le_iff_toNat_le.mp (UInt16.not_lt.mp past)
    rw [List.drop_of_length_le (by omega), List.append_nil]

variable {startAddr sampleRate : UInt16}

/-- A load that returns zero read back the whole image. -/
theorem mpuLoadFirmware_reads (wired : port.i2c = true) (sized : firmware.length = length.toNat)
    (zero : (mpuLoadFirmware port st length (some firmware) startAddr sampleRate cur).1 = 0) :
    (mpuLoadFirmware port st length (some firmware) startAddr sampleRate cur).2.readBack =
      st.readBack ++ firmware := by
  unfold mpuLoadFirmware at zero ⊢
  simp only at zero ⊢
  split_ifs at zero ⊢ with loaded failed refused
  · cases zero
  · exact absurd zero failed
  · cases zero
  · -- The write of the start address comes after the loop and reads nothing.
    have read := loadChunks_reads wired sized (not_not.mp failed)
    exact (mpuWriteLen_frame _ _ _).2.trans read

/-- A load that does not return zero leaves the configuration alone. -/
theorem chipCfg_mpuLoadFirmware {image : Option Bytes}
    (failed : (mpuLoadFirmware port st length image startAddr sampleRate cur).1 ≠ 0) :
    (mpuLoadFirmware port st length image startAddr sampleRate cur).2.chipCfg = st.chipCfg := by
  -- The configuration is written right before zero is returned, and nowhere else.
  unfold mpuLoadFirmware at failed ⊢
  split_ifs at failed ⊢
  · rfl
  · split at failed
    · rfl
    · simp only at failed ⊢
      split_ifs at failed ⊢
      · exact chipCfg_loadChunks
      · exact (mpuWriteLen_frame _ _ _).1.trans chipCfg_loadChunks
      · exact absurd rfl failed

end MultifunctionClock
