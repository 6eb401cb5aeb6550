import MultifunctionClock.Lib.Overlay
import MultifunctionClock.Mpu.Firmware

/-!
The motion processor as a byte memory of banks, and a firmware image loaded into it.

A write or a read of `mem_r_w` goes to the selected bank at the start address, which moves on.
-/

namespace MultifunctionClock

open Bytes Overlay

/-- The part of the motion processor behind its memory registers. -/
structure Dmp where
  bank : UInt8
  start : UInt8
  /-- The memory, by bank and start address in one number. -/
  mem : ℕ → UInt8
  /-- The bytes written to the memory so far, with their addresses. -/
  written : List (UInt8 × ℕ)
  /-- The start address and the number of bytes of each transfer to or from the memory. -/
  spans : List (ℕ × ℕ)

namespace Dmp

/-- The address of the next byte. -/
def address (d : Dmp) : ℕ := d.bank.toNat * 256 + d.start.toNat

/-- One byte is written to a register. Registers outside the memory interface are left out. -/
def put (d : Dmp) (reg byte : UInt8) : Dmp :=
  if reg = bankSel then { d with bank := byte }
  else if reg = memStartAddr then { d with start := byte }
  else if reg = memRW then
    { d with
      start := d.start + 1
      mem := Function.update d.mem d.address byte
      written := d.written ++ [(byte, d.address)] }
  else d

/-- One byte is read from a register. -/
def get (d : Dmp) (reg : UInt8) : UInt8 × Dmp :=
  if reg = bankSel then (d.bank, d)
  else if reg = memStartAddr then (d.start, d)
  else if reg = memRW then (d.mem d.address, { d with start := d.start + 1 })
  else (0, d)

/-- The register of the next byte of a transfer. Only `mem_r_w` does not move on. -/
def nextReg (reg : UInt8) : UInt8 := if reg = memRW then reg else reg + 1

/-- The bytes of a message are written from a register on. -/
def putAll : UInt8 → Bytes → Dmp → Dmp
  | _, [], d => d
  | reg, byte :: rest, d => putAll (nextReg reg) rest (d.put reg byte)

/-- Bytes are read from a register on. -/
def getAll : UInt8 → ℕ → Dmp → Bytes × Dmp
  | _, 0, d => ([], d)
  | reg, count + 1, d =>
    let (byte, d) := d.get reg
    let (rest, d) := getAll (nextReg reg) count d
    (byte :: rest, d)

/-- A transfer to or from the memory is recorded. -/
def span (d : Dmp) (reg : UInt8) (count : ℕ) : Dmp :=
  if reg = memRW then { d with spans := d.spans ++ [(d.start.toNat, count)] } else d

/-- A message that is written starts with the number of a register. -/
def send (d : Dmp) : Bytes → Dmp
  | [] => d
  | reg :: data => putAll reg data (d.span reg data.length)

/-- A message that is read. -/
def receive (d : Dmp) (reg : UInt8) (count : ℕ) : Bytes × Dmp := getAll reg count (d.span reg count)

/-- As many bytes are read as were asked for. -/
theorem length_getAll (reg : UInt8) (count : ℕ) (d : Dmp) :
    (getAll reg count d).1.length = count := by
  -- One byte is read for each count.
  induction count generalizing reg d with
  | zero => rfl
  | succ count ih => simp [getAll, ih]

/-- The start address moves on by one as long as it stays in its bank. -/
theorem toNat_start_add {d : Dmp} (inside : d.start.toNat + 1 < 256) :
    (d.start + 1).toNat = d.start.toNat + 1 := by
  rw [UInt8.toNat_add]
  exact Nat.mod_eq_of_lt inside

/-- Bytes that stay in the bank are written in a row from the address on. -/
theorem putAll_memRW (data : Bytes) (d : Dmp) (fits : d.start.toNat + data.length ≤ 256) :
    ∃ start, putAll memRW data d =
      { d with
        start := start
        mem := overlay d.mem d.address data
        written := d.written ++ data.zipIdx d.address } := by
  -- By induction on the data. The start address may leave the bank behind the last byte only.
  induction data generalizing d with
  | nil => exact ⟨d.start, by simp [putAll]⟩
  | cons byte rest ih =>
    have first : putAll memRW (byte :: rest) d = putAll memRW rest (d.put memRW byte) := rfl
    rw [first, ← overlay_cons, List.zipIdx_cons]
    cases rest with
    | nil => exact ⟨d.start + 1, by rw [overlay_nil]; rfl⟩
    | cons second more =>
      simp only [List.length_cons] at fits ih
      have moved := toNat_start_add (d := d) (by omega)
      have next : (d.put memRW byte).address = d.address + 1 := by
        show d.bank.toNat * 256 + (d.start + 1).toNat = d.address + 1
        rw [moved, address, Nat.add_assoc]
      obtain ⟨start, rest⟩ := ih (d.put memRW byte) (by
        show (d.start + 1).toNat + (more.length + 1) ≤ 256
        omega)
      refine ⟨start, ?_⟩
      rw [rest, next]
      simp [put, bankSel, memStartAddr, memRW]

/-- Bytes that stay in the bank are read in a row from the address on. -/
theorem getAll_memRW (count : ℕ) (d : Dmp) (fits : d.start.toNat + count ≤ 256) :
    ∃ start, getAll memRW count d =
      ((List.range count).map fun i => d.mem (d.address + i), { d with start := start }) := by
  -- As for the bytes that are written.
  induction count generalizing d with
  | zero => exact ⟨d.start, rfl⟩
  | succ count ih =>
    have first : getAll memRW (count + 1) d =
      let after := getAll memRW count { d with start := d.start + 1 }
      (d.mem d.address :: after.1, after.2) := rfl
    rw [first, List.range_succ_eq_map]
    cases count with
    | zero => exact ⟨d.start + 1, by simp [getAll]⟩
    | succ count =>
      have moved := toNat_start_add (d := d) (by omega)
      obtain ⟨start, rest⟩ := ih { d with start := d.start + 1 } (by
        show (d.start + 1).toNat + (count + 1) ≤ 256
        omega)
      refine ⟨start, ?_⟩
      rw [rest]
      simp [address, moved, Function.comp_def, Nat.add_assoc, Nat.add_comm 1]

/-- A message to the memory writes its bytes at the selected address. -/
theorem send_memRW {data : Bytes} {d : Dmp} (fits : d.start.toNat + data.length ≤ 256) :
    ∃ start, d.send (memRW :: data) =
      { d with
        start := start
        mem := overlay d.mem d.address data
        written := d.written ++ data.zipIdx d.address
        spans := d.spans ++ [(d.start.toNat, data.length)] } :=
  putAll_memRW data (d.span memRW data.length) fits

/-- A message from the memory reads the bytes at the selected address. -/
theorem receive_memRW {count : ℕ} {d : Dmp} (fits : d.start.toNat + count ≤ 256) :
    ∃ start, d.receive memRW count =
      ((List.range count).map fun i => d.mem (d.address + i),
        { d with start := start, spans := d.spans ++ [(d.start.toNat, count)] }) :=
  getAll_memRW count (d.span memRW count) fits

end Dmp

/-- The motion processor on a bus where all transfers succeed, with the port's `res` returned. -/
def dmpPort : Port Dmp where
  i2c := true
  send d msg := (1, d.send msg)
  receive d reg len := ((2, (d.receive reg len).1), (d.receive reg len).2)
  length_receive _ reg len := Dmp.length_getAll reg len _
  result _ res := res

/--
A part of an image was loaded between two states.

It was written once and in order, no transfer left its bank, and the port stayed inside its buffer.
-/
structure Loads (st after : MpuState Dmp) (base : ℕ) (part : Bytes) : Prop where
  chipCfg : after.chipCfg = st.chipCfg
  mem : after.device.mem = overlay st.device.mem base part
  written : after.device.written = st.device.written ++ part.zipIdx base
  spans : ∃ new, after.device.spans = st.device.spans ++ new ∧ ∀ span ∈ new,
    span.1 + span.2 ≤ bankSize
  calls : ∃ new, after.log = st.log ++ new ∧ ∀ call ∈ new, call.InBuf

/-- Loading nothing changes nothing. -/
theorem Loads.refl (st : MpuState Dmp) (base : ℕ) : Loads st st base [] where
  chipCfg := rfl
  mem := (overlay_nil _ _).symm
  written := (List.append_nil _).symm
  spans := ⟨[], (List.append_nil _).symm, by simp⟩
  calls := ⟨[], (List.append_nil _).symm, by simp⟩

/-- Two parts in a row are one part. -/
theorem Loads.trans {st middle after : MpuState Dmp} {base : ℕ} {first second : Bytes}
    (early : Loads st middle base first) (late : Loads middle after (base + first.length) second) :
    Loads st after base (first ++ second) := by
  -- What is new in the two halves is put together, part by part.
  obtain ⟨earlySpans, earlySpansEq, earlyFit⟩ := early.spans
  obtain ⟨lateSpans, lateSpansEq, lateFit⟩ := late.spans
  obtain ⟨earlyCalls, earlyCallsEq, earlyStay⟩ := early.calls
  obtain ⟨lateCalls, lateCallsEq, lateStay⟩ := late.calls
  refine ⟨late.chipCfg.trans early.chipCfg, ?_, ?_, ⟨earlySpans ++ lateSpans, ?_, ?_⟩,
    ⟨earlyCalls ++ lateCalls, ?_, ?_⟩⟩
  · rw [late.mem, early.mem, overlay_append]
  · rw [late.written, early.written, List.zipIdx_append, List.append_assoc]
  · rw [lateSpansEq, earlySpansEq, List.append_assoc]
  · exact List.forall_mem_append.mpr ⟨earlyFit, lateFit⟩
  · rw [lateCallsEq, earlyCallsEq, List.append_assoc]
  · exact List.forall_mem_append.mpr ⟨earlyStay, lateStay⟩

/-- The state after a call of the port that writes. -/
def MpuState.wrote (st : MpuState Dmp) (reg len : UInt8) (databuf : Bytes) : MpuState Dmp :=
  { st with
    device := st.device.send (reg :: databuf.take len.toNat)
    log := st.log ++
      [.write (bufStores reg len databuf) (some (reg :: databuf.take len.toNat, 1))] }

/-- The state after a call of the port that reads. -/
def MpuState.hasRead (st : MpuState Dmp) (reg len : UInt8) : MpuState Dmp :=
  { st with
    device := (st.device.receive reg len.toNat).2
    log := st.log ++ [.read reg (some ((st.device.receive reg len.toNat).1, 2))] }

/-- The state after the bank and the start address were selected. -/
def MpuState.select (st : MpuState Dmp) (memAddr : UInt16) : MpuState Dmp :=
  st.wrote bankSel 2 [highByte memAddr, lowByte memAddr]

section Chunk

variable {st : MpuState Dmp} {memAddr length : UInt16}

/-- `MPU_Write_Len` succeeds. -/
theorem mpuWriteLen_dmp (st : MpuState Dmp) (reg : UInt8) {len : UInt8} {databuf : Bytes}
    (long : len.toNat ≤ databuf.length) :
    mpuWriteLen dmpPort st reg len databuf = (0, st.wrote reg len databuf) :=
  mpuWriteLen_eq rfl long

/-- `MPU_Read_Len` succeeds. -/
theorem mpuReadLen_dmp (st : MpuState Dmp) (reg len : UInt8) (buf : Bytes) :
    mpuReadLen dmpPort st reg len buf =
      (0, store 0 (st.device.receive reg len.toNat).1 buf, st.hasRead reg len) := rfl

/-- An access that passes the checks returns zero when its second call does. -/
theorem memAccess_dmp (awake : st.chipCfg.sensors ≠ 0)
    (fits : memAddr.toNat % 256 + length.toNat ≤ 256) {data : Bytes} {after : Bytes × MpuState Dmp}
    {access : MpuState Dmp → Bytes → UInt8 × Bytes × MpuState Dmp}
    (done : access (st.select memAddr) data = (0, after)) :
    memAccess dmpPort st memAddr length (some data) access = (0, after) := by
  -- The selection of the bank returns zero, so the access goes on.
  have select : mpuWriteLen dmpPort st bankSel 2 [highByte memAddr, lowByte memAddr] =
      (0, st.select memAddr) := mpuWriteLen_dmp st bankSel (by simp)
  rw [memAccess_eq awake fits, select]
  simp only [ne_eq, not_true_eq_false, if_false, done]

/-- `mpu_write_mem` succeeds. -/
theorem mpuWriteMem_dmp (awake : st.chipCfg.sensors ≠ 0)
    (fits : memAddr.toNat % 256 + length.toNat ≤ 256) {data : Bytes}
    (long : length.toUInt8.toNat ≤ data.length) :
    mpuWriteMem dmpPort st memAddr length (some data) =
      (0, (st.select memAddr).wrote memRW length.toUInt8 data) := by
  rw [mpuWriteMem, memAccess_dmp awake fits (by rw [mpuWriteLen_dmp _ _ long])]

/-- `mpu_read_mem` succeeds. -/
theorem mpuReadMem_dmp (awake : st.chipCfg.sensors ≠ 0)
    (fits : memAddr.toNat % 256 + length.toNat ≤ 256) (cur : Bytes) :
    mpuReadMem dmpPort st memAddr length (some cur) =
      (0, store 0 ((st.select memAddr).device.receive memRW length.toUInt8.toNat).1 cur,
        (st.select memAddr).hasRead memRW length.toUInt8) := by
  rw [mpuReadMem, memAccess_dmp awake fits (mpuReadLen_dmp _ _ _ _)]

/-- After the selection, the next byte has the address that was passed. -/
theorem address_select (st : MpuState Dmp) (memAddr : UInt16) :
    (st.select memAddr).device.address = memAddr.toNat := by
  -- The two bytes of the address are its bank and its offset in the bank.
  show (highByte memAddr).toNat * 256 + (lowByte memAddr).toNat = memAddr.toNat
  rw [toNat_highByte, toNat_lowByte]
  omega

/-- The selection loads nothing. -/
theorem loads_select (st : MpuState Dmp) (memAddr : UInt16) (base : ℕ) :
    Loads st (st.select memAddr) base [] where
  __ := Loads.refl st base
  calls := ⟨_, rfl, List.forall_mem_singleton.mpr ((within_bufStores_iff _ _ _).mpr (by decide))⟩

/-- A write of fewer bytes than the port's buffer takes loads them. -/
theorem loads_wrote {len : UInt8} {data : Bytes} (fits : memAddr.toNat % 256 + len.toNat ≤ 256)
    (small : len.toNat < bufSize) (long : len.toNat ≤ data.length) :
    Loads st ((st.select memAddr).wrote memRW len data) memAddr.toNat (data.take len.toNat) := by
  -- The selected bank has room for the bytes, so the device stores them in a row.
  have inside : (st.select memAddr).device.start.toNat + (data.take len.toNat).length ≤ 256 := by
    rw [List.length_take_of_le long]
    exact (toNat_lowByte memAddr).symm ▸ fits
  obtain ⟨start, stored⟩ := Dmp.send_memRW inside
  rw [address_select] at stored
  refine (loads_select st memAddr _).trans ⟨rfl, ?_, ?_,
    ⟨[(_, _)], ?_, List.forall_mem_singleton.mpr inside⟩,
    ⟨_, rfl, List.forall_mem_singleton.mpr ((within_bufStores_iff _ _ _).mpr small)⟩⟩
  all_goals rw [MpuState.wrote, stored]
  all_goals rfl

/-- A read loads nothing. -/
theorem loads_hasRead {len : UInt8} (fits : memAddr.toNat % 256 + len.toNat ≤ 256) (base : ℕ) :
    Loads st ((st.select memAddr).hasRead memRW len) base [] := by
  -- A read moves the start address on and adds a span, but changes no byte.
  have inside : (st.select memAddr).device.start.toNat + len.toNat ≤ 256 :=
    (toNat_lowByte memAddr).symm ▸ fits
  obtain ⟨start, received⟩ := Dmp.receive_memRW inside
  refine (loads_select st memAddr base).trans ⟨rfl, ?_, ?_,
    ⟨[(_, _)], ?_, List.forall_mem_singleton.mpr inside⟩,
    ⟨_, rfl, List.forall_mem_singleton.mpr trivial⟩⟩
  all_goals rw [MpuState.hasRead, received]
  · rw [overlay_nil]
  · rw [List.zipIdx_nil, List.append_nil]
  · rfl

/-- A read gives the bytes of the memory. -/
theorem receive_select {len : UInt8} (fits : memAddr.toNat % 256 + len.toNat ≤ 256) :
    ((st.select memAddr).device.receive memRW len.toNat).1 =
      (List.range len.toNat).map fun i => st.device.mem (memAddr.toNat + i) := by
  -- The bytes come in a row from the selected address, and the selection changes none of them.
  have inside : (st.select memAddr).device.start.toNat + len.toNat ≤ 256 :=
    (toNat_lowByte memAddr).symm ▸ fits
  obtain ⟨start, received⟩ := Dmp.receive_memRW inside
  rw [received, address_select]
  rfl

/-- What was written is read back, and has been loaded. -/
theorem writeMem_readMem_dmp (awake : st.chipCfg.sensors ≠ 0)
    (fits : memAddr.toNat % 256 + length.toNat ≤ 256) (small : length.toNat < bufSize)
    {data : Bytes} (long : length.toNat ≤ data.length) (cur : Bytes) :
    ∃ middle read after, mpuWriteMem dmpPort st memAddr length (some data) = (0, middle) ∧
      mpuReadMem dmpPort middle memAddr length (some cur) = (0, read, after) ∧
      read.take length.toNat = data.take length.toNat ∧
      Loads st after memAddr.toNat (data.take length.toNat) := by
  have cut : length.toUInt8.toNat = length.toNat := by
    rw [UInt16.toNat_toUInt8, Nat.mod_eq_of_lt (small.trans (by decide))]
  have size : (data.take length.toNat).length = length.toNat := List.length_take_of_le long
  set middle := (st.select memAddr).wrote memRW length.toUInt8 data
  have loaded : Loads st middle memAddr.toNat (data.take length.toUInt8.toNat) :=
    loads_wrote (cut.symm ▸ fits) (cut.trans_lt small) (cut.trans_le long)
  rw [cut] at loaded
  -- The read finds in the memory what was just written.
  have received : ((middle.select memAddr).device.receive memRW length.toUInt8.toNat).1 =
      data.take length.toNat := by
    rw [receive_select (cut.symm ▸ fits), cut, loaded.mem]
    have back := map_range_overlay st.device.mem memAddr.toNat (data.take length.toNat)
    rwa [size] at back
  refine ⟨middle, _, _, mpuWriteMem_dmp awake fits (cut.trans_le long),
    mpuReadMem_dmp (loaded.chipCfg.symm ▸ awake) fits cur, ?_, ?_⟩
  · rw [received, store_zero, List.take_left' size]
  · simpa using loaded.trans (loads_hasRead (cut.symm ▸ fits) _)

variable {ii : UInt16} {firmware cur : Bytes}

/-- A chunk at an aligned counter is loaded, and read back as it was written. -/
theorem loadChunk_dmp (awake : st.chipCfg.sensors ≠ 0) (sized : firmware.length = length.toNat)
    (below : ii < length) (aligned : ii.toNat % 16 = 0) (cur : Bytes) :
    ∃ read after, loadChunk dmpPort st length firmware cur ii = (0, read, after) ∧
      Loads st after ii.toNat ((firmware.drop ii.toNat).take (thisWrite length ii).toNat) := by
  have order := UInt16.lt_iff_toNat_lt.mp below
  have width := toNat_thisWrite length ii
  -- Sixteen divides the size of a bank, so a chunk that starts at a
  -- multiple of it stays in the bank.
  have fits : ii.toNat % 256 + (thisWrite length ii).toNat ≤ 256 := by omega
  have long : (thisWrite length ii).toNat ≤ (firmware.drop ii.toNat).length := by
    rw [List.length_drop]
    omega
  obtain ⟨middle, read, after, wrote, got, same, loaded⟩ :=
    writeMem_readMem_dmp awake fits (by rw [bufSize]; omega) long cur
  refine ⟨read, after, ?_, loaded⟩
  simp only [loadChunk, wrote, got, same, ne_eq, not_true_eq_false, if_false]

/-- The loop loads the rest of the image. -/
theorem loadChunks_dmp (awake : st.chipCfg.sensors ≠ 0) (sized : firmware.length = length.toNat)
    (aligned : ii < length → ii.toNat % 16 = 0) :
    ∃ after, loadChunks dmpPort st length firmware cur ii = (0, after) ∧
      Loads st after ii.toNat (firmware.drop ii.toNat) := by
  -- By induction along the loop. The counter stays aligned until it reaches the end.
  fun_induction loadChunks dmpPort st length firmware cur ii with
  | case1 st cur ii below err later after chunk failed =>
    obtain ⟨read, next, passed, -⟩ := loadChunk_dmp awake sized below (aligned below) cur
    rw [passed] at chunk
    obtain ⟨rfl, -⟩ := Prod.mk.inj chunk
    exact absurd rfl failed
  | case2 st cur ii below err later after chunk passed ih =>
    obtain ⟨read, next, done, loaded⟩ := loadChunk_dmp awake sized below (aligned below) cur
    rw [done] at chunk
    obtain ⟨rfl, rfl, rfl⟩ := chunk
    have order := UInt16.lt_iff_toNat_lt.mp below
    have counter := toNat_add_thisWrite below
    have start := aligned below
    obtain ⟨final, finished, rest⟩ := ih (loaded.chipCfg.symm ▸ awake) (by
      intro further
      have := UInt16.lt_iff_toNat_lt.mp further
      omega)
    refine ⟨final, finished, ?_⟩
    rw [← chunk_append below firmware]
    refine loaded.trans ?_
    have width : ((firmware.drop ii.toNat).take (thisWrite length ii).toNat).length =
        min 16 (length.toNat - ii.toNat) := by
      rw [List.length_take, List.length_drop, toNat_thisWrite]
      omega
    rwa [width, ← counter]
  | case3 st cur ii past =>
    have order : length.toNat ≤ ii.toNat := UInt16.le_iff_toNat_le.mp (UInt16.not_lt.mp past)
    rw [List.drop_of_length_le (by omega)]
    exact ⟨st, rfl, .refl st _⟩

/-- The write of the program's start address loads nothing. -/
theorem loads_program (st : MpuState Dmp) (startAddr : UInt16) (base : ℕ) :
    Loads st (st.wrote prgmStartH 2 [highByte startAddr, lowByte startAddr]) base [] where
  __ := Loads.refl st base
  calls := ⟨_, rfl, List.forall_mem_singleton.mpr ((within_bufStores_iff _ _ _).mpr (by decide))⟩

/-- The whole image is loaded, and then the chip counts as loaded. -/
theorem mpuLoadFirmware_dmp (awake : st.chipCfg.sensors ≠ 0) (unloaded : st.chipCfg.dmpLoaded = 0)
    (sized : firmware.length = length.toNat) (startAddr sampleRate : UInt16) :
    ∃ after, Loads st after 0 firmware ∧
      mpuLoadFirmware dmpPort st length (some firmware) startAddr sampleRate cur =
        (0, { after with
          chipCfg := { after.chipCfg with dmpLoaded := 1, dmpSampleRate := sampleRate } }) := by
  -- The counter starts at zero, which is aligned, and the loop is followed by one more write.
  obtain ⟨middle, finished, loaded⟩ :=
    @loadChunks_dmp st length 0 firmware cur awake sized fun _ => rfl
  have program : mpuWriteLen dmpPort middle prgmStartH 2 [highByte startAddr, lowByte startAddr] =
      (0, middle.wrote prgmStartH 2 [highByte startAddr, lowByte startAddr]) :=
    mpuWriteLen_dmp middle prgmStartH (by simp)
  refine ⟨_, by simpa using loaded.trans (loads_program middle startAddr _), ?_⟩
  simp only [mpuLoadFirmware, unloaded, finished, program, ne_eq, not_true_eq_false, if_false]

end Chunk

/-- The motion processor before any transfer. -/
def Dmp.untouched (bank start : UInt8) (mem : ℕ → UInt8) : Dmp := ⟨bank, start, mem, [], []⟩

/--
Firmware is loaded exactly.

On a bus that works, each byte is written once, in order, at its offset, and nothing else is
written. On any bus, a byte that is read back wrong keeps the chip from counting as loaded.
-/
theorem mpuLoadFirmware_exact (cfg : ChipCfg) (length startAddr sampleRate : UInt16)
    (image cur : Bytes) (sized : image.length = length.toNat) (unloaded : cfg.dmpLoaded = 0) :
    (∀ bank start mem, cfg.sensors ≠ 0 →
      ∃ after, mpuLoadFirmware dmpPort (.start cfg (.untouched bank start mem)) length (some image)
          startAddr sampleRate cur = (0, after) ∧
        after.chipCfg = { cfg with dmpLoaded := 1, dmpSampleRate := sampleRate } ∧
        after.device.written = image.zipIdx ∧
        (∀ address (inside : address < image.length), after.device.mem address = image[address]) ∧
        (∀ address, image.length ≤ address → after.device.mem address = mem address) ∧
        (∀ span ∈ after.device.spans, span.1 + span.2 ≤ bankSize) ∧
        ∀ call ∈ after.log, call.InBuf) ∧
    ∀ (δ : Type) (port : Port δ) (device : δ) (err : ℤ) (after : MpuState δ) (i : ℕ) (byte : UInt8),
      port.i2c = true →
      mpuLoadFirmware port (.start cfg device) length (some image) startAddr sampleRate cur =
        (err, after) →
      after.readBack[i]? = some byte → image[i]? ≠ some byte →
      err ≠ 0 ∧ after.chipCfg.dmpLoaded = 0 := by
  refine ⟨fun bank start mem awake => ?_,
    fun δ port device err after i byte wired done read differs => ?_⟩
  · obtain ⟨after, loaded, done⟩ :=
      @mpuLoadFirmware_dmp (.start cfg (.untouched bank start mem)) length
      image cur awake unloaded sized startAddr sampleRate
    obtain ⟨spans, spansEq, fit⟩ := loaded.spans
    obtain ⟨calls, callsEq, stay⟩ := loaded.calls
    refine ⟨_, done, by rw [loaded.chipCfg]; rfl, loaded.written, ?_, ?_, ?_, ?_⟩
    · intro address inside
      show after.device.mem address = image[address]
      rw [loaded.mem, overlay_zero_apply, List.getElem?_eq_getElem inside, Option.getD_some]
    · intro address outside
      show after.device.mem address = mem address
      rw [loaded.mem, overlay_zero_apply, List.getElem?_eq_none outside, Option.getD_none]
      rfl
    · exact spansEq ▸ fit
    · exact callsEq ▸ stay
  · -- Zero is returned only when everything that was read back is the image.
    have whole := @mpuLoadFirmware_reads δ port (.start cfg device) length image cur
      startAddr sampleRate
      wired sized
    have kept := @chipCfg_mpuLoadFirmware δ port (.start cfg device) length cur startAddr sampleRate
      (some image)
    rw [done] at whole kept
    have failed : err ≠ 0 := by
      intro zero
      rw [whole zero] at read
      exact differs read
    exact ⟨failed, by rw [kept failed]; exact unloaded⟩

/-- A bus on which every transfer succeeds, but which reads nothing but zeros. -/
def deafPort : Port Unit where
  i2c := true
  send _ _ := (1, ())
  receive _ _ len := ((2, List.replicate len 0), ())
  length_receive _ _ _ := List.length_replicate
  result _ res := res

/-- Firmware of seventeen chunks, the last of which lies in the second bank. -/
def bankImage : Bytes := (List.range 260).map fun i => UInt8.ofNat (i + 1)

/-- There are 260 bytes of it. -/
theorem length_bankImage : bankImage.length = (260 : UInt16).toNat := by
  simp [bankImage]

/-- Firmware that crosses a bank is loaded, and none whose first byte is read back as zero. -/
theorem mpuLoadFirmware_exact_banks :
    (∃ after, mpuLoadFirmware dmpPort (.start ⟨1, 0, 0⟩ (.untouched 0 0 fun _ => 0)) 260
        (some bankImage) 0x400 200 [] = (0, after) ∧ after.device.written = bankImage.zipIdx ∧
      after.device.mem 255 = 0 ∧ after.device.mem 256 = 1 ∧ after.device.mem 260 = 0) ∧
    (mpuLoadFirmware deafPort (.start ⟨1, 0, 0⟩ ()) 260 (some bankImage) 0x400 200 []).1 ≠ 0 := by
  obtain ⟨works, rejects⟩ :=
    mpuLoadFirmware_exact ⟨1, 0, 0⟩ 260 0x400 200 bankImage [] length_bankImage rfl
  obtain ⟨after, done, -, written, inside, outside, -⟩ := works 0 0 (fun _ => 0) (by decide)
  have size : bankImage.length = 260 := length_bankImage
  -- The first byte that comes back is zero and not one, so the first chunk is the last.
  have zero : (mpuLoadFirmware deafPort (.start ⟨1, 0, 0⟩ ()) 260 (some bankImage)
      0x400 200 []).2.readBack[0]? = some 0 := by
    rw [mpuLoadFirmware, loadChunks]
    decide +kernel
  refine ⟨⟨after, done, written, ?_, ?_, outside 260 size.le⟩,
    (rejects Unit deafPort () _ _ 0 0 rfl rfl zero (by decide +kernel)).1⟩
  · rw [inside 255 (by omega)]
    simp [bankImage]
  · rw [inside 256 (by omega)]
    simp [bankImage]

end MultifunctionClock
