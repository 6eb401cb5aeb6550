import MultifunctionClock.Lib.Writes

/-!
The memory of the motion processor behind the application's port to the bus.

The driver reaches it through `MPU_Write_Len` and `MPU_Read_Len`.
The bus and the device on it are a parameter, and every call of the port is recorded.
-/

namespace MultifunctionClock

open Bytes

/-- The register `bank_sel`. -/
def bankSel : UInt8 := 0x6D

/-- The register `mem_start_addr`, right behind `bank_sel`. -/
def memStartAddr : UInt8 := 0x6E

/-- The register `mem_r_w`. -/
def memRW : UInt8 := 0x6F

/-- The register `prgm_start_h`. -/
def prgmStartH : UInt8 := 0x70

/-- The field `bank_size` of `struct hw_s`. -/
def bankSize : ℕ := 256

/-- The size of `buf` in `MPU_Write_Len`. -/
def bufSize : ℕ := 50

/-- The bus behind the port, with the state `δ` of everything on it. -/
structure Port (δ : Type) where
  /-- `dev->bus->type == RT_Device_Class_I2CBUS`. -/
  i2c : Bool
  /-- `rt_i2c_transfer` of one message that is written: its result, and the state after it. -/
  send : δ → Bytes → ℕ × δ
  /-- `rt_i2c_transfer` of a register number and a message that is read, with the bytes read. -/
  receive : δ → UInt8 → ℕ → (ℕ × Bytes) × δ
  /-- As many bytes of the buffer are filled as were asked for. -/
  length_receive : ∀ device reg len, (receive device reg len).1.2.length = len
  /-- The value that a caller of `MPU_Write_Len` finds, given the `res` that it computes. -/
  result : δ → UInt8 → UInt8

/-- A call of the port. A bus of another type gets no message. -/
inductive PortCall where
  /-- `MPU_Write_Len`: its writes to `buf`, and its message with the result of the transfer. -/
  | write (stores : List Write) (transfer : Option (Bytes × ℕ))
  /-- `MPU_Read_Len`: the register, and the bytes read with the result of the transfer. -/
  | read (reg : UInt8) (transfer : Option (Bytes × ℕ))
deriving DecidableEq

namespace PortCall

/-- The transfer of a call succeeded: as many messages went through as were passed. -/
def succeeded : PortCall → Bool
  | .write _ (some (_, num)) => num = 1
  | .read _ (some (_, num)) => num = 2
  | _ => false

/-- The message that a call wrote to the bus. -/
def payload : PortCall → Option Bytes
  | .write _ (some (msg, _)) => some msg
  | _ => none

/-- The bytes that a call read from the bus. -/
def bytesRead : PortCall → Bytes
  | .read _ (some (bytes, _)) => bytes
  | _ => []

/-- The call wrote to no byte outside `buf`. -/
def InBuf : PortCall → Prop
  | .write stores _ => Within bufSize stores
  | .read _ _ => True

instance (call : PortCall) : Decidable call.InBuf :=
  match call with
  | .write stores _ => inferInstanceAs (Decidable (Within bufSize stores))
  | .read _ _ => inferInstanceAs (Decidable True)

end PortCall

/-- The fields of `st.chip_cfg` that access to the memory uses. -/
structure ChipCfg where
  sensors : UInt8
  dmpLoaded : UInt8
  dmpSampleRate : UInt16
deriving DecidableEq

/-- The driver's configuration, the devices on the bus, and the calls of the port so far. -/
structure MpuState (δ : Type) where
  chipCfg : ChipCfg
  device : δ
  log : List PortCall

variable {δ : Type}

/-- The state before the first call of the port. -/
def MpuState.start (chipCfg : ChipCfg) (device : δ) : MpuState δ := ⟨chipCfg, device, []⟩

/-- `RT_EOK` or `-RT_ERROR`, converted to the result type. -/
def resOf (done : Prop) [Decidable done] : UInt8 := if done then 0 else 255

/-- The writes of `MPU_Write_Len` to `buf`: the register, and then the data byte by byte. -/
def bufStores (reg len : UInt8) (databuf : Bytes) : List Write :=
  ⟨0, [reg]⟩ :: bytewise 1 len.toNat fun i => databuf.getD i 0

/-- `MPU_Write_Len`. Its parameter `addr` is not used, and it has no return statement. -/
def mpuWriteLen (port : Port δ) (st : MpuState δ) (reg len : UInt8) (databuf : Bytes) :
    UInt8 × MpuState δ :=
  let stores := bufStores reg len databuf
  -- Writes past the end of `buf` are recorded, and taken to reach the memory behind it.
  let buf := apply stores (List.replicate bufSize 0)
  if port.i2c then
    let msg := buf.take (len.toNat + 1)
    let (num, device) := port.send st.device msg
    (port.result device (resOf (num = 1)),
      { st with device := device, log := st.log ++ [.write stores (some (msg, num))] })
  else (port.result st.device 0, { st with log := st.log ++ [.write stores none] })

/-- `MPU_Read_Len`, which fills the start of `buf`. -/
def mpuReadLen (port : Port δ) (st : MpuState δ) (reg len : UInt8) (buf : Bytes) :
    UInt8 × Bytes × MpuState δ :=
  if port.i2c then
    let ((num, bytes), device) := port.receive st.device reg len.toNat
    (resOf (num = 2), store 0 bytes buf,
      { st with device := device, log := st.log ++ [.read reg (some (bytes, num))] })
  else (0, buf, { st with log := st.log ++ [.read reg none] })

/-- The high byte of an address or a start address. -/
def highByte (word : UInt16) : UInt8 := (word >>> 8).toUInt8

/-- The low byte of an address or a start address. -/
def lowByte (word : UInt16) : UInt8 := (word &&& 0xFF).toUInt8

/--
The common body of `mpu_write_mem` and `mpu_read_mem`.

They differ in the second call of the port only.
-/
def memAccess (port : Port δ) (st : MpuState δ) (memAddr length : UInt16) (data : Option Bytes)
    (access : MpuState δ → Bytes → UInt8 × Bytes × MpuState δ) : ℤ × Bytes × MpuState δ :=
  match data with
  | none => (-1, [], st)
  | some data =>
    if st.chipCfg.sensors = 0 then (-1, data, st)
    -- The check of the bank boundary is in `int`.
    else if (lowByte memAddr).toNat + length.toNat > bankSize then (-1, data, st)
    else
      let (res, st) := mpuWriteLen port st bankSel 2 [highByte memAddr, lowByte memAddr]
      if res ≠ 0 then (-1, data, st)
      else
        let (res, data, st) := access st data
        if res ≠ 0 then (-1, data, st) else (0, data, st)

/-- `mpu_write_mem`. The length is converted to eight bits for the port. -/
def mpuWriteMem (port : Port δ) (st : MpuState δ) (memAddr length : UInt16) (data : Option Bytes) :
    ℤ × MpuState δ :=
  let (err, _, st) := memAccess port st memAddr length data fun st data =>
    let (res, st) := mpuWriteLen port st memRW length.toUInt8 data
    (res, data, st)
  (err, st)

/-- `mpu_read_mem`. -/
def mpuReadMem (port : Port δ) (st : MpuState δ) (memAddr length : UInt16) (data : Option Bytes) :
    ℤ × Bytes × MpuState δ :=
  memAccess port st memAddr length data fun st data => mpuReadLen port st memRW length.toUInt8 data

/-- The low byte of an address is its offset in its bank. -/
@[simp] theorem toNat_lowByte (word : UInt16) : (lowByte word).toNat = word.toNat % 256 := by
  -- The mask keeps the low eight bits.
  have mask : word.toNat &&& 255 = word.toNat % 2 ^ 8 := Nat.and_two_pow_sub_one_eq_mod _ 8
  rw [lowByte, UInt16.toNat_toUInt8, UInt16.toNat_and,
    show (0xFF : UInt16).toNat = 255 from rfl, mask]
  omega

/-- The high byte of an address is its bank. -/
@[simp] theorem toNat_highByte (word : UInt16) : (highByte word).toNat = word.toNat / 256 := by
  -- Eight bits are shifted out, and what is left fits a byte.
  have small := word.toNat_lt
  rw [highByte, UInt16.toNat_toUInt8, UInt16.toNat_shiftRight, Nat.shiftRight_eq_div_pow,
    show 2 ^ ((8 : UInt16).toNat % 16) = 256 from rfl]
  omega

/-- The port sends the register and then the data. -/
theorem take_apply_bufStores (reg len : UInt8) {databuf : Bytes}
    (long : len.toNat ≤ databuf.length) :
    (apply (bufStores reg len databuf) (List.replicate bufSize 0)).take (len.toNat + 1) =
      reg :: databuf.take len.toNat := by
  -- The register and the data are written in a row from the start of the buffer.
  have values : (List.range len.toNat).map (fun i => databuf.getD i 0) =
      databuf.take len.toNat := by
    apply List.ext_getElem
    · simp [long]
    · intro i below _
      simp at below
      simp [List.getD_eq_getElem?_getD, List.getElem?_eq_getElem (show i < databuf.length by omega)]
  have size : (reg :: databuf.take len.toNat).length = len.toNat + 1 := by simp [long]
  have front : apply (bufStores reg len databuf) (List.replicate bufSize 0) =
      store 0 (reg :: databuf.take len.toNat) (List.replicate bufSize 0) := by
    rw [bufStores, apply, List.foldl_cons, ← apply,
      apply_bytewise (by simp [store, bufSize]), values]
    exact store_store (Nat.zero_le _) rfl
  rw [front, store_zero, ← size, List.take_left']
  rfl

/-- The writes of the port stay inside its buffer exactly for lengths below its size. -/
theorem within_bufStores_iff (reg len : UInt8) (databuf : Bytes) :
    Within bufSize (bufStores reg len databuf) ↔ len.toNat < bufSize := by
  -- The register takes the first byte, and the data the following ones.
  have data := @within_bytewise_iff bufSize 1 len.toNat fun i => databuf.getD i 0
  unfold Within at data ⊢
  rw [bufStores, List.forall_mem_cons, data]
  simp only [bufSize, List.length_singleton]
  omega

variable {port : Port δ} {st : MpuState δ}

/-- `MPU_Write_Len` on a bus of the right type: one message with the register and the data. -/
theorem mpuWriteLen_eq (wired : port.i2c = true) {reg len : UInt8} {databuf : Bytes}
    (long : len.toNat ≤ databuf.length) :
    mpuWriteLen port st reg len databuf =
      let msg := reg :: databuf.take len.toNat
      let (num, device) := port.send st.device msg
      (port.result device (resOf (num = 1)),
        { st with
          device := device
          log := st.log ++ [.write (bufStores reg len databuf) (some (msg, num))] }) := by
  simp only [mpuWriteLen, wired, if_true, take_apply_bufStores reg len long]

/--
The accesses to the memory that pass the checks: the bank is selected, and then the access made.
-/
theorem memAccess_eq (awake : st.chipCfg.sensors ≠ 0) {memAddr length : UInt16}
    (fits : memAddr.toNat % 256 + length.toNat ≤ 256) (data : Bytes)
    (access : MpuState δ → Bytes → UInt8 × Bytes × MpuState δ) :
    memAccess port st memAddr length (some data) access =
      let (res, st) := mpuWriteLen port st bankSel 2 [highByte memAddr, lowByte memAddr]
      if res ≠ 0 then (-1, data, st)
      else
        let (res, data, st) := access st data
        if res ≠ 0 then (-1, data, st) else (0, data, st) := by
  -- None of the three checks fails.
  have inside : ¬(lowByte memAddr).toNat + length.toNat > bankSize := by
    rw [toNat_lowByte, bankSize]
    omega
  simp only [memAccess, if_neg awake, if_neg inside]

/-- What the calls of the port keep is kept by an access to the memory. -/
theorem memAccess_keeps (good : MpuState δ → Prop) {memAddr length : UInt16} {data : Option Bytes}
    {access : MpuState δ → Bytes → UInt8 × Bytes × MpuState δ}
    (write : ∀ st reg len databuf, good st → good (mpuWriteLen port st reg len databuf).2)
    (finish : ∀ st data, good st → good (access st data).2.2) (init : good st) :
    good (memAccess port st memAddr length data access).2.2 := by
  -- The access stops at a failed check, after the first call, or after the second.
  have selected := write st bankSel 2 [highByte memAddr, lowByte memAddr] init
  unfold memAccess
  split
  · exact init
  · simp only
    split_ifs
    · exact init
    · exact init
    · exact selected
    · exact finish _ _ selected
    · exact finish _ _ selected

/-- An access that returns zero made its second call, in the state after the first. -/
theorem memAccess_of_zero {memAddr length : UInt16} {data : Bytes}
    {access : MpuState δ → Bytes → UInt8 × Bytes × MpuState δ}
    (zero : (memAccess port st memAddr length (some data) access).1 = 0) :
    (memAccess port st memAddr length (some data) access).2 =
      (access (mpuWriteLen port st bankSel 2 [highByte memAddr, lowByte memAddr]).2 data).2 := by
  -- Every other way out returns minus one.
  unfold memAccess at zero ⊢
  simp only at zero ⊢
  split_ifs at zero ⊢
  · cases zero
  · cases zero
  · cases zero
  · cases zero
  · rfl

end MultifunctionClock
