/-
**The IMU link receiver (`FDILink.c`).**

`runningData` is the byte-wise receiver `FDILink_RunningData` on the record `FDILink_Status_t`. An
`int` field is an integer, the two byte arrays are vectors, and a write past the end of `Buffer`
is a failed step. The index into `FDILink_Frame_Buffer` is in range by the test the code makes
first.

`FDILink_Frame_Start … FDILink_Frame_End` are the values `0 … 8` of `RxStatus`; one lemma for each
says what a byte does there.
-/

import Robocon.FDILink.CrcTable
import Robocon.Lib.Run

namespace Robocon.FDILink

/-! ### The record and its small operations -/

abbrev frameStart : ℤ := 0
abbrev frameCMD : ℤ := 1
abbrev frameLength : ℤ := 2
abbrev frameSerialNumber : ℤ := 3
abbrev frameCRC8 : ℤ := 4
abbrev frameCRC16H : ℤ := 5
abbrev frameCRC16L : ℤ := 6
abbrev frameData : ℤ := 7
abbrev frameEnd : ℤ := 8

instance neZero_twelve : NeZero 12 := ⟨by decide⟩

/-- `FDILink_STX_Flag`. -/
def stxFlag : UInt8 := 0xFC

/-- `FDILink_EDX_Flag`. -/
def edxFlag : UInt8 := 0xFD

/-- `FDILink_Connect_Flag`. -/
def connectFlag : UInt8 := 0xFD

/-- `FDILink_Status_t`, less `BootStatus`, which no modelled function reads. -/
structure Status where
  rxStatus : ℤ
  rxType : ℤ
  rxDataLeft : ℤ
  rxNumber : ℤ
  txNumber : ℤ
  crc8Verify : ℤ
  crc16Verify : ℤ
  bufferIndex : ℕ
  frameBuffer : Vector UInt8 12
  buffer : Vector UInt8 256

/-- The zero-initialised global `FDILink`. -/
def Status.initial : Status where
  rxStatus := 0
  rxType := 0
  rxDataLeft := 0
  rxNumber := 0
  txNumber := 0
  crc8Verify := 0
  crc16Verify := 0
  bufferIndex := 0
  frameBuffer := Vector.replicate 12 0
  buffer := Vector.replicate 256 0

namespace Status

/-- `FDILink_Error`. -/
def error (s : Status) : Status := { s with rxStatus := frameStart }

/-- `FDILink_Reset`. -/
def reset (s : Status) : Status :=
  { s with rxStatus := frameStart, rxDataLeft := 0, rxType := 0, bufferIndex := 0, txNumber := 0 }

/-- `FDILink_Insert`; a write past the end of `Buffer` fails. -/
def insert (s : Status) (value : UInt8) : Option Status :=
  if s.rxDataLeft ≤ 0 then some s.error
  else if s.rxStatus ≠ frameData then some s.error
  else if room : s.bufferIndex < 256 then
    let s' := { s with
      buffer := s.buffer.set s.bufferIndex value room, bufferIndex := s.bufferIndex + 1 }
    if 256 ≤ s'.bufferIndex then some s'.error
    else some { s' with rxDataLeft := s'.rxDataLeft - 1 }
  else none

/-- The case `FDILink_Frame_End` of `FDILink_RunningData`. -/
def endOfFrame (s : Status) (value : UInt8) : Status × ℤ :=
  if value ≠ edxFlag then (s.error, -1)
  else if ((crc16Table s.buffer.toList (UInt8.ofNat s.bufferIndex)).toNat : ℤ) ≠ s.crc16Verify then
    (s.error, -1)
  else ({ s with rxStatus := frameStart }, 1)

/-- The `switch` of `FDILink_RunningData`, after the byte is stored in the frame buffer. -/
def dispatch (s : Status) (value : UInt8) : Option (Status × ℤ) :=
  if s.rxStatus = frameStart then
    if value = connectFlag then some (s.reset, 0)
    else if value ≠ stxFlag then some (s.reset.error, -1)
    else some ({ s.reset with rxStatus := frameCMD }, 0)
  else if s.rxStatus = frameCMD then
    some ({ s with rxType := value.toNat, rxStatus := frameLength }, 0)
  else if s.rxStatus = frameLength then
    some ({ s with rxDataLeft := value.toNat, rxStatus := frameSerialNumber }, 0)
  else if s.rxStatus = frameSerialNumber then
    some ({ s with rxNumber := value.toNat, rxStatus := frameCRC8 }, 0)
  else if s.rxStatus = frameCRC8 then
    let s' := { s with crc8Verify := value.toNat }
    if ((crc8Table s'.frameBuffer.toList 4).toNat : ℤ) ≠ s'.crc8Verify then some (s'.error, -1)
    else if s'.rxDataLeft = 0 then some ({ s' with rxStatus := frameStart }, 1)
    else some ({ s' with rxStatus := frameCRC16H }, 0)
  else if s.rxStatus = frameCRC16H then
    some ({ s with crc16Verify := value.toNat, rxStatus := frameCRC16L }, 0)
  else if s.rxStatus = frameCRC16L then
    -- `(CRC16_Verify << 8) | value`: the low byte of the shifted word is clear
    some ({ s with crc16Verify := s.crc16Verify * 256 + value.toNat, rxStatus := frameData }, 0)
  else if s.rxStatus = frameData then
    if s.rxDataLeft ≠ 0 then
      (s.insert value).map fun s' =>
        (if s'.rxDataLeft = 0 then { s' with rxStatus := frameEnd } else s', 0)
    else some (endOfFrame { s with rxStatus := frameEnd } value)
  else if s.rxStatus = frameEnd then some (s.endOfFrame value)
  else some (s.error, -1)

/-- The index into `FDILink_Frame_Buffer` is in range after the test of `RxStatus`. -/
theorem frameIndex_lt {status : ℤ} (range : ¬ (status < frameStart ∨ status > frameEnd)) :
    status.toNat < 12 := by
  unfold frameStart frameEnd at range
  omega

/-- `FDILink_RunningData`: the next record and the return code. -/
def runningData (s : Status) (value : UInt8) : Option (Status × ℤ) :=
  if range : s.rxStatus < frameStart ∨ s.rxStatus > frameEnd then some (s.error, -3)
  else
    dispatch { s with
      frameBuffer := s.frameBuffer.set s.rxStatus.toNat value (frameIndex_lt range) } value

end Status

/-- The receiver as a machine: bytes in, return codes out. -/
def receiver : Lib.Machine Status UInt8 ℤ where
  step s value := (s.runningData value).map fun next => (next.1, [next.2])

/-! ### What a byte does in each state -/

namespace Status

variable {s : Status} {value : UInt8}

/-- The record with `value` stored at `index` of the frame buffer. -/
def stored (s : Status) (index : ℕ) (inside : index < 12) (value : UInt8) : Status :=
  { s with frameBuffer := s.frameBuffer.set index value inside }

theorem runningData_eq (index : ℕ) (small : index < 9) (status : s.rxStatus = index) :
    s.runningData value =
      (s.stored index (small.trans (by decide)) value).dispatch value := by
  have range : ¬ (s.rxStatus < frameStart ∨ s.rxStatus > frameEnd) := by
    unfold frameStart frameEnd
    omega
  have same : s.rxStatus.toNat = index := by omega
  unfold runningData stored
  rw [dif_neg range]
  simp only [same]

theorem runningData_start (status : s.rxStatus = frameStart) :
    s.runningData value =
      if value = connectFlag then some ((s.stored 0 (by decide) value).reset, 0)
      else if value ≠ stxFlag then some ((s.stored 0 (by decide) value).reset.error, -1)
      else some ({ (s.stored 0 (by decide) value).reset with rxStatus := frameCMD }, 0) := by
  have here : (s.stored 0 (by decide) value).rxStatus = frameStart := status
  rw [runningData_eq 0 (by decide) status, dispatch, if_pos here]

theorem runningData_cmd (status : s.rxStatus = frameCMD) :
    s.runningData value =
      some ({ s.stored 1 (by decide) value with
        rxType := value.toNat, rxStatus := frameLength }, 0) := by
  have here : (s.stored 1 (by decide) value).rxStatus = frameCMD := status
  rw [runningData_eq 1 (by decide) status]
  simp [dispatch, here]

theorem runningData_length (status : s.rxStatus = frameLength) :
    s.runningData value =
      some ({ s.stored 2 (by decide) value with
        rxDataLeft := value.toNat, rxStatus := frameSerialNumber }, 0) := by
  have here : (s.stored 2 (by decide) value).rxStatus = frameLength := status
  rw [runningData_eq 2 (by decide) status]
  simp [dispatch, here]

theorem runningData_serialNumber (status : s.rxStatus = frameSerialNumber) :
    s.runningData value =
      some ({ s.stored 3 (by decide) value with
        rxNumber := value.toNat, rxStatus := frameCRC8 }, 0) := by
  have here : (s.stored 3 (by decide) value).rxStatus = frameSerialNumber := status
  rw [runningData_eq 3 (by decide) status]
  simp [dispatch, here]

/-- The CRC8 byte rejects the header, ends a frame without payload, or opens the CRC16. -/
theorem runningData_crc8 (status : s.rxStatus = frameCRC8) :
    s.runningData value =
      let s' := { s.stored 4 (by decide) value with crc8Verify := value.toNat }
      if crc8Table s'.frameBuffer.toList 4 ≠ value then some (s'.error, -1)
      else if s.rxDataLeft = 0 then some ({ s' with rxStatus := frameStart }, 1)
      else some ({ s' with rxStatus := frameCRC16H }, 0) := by
  have here : (s.stored 4 (by decide) value).rxStatus = frameCRC8 := status
  have same : ((crc8Table (s.stored 4 (by decide) value).frameBuffer.toList 4).toNat : ℤ) =
      value.toNat ↔ crc8Table (s.stored 4 (by decide) value).frameBuffer.toList 4 = value := by
    rw [Nat.cast_inj, UInt8.toNat_inj]
  have left : (s.stored 4 (by decide) value).rxDataLeft = s.rxDataLeft := rfl
  rw [runningData_eq 4 (by decide) status]
  simp [dispatch, here, same, left]

theorem runningData_crc16H (status : s.rxStatus = frameCRC16H) :
    s.runningData value =
      some ({ s.stored 5 (by decide) value with
        crc16Verify := value.toNat, rxStatus := frameCRC16L }, 0) := by
  have here : (s.stored 5 (by decide) value).rxStatus = frameCRC16H := status
  rw [runningData_eq 5 (by decide) status]
  simp [dispatch, here]

theorem runningData_crc16L (status : s.rxStatus = frameCRC16L) :
    s.runningData value =
      some ({ s.stored 6 (by decide) value with
        crc16Verify := s.crc16Verify * 256 + value.toNat, rxStatus := frameData }, 0) := by
  have here : (s.stored 6 (by decide) value).rxStatus = frameCRC16L := status
  have verify : (s.stored 6 (by decide) value).crc16Verify = s.crc16Verify := rfl
  rw [runningData_eq 6 (by decide) status]
  simp [dispatch, here, verify]

/-- With room in the buffer, `FDILink_Insert` appends the byte. -/
theorem insert_eq (status : s.rxStatus = frameData) (left : 0 < s.rxDataLeft)
    (room : s.bufferIndex < 255) :
    s.insert value = some { s with
      buffer := s.buffer.set s.bufferIndex value, bufferIndex := s.bufferIndex + 1,
      rxDataLeft := s.rxDataLeft - 1 } := by
  unfold insert
  rw [if_neg (not_le.mpr left), if_neg (not_not.mpr status), dif_pos (room.trans (by decide))]
  exact if_neg (not_le.mpr (Nat.succ_lt_succ room))

/-- A payload byte with room in the buffer is appended; the last one opens the end of the frame. -/
theorem runningData_data (value : UInt8) (status : s.rxStatus = frameData) (left : 0 < s.rxDataLeft)
    (room : s.bufferIndex < 255) :
    s.runningData value =
      let s' := { s.stored 7 (by decide) value with
        buffer := s.buffer.set s.bufferIndex value, bufferIndex := s.bufferIndex + 1,
        rxDataLeft := s.rxDataLeft - 1 }
      some (if s.rxDataLeft - 1 = 0 then { s' with rxStatus := frameEnd } else s', 0) := by
  have here : (s.stored 7 (by decide) value).rxStatus = frameData := status
  have more : (s.stored 7 (by decide) value).rxDataLeft ≠ 0 := left.ne'
  have inserts : (s.stored 7 (by decide) value).dispatch value =
      ((s.stored 7 (by decide) value).insert value).map fun s' =>
        (if s'.rxDataLeft = 0 then { s' with rxStatus := frameEnd } else s', 0) := by
    simp [dispatch, here, more]
  rw [runningData_eq 7 (by decide) status, inserts, insert_eq here left room]
  rfl

theorem runningData_end (status : s.rxStatus = frameEnd) :
    s.runningData value = some ((s.stored 8 (by decide) value).endOfFrame value) := by
  have here : (s.stored 8 (by decide) value).rxStatus = frameEnd := status
  rw [runningData_eq 8 (by decide) status]
  simp [dispatch, here]

end Status

end Robocon.FDILink
