/-
**Where the receiver stands in a frame.**

* `Heading s count` — the record `s` has read the first `count` bytes (`1 … 6`) of a frame; the
  bytes are the filled part of `FDILink_Frame_Buffer`.
* `Body s` — `s` has read the seven bytes before the payload, and some of the payload; the payload
  bytes are the filled part of `Buffer`.

One lemma for each place says everything a byte can do there (`idle_cases`, `Heading.next`,
`Heading.crc8_cases`, `Heading.last`, `Body.next`, `Body.end_cases`): it is read, it is rejected
and the receiver is idle again, or it completes the frame.
-/

import Robocon.FDILink.Status
import Robocon.Lib.Buffer

namespace Robocon.FDILink

open Lib Status

variable {s : Status} (value : UInt8)

/-- The record has read `count` bytes of a frame, none of them CRC16L or payload. -/
structure Heading (s : Status) (count : ℕ) : Prop where
  status : s.rxStatus = count
  index : s.bufferIndex = 0
  stx : s.frameBuffer[0] = stxFlag
  type : 2 ≤ count → s.rxType = s.frameBuffer[1].toNat
  left : 3 ≤ count → s.rxDataLeft = s.frameBuffer[2].toNat
  crc8 : 5 ≤ count → crc8Table (filled s.frameBuffer 4) 4 = s.frameBuffer[4]
  payload : 5 ≤ count → s.frameBuffer[2] ≠ 0
  crc16H : count = 6 → s.crc16Verify = s.frameBuffer[5].toNat

/-- The record has read the seven bytes before the payload and `bufferIndex` payload bytes. -/
structure Body (s : Status) : Prop where
  status : s.rxStatus = if s.rxDataLeft = 0 then frameEnd else frameData
  stx : s.frameBuffer[0] = stxFlag
  type : s.rxType = s.frameBuffer[1].toNat
  left : 0 ≤ s.rxDataLeft
  length : s.bufferIndex + s.rxDataLeft = s.frameBuffer[2].toNat
  crc8 : crc8Table (filled s.frameBuffer 4) 4 = s.frameBuffer[4]
  payload : s.frameBuffer[2] ≠ 0
  crc16 : s.crc16Verify = s.frameBuffer[5].toNat * (256 : ℤ) + s.frameBuffer[6].toNat

/-- The CRC16 of the payload read so far, as the receiver compares it. -/
def Status.sum16 (s : Status) : ℤ :=
  (crc16Table (filled s.buffer s.bufferIndex) (UInt8.ofNat s.bufferIndex)).toNat

/-- The CRC8 of the frame buffer reads its first four bytes. -/
theorem crc8Table_filled (bytes : Vector UInt8 12) :
    crc8Table bytes.toList 4 = crc8Table (filled bytes 4) 4 := by
  unfold crc8Table filled
  rw [List.take_take]
  rfl

/-! ### Idle -/

/-- An idle receiver opens a frame at `FC` and stays idle otherwise. -/
theorem idle_cases (idle : s.rxStatus = frameStart) :
    ∃ s' code, s.runningData value = some (s', code) ∧
      (value = stxFlag ∧ code = 0 ∧ Heading s' 1 ∨
        value ≠ stxFlag ∧ (code = 0 ∨ code = -1) ∧ s'.rxStatus = frameStart) := by
  have cells : (s.frameBuffer.set 0 value)[0] = value := Vector.getElem_set_self _
  rw [runningData_start idle]
  by_cases connect : value = connectFlag
  · have other : value ≠ stxFlag := by
      rw [connect]
      decide
    exact ⟨_, _, if_pos connect, Or.inr ⟨other, Or.inl rfl, rfl⟩⟩
  · rw [if_neg connect]
    by_cases stx : value = stxFlag
    · refine ⟨_, _, if_neg (not_not.mpr stx), Or.inl ⟨stx, rfl, ?_⟩⟩
      exact { status := rfl, index := rfl, stx := cells.trans stx, type := by simp,
              left := by simp, crc8 := by simp, payload := by simp, crc16H := by simp }
    · exact ⟨_, _, if_pos stx, Or.inr ⟨stx, Or.inr rfl, rfl⟩⟩

/-! ### The header -/

namespace Heading

/-- The plain header bytes, those after which nothing is checked, are read. -/
theorem next {count : ℕ} (heading : Heading s count)
    (plain : count = 1 ∨ count = 2 ∨ count = 3 ∨ count = 5) :
    ∃ s', s.runningData value = some (s', 0) ∧ Heading s' (count + 1) ∧
      filled s'.frameBuffer (count + 1) = filled s.frameBuffer count ++ [value] := by
  rcases plain with rfl | rfl | rfl | rfl
  · refine ⟨_, runningData_cmd heading.status, ?_, filled_set _ _ (by decide)⟩
    exact { status := rfl, index := heading.index, stx := by simp [stored, heading.stx],
            type := by simp [stored], left := by simp, crc8 := by simp, payload := by simp,
            crc16H := by simp }
  · refine ⟨_, runningData_length heading.status, ?_, filled_set _ _ (by decide)⟩
    exact { status := rfl, index := heading.index, stx := by simp [stored, heading.stx],
            type := by simp [stored, heading.type], left := by simp [stored], crc8 := by simp,
            payload := by simp, crc16H := by simp }
  · refine ⟨_, runningData_serialNumber heading.status, ?_, filled_set _ _ (by decide)⟩
    exact { status := rfl, index := heading.index, stx := by simp [stored, heading.stx],
            type := by simp [stored, heading.type], left := by simp [stored, heading.left],
            crc8 := by simp, payload := by simp, crc16H := by simp }
  · refine ⟨_, runningData_crc16H heading.status, ?_, filled_set _ _ (by decide)⟩
    exact { status := rfl, index := heading.index, stx := by simp [stored, heading.stx],
            type := by simp [stored, heading.type], left := by simp [stored, heading.left],
            crc8 := by simp [stored, heading.crc8, filled_set_of_le],
            payload := by simp [stored, heading.payload], crc16H := by simp [stored] }

/-- The CRC8 byte: a wrong one is rejected, a right one ends a frame without payload or is read. -/
theorem crc8_cases (heading : Heading s 4) :
    ∃ s' code, s.runningData value = some (s', code) ∧ s'.buffer = s.buffer ∧
      (crc8Table (filled s.frameBuffer 4) 4 ≠ value ∧ code = -1 ∧ s'.rxStatus = frameStart ∨
        crc8Table (filled s.frameBuffer 4) 4 = value ∧ s.frameBuffer[2] = 0 ∧ code = 1 ∧
          s'.rxStatus = frameStart ∧ s'.rxType = s.frameBuffer[1].toNat ∨
        crc8Table (filled s.frameBuffer 4) 4 = value ∧ s.frameBuffer[2] ≠ 0 ∧ code = 0 ∧
          Heading s' 5 ∧ filled s'.frameBuffer 5 = filled s.frameBuffer 4 ++ [value]) := by
  have sum : crc8Table (s.frameBuffer.set 4 value).toList 4 =
      crc8Table (filled s.frameBuffer 4) 4 := by
    rw [crc8Table_filled, filled_set_of_le _ _ (by decide) le_rfl]
  have empty : s.rxDataLeft = 0 ↔ s.frameBuffer[2] = 0 := by
    rw [heading.left (by decide), Nat.cast_eq_zero, ← UInt8.toNat_inj]
    rfl
  rw [runningData_crc8 heading.status]
  by_cases right : crc8Table (filled s.frameBuffer 4) 4 = value
  · simp only [stored, sum]
    rw [if_neg (not_not_intro right)]
    by_cases short : s.frameBuffer[2] = 0
    · rw [if_pos (empty.mpr short)]
      exact ⟨_, _, rfl, rfl, Or.inr (Or.inl ⟨right, short, rfl, rfl, heading.type (by decide)⟩)⟩
    · rw [if_neg fun zero => short (empty.mp zero)]
      refine ⟨_, _, rfl, rfl, Or.inr (Or.inr ⟨right, short, rfl, ?_, filled_set _ _ (by decide)⟩)⟩
      exact { status := rfl, index := heading.index, stx := by simp [heading.stx],
              type := by simp [heading.type], left := by simp [heading.left],
              crc8 := by simp [filled_set_of_le, right], payload := by simp [short],
              crc16H := by simp }
  · simp only [stored, sum]
    exact ⟨_, _, if_pos right, rfl, Or.inl ⟨right, rfl, rfl⟩⟩

theorem last (heading : Heading s 6) :
    ∃ s', s.runningData value = some (s', 0) ∧ Body s' ∧ s'.bufferIndex = 0 ∧
      filled s'.frameBuffer 7 = filled s.frameBuffer 6 ++ [value] := by
  have positive : s.rxDataLeft ≠ 0 := by
    rw [heading.left (by decide), Nat.cast_ne_zero]
    exact fun zero => heading.payload (by decide) (UInt8.toNat_inj.mp zero)
  refine ⟨_, runningData_crc16L heading.status, ?_, heading.index, filled_set _ _ (by decide)⟩
  exact { status := (if_neg positive).symm, stx := by simp [stored, heading.stx],
          type := by simp [stored, heading.type], left := by simp [stored, heading.left],
          length := by simp [stored, heading.left, heading.index],
          crc8 := by simp [stored, heading.crc8, filled_set_of_le],
          payload := by simp [stored, heading.payload],
          crc16 := by simp [stored, heading.crc16H] }

end Heading

/-! ### The payload and the end -/

namespace Body

theorem length_le (body : Body s) : s.bufferIndex ≤ 255 := by
  have small := s.frameBuffer[2].toNat_lt
  have length := body.length
  have left := body.left
  omega

/-- The payload read so far has the bytes that are counted. -/
theorem length_filled (body : Body s) :
    (filled s.buffer s.bufferIndex).length = s.bufferIndex :=
  filled_length _ (body.length_le.trans (by decide))

/-- The whole payload has the length of the frame. -/
theorem length_done (body : Body s) (done : s.rxDataLeft = 0) :
    s.bufferIndex = s.frameBuffer[2].toNat := by
  have sum := body.length
  rw [done, add_zero] at sum
  exact_mod_cast sum

theorem next (body : Body s) (more : s.rxDataLeft ≠ 0) :
    ∃ s', s.runningData value = some (s', 0) ∧ Body s' ∧ s'.rxDataLeft = s.rxDataLeft - 1 ∧
      filled s'.frameBuffer 7 = filled s.frameBuffer 7 ∧ s'.bufferIndex = s.bufferIndex + 1 ∧
      filled s'.buffer s'.bufferIndex = filled s.buffer s.bufferIndex ++ [value] := by
  have left : 0 < s.rxDataLeft := lt_of_le_of_ne body.left more.symm
  have small := s.frameBuffer[2].toNat_lt
  have length := body.length
  have room : s.bufferIndex < 255 := by omega
  have status : s.rxStatus = frameData := by rw [body.status, if_neg more]
  have read := runningData_data value status left room
  simp only at read
  by_cases done : s.rxDataLeft - 1 = 0
  · rw [if_pos done] at read
    refine ⟨_, read, ?_, rfl, filled_set_of_le _ _ (by decide) le_rfl, rfl,
      filled_set _ _ (by omega)⟩
    exact { status := (if_pos done).symm, stx := by simp [stored, body.stx],
            type := by simp [stored, body.type], left := by simp [done],
            length := by simp [stored]; omega,
            crc8 := by simp [stored, body.crc8, filled_set_of_le],
            payload := by simp [stored, body.payload], crc16 := by simp [stored, body.crc16] }
  · rw [if_neg done] at read
    refine ⟨_, read, ?_, rfl, filled_set_of_le _ _ (by decide) le_rfl, rfl,
      filled_set _ _ (by omega)⟩
    exact { status := status.trans (if_neg done).symm, stx := by simp [stored, body.stx],
            type := by simp [stored, body.type], left := by simp; omega,
            length := by simp [stored]; omega,
            crc8 := by simp [stored, body.crc8, filled_set_of_le],
            payload := by simp [stored, body.payload], crc16 := by simp [stored, body.crc16] }

/-- The byte after the payload: `FD` under a right CRC16 completes the frame, all else is
rejected. -/
theorem end_cases (body : Body s) (done : s.rxDataLeft = 0) :
    ∃ s' code, s.runningData value = some (s', code) ∧ s'.rxStatus = frameStart ∧
      s'.buffer = s.buffer ∧ s'.bufferIndex = s.bufferIndex ∧ s'.rxType = s.rxType ∧
      (code = 1 ∧ value = edxFlag ∧ s.sum16 = s.crc16Verify ∨
        code = -1 ∧ ¬ (value = edxFlag ∧ s.sum16 = s.crc16Verify)) := by
  have status : s.rxStatus = frameEnd := by rw [body.status, if_pos done]
  have sum : ((crc16Table s.buffer.toList (UInt8.ofNat s.bufferIndex)).toNat : ℤ) = s.sum16 := by
    unfold sum16 crc16Table filled
    rw [List.take_take, UInt8.toNat_ofNat', Nat.mod_eq_of_lt (Nat.lt_succ_of_le body.length_le),
      min_self]
  have sees : (s.stored 8 (by decide) value).endOfFrame value =
      if value ≠ edxFlag then ((s.stored 8 (by decide) value).error, -1)
      else if s.sum16 ≠ s.crc16Verify then ((s.stored 8 (by decide) value).error, -1)
      else ({ s.stored 8 (by decide) value with rxStatus := frameStart }, 1) := by
    rw [← sum]
    rfl
  rw [runningData_end status, sees]
  by_cases edx : value = edxFlag
  · rw [if_neg (not_not.mpr edx)]
    by_cases right : s.sum16 = s.crc16Verify
    · rw [if_neg (not_not.mpr right)]
      exact ⟨_, _, rfl, rfl, rfl, rfl, rfl, Or.inl ⟨rfl, edx, right⟩⟩
    · rw [if_pos right]
      exact ⟨_, _, rfl, rfl, rfl, rfl, rfl, Or.inr ⟨rfl, fun both => right both.2⟩⟩
  · rw [if_pos edx]
    exact ⟨_, _, rfl, rfl, rfl, rfl, rfl, Or.inr ⟨rfl, fun both => edx both.1⟩⟩

end Body

end Robocon.FDILink
