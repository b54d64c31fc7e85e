/-
**What the receiver accepts.**

* `Status.Safe s` — whatever byte comes next, the indices stay inside the two buffers, the byte
  falls into one of the nine cases of the `switch`, and `FDILink_Insert` does not fail.
* `Accepted stream s type sn payload` — the stream ends with the frame, and the record describes
  it.
* `accepts_frames` — after any stream the record is safe, and if the last byte returned `1`, the
  stream ends with a frame that the record describes.
-/

import Robocon.FDILink.Published

namespace Robocon.FDILink

open Lib Status

/-! ### No index leaves its buffer -/

namespace Status

/-- The next byte is handed to `FDILink_Insert`. -/
def Inserts (s : Status) : Prop := s.rxStatus = frameData ∧ s.rxDataLeft ≠ 0

/-- One of the error branches of `FDILink_Insert` is taken. -/
def InsertErrs (s : Status) : Prop :=
  s.rxDataLeft ≤ 0 ∨ s.rxStatus ≠ frameData ∨ 256 ≤ s.bufferIndex + 1

/-- No byte makes the receiver leave a buffer or take a branch for the impossible. -/
structure Safe (s : Status) : Prop where
  frameIndex : 0 ≤ s.rxStatus ∧ s.rxStatus ≤ 8
  known : s.rxStatus ∈ [frameStart, frameCMD, frameLength, frameSerialNumber, frameCRC8,
    frameCRC16H, frameCRC16L, frameData, frameEnd]
  bufferIndex : s.Inserts → s.bufferIndex < 256
  insert : s.Inserts → ¬ s.InsertErrs

end Status

theorem Tracks.safe {stream : List UInt8} {s : Status} (tracks : Tracks stream s) : s.Safe := by
  cases tracks with
  | idle status =>
    have quiet : ¬ s.Inserts := fun inserts => absurd (status.symm.trans inserts.1) (by decide)
    exact { frameIndex := by rw [status]; decide
            known := by rw [status]; decide
            bufferIndex := fun inserts => absurd inserts quiet
            insert := fun inserts => absurd inserts quiet }
  | heading count positive short heading bytes =>
    have quiet : ¬ s.Inserts := by
      intro inserts
      have same := heading.status.symm.trans inserts.1
      unfold frameData at same
      omega
    have status := heading.status
    exact { frameIndex := by omega
            known := by
              rw [status]
              interval_cases count <;> decide
            bufferIndex := fun inserts => absurd inserts quiet
            insert := fun inserts => absurd inserts quiet }
  | body body bytes =>
    have length := body.length
    have small := s.frameBuffer[2].toNat_lt
    have left := body.left
    have room (inserts : s.Inserts) : 0 < s.rxDataLeft ∧ s.bufferIndex + 1 < 256 := by
      have more := inserts.2
      omega
    have status : s.rxStatus = frameEnd ∨ s.rxStatus = frameData := by
      rw [body.status]
      split
      · exact Or.inl rfl
      · exact Or.inr rfl
    refine ⟨?_, ?_, fun inserts => by have := room inserts; omega, fun inserts errs => ?_⟩
    · rcases status with status | status <;> rw [status] <;> decide
    · rcases status with status | status <;> rw [status] <;> decide
    · obtain ⟨positive, space⟩ := room inserts
      rcases errs with none | other | full
      · exact absurd positive (not_lt.mpr none)
      · exact other inserts.1
      · exact absurd space (not_lt.mpr full)

/-! ### The frame that ends the stream -/

/-- A frame without payload. -/
def emptyFrame (type sn : UInt8) : List UInt8 :=
  frameHeader type 0 sn ++ [crc8Table (frameHeader type 0 sn) 4]

/-- A frame on the wire, with or without payload. -/
def wireBytes (type sn : UInt8) (payload : List UInt8) : List UInt8 :=
  if payload = [] then emptyFrame type sn else frameBytes type sn payload

/-- The stream ends with the frame, and the record describes it. -/
structure Accepted (stream : List UInt8) (s : Status) (type sn : UInt8) (payload : List UInt8) :
    Prop where
  bytes : wireBytes type sn payload <:+ stream
  short : payload.length ≤ 255
  type : s.rxType = type.toNat
  index : s.bufferIndex = payload.length
  payload : filled s.buffer s.bufferIndex = payload

/-- A completed header leaves the fill index at zero. -/
theorem Heading.accepts {s s' : Status} {value : UInt8} (heading : Heading s 4)
    (step : s.runningData value = some (s', 1)) : s'.bufferIndex = 0 := by
  rw [runningData_crc8 heading.status] at step
  simp only at step
  split at step
  · cases step
  · split at step
    · obtain ⟨rfl, -⟩ := Prod.mk.inj (Option.some.inj step)
      exact heading.index
    · cases step

/-- A heading of four bytes that announces no payload, and its CRC8, are a frame. -/
theorem Heading.frame_bytes {s : Status} (heading : Heading s 4) (none : s.frameBuffer.get 2 = 0) :
    filled s.frameBuffer 4 ++ [crc8Table (filled s.frameBuffer 4) 4] =
      emptyFrame (s.frameBuffer.get 1) (s.frameBuffer.get 3) := by
  have header : filled s.frameBuffer 4 =
      frameHeader (s.frameBuffer.get 1) 0 (s.frameBuffer.get 3) := by
    show _ = frameHeader s.frameBuffer[1] 0 s.frameBuffer[3]
    have none : s.frameBuffer[2] = 0 := none
    simp [filled_succ, frameHeader, heading.stx, none]
  rw [header]
  rfl

/-- **A byte that returns `1` ends a frame.** -/
theorem Tracks.accepted {stream : List UInt8} {s s' : Status} {value : UInt8}
    (tracks : Tracks stream s) (step : s.runningData value = some (s', 1)) :
    ∃ type sn payload, Accepted (stream ++ [value]) s' type sn payload := by
  have same {next : Status} {code : ℤ} (step' : s.runningData value = some (next, code)) :
      next = s' ∧ code = 1 := by
    rw [step] at step'
    obtain ⟨rfl, rfl⟩ := Prod.mk.inj (Option.some.inj step')
    exact ⟨rfl, rfl⟩
  cases tracks with
  | idle status =>
    obtain ⟨next, code, step', ⟨-, zero, -⟩ | ⟨-, zero | wrong, -⟩⟩ := idle_cases value status
    · exact absurd ((same step').2.symm.trans zero) (by decide)
    · exact absurd ((same step').2.symm.trans zero) (by decide)
    · exact absurd ((same step').2.symm.trans wrong) (by decide)
  | heading count positive short heading bytes =>
    have read := suffix_snoc bytes value
    by_cases crc8 : count = 4
    · subst crc8
      have index := heading.accepts step
      obtain ⟨next, code, step', -, ⟨-, wrong, -⟩ | ⟨right, zero, -, -, type⟩ | ⟨-, -, more, -⟩⟩ :=
        heading.crc8_cases value
      · exact absurd ((same step').2.symm.trans wrong) (by decide)
      · obtain ⟨rfl, -⟩ := same step'
        rw [← right, heading.frame_bytes zero, right] at read
        refine ⟨_, _, [], read, by decide, type, index, ?_⟩
        rw [index, filled_zero]
      · exact absurd ((same step').2.symm.trans more) (by decide)
    · by_cases last : count = 6
      · subst last
        obtain ⟨next, step', -⟩ := heading.last value
        exact absurd (same step').2 (by decide)
      · obtain ⟨next, step', -⟩ := heading.next value (by omega)
        exact absurd (same step').2 (by decide)
  | body body bytes =>
    have read := suffix_snoc bytes value
    by_cases done : s.rxDataLeft = 0
    · obtain ⟨next, code, step', -, buffer, index, type, ⟨-, rfl, right⟩ | ⟨wrong, -⟩⟩ :=
        body.end_cases value done
      · obtain ⟨rfl, -⟩ := same step'
        have count := body.length_filled
        have length := body.length
        have some : s.frameBuffer[2].toNat ≠ 0 :=
          fun zero => body.payload (UInt8.toNat_inj.mp zero)
        have nonempty : filled s.buffer s.bufferIndex ≠ [] := by
          rw [← List.length_pos_iff_ne_nil, count]
          omega
        rw [body.frame_bytes done right] at read
        refine ⟨s.frameBuffer.get 1, s.frameBuffer.get 3, filled s.buffer s.bufferIndex, ?_, ?_,
          type.trans body.type, index.trans count.symm, by rw [buffer, index]⟩
        · rw [wireBytes, if_neg nonempty]
          exact read
        · rw [count]
          exact body.length_le
      · exact absurd ((same step').2.symm.trans wrong) (by decide)
    · obtain ⟨next, step', -⟩ := body.next value done
      exact absurd (same step').2 (by decide)

theorem receiver_tracks (stream : List UInt8) :
    ∃ codes s, receiver.Run Status.initial stream codes s ∧ codes.length = stream.length ∧
      Tracks stream s ∧
      (codes.getLast? = some 1 → ∃ type sn payload, Accepted stream s type sn payload) := by
  induction stream using List.reverseRecOn with
  | nil => exact ⟨[], _, .nil _, rfl, .idle rfl, fun accepted => by cases accepted⟩
  | append_singleton stream value ih =>
    obtain ⟨codes, s, run, length, tracks, -⟩ := ih
    obtain ⟨s', code, step, tracks', -⟩ := tracks.next value
    refine ⟨codes ++ [code], s', run.append (.single trivial (receiver_step step)), ?_, tracks', ?_⟩
    · simp [length]
    · intro accepted
      rw [List.getLast?_concat] at accepted
      exact tracks.accepted (Option.some.inj accepted ▸ step)

/-- **The receiver accepts frames only, and stays inside its buffers.** Any stream is read to its
end; the record is then safe, and if the last byte returned `1`, the stream ends with a frame whose
type and payload the record holds. -/
theorem accepts_frames (stream : List UInt8) :
    ∃ codes s, receiver.Run Status.initial stream codes s ∧ codes.length = stream.length ∧ s.Safe ∧
      (codes.getLast? = some 1 → ∃ type sn payload, Accepted stream s type sn payload) := by
  obtain ⟨codes, s, run, length, tracks, accepted⟩ := receiver_tracks stream
  exact ⟨codes, s, run, length, tracks.safe, accepted⟩

end Robocon.FDILink
