/-
**Frames of the IMU link, and decoding what `FDILink_Pack` wrote.**

* `frameBytes type sn payload` — the wire format: `FC type len sn crc8 crc16H crc16L payload FD`.
* `pack` — `FDILink_Pack`; `pack_bytes`: it writes a frame with the low byte of `TxNumber`.
* `header_run`, `payload_run`, `end_run` — the receiver over the three parts of a frame, from a
  record of which only `RxStatus` is known.
* `frame_run` — the whole frame: every byte but the last returns `0`, the last returns `1`, and the
  record then holds the frame's type, length and payload.
-/

import Robocon.FDILink.Tracking

namespace Robocon.FDILink

open Lib Status

/-! ### The wire format -/

/-- The four bytes under the CRC8. -/
def frameHeader (type len sn : UInt8) : List UInt8 := [stxFlag, type, len, sn]

/-- A frame with a payload. -/
def frameBytes (type sn : UInt8) (payload : List UInt8) : List UInt8 :=
  let len := UInt8.ofNat payload.length
  let crc16 := crc16Table payload len
  frameHeader type len sn ++
    [crc8Table (frameHeader type len sn) 4, (crc16 >>> 8).toUInt8, crc16.toUInt8] ++
      (payload ++ [edxFlag])

theorem frameBytes_length (type sn : UInt8) (payload : List UInt8) :
    (frameBytes type sn payload).length = 8 + payload.length := by
  simp [frameBytes, frameHeader]
  omega

/-- `FDILink_Pack`: the record with the next `TxNumber`, the bytes written from the start of the
caller's buffer, and the returned count. -/
def Status.pack (s : Status) (type : UInt8) (buf : List UInt8) : Status × List UInt8 × ℕ :=
  let len := UInt8.ofNat buf.length
  let header := [stxFlag, type, len, UInt8.ofInt s.txNumber]
  let crc16 := crc16Table buf len
  ({ s with txNumber := s.txNumber + 1 },
    header ++ [crc8Table header 4] ++ [(crc16 >>> 8).toUInt8, (crc16 &&& 0xff).toUInt8] ++ buf ++
      [edxFlag],
    8 + buf.length)

theorem and_ff (byte : UInt8) : byte &&& 0xff = byte := by
  apply UInt8.toNat_inj.mp
  have bound := byte.toNat_lt
  rw [UInt8.toNat_and, show (0xff : UInt8).toNat = 2 ^ 8 - 1 from rfl,
    Nat.and_two_pow_sub_one_eq_mod, Nat.mod_eq_of_lt bound]

/-- `FDILink_Pack` writes a frame, numbered by the low byte of `TxNumber`. -/
theorem Status.pack_bytes (s : Status) (type : UInt8) (buf : List UInt8) :
    (s.pack type buf).2.1 = frameBytes type (UInt8.ofInt s.txNumber) buf := by
  simp [pack, frameBytes, frameHeader, and_ff]

/-- The returned count is the number of bytes written. -/
theorem Status.pack_count (s : Status) (type : UInt8) (buf : List UInt8) :
    (s.pack type buf).2.2 = (s.pack type buf).2.1.length := by
  rw [s.pack_bytes, frameBytes_length]
  rfl

/-! ### The receiver over one frame -/

theorem receiver_step {s next : Status} {value : UInt8} {code : ℤ}
    (computed : s.runningData value = some (next, code)) :
    receiver.step s value = some (next, [code]) := by
  show (s.runningData value).map _ = _
  rw [computed]
  rfl

theorem crc16_bytes (word : UInt16) :
    (((word >>> 8).toUInt8.toNat : ℕ) : ℤ) * 256 + (word.toUInt8.toNat : ℕ) = word.toNat := by
  have bound := word.toNat_lt
  have eight : (8 : UInt16).toNat % 16 = 8 := rfl
  rw [UInt16.toNat_toUInt8, UInt16.toNat_toUInt8, UInt16.toNat_shiftRight, eight,
    Nat.shiftRight_eq_div_pow]
  omega

/-- The cells of the frame buffer that the end of a frame reads. -/
theorem header_cells {bytes : Vector UInt8 12} {stx type len sn crc8 hi lo : UInt8}
    (header : filled bytes 7 = [stx, type, len, sn, crc8, hi, lo]) :
    bytes.get 1 = type ∧ bytes.get 2 = len ∧ bytes.get 3 = sn ∧ bytes.get 5 = hi ∧
      bytes.get 6 = lo := by
  have cell (index : ℕ) (inside : index < 7) :
      bytes[index] = [stx, type, len, sn, crc8, hi, lo][index] := by
    have same := congrArg (fun list => list[index]?) header
    simpa [filled, inside] using same
  exact ⟨cell 1 (by decide), cell 2 (by decide), cell 3 (by decide), cell 5 (by decide),
    cell 6 (by decide)⟩

/-- The seven bytes before the payload open a body. -/
theorem header_run {s : Status} (idle : s.rxStatus = frameStart) (type sn hi lo : UInt8)
    {len : UInt8} (some : len ≠ 0) :
    ∃ s', receiver.Run s
        (frameHeader type len sn ++ [crc8Table (frameHeader type len sn) 4, hi, lo])
        (List.replicate 7 0) s' ∧
      Body s' ∧ s'.bufferIndex = 0 ∧ filled s'.frameBuffer 7 =
        frameHeader type len sn ++ [crc8Table (frameHeader type len sn) 4, hi, lo] := by
  obtain ⟨s₁, code, step₁, ⟨-, rfl, heading₁⟩ | ⟨other, -⟩⟩ := idle_cases stxFlag idle
  · have bytes₁ : filled s₁.frameBuffer 1 = [stxFlag] := by
      rw [filled_succ _ (by decide), heading₁.stx, filled_zero, List.nil_append]
    obtain ⟨s₂, step₂, heading₂, bytes₂⟩ := heading₁.next type (by decide)
    obtain ⟨s₃, step₃, heading₃, bytes₃⟩ := heading₂.next len (by decide)
    obtain ⟨s₄, step₄, heading₄, bytes₄⟩ := heading₃.next sn (by decide)
    rw [bytes₁] at bytes₂
    rw [bytes₂] at bytes₃
    rw [bytes₃] at bytes₄
    have header : filled s₄.frameBuffer 4 = frameHeader type len sn := bytes₄
    have length : s₄.frameBuffer[2] = len := by
      have third := congrArg (fun bytes => bytes[2]?) header
      simpa [filled, frameHeader] using third
    obtain ⟨s₅, code, step₅, -, ⟨wrong, -⟩ | ⟨-, short, -⟩ | ⟨-, -, rfl, heading₅, bytes₅⟩⟩ :=
      heading₄.crc8_cases (crc8Table (frameHeader type len sn) 4)
    · exact absurd (by rw [header]) wrong
    · exact absurd (length.symm.trans short) some
    obtain ⟨s₆, step₆, heading₆, bytes₆⟩ := heading₅.next hi (by decide)
    obtain ⟨s₇, step₇, body, index, bytes₇⟩ := heading₆.last lo
    refine ⟨s₇, ?_, body, index, ?_⟩
    · exact .cons trivial (receiver_step step₁) (.cons trivial (receiver_step step₂)
        (.cons trivial (receiver_step step₃) (.cons trivial (receiver_step step₄)
        (.cons trivial (receiver_step step₅) (.cons trivial (receiver_step step₆)
        (.cons trivial (receiver_step step₇) (.nil s₇)))))))
    · rw [bytes₇, bytes₆, bytes₅, header]
      rfl
  · exact absurd rfl other

/-- **The payload.** A body reads as many bytes as it has left, and appends them all. -/
theorem payload_run (data : List UInt8) : ∀ {s : Status}, Body s → s.rxDataLeft = data.length →
    ∃ s', receiver.Run s data (List.replicate data.length 0) s' ∧ Body s' ∧ s'.rxDataLeft = 0 ∧
      filled s'.frameBuffer 7 = filled s.frameBuffer 7 ∧
      s'.bufferIndex = s.bufferIndex + data.length ∧
      filled s'.buffer s'.bufferIndex = filled s.buffer s.bufferIndex ++ data := by
  induction data with
  | nil => exact fun body left => ⟨_, .nil _, body, left, rfl, rfl, (List.append_nil _).symm⟩
  | cons value data ih =>
    intro s body left
    have more : s.rxDataLeft ≠ 0 := by
      rw [left]
      exact Nat.cast_ne_zero.mpr (Nat.succ_ne_zero _)
    obtain ⟨s₁, step, body₁, left₁, header₁, index₁, bytes₁⟩ := body.next value more
    have rest : s₁.rxDataLeft = data.length := by
      rw [left₁, left, List.length_cons]
      push_cast
      ring
    obtain ⟨s', run, body', left', header', index', bytes'⟩ := ih body₁ rest
    refine ⟨s', .cons trivial (receiver_step step) run, body', left', header'.trans header₁, ?_, ?_⟩
    · rw [index', index₁, List.length_cons]
      ring
    · rw [bytes', bytes₁, List.append_assoc, List.singleton_append]

/-- A frame handed to `FDILink_Pack`: the sender's record, the type and a payload the length byte
can count. -/
structure Packed where
  sender : Status
  type : UInt8
  payload : List UInt8
  nonempty : payload ≠ []
  short : payload.length ≤ 255

/-- The bytes `FDILink_Pack` writes. -/
def Packed.bytes (frame : Packed) : List UInt8 := (frame.sender.pack frame.type frame.payload).2.1

/-- The return codes of a decoded frame: `0` for every byte but the last. -/
def Packed.codes (frame : Packed) : List ℤ := List.replicate (frame.bytes.length - 1) 0 ++ [1]

/-- The receiver is idle and holds the frame. -/
structure Status.Holds (s : Status) (frame : Packed) : Prop where
  idle : s.rxStatus = frameStart
  type : s.rxType = frame.type.toNat
  length : s.bufferIndex = frame.payload.length
  payload : filled s.buffer frame.payload.length = frame.payload

/-- **One frame.** -/
theorem frame_run (frame : Packed) {s : Status} (idle : s.rxStatus = frameStart) :
    ∃ s', receiver.Run s frame.bytes frame.codes s' ∧ s'.Holds frame := by
  obtain ⟨sender, type, payload, nonempty, short⟩ := frame
  have counted : (UInt8.ofNat payload.length).toNat = payload.length := by
    rw [UInt8.toNat_ofNat', Nat.mod_eq_of_lt (Nat.lt_succ_of_le short)]
  have some : UInt8.ofNat payload.length ≠ 0 := by
    intro zero
    rw [zero] at counted
    exact nonempty (List.eq_nil_of_length_eq_zero counted.symm)
  obtain ⟨s₁, head, body₁, index₁, bytes₁⟩ := header_run idle type (UInt8.ofInt sender.txNumber)
    (crc16Table payload (UInt8.ofNat payload.length) >>> 8).toUInt8
    (crc16Table payload (UInt8.ofNat payload.length)).toUInt8 some
  have left₁ : s₁.rxDataLeft = payload.length := by
    have len₁ : s₁.frameBuffer[2] = UInt8.ofNat payload.length := (header_cells bytes₁).2.1
    have length := body₁.length
    rw [index₁, len₁, counted] at length
    simpa using length
  obtain ⟨s₂, data, body₂, done, bytes₂, index₂, payload₂⟩ := payload_run payload body₁ left₁
  rw [index₁, Nat.zero_add] at index₂
  rw [index₁, filled_zero, List.nil_append, index₂] at payload₂
  have cells₂ := header_cells (bytes₂.trans bytes₁)
  have type₂ : s₂.frameBuffer[1] = type := cells₂.1
  have hi₂ : s₂.frameBuffer[5] = _ := cells₂.2.2.2.1
  have lo₂ : s₂.frameBuffer[6] = _ := cells₂.2.2.2.2
  have verify : s₂.sum16 = s₂.crc16Verify := by
    rw [body₂.crc16, hi₂, lo₂, crc16_bytes, sum16, index₂, payload₂]
  obtain ⟨s₃, code, step, idle₃, buffer₃, index₃, type₃, ⟨rfl, -⟩ | ⟨-, wrong⟩⟩ :=
    body₂.end_cases edxFlag done
  case inr => exact absurd ⟨rfl, verify⟩ wrong
  refine ⟨s₃, ?_, idle₃, ?_, ?_, ?_⟩
  · have whole := head.append (data.append (.single trivial (receiver_step step)))
    have bytes : Packed.bytes ⟨sender, type, payload, nonempty, short⟩ =
        frameBytes type (UInt8.ofInt sender.txNumber) payload := sender.pack_bytes type payload
    have codes : Packed.codes ⟨sender, type, payload, nonempty, short⟩ =
        List.replicate 7 0 ++ (List.replicate payload.length 0 ++ [1]) := by
      rw [Packed.codes, bytes, frameBytes_length, ← List.append_assoc, ← List.replicate_add]
      congr 2
      omega
    rw [bytes, codes]
    exact whole
  · rw [type₃, body₂.type, type₂]
  · rw [index₃, index₂]
  · rw [buffer₃, payload₂]

/-- **Decoding undoes packing.** From any idle record, any concatenation of packed frames is
decoded frame by frame: every byte but the last of a frame returns `0`, the last returns `1`, and
the record then holds that frame. -/
theorem pack_decoded (before : List Packed) (frame : Packed) {s : Status}
    (idle : s.rxStatus = frameStart) :
    ∃ s', receiver.Run s ((before ++ [frame]).flatMap Packed.bytes)
      ((before ++ [frame]).flatMap Packed.codes) s' ∧ s'.Holds frame := by
  induction before generalizing s with
  | nil =>
    obtain ⟨s', run, holds⟩ := frame_run frame idle
    exact ⟨s', by simpa using run, holds⟩
  | cons first before ih =>
    obtain ⟨s₁, run₁, holds₁⟩ := frame_run first idle
    obtain ⟨s', run, holds⟩ := ih holds₁.idle
    exact ⟨s', run₁.append run, holds⟩

/-- A record at the start of a frame decodes one packed byte of payload. -/
theorem pack_decoded_byte :
    ∃ s', receiver.Run Status.initial
      ([⟨Status.initial, 0x41, [7], by decide, by decide⟩].flatMap Packed.bytes)
      ([⟨Status.initial, 0x41, [7], by decide, by decide⟩].flatMap Packed.codes) s' ∧
      s'.Holds ⟨Status.initial, 0x41, [7], by decide, by decide⟩ :=
  pack_decoded [] ⟨Status.initial, 0x41, [7], by decide, by decide⟩ rfl

end Robocon.FDILink
