/-
**What `FDILink_Receive` publishes.**

`Receiver` is the receiver together with the published `AHRSData`; `receive` is
`FDILink_Receive`. Of the packets `FDILink_Decode` knows, only the AHRS packet is kept: the others
are copied to a local that the function drops.

* `Tracks stream s` — the invariant over any byte stream: what the record holds of the frame being
  read is the end of the stream.
* `Tracks.next` — one byte; a completed frame either has no payload or is, with both checksums
  right, the end of the stream.
* `ahrsData_verified` — as long as no AHRS frame of another length than `48` is completed, the
  published data is initial or is the payload of a verified AHRS frame of the stream.

Nothing compares the length of a completed frame with the size of the packet (`FDILink_CheckData`
is not called), so a frame without payload publishes what an earlier frame left in the buffer
(`ahrsData_unverified`).
-/

import Robocon.FDILink.Pack

namespace Robocon.FDILink

open Lib Status

/-! ### Decoding and publishing -/

/-- `FDILINK_AHRSDATA_PACKET_ID`. -/
def ahrsDataPacketId : ℤ := 0x41

/-- `FDILink`, and the bytes of `AHRSData` (`sizeof(FDILink_AHRSData_Packet_t)` is `48`). -/
structure Receiver where
  link : Status
  ahrsData : Vector UInt8 48

/-- The zero-initialised globals. -/
def Receiver.initial : Receiver where
  link := Status.initial
  ahrsData := Vector.replicate 48 0

/-- `FDILink_Decode`: what `AHRSData` is afterwards. -/
def decode (type : ℤ) (buf : Vector UInt8 256) (ahrsData : Vector UInt8 48) : Vector UInt8 48 :=
  if type = ahrsDataPacketId then Vector.ofFn fun index : Fin 48 => buf[index.val] else ahrsData

namespace Receiver

/-- `FDILink_Effect`. -/
def effect (r : Receiver) : Receiver :=
  { r with ahrsData := decode r.link.rxType r.link.buffer r.ahrsData }

/-- `FDILink_Receive`; the return code passes through a `uint8_t`. -/
def receive (r : Receiver) (value : UInt8) : Option (Receiver × UInt8) :=
  (r.link.runningData value).map fun next =>
    let result := UInt8.ofInt next.2
    let r' := { r with link := next.1 }
    (if result = 1 then r'.effect else r', result)

end Receiver

/-- The publishing receiver as a machine: bytes in, return codes out. -/
def publisher : Machine Receiver UInt8 UInt8 where
  step r value := (r.receive value).map fun next => (next.1, [next.2])

/-! ### The frame being read is the end of the stream -/

/-- What the record has read of the current frame is the end of the stream. -/
inductive Tracks (stream : List UInt8) (s : Status) : Prop
  | idle (status : s.rxStatus = frameStart)
  | heading (count : ℕ) (positive : 1 ≤ count) (short : count ≤ 6) (heading : Heading s count)
      (bytes : filled s.frameBuffer count <:+ stream)
  | body (body : Body s)
      (bytes : filled s.frameBuffer 7 ++ filled s.buffer s.bufferIndex <:+ stream)

/-- The byte is the right CRC8 of a header that announces no payload. -/
def EndsHeader (s : Status) (value : UInt8) : Prop :=
  s.rxStatus = frameCRC8 ∧ s.rxDataLeft = 0 ∧ crc8Table (filled s.frameBuffer 4) 4 = value

/-- The byte ends a payload under a right CRC16. -/
def EndsPayload (s : Status) (value : UInt8) : Prop :=
  s.rxStatus = frameEnd ∧ value = edxFlag ∧ s.sum16 = s.crc16Verify

instance (s : Status) (value : UInt8) : Decidable (EndsHeader s value) :=
  inferInstanceAs (Decidable (_ ∧ _ ∧ _))

instance (s : Status) (value : UInt8) : Decidable (EndsPayload s value) :=
  inferInstanceAs (Decidable (_ ∧ _ ∧ _))

theorem suffix_snoc {bytes stream : List UInt8} (suffix : bytes <:+ stream) (value : UInt8) :
    bytes ++ [value] <:+ stream ++ [value] := by
  obtain ⟨front, rfl⟩ := suffix
  exact ⟨front, (List.append_assoc _ _ _).symm⟩

/-- A word is cut into the two bytes that carry it. -/
theorem crc16_cut {word : UInt16} {hi lo : UInt8}
    (carried : (word.toNat : ℤ) = hi.toNat * (256 : ℤ) + lo.toNat) :
    (word >>> 8).toUInt8 = hi ∧ word.toUInt8 = lo := by
  have high := hi.toNat_lt
  have low := lo.toNat_lt
  have eight : (8 : UInt16).toNat % 16 = 8 := rfl
  refine ⟨UInt8.toNat_inj.mp ?_, UInt8.toNat_inj.mp ?_⟩
  · rw [UInt16.toNat_toUInt8, UInt16.toNat_shiftRight, eight, Nat.shiftRight_eq_div_pow]
    omega
  · rw [UInt16.toNat_toUInt8]
    omega

/-- A body with nothing left and a right CRC16 is a frame less its last byte. -/
theorem Body.frame_bytes {s : Status} (body : Body s) (done : s.rxDataLeft = 0)
    (right : s.sum16 = s.crc16Verify) :
    filled s.frameBuffer 7 ++ filled s.buffer s.bufferIndex ++ [edxFlag] =
      frameBytes (s.frameBuffer.get 1) (s.frameBuffer.get 3) (filled s.buffer s.bufferIndex) := by
  have len : UInt8.ofNat s.bufferIndex = s.frameBuffer[2] := by
    rw [body.length_done done, UInt8.ofNat_toNat]
  have header : filled s.frameBuffer 4 = frameHeader (s.frameBuffer.get 1) s.frameBuffer[2]
      (s.frameBuffer.get 3) := by
    show _ = frameHeader s.frameBuffer[1] s.frameBuffer[2] s.frameBuffer[3]
    simp [filled_succ, frameHeader, body.stx]
  have whole : filled s.frameBuffer 7 = filled s.frameBuffer 4 ++
      [s.frameBuffer[4], s.frameBuffer[5], s.frameBuffer[6]] := by
    simp [filled_succ]
  obtain ⟨hi, lo⟩ := crc16_cut (right.trans body.crc16)
  rw [len] at hi lo
  unfold frameBytes
  rw [body.length_filled, len]
  simp only [hi, lo]
  rw [← header, body.crc8, whole]
  simp

/-- A completed frame with a payload is the end of the stream, and the record holds it. -/
structure Completed (stream : List UInt8) (s s' : Status) (type sn : UInt8)
    (payload : List UInt8) : Prop where
  bytes : frameBytes type sn payload <:+ stream
  kind : s'.rxType = type.toNat
  length : payload.length = s.frameBuffer[2].toNat
  holds : filled s'.buffer payload.length = payload

/-- **One byte.** The receiver keeps tracking the stream, and returns `1` only at the end of a
frame. -/
theorem Tracks.next {stream : List UInt8} {s : Status} (tracks : Tracks stream s) (value : UInt8) :
    ∃ s' code, s.runningData value = some (s', code) ∧ Tracks (stream ++ [value]) s' ∧
      (code = 0 ∨ code = -1 ∨ code = 1 ∧ s'.rxType = s.rxType ∧
        (EndsHeader s value ∧ s.frameBuffer.get 2 = 0 ∨
          EndsPayload s value ∧
            ∃ type sn payload, Completed (stream ++ [value]) s s' type sn payload)) := by
  cases tracks with
  | idle status =>
    obtain ⟨s', code, step, ⟨rfl, rfl, heading⟩ | ⟨-, code, status⟩⟩ := idle_cases value status
    · have bytes : filled s'.frameBuffer 1 = [stxFlag] := by
        simp [filled_succ, heading.stx]
      refine ⟨s', 0, step, .heading 1 le_rfl (by decide) heading ?_, Or.inl rfl⟩
      rw [bytes]
      exact List.suffix_append _ _
    · exact ⟨s', _, step, .idle status, code.elim Or.inl fun wrong => Or.inr (Or.inl wrong)⟩
  | heading count positive short heading bytes =>
    have read := suffix_snoc bytes value
    by_cases crc8 : count = 4
    · subst crc8
      obtain ⟨s', code, step, -, ⟨-, rfl, idle⟩ | ⟨right, zero, rfl, idle, type⟩ |
        ⟨-, -, rfl, next, bytes'⟩⟩ := heading.crc8_cases value
      · exact ⟨s', -1, step, .idle idle, Or.inr (Or.inl rfl)⟩
      · have left : s.rxDataLeft = 0 := by
          rw [heading.left (by decide), zero]
          rfl
        have same : s'.rxType = s.rxType := type.trans (heading.type (by decide)).symm
        exact ⟨s', 1, step, .idle idle, Or.inr (Or.inr ⟨rfl, same,
          Or.inl ⟨⟨heading.status, left, right⟩, zero⟩⟩)⟩
      · exact ⟨s', 0, step, .heading 5 (by decide) (by decide) next (bytes' ▸ read), Or.inl rfl⟩
    · by_cases last : count = 6
      · subst last
        obtain ⟨s', step, body, index, bytes'⟩ := heading.last value
        refine ⟨s', 0, step, .body body ?_, Or.inl rfl⟩
        rw [index, filled_zero, List.append_nil, bytes']
        exact read
      · obtain ⟨s', step, next, bytes'⟩ := heading.next value (by omega)
        exact ⟨s', 0, step, .heading (count + 1) (by omega) (by omega) next (bytes' ▸ read),
          Or.inl rfl⟩
  | body body bytes =>
    have read := suffix_snoc bytes value
    by_cases done : s.rxDataLeft = 0
    · obtain ⟨s', code, step, idle, buffer, index, type, ⟨rfl, rfl, right⟩ | ⟨rfl, -⟩⟩ :=
        body.end_cases value done
      · have status : s.rxStatus = frameEnd := body.status.trans (if_pos done)
        have count := body.length_filled
        rw [body.frame_bytes done right] at read
        refine ⟨s', 1, step, .idle idle, Or.inr (Or.inr ⟨rfl, type, Or.inr ⟨⟨status, rfl, right⟩,
          _, _, _, read, type.trans body.type, count.trans (body.length_done done), ?_⟩⟩)⟩
        rw [count, buffer]
      · exact ⟨s', -1, step, .idle idle, Or.inr (Or.inl rfl)⟩
    · obtain ⟨s', step, next, -, header, -, payload⟩ := body.next value done
      refine ⟨s', 0, step, .body next ?_, Or.inl rfl⟩
      rw [header, payload, ← List.append_assoc]
      exact read

/-! ### The published data -/

/-- The published data is initial, or the payload of an AHRS frame of the stream; a frame carries
its right checksums. -/
def Verified (stream : List UInt8) (data : Vector UInt8 48) : Prop :=
  data = Receiver.initial.ahrsData ∨
    ∃ sn payload, payload.length = 48 ∧ data.toList = payload ∧
      frameBytes 0x41 sn payload <:+: stream

/-- The byte completes an AHRS frame whose length field is not the size of the packet. -/
def EndsMisfit (s : Status) (value : UInt8) : Prop :=
  s.rxType = ahrsDataPacketId ∧ s.frameBuffer.get 2 ≠ 48 ∧
    (EndsHeader s value ∨ EndsPayload s value)

instance (s : Status) (value : UInt8) : Decidable (EndsMisfit s value) :=
  inferInstanceAs (Decidable (_ ∧ _ ∧ _))

theorem Verified.mono {stream : List UInt8} {data : Vector UInt8 48}
    (verified : Verified stream data) (value : UInt8) : Verified (stream ++ [value]) data := by
  rcases verified with initial | ⟨sn, payload, length, same, bytes⟩
  · exact Or.inl initial
  · exact Or.inr ⟨sn, payload, length, same, bytes.trans (List.infix_append' [] _ _)⟩

theorem decode_other {type : ℤ} (other : type ≠ ahrsDataPacketId) (buf : Vector UInt8 256)
    (ahrsData : Vector UInt8 48) : decode type buf ahrsData = ahrsData := if_neg other

/-- An AHRS packet is the first `48` bytes of the buffer. -/
theorem decode_ahrs (buf : Vector UInt8 256) (ahrsData : Vector UInt8 48) :
    (decode ahrsDataPacketId buf ahrsData).toList = filled buf 48 := by
  rw [decode, if_pos rfl]
  apply List.ext_getElem
  · simp [filled_length]
  · intro index first second
    simp [filled]

theorem receive_eq {r : Receiver} {s' : Status} {value : UInt8} {code : ℤ}
    (step : r.link.runningData value = some (s', code)) :
    r.receive value = some (if UInt8.ofInt code = 1 then
      Receiver.effect ⟨s', r.ahrsData⟩ else ⟨s', r.ahrsData⟩, UInt8.ofInt code) := by
  unfold Receiver.receive
  rw [step]
  rfl

/-- What one byte does to the published receiver. -/
theorem receive_cases {stream : List UInt8} {r : Receiver} (tracks : Tracks stream r.link)
    (verified : Verified stream r.ahrsData) {value : UInt8} (fits : ¬ EndsMisfit r.link value) :
    ∃ r' result, r.receive value = some (r', result) ∧ Tracks (stream ++ [value]) r'.link ∧
      Verified (stream ++ [value]) r'.ahrsData := by
  obtain ⟨s', code, step, tracks', outcome⟩ := tracks.next value
  have received := receive_eq step
  rcases outcome with rfl | rfl | ⟨rfl, type, ended⟩
  · exact ⟨_, _, received, tracks', verified.mono value⟩
  · exact ⟨_, _, received, tracks', verified.mono value⟩
  · refine ⟨_, _, received, tracks', ?_⟩
    show Verified _ (decode s'.rxType s'.buffer r.ahrsData)
    by_cases ahrs : s'.rxType = ahrsDataPacketId
    · have length : r.link.frameBuffer[2] = 48 := by
        by_contra misfit
        exact fits ⟨type ▸ ahrs, misfit, ended.imp And.left And.left⟩
      rcases ended with ⟨-, zero⟩ | ⟨-, kind, sn, payload, completed⟩
      · exact absurd (length.symm.trans zero) (by decide)
      · have size : payload.length = 48 := by
          rw [completed.length, length]
          rfl
        have byte : kind = 0x41 := by
          have both : (kind.toNat : ℤ) = (0x41 : UInt8).toNat := completed.kind.symm.trans ahrs
          exact UInt8.toNat_inj.mp (Nat.cast_inj.mp both)
        refine Or.inr ⟨sn, payload, size, ?_, ?_⟩
        · rw [ahrs, decode_ahrs, ← size, completed.holds]
        · exact byte ▸ completed.bytes.isInfix
    · rw [decode_other ahrs]
      exact verified.mono value

theorem publisher_step {r r' : Receiver} {value result : UInt8}
    (received : r.receive value = some (r', result)) :
    publisher.step r value = some (r', [result]) := by
  show (r.receive value).map _ = _
  rw [received]
  rfl

/-- **The published data is verified.** In every run in which no AHRS frame of another length than
`48` is completed, what is published is initial or the payload of an AHRS frame of the stream. -/
theorem ahrsData_verified {stream : List UInt8} {results : List UInt8} {r : Receiver}
    (run : publisher.RunOn (fun r value => ¬ EndsMisfit r.link value) Receiver.initial stream
      results r) :
    Verified stream r.ahrsData := by
  have both : Tracks stream r.link ∧ Verified stream r.ahrsData := by
    refine run.history (fun past r => Tracks past r.link ∧ Verified past r.ahrsData) ?_ []
      ⟨.idle rfl, Or.inl rfl⟩
    intro past r value next output fits inv step
    obtain ⟨r', result, received, tracks, verified⟩ := receive_cases inv.1 inv.2 fits
    rw [publisher_step received] at step
    obtain ⟨rfl, rfl⟩ := Prod.mk.inj (Option.some.inj step)
    exact ⟨tracks, verified⟩
  exact both.2

theorem ahrsData_verified_frame :
    ∃ results r, publisher.RunOn (fun r value => ¬ EndsMisfit r.link value) Receiver.initial
        (frameBytes 0x41 0 (List.replicate 48 7)) results r ∧
      r.ahrsData.toList = List.replicate 48 7 ∧
      Verified (frameBytes 0x41 0 (List.replicate 48 7)) r.ahrsData := by
  obtain ⟨results, r, run, published⟩ := Machine.exists_run publisher
    (fun r value => ¬ EndsMisfit r.link value) Receiver.initial
    (frameBytes 0x41 0 (List.replicate 48 7))
    (fun r _ => r.ahrsData.toList = List.replicate 48 7) (by decide +kernel)
  exact ⟨results, r, run, of_decide_eq_true published, ahrsData_verified run⟩

/-- A frame of type `0x40` with one byte of payload under a wrong CRC16, and an AHRS frame without
payload. -/
def staleStream : List UInt8 :=
  [0xFC, 0x40, 1, 0, 0x96, 0, 0, 7, 0xFD] ++ [0xFC, 0x41, 0, 1, 0xA7]

/-- **A rejected payload is published.** -/
theorem ahrsData_unverified :
    ∃ results r, publisher.Run Receiver.initial staleStream results r ∧
      ¬ Verified staleStream r.ahrsData := by
  obtain ⟨results, r, run, published⟩ := Machine.exists_run publisher (fun _ _ => True)
    Receiver.initial staleStream (fun r _ => r.ahrsData ≠ Receiver.initial.ahrsData)
    (by decide +kernel)
  refine ⟨results, r, run, ?_⟩
  rintro (initial | ⟨sn, payload, length, -, bytes⟩)
  · exact of_decide_eq_true published initial
  · have fits := bytes.length_le
    rw [frameBytes_length, length] at fits
    exact absurd fits (by decide)

end Robocon.FDILink
