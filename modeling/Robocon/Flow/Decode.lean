/-
**The two-frame parsers of the optical-flow links (`flow_decode.c`).**

`px4_parse_char`, `apm_parse_char` and `msp_parse_char` are one switch over a state `s`, whose cases
`Format.cases` lists: first those of one message, then those of the other. Each message has a global
structure, here its bytes, and a static buffer with a second copy of its header and payload, over
which the check is computed. A store past the end of a structure is a failed step.

* `Parser.parseChar` — one byte; `px4ParseChar`, `apmParseChar`, `mspParseChar` are its instances.
* `Message.frame` — a frame as the protocol prescribes it; `Pair.bytes`: two frames back to back.
* `Pair.bytes_eq` — the cases of the switch lay out the two frames.
-/

import Robocon.Flow.Check
import Robocon.Lib.Buffer
import Robocon.Lib.Run

namespace Robocon.Flow

open Lib

/-! ### Messages -/

/-- The two protocols. -/
inductive Kind
  | mavlink
  | msp
  deriving DecidableEq

/-- A message of a link: the size of its structure and its number. -/
structure Message where
  kind : Kind
  size : ℕ
  messageId : UInt8
  positive : 0 < size

/-- What a case of the switch does with a byte. -/
inductive Case
  /-- It compares the byte. -/
  | byte (expected : UInt8)
  /-- It compares the last byte before a payload, and sets `p = 0`. -/
  | start (expected : UInt8)
  | seq
  | payload
  | crcLow
  | crcHigh
  | crc8
  deriving DecidableEq

namespace Message

variable (m : Message)

/-- The cases of the switch that read a message. -/
def cases : List Case :=
  match m.kind with
  | .mavlink =>
    [.byte 0xfe, .byte (UInt8.ofNat m.size), .seq, .byte 0x00, .byte 0x9e, .start m.messageId,
      .payload, .crcLow, .crcHigh]
  | .msp =>
    [.byte 0x24, .byte 0x58, .byte 0x3c, .byte 0x00, .byte m.messageId, .byte 0x1f,
      .byte (UInt8.ofNat m.size), .start 0x00, .payload, .crc8]

/-- The header, as the static buffer holds it. -/
def head (seq : UInt8) : List UInt8 :=
  match m.kind with
  | .mavlink => [UInt8.ofNat m.size, seq, 0x00, 0x9e, m.messageId]
  | .msp => [0x00, m.messageId, 0x1f, UInt8.ofNat m.size, 0x00]

/-- The bytes of the static buffer after the header and the payload. -/
def spare : ℕ :=
  match m.kind with
  | .mavlink => 1
  | .msp => 0

theorem head_length (seq : UInt8) : (m.head seq).length = 5 := by
  unfold head
  cases m.kind <;> rfl

end Message

/-! ### The parser -/

/-- The structure of a message, its static buffer, and the last check computed for it. -/
structure Part (m : Message) where
  data : Vector UInt8 m.size
  crc : Vector UInt8 (5 + m.size + m.spare)
  sum : UInt16

/-- The static buffer before the first byte: the header with the sequence number zero. -/
def Part.initial (m : Message) : Part m where
  data := Vector.replicate m.size 0
  crc := ⟨(m.head 0 ++ List.replicate (m.size + m.spare) 0).toArray, by
    rw [List.size_toArray, List.length_append, m.head_length, List.length_replicate,
      Nat.add_assoc]⟩
  sum := 0

/-- `memcpy(dst + offset, src, size)`. -/
def memcpy {size spare : ℕ} (offset : ℕ) (dst : Vector UInt8 (offset + size + spare))
    (src : Vector UInt8 size) : Vector UInt8 (offset + size + spare) :=
  ⟨(filled dst offset ++ src.toList ++ dst.toList.drop (offset + size)).toArray, by
    rw [List.size_toArray, List.length_append, List.length_append,
      filled_length dst (Nat.le_add_right_of_le (Nat.le_add_right offset size)),
      Vector.length_toList, List.length_drop, Vector.length_toList, Nat.add_sub_cancel_left]⟩

/-- What a case does to `s`. -/
inductive Verdict
  | stay
  | next
  | fail

/-- A case that compares. -/
def Verdict.ofMatch (accepted : Prop) [Decidable accepted] : Verdict :=
  if accepted then .next else .fail

namespace Part

variable {m : Message}

/-- One case of the switch: the part and `p` after it. -/
def read (part : Part m) (p : ℕ) (ch : UInt8) : Case → Option (Part m × ℕ × Verdict)
  | .byte expected => some (part, p, .ofMatch (ch = expected))
  | .start expected => some (part, if ch = expected then 0 else p, .ofMatch (ch = expected))
  | .seq =>
    if ch ≥ 0x00 ∧ ch ≤ 0xff then
      some ({ part with crc := part.crc.setIfInBounds 1 ch }, p, .next)
    else some (part, p, .fail)
  | .payload =>
    if inside : p < m.size then
      let part := { part with data := part.data.set p ch inside }
      some (if p + 1 = m.size then (part, 0, .next) else (part, p + 1, .stay))
    else none
  | .crcLow =>
    let (crc, sum) := hexinCrc16Compute (memcpy 5 part.crc part.data) m.messageId 0xffff
    some ({ part with crc, sum }, p, .ofMatch (ch.toUInt16 = sum &&& 0x00ff))
  | .crcHigh => some (part, p, .ofMatch (ch.toUInt16 = (part.sum &&& 0xff00) >>> 8))
  | .crc8 =>
    let crc := memcpy 5 part.crc part.data
    some ({ part with crc }, p, .ofMatch (crc8 crc = ch))

end Part

/-- Two messages, the first one at `false`. -/
structure Format where
  message : Bool → Message

/-- The states of the switch, each with the message it belongs to. -/
def Format.cases (f : Format) : List (Bool × Case) :=
  (f.message false).cases.map (Prod.mk false) ++ (f.message true).cases.map (Prod.mk true)

/-- The static variables of a parser, and the two global structures. -/
structure Parser (f : Format) where
  s : ℕ
  p : ℕ
  parts : ∀ k, Part (f.message k)

namespace Parser

variable {f : Format}

/-- The parser before the first byte. -/
def initial : Parser f where
  s := 0
  p := 0
  parts k := Part.initial (f.message k)

/-- The end of a case, with the value returned. After the last state `s` is zero again. -/
def settle (parser : Parser f) : Verdict → Parser f × ℤ
  | .stay => (parser, -1)
  | .fail => ({ parser with s := 0 }, -1)
  | .next =>
    if parser.s + 1 = f.cases.length then ({ parser with s := 0 }, 0)
    else ({ parser with s := parser.s + 1 }, -1)

/-- One byte, with the value returned. -/
def parseChar (parser : Parser f) (ch : UInt8) : Option (Parser f × ℤ) :=
  match f.cases[parser.s]? with
  | none => some (parser, -1)
  | some (k, case) =>
    ((parser.parts k).read parser.p ch case).map fun (part, p, verdict) =>
      { parser with p, parts := Function.update parser.parts k part : Parser f }.settle verdict

end Parser

/-- The optical flow and the distance of `px4_parse_char`. -/
def px4 : Format where
  message k := if k then ⟨.mavlink, 14, 0x84, by decide⟩ else ⟨.mavlink, 44, 0x6a, by decide⟩

/-- The optical flow and the distance of `apm_parse_char`. -/
def apm : Format where
  message k := if k then ⟨.mavlink, 14, 0x84, by decide⟩ else ⟨.mavlink, 26, 0x64, by decide⟩

/-- The distance and the optical flow of `msp_parse_char`. -/
def msp : Format where
  message k := if k then ⟨.msp, 9, 0x02, by decide⟩ else ⟨.msp, 5, 0x01, by decide⟩

def px4ParseChar (parser : Parser px4) (ch : UInt8) : Option (Parser px4 × ℤ) := parser.parseChar ch

def apmParseChar (parser : Parser apm) (ch : UInt8) : Option (Parser apm × ℤ) := parser.parseChar ch

def mspParseChar (parser : Parser msp) (ch : UInt8) : Option (Parser msp × ℤ) := parser.parseChar ch

example : (msp.cases.map Prod.snd).drop 10 =
    [.byte 0x24, .byte 0x58, .byte 0x3c, .byte 0x00, .byte 0x02, .byte 0x1f, .byte 0x09,
      .start 0x00, .payload, .crc8] := by
  decide

/-! ### Frames -/

namespace Message

variable (m : Message)

/-- A frame: the start bytes, the header, the payload and the check of both. -/
def frame (seq : UInt8) (payload : List UInt8) : List UInt8 :=
  let body := m.head seq ++ payload
  match m.kind with
  | .mavlink =>
    let crc := mavlinkCrc body (crcExtra m.messageId)
    0xfe :: body ++ [crc.toUInt8, (crc >>> 8).toUInt8]
  | .msp => 0x24 :: 0x58 :: 0x3c :: body ++ [dvbCrc body]

/-- The bytes of a frame that a case reads. -/
def text (seq : UInt8) (payload : List UInt8) : Case → List UInt8
  | .byte expected | .start expected => [expected]
  | .seq => [seq]
  | .payload => payload
  | .crcLow => [(mavlinkCrc (m.head seq ++ payload) (crcExtra m.messageId)).toUInt8]
  | .crcHigh => [(mavlinkCrc (m.head seq ++ payload) (crcExtra m.messageId) >>> 8).toUInt8]
  | .crc8 => [dvbCrc (m.head seq ++ payload)]

theorem frame_eq (seq : UInt8) (payload : List UInt8) :
    m.cases.flatMap (m.text seq payload) = m.frame seq payload := by
  unfold cases frame text head
  cases m.kind <;> simp

end Message

/-- What two frames carry. -/
structure Pair (f : Format) where
  seq : Bool → UInt8
  payload : ∀ k, Vector UInt8 (f.message k).size

namespace Pair

variable {f : Format} (pair : Pair f)

/-- The two frames, back to back. -/
def bytes : List UInt8 :=
  (f.message false).frame (pair.seq false) (pair.payload false).toList ++
    (f.message true).frame (pair.seq true) (pair.payload true).toList

/-- The bytes that a state of the switch reads. -/
def text (state : Bool × Case) : List UInt8 :=
  (f.message state.1).text (pair.seq state.1) (pair.payload state.1).toList state.2

/-- The states of the switch lay out the two frames. -/
theorem bytes_eq : f.cases.flatMap pair.text = pair.bytes := by
  unfold Format.cases bytes
  rw [List.flatMap_append, List.flatMap_map, List.flatMap_map, ← Message.frame_eq,
    ← Message.frame_eq]
  rfl

theorem text_length (other : Pair f) (state : Bool × Case) :
    (pair.text state).length = (other.text state).length := by
  obtain ⟨k, case⟩ := state
  cases case with
  | payload => exact (Vector.length_toList ..).trans (Vector.length_toList ..).symm
  | _ => rfl

end Pair

end Robocon.Flow
