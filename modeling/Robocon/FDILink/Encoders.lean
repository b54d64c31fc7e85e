/-
**The two encoders (`FDILink_Send` and `FDILink_Pack` in `FDILink.c`).**

Both write a frame into a buffer, the one into a local buffer of 256 bytes, the other into the
buffer of its caller. They are modelled here with every store, which fails outside of the buffer.

* `writeHeader_shape`, `writeBody_shape` — what the stores leave in a buffer with room for them.
* `fdilinkPack_eq`, `fdilinkSend_eq` — the encoders write what `Status.pack` and `Status.send` say.
* `encoders_agree_iff` — the two give the same bytes exactly for payloads that are not empty. For an
  empty one `FDILink_Send` stops after the CRC8, and `FDILink_Pack` stores its end flag in the place
  of the payload.
-/

import Robocon.Lib.Buffer
import Robocon.FDILink.Sending

namespace Robocon.FDILink

open Lib

variable {size : ℕ}

/-! ### The stores -/

/-- The stores up to the CRC8, which the encoders have in common. -/
def Status.writeHeader (s : Status) (buffer : Vector UInt8 size) (type : UInt8) (len : ℕ) :
    Option (Vector UInt8 size) := do
  let buffer ← store buffer 0 stxFlag
  let buffer ← store buffer 1 type
  let buffer ← store buffer 2 (UInt8.ofNat len)
  let buffer ← store buffer 3 (UInt8.ofInt s.txNumber)
  store buffer 4 (crc8Table buffer.toList 4)

/-- The stores of the payload, of its CRC16 and of the end flag. -/
def writeBody (buffer : Vector UInt8 size) (buf : List UInt8) : Option (Vector UInt8 size) := do
  let buffer ← storeAll buffer 7 buf
  let crc16 := crc16Table (buffer.toList.drop 7) (UInt8.ofNat buf.length)
  let buffer ← store buffer 5 (crc16 >>> 8).toUInt8
  let buffer ← store buffer 6 (crc16 &&& 0xff).toUInt8
  store buffer (8 + buf.length - 1) edxFlag

/-- `FDILink_Send` with its local buffer: the record, and the bytes given to `Serial_Send`. -/
def fdilinkSend (s : Status) (buffer : Vector UInt8 256) (type : UInt8) (buf : List UInt8) :
    Option (Status × List UInt8) := do
  let buffer ← s.writeHeader buffer type buf.length
  let s := { s with txNumber := s.txNumber + 1 }
  if buf.length = 0 then
    return (s, filled buffer 5)
  else
    let buffer ← writeBody buffer buf
    return (s, filled buffer (8 + buf.length))

/-- `FDILink_Pack` with the buffer of its caller: the record, the buffer, and the count. -/
def fdilinkPack (s : Status) (buffer : Vector UInt8 size) (type : UInt8) (buf : List UInt8) :
    Option (Status × Vector UInt8 size × ℕ) := do
  let buffer ← s.writeHeader buffer type buf.length
  let s := { s with txNumber := s.txNumber + 1 }
  let buffer ← writeBody buffer buf
  return (s, buffer, 8 + buf.length)

/-! ### What the stores leave -/

/-- A list with room for a number of bytes begins with so many. -/
theorem exists_front {bytes : List UInt8} {count : ℕ} (room : count ≤ bytes.length) :
    ∃ front rest, bytes = front ++ rest ∧ front.length = count := by
  refine ⟨bytes.take count, bytes.drop count, (List.take_append_drop _ _).symm, ?_⟩
  rw [List.length_take, min_eq_left room]

theorem exists_five {front : List UInt8} (length : front.length = 5) :
    ∃ a b c d e, front = [a, b, c, d, e] := by
  match front, length with
  | [a, b, c, d, e], _ => exact ⟨a, b, c, d, e, rfl⟩

/-- A buffer with room for a frame, divided as the frame is. -/
theorem exists_frame (buffer : Vector UInt8 size) {count : ℕ} (room : 8 + count ≤ size) :
    ∃ front hi lo old last rest,
      buffer.toList = front ++ hi :: lo :: (old ++ last :: rest) ∧
      front.length = 5 ∧ old.length = count := by
  have total : buffer.toList.length = size := Vector.length_toList
  obtain ⟨front, rest, shape, length⟩ := exists_front (show 5 ≤ buffer.toList.length by omega)
  rw [shape, List.length_append, length] at total
  match rest, total with
  | hi :: lo :: tail, total =>
    simp only [List.length_cons] at total
    obtain ⟨old, tail', rfl, length'⟩ := exists_front (show count ≤ tail.length by omega)
    rw [List.length_append] at total
    match tail', total with
    | last :: rest, _ => exact ⟨front, hi, lo, old, last, rest, shape, length, length'⟩
    | [], total => simp at total; omega
  | [_], total => simp at total; omega
  | [], total => simp at total; omega

/-- **The header** fills the first five bytes. -/
theorem Status.writeHeader_shape (s : Status) {buffer : Vector UInt8 size} (type : UInt8) (len : ℕ)
    {front rest : List UInt8} (shape : buffer.toList = front ++ rest) (length : front.length = 5) :
    ∃ buffer', s.writeHeader buffer type len = some buffer' ∧ buffer'.toList =
      frameHeader type (UInt8.ofNat len) (UInt8.ofInt s.txNumber) ++
        crc8Table (frameHeader type (UInt8.ofNat len) (UInt8.ofInt s.txNumber)) 4 :: rest := by
  obtain ⟨a, b, c, d, e, rfl⟩ := exists_five length
  obtain ⟨one, stored₁, shape₁⟩ := store_append [] shape stxFlag
  obtain ⟨two, stored₂, shape₂⟩ := store_append [stxFlag] shape₁ type
  obtain ⟨three, stored₃, shape₃⟩ := store_append [stxFlag, type] shape₂ (UInt8.ofNat len)
  obtain ⟨four, stored₄, shape₄⟩ :=
    store_append [stxFlag, type, UInt8.ofNat len] shape₃ (UInt8.ofInt s.txNumber)
  obtain ⟨five, stored₅, shape₅⟩ :=
    store_append (frameHeader type (UInt8.ofNat len) (UInt8.ofInt s.txNumber)) shape₄
      (crc8Table four.toList 4)
  have header : crc8Table four.toList 4 =
      crc8Table (frameHeader type (UInt8.ofNat len) (UInt8.ofInt s.txNumber)) 4 := by
    rw [shape₄]
    rfl
  rw [header] at shape₅
  refine ⟨five, ?_, shape₅⟩
  refine Option.bind_eq_some_iff.mpr ⟨one, stored₁, ?_⟩
  refine Option.bind_eq_some_iff.mpr ⟨two, stored₂, ?_⟩
  refine Option.bind_eq_some_iff.mpr ⟨three, stored₃, ?_⟩
  exact Option.bind_eq_some_iff.mpr ⟨four, stored₄, stored₅⟩

/-- The CRC16 of a payload does not read past it. -/
theorem crc16Table_front {buf : List UInt8} (short : buf.length ≤ 255) (rest : List UInt8) :
    crc16Table (buf ++ rest) (UInt8.ofNat buf.length) =
      crc16Table buf (UInt8.ofNat buf.length) := by
  unfold crc16Table
  rw [UInt8.toNat_ofNat', Nat.mod_eq_of_lt (Nat.lt_succ_of_le short), List.take_left,
    List.take_length]

/-- **The body** fills the bytes from the sixth on. -/
theorem writeBody_shape {buffer : Vector UInt8 size} {a b c d e hi lo last : UInt8}
    {old rest buf : List UInt8}
    (shape : buffer.toList = [a, b, c, d, e, hi, lo] ++ (old ++ last :: rest))
    (length : old.length = buf.length) (short : buf.length ≤ 255) :
    ∃ buffer', writeBody buffer buf = some buffer' ∧ buffer'.toList =
      [a, b, c, d, e, (crc16Table buf (UInt8.ofNat buf.length) >>> 8).toUInt8,
        (crc16Table buf (UInt8.ofNat buf.length) &&& 0xff).toUInt8] ++
        (buf ++ edxFlag :: rest) := by
  rw [← List.append_assoc] at shape
  obtain ⟨one, stored₁, shape₁⟩ := storeAll_append buf shape length
  rw [List.append_assoc] at shape₁
  have crc16 : crc16Table (one.toList.drop 7) (UInt8.ofNat buf.length) =
      crc16Table buf (UInt8.ofNat buf.length) := by
    rw [shape₁]
    exact crc16Table_front short _
  generalize crc16Table buf (UInt8.ofNat buf.length) = word at crc16 ⊢
  obtain ⟨two, stored₂, shape₂⟩ := store_append [a, b, c, d, e] shape₁ (word >>> 8).toUInt8
  obtain ⟨three, stored₃, shape₃⟩ :=
    store_append [a, b, c, d, e, (word >>> 8).toUInt8] shape₂ (word &&& 0xff).toUInt8
  have ready : three.toList = [a, b, c, d, e, (word >>> 8).toUInt8, (word &&& 0xff).toUInt8] ++
      buf ++ last :: rest := by
    rw [List.append_assoc]
    exact shape₃
  obtain ⟨four, stored₄, shape₄⟩ := store_append _ ready edxFlag
  have place : ([a, b, c, d, e, (word >>> 8).toUInt8, (word &&& 0xff).toUInt8] ++ buf).length =
      8 + buf.length - 1 := by
    rw [List.length_append]
    show 7 + buf.length = _
    omega
  rw [place] at stored₄
  refine ⟨four, ?_, shape₄.trans (List.append_assoc _ _ _)⟩
  refine Option.bind_eq_some_iff.mpr ⟨one, stored₁, ?_⟩
  rw [crc16]
  refine Option.bind_eq_some_iff.mpr ⟨two, stored₂, ?_⟩
  exact Option.bind_eq_some_iff.mpr ⟨three, stored₃, stored₄⟩

/-! ### The encoders -/

theorem filled_of_shape {buffer : Vector UInt8 size} {front rest : List UInt8}
    (shape : buffer.toList = front ++ rest) : filled buffer front.length = front := by
  rw [filled, shape, List.take_left]

/-- **Header and body** in a buffer with room for the frame. Beyond the frame nothing changes. -/
theorem Status.writeFrame (s : Status) (buffer : Vector UInt8 size) (type : UInt8)
    {buf : List UInt8} (short : buf.length ≤ 255) (room : 8 + buf.length ≤ size) :
    ∃ header body, s.writeHeader buffer type buf.length = some header ∧
      filled header 5 = frameHeader type (UInt8.ofNat buf.length) (UInt8.ofInt s.txNumber) ++
        [crc8Table (frameHeader type (UInt8.ofNat buf.length) (UInt8.ofInt s.txNumber)) 4] ∧
      writeBody header buf = some body ∧
      filled body (8 + buf.length) = (s.pack type buf).2.1 ∧
      body.toList.drop (8 + buf.length) = buffer.toList.drop (8 + buf.length) := by
  obtain ⟨front, hi, lo, old, last, rest, shape, five, length⟩ := exists_frame buffer room
  obtain ⟨header, written, shape₁⟩ := s.writeHeader_shape type buf.length shape five
  obtain ⟨body, written', shape₂⟩ := writeBody_shape shape₁ length short
  have frame : body.toList = (s.pack type buf).2.1 ++ rest := by
    rw [shape₂, Status.pack]
    simp [frameHeader]
  have count : (s.pack type buf).2.1.length = 8 + buf.length := (s.pack_count type buf).symm
  refine ⟨header, body, written, ?_, written', ?_, ?_⟩
  · exact filled_of_shape (shape₁.trans (List.append_cons _ _ _))
  · rw [← count]
    exact filled_of_shape frame
  · have front' : (front ++ hi :: lo :: (old ++ [last])).length = 8 + buf.length := by
      simp only [List.length_append, List.length_cons, List.length_nil, five, length]
      omega
    have whole : buffer.toList = (front ++ hi :: lo :: (old ++ [last])) ++ rest := by
      rw [shape]
      simp
    rw [frame, whole, ← count, List.drop_left, count, ← front', List.drop_left]

/-- **`FDILink_Pack`** stores what `Status.pack` says, and nothing beyond it. -/
theorem fdilinkPack_eq (s : Status) (buffer : Vector UInt8 size) (type : UInt8) {buf : List UInt8}
    (short : buf.length ≤ 255) (room : 8 + buf.length ≤ size) :
    ∃ packed, fdilinkPack s buffer type buf =
        some ((s.pack type buf).1, packed, (s.pack type buf).2.2) ∧
      filled packed (8 + buf.length) = (s.pack type buf).2.1 ∧
      packed.toList.drop (8 + buf.length) = buffer.toList.drop (8 + buf.length) := by
  obtain ⟨header, body, written, -, written', frame, rest⟩ := s.writeFrame buffer type short room
  refine ⟨body, ?_, frame, rest⟩
  refine Option.bind_eq_some_iff.mpr ⟨header, written, ?_⟩
  exact Option.bind_eq_some_iff.mpr ⟨body, written', rfl⟩

/-- **`FDILink_Send`** hands on what `Status.send` says. -/
theorem fdilinkSend_eq (s : Status) (buffer : Vector UInt8 256) (type : UInt8) {buf : List UInt8}
    (short : buf.length < 248) : fdilinkSend s buffer type buf = s.send type buf := by
  obtain ⟨header, body, written, five, written', frame, -⟩ :=
    s.writeFrame buffer type (show buf.length ≤ 255 by omega) (show 8 + buf.length ≤ 256 by omega)
  have fits : 8 + buf.length ≤ 256 := by omega
  rw [fdilinkSend, written, Status.send]
  by_cases empty : buf.length = 0
  · simp only [Option.bind_eq_bind, Option.bind_some, if_pos empty, five]
    rfl
  · simp only [Option.bind_eq_bind, Option.bind_some, if_neg empty, if_pos fits, written', frame]
    rfl

/-- The bytes of an empty payload are the header. -/
theorem send_empty (s : Status) (type : UInt8) {buf : List UInt8} (empty : buf.length = 0) :
    s.send type buf = some ({ s with txNumber := s.txNumber + 1 },
      frameHeader type (UInt8.ofNat buf.length) (UInt8.ofInt s.txNumber) ++
        [crc8Table (frameHeader type (UInt8.ofNat buf.length) (UInt8.ofInt s.txNumber)) 4]) :=
  if_pos empty

/-- The bytes of another payload are those of `FDILink_Pack`. -/
theorem send_full (s : Status) (type : UInt8) {buf : List UInt8} (full : buf.length ≠ 0)
    (fits : 8 + buf.length ≤ 256) :
    s.send type buf = some ((s.pack type buf).1, (s.pack type buf).2.1) :=
  (if_neg full).trans (if_pos fits)

/-- What is asked of the two encoders: both stay in their buffers, number the frame alike, and give
the same bytes. -/
def Agree (s : Status) (type : UInt8) (buf : List UInt8) (own : Vector UInt8 256)
    (buffer : Vector UInt8 size) : Prop :=
  ∃ sent packed count,
    fdilinkSend s own type buf = some ({ s with txNumber := s.txNumber + 1 }, sent) ∧
    fdilinkPack s buffer type buf =
      some ({ s with txNumber := s.txNumber + 1 }, packed, count) ∧
    sent.length = count ∧ sent = filled packed count

/-- An empty payload gives five bytes from the one and eight from the other. -/
theorem Agree.full {s : Status} {type : UInt8} {buf : List UInt8} {own : Vector UInt8 256}
    {buffer : Vector UInt8 size} (agree : Agree s type buf own buffer) (short : buf.length < 248)
    (room : 8 + buf.length ≤ size) : buf.length ≠ 0 := by
  obtain ⟨sent, packed, count, sent_eq, packed_eq, equal, -⟩ := agree
  obtain ⟨packed', written, -⟩ :=
    fdilinkPack_eq s buffer type (show buf.length ≤ 255 by omega) room
  intro empty
  rw [fdilinkSend_eq s own type short, send_empty s type empty] at sent_eq
  rw [written] at packed_eq
  have sent_eq := congrArg (fun last => last.2.length) (Option.some.inj sent_eq)
  have packed_eq := congrArg (fun last => last.2.2) (Option.some.inj packed_eq)
  have five : 5 = sent.length := sent_eq
  have eight : 8 + buf.length = count := packed_eq
  omega

/-- **The two encoders agree** exactly on the payloads that are not empty. -/
theorem encoders_agree_iff (s : Status) (type : UInt8) {buf : List UInt8} (own : Vector UInt8 256)
    {buffer : Vector UInt8 size} (short : buf.length < 248) (room : 8 + buf.length ≤ size) :
    Agree s type buf own buffer ↔ buf.length ≠ 0 := by
  refine ⟨fun agree => agree.full short room, fun full => ?_⟩
  obtain ⟨packed, written, frame, -⟩ :=
    fdilinkPack_eq s buffer type (show buf.length ≤ 255 by omega) room
  have count : (s.pack type buf).2.1.length = 8 + buf.length := (s.pack_count type buf).symm
  refine ⟨(s.pack type buf).2.1, packed, _, ?_, written, count, frame.symm⟩
  rw [fdilinkSend_eq s own type short, send_full s type full (by omega)]
  rfl

/-! ### One payload -/

theorem encoders_agree_one : Agree Status.initial 0x40 [7] (Vector.replicate 256 0)
    (Vector.replicate 9 (0 : UInt8)) :=
  (encoders_agree_iff Status.initial 0x40 (Vector.replicate 256 0) (by decide) (by decide)).mpr
    (by decide)

/-- **An empty payload.** `FDILink_Send` gives five bytes, and `FDILink_Pack` counts eight. -/
theorem encoders_differ :
    (fdilinkSend Status.initial (Vector.replicate 256 0) 0x40 []).map (fun last => last.2.length) =
        some 5 ∧
      (fdilinkPack Status.initial (Vector.replicate 8 0) 0x40 []).map (fun last => last.2.2) =
        some 8 ∧
      ¬ Agree Status.initial 0x40 [] (Vector.replicate 256 0) (Vector.replicate 8 (0 : UInt8)) := by
  refine ⟨?_, ?_, fun agree => agree.full (by decide) (by decide) rfl⟩
  · rw [fdilinkSend_eq _ _ _ (by decide), send_empty _ _ rfl]
    rfl
  · have short : ([] : List UInt8).length ≤ 255 := by decide
    obtain ⟨packed, written, -⟩ :=
      fdilinkPack_eq Status.initial (Vector.replicate 8 0) 0x40 short (by decide)
    rw [written]
    rfl

end Robocon.FDILink
