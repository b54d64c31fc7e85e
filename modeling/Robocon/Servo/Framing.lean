/-
**How a request gets to the wire.**

`FSUS_SendPackage` copies the content into a package on the stack, and `FSUS_UART_Send` copies the
package into `tx_buf` and writes that.

* `fsusSendPackage_eq` — of this, `sendPackage` tells the bytes on the wire.
* `Request` — the calls that send a content of any size; `FSUS_WriteData` puts two bytes before its
  data, and adds two to its `uint8_t size`.
* `framed_iff` — a request stays in the buffers, and is on the wire as it was given, exactly if its
  content has no more than fifty bytes.

Nothing checks the size: a larger one is written past the content (`overlong`), and from
`FSUS_WriteData` the two largest ones come out as `0` and `1` (`writeData_wraps`).
-/

import Robocon.Servo.Package

namespace Robocon.Servo

open Lib

/-! ### The functions -/

/-- The size of `tx_buf`. -/
def txSize : ℕ := responseMaxSize + 5

/-- The first bytes at a pointer. -/
def bytesAt (pointer : ℕ → UInt8) (size : ℕ) : List UInt8 := (List.range size).map pointer

/-- The package of `FSUS_SendPackage`. `pkg` is what its memory held before; `start` is the value
that `FSUS_CalcChecksum` starts from. -/
def Package.build (pkg : Package) (start cmdId size : UInt8) (content : ℕ → UInt8) :
    Option Package :=
  (storeAll pkg.content 0 (bytesAt content size.toNat)).map fun bytes =>
    let pkg := { pkg with header := requestHeader, cmdId := cmdId, size := size, content := bytes }
    { pkg with checksum := pkg.calcChecksum start }

/-- `FSUS_UART_Send`: `tx_buf` after it, and what it writes. -/
def uartSend (txBuf : Vector UInt8 txSize) (pkg : Package) :
    Option (Vector UInt8 txSize × List UInt8) :=
  if pkg.size.toNat ≤ responseMaxSize then do
    let txBuf ← storeAll txBuf 0 [pkg.header.toUInt8, (pkg.header >>> 8).toUInt8]
    let txBuf ← store txBuf 2 pkg.cmdId
    let txBuf ← store txBuf 3 pkg.size
    let txBuf ← storeAll txBuf 4 (filled pkg.content pkg.size.toNat)
    let txBuf ← store txBuf (4 + pkg.size.toNat) pkg.checksum
    return (txBuf, filled txBuf (pkg.size.toNat + 5))
  else none

def fsusSendPackage (start : UInt8) (pkg : Package) (txBuf : Vector UInt8 txSize)
    (cmdId size : UInt8) (content : ℕ → UInt8) : Option (Vector UInt8 txSize × List UInt8) :=
  (pkg.build start cmdId size content).bind (uartSend txBuf)

/-- The calls that send a content of any size. -/
inductive Request
  | package (cmdId size : UInt8) (content : ℕ → UInt8)
  | writeData (servoId address : UInt8) (value : ℕ → UInt8) (size : UInt8)

/-- The `buffer` of `FSUS_WriteData`. -/
def writeBuffer (servoId address : UInt8) (value : ℕ → UInt8) : ℕ → UInt8
  | 0 => servoId
  | 1 => address
  | i + 2 => value i

/-- `FSUS_SendPackage`, or the request of `FSUS_WriteData`. -/
def Request.send (start : UInt8) (pkg : Package) (txBuf : Vector UInt8 txSize) :
    Request → Option (Vector UInt8 txSize × List UInt8)
  | package cmdId size content => fsusSendPackage start pkg txBuf cmdId size content
  | writeData servoId address value size =>
    fsusSendPackage start pkg txBuf 4 (size + 2) (writeBuffer servoId address value)

/-! ### What a request is to be on the wire -/

/-- The command of a request. -/
def Request.cmdId : Request → UInt8
  | package cmdId _ _ => cmdId
  | writeData .. => 4

/-- The content of a request. -/
def Request.content : Request → List UInt8
  | package _ size content => bytesAt content size.toNat
  | writeData servoId address value size => servoId :: address :: bytesAt value size.toNat

/-- The frame of a content: the header, the command, the size, the content and the checksum. -/
def Frame (start cmdId : UInt8) (content bytes : List UInt8) : Prop :=
  ∃ size : UInt8, size.toNat = content.length ∧
    bytes = [0x12, 0x4C, cmdId, size] ++ content ++ [sum start cmdId size requestHeader content]

/-! ### A content that fits -/

section Fits

variable {pkg : Package} {start cmdId size : UInt8} {content : ℕ → UInt8}

theorem bytesAt_length (pointer : ℕ → UInt8) (size : ℕ) : (bytesAt pointer size).length = size := by
  simp [bytesAt]

theorem build_fits (pkg : Package) (start cmdId : UInt8) (content : ℕ → UInt8)
    (fits : size.toNat ≤ responseMaxSize) :
    ∃ pkg', pkg.build start cmdId size content = some pkg' ∧ pkg'.header = requestHeader ∧
      pkg'.cmdId = cmdId ∧ pkg'.size = size ∧
      filled pkg'.content size.toNat = bytesAt content size.toNat ∧
      pkg'.checksum = sum start cmdId size requestHeader (bytesAt content size.toNat) := by
  have length := bytesAt_length content size.toNat
  obtain ⟨bytes, stored, front⟩ := storeAll_front pkg.content (length.trans_le fits)
  rw [length] at front
  refine ⟨⟨requestHeader, cmdId, size, bytes, sum start cmdId size requestHeader
    (filled bytes size.toNat), pkg.status⟩, ?_, rfl, rfl, rfl, front, ?_⟩
  · rw [Package.build, stored, Option.map_some]
    rfl
  · show sum start cmdId size requestHeader (filled bytes size.toNat) = _
    rw [front]

/-- A content that does not fit is written past the package. -/
theorem build_overlong (pkg : Package) (start cmdId : UInt8) (content : ℕ → UInt8)
    (overlong : responseMaxSize < size.toNat) :
    pkg.build start cmdId size content = none := by
  have fails : storeAll pkg.content 0 (bytesAt content size.toNat) = none := by
    rw [← Option.not_isSome_iff_eq_none, storeAll_isSome (Nat.zero_le _), bytesAt_length]
    omega
  rw [Package.build, fails, Option.map_none]

/-- The stores of `FSUS_UART_Send` are those of a frame. -/
theorem uartSend_eq (txBuf : Vector UInt8 txSize) {pkg : Package}
    (fits : pkg.size.toNat ≤ responseMaxSize) :
    uartSend txBuf pkg = (storeAll txBuf 0 ([pkg.header.toUInt8, (pkg.header >>> 8).toUInt8] ++
      ([pkg.cmdId] ++ ([pkg.size] ++ (filled pkg.content pkg.size.toNat ++ [pkg.checksum]))))).map
        fun txBuf => (txBuf, filled txBuf (pkg.size.toNat + 5)) := by
  have length := filled_length pkg.content fits
  rw [uartSend, if_pos fits]
  simp only [storeAll_concat, storeAll_single, length, List.length_cons, List.length_nil,
    Option.map_eq_bind, Option.bind_assoc, Option.bind_eq_bind]
  rfl

theorem uartSend_fits (txBuf : Vector UInt8 txSize) {pkg : Package}
    (fits : pkg.size.toNat ≤ responseMaxSize) :
    ∃ txBuf', uartSend txBuf pkg = some (txBuf',
      [pkg.header.toUInt8, (pkg.header >>> 8).toUInt8, pkg.cmdId, pkg.size] ++
        filled pkg.content pkg.size.toNat ++ [pkg.checksum]) := by
  have length : ([pkg.header.toUInt8, (pkg.header >>> 8).toUInt8] ++ ([pkg.cmdId] ++ ([pkg.size] ++
      (filled pkg.content pkg.size.toNat ++ [pkg.checksum])))).length = pkg.size.toNat + 5 := by
    simp [filled_length pkg.content fits]
  obtain ⟨txBuf', stored, front⟩ :=
    storeAll_front txBuf (length.trans_le (Nat.add_le_add_right fits 5))
  refine ⟨txBuf', ?_⟩
  rw [uartSend_eq txBuf fits, stored, Option.map_some, ← length, front]
  simp

theorem sendPackage_fits {bytes : List UInt8} (start cmdId : UInt8)
    (length : bytes.length = size.toNat) (fits : size.toNat ≤ responseMaxSize) :
    sendPackage start cmdId size bytes = some ([requestHeader.toUInt8,
      (requestHeader >>> 8).toUInt8, cmdId, size] ++ bytes ++
        [sum start cmdId size requestHeader bytes]) := by
  rw [sendPackage, if_pos ⟨fits, length.ge⟩, List.take_of_length_le length.le]

/-- **The bytes of `FSUS_SendPackage`.** -/
theorem fsusSendPackage_eq (start : UInt8) (pkg : Package) (txBuf : Vector UInt8 txSize)
    (cmdId size : UInt8) (content : ℕ → UInt8) :
    (fsusSendPackage start pkg txBuf cmdId size content).map Prod.snd =
      sendPackage start cmdId size (bytesAt content size.toNat) := by
  rw [fsusSendPackage]
  by_cases fits : size.toNat ≤ responseMaxSize
  · obtain ⟨pkg', built, header, cmdId', size', content', checksum⟩ :=
      build_fits pkg start cmdId content fits
    obtain ⟨txBuf', sent⟩ := uartSend_fits txBuf (size'.symm ▸ fits)
    rw [built, Option.bind_some, sent, header, cmdId', size', content', checksum, Option.map_some,
      sendPackage_fits start cmdId (bytesAt_length _ _) fits]
  · rw [build_overlong pkg start cmdId content (Nat.lt_of_not_le fits), sendPackage,
      if_neg fun whole => fits whole.1]
    rfl

theorem fsusSendPackage_fits (start : UInt8) (pkg : Package) (txBuf : Vector UInt8 txSize)
    (cmdId : UInt8) (content : ℕ → UInt8) (fits : size.toNat ≤ responseMaxSize) :
    ∃ txBuf' bytes, fsusSendPackage start pkg txBuf cmdId size content = some (txBuf', bytes) ∧
      Frame start cmdId (bytesAt content size.toNat) bytes := by
  have length := bytesAt_length content size.toNat
  have sent := fsusSendPackage_eq start pkg txBuf cmdId size content
  rw [sendPackage_fits start cmdId length fits, Option.map_eq_some_iff] at sent
  obtain ⟨⟨txBuf', bytes⟩, sent, rfl⟩ := sent
  exact ⟨txBuf', _, sent, size, length.symm, rfl⟩

theorem fsusSendPackage_overlong (start : UInt8) (pkg : Package) (txBuf : Vector UInt8 txSize)
    (cmdId : UInt8) (content : ℕ → UInt8) (overlong : responseMaxSize < size.toNat) :
    fsusSendPackage start pkg txBuf cmdId size content = none := by
  rw [fsusSendPackage, build_overlong pkg start cmdId content overlong, Option.bind_none]

end Fits

/-! ### Every request -/

theorem bytesAt_writeBuffer (servoId address : UInt8) (value : ℕ → UInt8) (size : ℕ) :
    bytesAt (writeBuffer servoId address value) (size + 2) =
      servoId :: address :: bytesAt value size := by
  rw [bytesAt, List.range_succ_eq_map, List.range_succ_eq_map]
  simp [bytesAt, writeBuffer, Function.comp_def]

/-- What a request gives: it ends within the buffers, and writes its frame or nothing. -/
def Request.Framed (start : UInt8) (pkg : Package) (txBuf : Vector UInt8 txSize)
    (request : Request) : Prop :=
  ∃ txBuf' bytes, request.send start pkg txBuf = some (txBuf', bytes) ∧
    (Frame start request.cmdId request.content bytes ∨ bytes = [])

/-- A frame is never empty, and has the length of its content. -/
theorem Frame.length {start cmdId : UInt8} {content bytes : List UInt8}
    (frame : Frame start cmdId content bytes) : bytes.length = content.length + 5 := by
  obtain ⟨size, -, rfl⟩ := frame
  simp

/-- The sum `size + 2` of `FSUS_WriteData`, as a `uint8_t`. -/
theorem size_wraps (size : UInt8) :
    (size + 2).toNat = if size.toNat < 254 then size.toNat + 2 else size.toNat - 254 := by
  have bound := size.toNat_lt
  rw [UInt8.toNat_add]
  show (size.toNat + 2) % 256 = _
  split_ifs <;> omega

/-- The two largest sizes come out as a frame of at most one byte. -/
theorem writeData_wraps (start : UInt8) (pkg : Package) (txBuf : Vector UInt8 txSize)
    (servoId address : UInt8) (value : ℕ → UInt8) {size : UInt8} (large : 254 ≤ size.toNat) :
    ∃ txBuf' bytes, (Request.writeData servoId address value size).send start pkg txBuf =
      some (txBuf', bytes) ∧ bytes.length = size.toNat - 254 + 5 := by
  have wraps : (size + 2).toNat = size.toNat - 254 := by
    rw [size_wraps, if_neg (Nat.not_lt.mpr large)]
  have bound := size.toNat_lt
  have fits : (size + 2).toNat ≤ responseMaxSize := by
    rw [wraps, responseMaxSize]
    omega
  obtain ⟨txBuf', bytes, sent, frame⟩ :=
    fsusSendPackage_fits start pkg txBuf 4 (writeBuffer servoId address value) fits
  refine ⟨txBuf', bytes, sent, ?_⟩
  rw [frame.length, bytesAt_length, wraps]

/-- **A request is framed** exactly if its content has no more than fifty bytes. -/
theorem framed_iff (start : UInt8) (pkg : Package) (txBuf : Vector UInt8 txSize)
    (request : Request) :
    request.Framed start pkg txBuf ↔ request.content.length ≤ responseMaxSize := by
  cases request with
  | package cmdId size content =>
    rw [Request.content, bytesAt_length]
    by_cases fits : size.toNat ≤ responseMaxSize
    · obtain ⟨txBuf', bytes, sent, frame⟩ := fsusSendPackage_fits start pkg txBuf cmdId content fits
      exact iff_of_true ⟨txBuf', bytes, sent, Or.inl frame⟩ fits
    · refine iff_of_false (fun ⟨txBuf', bytes, sent, _⟩ => ?_) fits
      rw [Request.send, fsusSendPackage_overlong start pkg txBuf cmdId content
        (Nat.lt_of_not_le fits)] at sent
      cases sent
  | writeData servoId address value size =>
    rw [Request.content, List.length_cons, List.length_cons, bytesAt_length]
    rcases Nat.lt_or_ge size.toNat 254 with small | large
    · have plain : (size + 2).toNat = size.toNat + 2 := by rw [size_wraps, if_pos small]
      by_cases fits : size.toNat + 2 ≤ responseMaxSize
      · obtain ⟨txBuf', bytes, sent, frame⟩ := fsusSendPackage_fits start pkg txBuf 4
          (writeBuffer servoId address value) (plain.trans_le fits)
        rw [plain, bytesAt_writeBuffer] at frame
        exact iff_of_true ⟨txBuf', bytes, sent, Or.inl frame⟩ fits
      · refine iff_of_false (fun ⟨txBuf', bytes, sent, _⟩ => ?_) fits
        rw [Request.send, fsusSendPackage_overlong start pkg txBuf 4
          (writeBuffer servoId address value) (by rw [plain]; exact Nat.lt_of_not_le fits)] at sent
        cases sent
    · have overlong : ¬ size.toNat + 2 ≤ responseMaxSize := by
        rw [responseMaxSize]
        omega
      refine iff_of_false (fun ⟨txBuf', bytes, sent, framed⟩ => ?_) overlong
      obtain ⟨_, _, sent', length⟩ := writeData_wraps start pkg txBuf servoId address value large
      obtain ⟨rfl, rfl⟩ := Prod.mk.inj (Option.some.inj (sent.symm.trans sent'))
      rcases framed with frame | rfl
      · have whole := frame.length
        rw [Request.content, List.length_cons, List.length_cons, bytesAt_length] at whole
        omega
      · exact absurd length (by simp)

/-- **Forty-nine bytes of data**: `FSUS_WriteData` writes past the content. -/
theorem overlong : ¬ (Request.writeData 1 0x28 (fun _ => 0) 49).Framed 0
    ⟨0, 0, 0, Vector.replicate responseMaxSize 0, 0, 0⟩ (Vector.replicate txSize 0) := by
  rintro ⟨txBuf', bytes, sent, -⟩
  rw [Request.send, fsusSendPackage_overlong _ _ _ _ _ (by decide)] at sent
  cases sent

end Robocon.Servo
