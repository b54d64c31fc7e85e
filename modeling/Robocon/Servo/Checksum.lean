/-
**The checksum of a package, and what its memory held before.**

`checksum` in `FSUS_CalcChecksum` has no initial value: each call starts from what was on the stack.

* `sum_eq` — the result is the byte sum of the package, plus what the call started from.
* `isValid_iff`, `byte_passes` — the test of `FSUS_IsValidResponsePackage` and the one of
  `FSUS_RecvPackage` are the same, `Package.Passes`.
* `plain_checksum_iff` — a call gives the byte sum, and what it sends passes the test on the other
  side, exactly if both calls start from zero.
-/

import Robocon.Servo.Framing

namespace Robocon.Servo

open Lib

/-! ### The byte sum -/

/-- The sum of the bytes modulo `256`. -/
def byteSum (bytes : List UInt8) : UInt8 := UInt8.ofNat (bytes.map UInt8.toNat).sum

theorem byteSum_cons (byte : UInt8) (bytes : List UInt8) :
    byteSum (byte :: bytes) = byte + byteSum bytes := by
  rw [byteSum, List.map_cons, List.sum_cons, UInt8.ofNat_add, UInt8.ofNat_toNat]
  rfl

theorem foldl_add (start : UInt8) (bytes : List UInt8) :
    bytes.foldl (· + ·) start = start + byteSum bytes := by
  induction bytes generalizing start with
  | nil => exact (UInt8.add_zero start).symm
  | cons byte bytes ih => rw [List.foldl_cons, ih, byteSum_cons, UInt8.add_assoc]

/-- **The result of `FSUS_CalcChecksum`.** -/
theorem sum_eq (start cmdId size : UInt8) (header : UInt16) (content : List UInt8) :
    sum start cmdId size header content =
      start + byteSum ([header.toUInt8, (header >>> 8).toUInt8, cmdId, size] ++ content) := by
  rw [sum, foldl_add]
  simp only [List.cons_append, List.nil_append, byteSum_cons, UInt8.add_assoc]

/-! ### The test -/

/-- `FSUS_IsValidResponsePackage`. -/
def isValidResponsePackage (start : UInt8) (pkg : Package) : Status :=
  if pkg.header ≠ responseHeader then .wrongResponseHeader
  else if cmdNum < pkg.cmdId then .unkownCmdId
  else if responseMaxSize - 5 < pkg.size.toNat then .sizeTooBig
  else if pkg.calcChecksum start ≠ pkg.checksum then .checksumError
  else .success

/-- The checksum of a package passes the test. -/
def Package.Passes (start : UInt8) (pkg : Package) : Prop := pkg.calcChecksum start = pkg.checksum

/-- **The test of `FSUS_IsValidResponsePackage`** is the checksum. -/
theorem isValid_iff {start : UInt8} {pkg : Package} (header : pkg.header = responseHeader)
    (known : pkg.cmdId ≤ cmdNum) (fits : pkg.size.toNat ≤ responseMaxSize - 5) :
    isValidResponsePackage start pkg = .success ↔ pkg.Passes start := by
  rw [isValidResponsePackage, if_neg (not_not.mpr header), if_neg (UInt8.not_lt.mpr known),
    if_neg (Nat.not_lt.mpr fits), Package.Passes]
  by_cases passes : pkg.calcChecksum start = pkg.checksum
  · simp [passes]
  · simp [passes]

/-- **The test of `FSUS_RecvPackage`**, for the byte after the content. -/
theorem byte_passes {start : UInt8} {r : Receiver}
    (status : r.pkg.status = flagHeader ||| flagCmdId ||| flagSize ||| flagContent)
    (checksum : UInt8) :
    (∃ pkg', r.byte start checksum = some (.inr (.success, pkg'))) ↔
      Package.Passes start { r.pkg with checksum := checksum } := by
  obtain ⟨pkg', -, step⟩ := byte_checksum start status checksum
  show _ ↔ r.pkg.calcChecksum start = checksum
  rw [step]
  by_cases passes : r.pkg.calcChecksum start = checksum
  · rw [if_pos passes]
    exact iff_of_true ⟨pkg', rfl⟩ passes
  · rw [if_neg passes]
    refine iff_of_false ?_ passes
    rintro ⟨_, same⟩
    cases same

/-! ### Packages that fit -/

/-- A package whose size is that of its content. -/
structure Packet extends Package where
  fits : toPackage.size.toNat ≤ responseMaxSize

/-- The bytes that the checksum is about: the two of the header, the command, the size and the
content. -/
def Package.bytes (pkg : Package) : List UInt8 :=
  [pkg.header.toUInt8, (pkg.header >>> 8).toUInt8, pkg.cmdId, pkg.size] ++
    filled pkg.content pkg.size.toNat

theorem calcChecksum_eq (pkg : Package) (start : UInt8) :
    pkg.calcChecksum start = start + byteSum pkg.bytes :=
  sum_eq start pkg.cmdId pkg.size pkg.header (filled pkg.content pkg.size.toNat)

/-- The result is the byte sum exactly if the call starts from zero. -/
theorem calcChecksum_iff (pkg : Package) (start : UInt8) :
    pkg.calcChecksum start = byteSum pkg.bytes ↔ start = 0 := by
  rw [calcChecksum_eq]
  exact add_eq_right

/-- A package of `FSUS_SendPackage` passes the test of a call that starts from the same value. -/
theorem build_passes {old built : Package} {sent cmdId size : UInt8} {content : ℕ → UInt8}
    (build : old.build sent cmdId size content = some built) (received : UInt8) :
    built.Passes received ↔ received = sent := by
  rw [Package.build, Option.map_eq_some_iff] at build
  obtain ⟨bytes, -, rfl⟩ := build
  rw [Package.Passes, calcChecksum_eq]
  show received + byteSum _ = Package.calcChecksum _ sent ↔ _
  rw [calcChecksum_eq]
  exact add_left_inj _

/-- **The checksum depends on the packet alone**, and passes the test on the other side, exactly if
both calls start from zero. -/
theorem plain_checksum_iff (packet : Packet) (old : Package) (content : ℕ → UInt8)
    (sent received : UInt8) :
    (packet.calcChecksum sent = byteSum packet.bytes ∧
      ∃ built, old.build sent packet.cmdId packet.size content = some built ∧
        built.Passes received) ↔
      sent = 0 ∧ received = 0 := by
  obtain ⟨built, build, -⟩ := build_fits old sent packet.cmdId content packet.fits
  rw [calcChecksum_iff]
  refine and_congr_right fun zero => ?_
  rw [← zero, ← build_passes build received]
  refine ⟨fun ⟨_, same, passes⟩ => ?_, fun passes => ⟨built, build, passes⟩⟩
  rwa [Option.some.inj (build.symm.trans same)]

/-- **A call that starts from one**: the sum is one too large. -/
theorem leftover : ∃ (packet : Packet) (sent : UInt8),
    packet.calcChecksum sent ≠ byteSum packet.bytes := by
  refine ⟨⟨⟨responseHeader, 1, 1, Vector.replicate responseMaxSize 0, 0, 0⟩, by decide⟩, 1, ?_⟩
  decide

end Robocon.Servo
