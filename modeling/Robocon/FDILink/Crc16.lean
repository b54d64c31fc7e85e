/-
**The CRC16 of the IMU link is the remainder by `x¹⁶ + x¹² + x⁵ + 1`.**

* `tableEntry_advance` — an entry of `CRC16Table` is its index, moved to the top of the register
  and through eight places of the shift register.
* `crc16Step_value` — one byte multiplies the residue by `x⁸` and adds the byte times `x¹⁶`.
* `crc16_eq_iff` — an error pattern goes unnoticed exactly if its own value is zero.
-/

import Robocon.FDILink.CrcTable
import Robocon.Lib.Crc

namespace Robocon.FDILink

open Lib

/-- The feedback of the register: the generator less its leading term. -/
def crc16Taps : BitVec 16 := 0x1021#16

/-- The residues by the generator. -/
abbrev Residue : Type := AdjoinRoot (generatorOf crc16Taps)

/-- The residue of `x`. -/
noncomputable def root : Residue := AdjoinRoot.root (generatorOf crc16Taps)

/-- The residue of the register. -/
noncomputable def crc16Value (crc16 : UInt16) : Residue := residue crc16Taps crc16.toBitVec

/-- The residue of a byte. -/
noncomputable def byteValue (value : UInt8) : Residue :=
  AdjoinRoot.mk (generatorOf crc16Taps) (bits value.toBitVec)

/-- An entry of `CRC16Table`. -/
def tableEntry (index : UInt8) : UInt16 := crc16Entries.get ⟨index.toNat, index.toNat_lt⟩

theorem tableEntry_advance (index : UInt8) :
    (tableEntry index).toBitVec = (advance crc16Taps)^[8] (index.toBitVec ++ 0#8) := by
  have all : ∀ place : Fin (2 ^ 8), (crc16Entries.get place).toBitVec =
      (advance crc16Taps)^[8] (BitVec.ofFin place ++ 0#8) := by
    decide +kernel
  exact all ⟨index.toNat, index.toNat_lt⟩

/-- One byte: the entry at the high byte of the register, corrected by the byte that is read. -/
theorem crc16Step_eq (crc16 : UInt16) (value : UInt8) :
    crc16Step crc16 value = tableEntry ((crc16 >>> 8).toUInt8 ^^^ value) ^^^ (crc16 <<< 8) := by
  unfold crc16Step tableEntry
  simp only [index_toNat]

/-! ### The register holds the residue of the message -/

theorem byteValue_xor (value error : UInt8) :
    byteValue (value ^^^ error) = byteValue value + byteValue error := by
  unfold byteValue
  rw [UInt8.toBitVec_xor, bits_xor, map_add]

theorem residue_top (value : UInt8) :
    residue crc16Taps (value.toBitVec ++ 0#8) = byteValue value * root ^ 8 := by
  have zero : bits 0#8 = 0 := by
    ext place
    simp [coeff_bits]
  unfold residue byteValue root
  rw [bits_append, zero, add_zero, map_mul, map_pow, AdjoinRoot.mk_X]

theorem crc16Value_split (crc16 : UInt16) :
    crc16Value crc16 =
      byteValue (crc16 >>> 8).toUInt8 * root ^ 8 + byteValue crc16.toUInt8 := by
  unfold crc16Value residue byteValue root
  rw [register_split, bits_append, map_add, map_mul, map_pow, AdjoinRoot.mk_X]

theorem tableEntry_value (index : UInt8) :
    crc16Value (tableEntry index) = byteValue index * root ^ 16 := by
  unfold crc16Value
  rw [tableEntry_advance, residue_iterate, residue_top]
  show byteValue index * root ^ 8 * root ^ 8 = _
  ring

/-- **One byte** multiplies the residue by `x⁸` and adds the byte times `x¹⁶`. -/
theorem crc16Step_value (crc16 : UInt16) (value : UInt8) :
    crc16Value (crc16Step crc16 value) =
      crc16Value crc16 * root ^ 8 + byteValue value * root ^ 16 := by
  have entry := tableEntry_value ((crc16 >>> 8).toUInt8 ^^^ value)
  unfold crc16Value at entry
  rw [crc16Step_eq, crc16Value, UInt16.toBitVec_xor, residue_xor, entry, register_shift,
    residue_top, crc16Value_split, byteValue_xor]
  ring

theorem crc16Value_injective : Function.Injective crc16Value :=
  fun _ _ same => UInt16.toBitVec_inj.mp (residue_injective crc16Taps same)

theorem crc16Value_zero : crc16Value 0 = 0 := by
  have same := residue_xor crc16Taps 0#16 0#16
  have zero : residue crc16Taps 0#16 = 0 := by simpa using same
  exact zero

theorem coeff_zero_generator : (generatorOf crc16Taps).coeff 0 ≠ 0 :=
  coeff_zero_generatorOf (by decide) (by decide)

/-- The value of a message. -/
noncomputable def messageValue (message : List UInt8) : Residue := horner root 8 byteValue message

/-- The register holds the value of the message, moved up by its own width. -/
theorem crc16Value_foldl (message : List UInt8) :
    crc16Value (message.foldl crc16Step 0) = messageValue message * root ^ 16 := by
  rw [value_foldl crc16Step_value, crc16Value_zero, zero_mul, zero_add]
  rfl

/-- The register is zero exactly if the value of the message is. -/
theorem crc16_eq_zero_iff (message : List UInt8) :
    message.foldl crc16Step 0 = 0 ↔ messageValue message = 0 := by
  have unit : IsUnit (root ^ 16) := (isUnit_root coeff_zero_generator).pow 16
  have value := crc16Value_foldl message
  refine ⟨fun zero => ?_, fun zero => ?_⟩
  · rw [zero, crc16Value_zero] at value
    exact (unit.mul_left_eq_zero).mp value.symm
  · rw [zero, zero_mul] at value
    exact crc16Value_injective (value.trans crc16Value_zero.symm)

/-- The message with the bits of `error` flipped. -/
def corrupt (message error : List UInt8) : List UInt8 := List.zipWith (· ^^^ ·) message error

/-- **An error pattern goes unnoticed exactly if its own value is zero.** -/
theorem crc16_eq_iff {message error : List UInt8} (same : error.length = message.length) :
    (corrupt message error).foldl crc16Step 0 = message.foldl crc16Step 0 ↔
      messageValue error = 0 := by
  have unit : IsUnit (root ^ 16) := (isUnit_root coeff_zero_generator).pow 16
  have split : messageValue (corrupt message error) = messageValue message + messageValue error :=
    horner_zipWith root 8 byteValue byteValue_xor message error same
  have value := crc16Value_foldl (corrupt message error)
  rw [split, add_mul, ← crc16Value_foldl message] at value
  refine ⟨fun equal => ?_, fun zero => ?_⟩
  · rw [equal] at value
    exact unit.mul_left_eq_zero.mp (by simpa using value)
  · rw [zero, zero_mul, add_zero] at value
    exact crc16Value_injective value

end Robocon.FDILink
