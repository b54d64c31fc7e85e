/-
**The tables of the IMU link against their polynomials.**

* `bitwiseCrc8` — the check whose register, lowest bit first, feeds back the reflected `0x31`.
* `bitwiseCrc16` — the check whose register, highest bit first, feeds back `0x1021`.
* `crc8Step_bitwise`, `crc16Step_bitwise` — one byte through a table is eight places of the
  register.
* `tables_bitwise` — so `CRC8_Table` and `CRC16_Table` compute these checks, with every access
  inside its table.
-/

import Robocon.FDILink.Crc16

namespace Robocon.FDILink

open Lib

/-! ### The checks, bit by bit -/

/-- One byte of the reflected check: it is added to the register, which moves eight places. The taps
are `0x31` read from its other end. -/
def bitwiseStep8 (crc value : UInt8) : UInt8 := ⟨(advanceLow 0x8c#8)^[8] (crc ^^^ value).toBitVec⟩

/-- The reflected check of a message. -/
def bitwiseCrc8 (message : List UInt8) : UInt8 := message.foldl bitwiseStep8 0

/-- One byte of the check that reads the highest bit first: the byte is added to the high end of the
register. -/
def bitwiseStep16 (crc : UInt16) (value : UInt8) : UInt16 :=
  ⟨(advance 0x1021#16)^[8] (crc.toBitVec ^^^ (value.toBitVec ++ 0#8))⟩

/-- The check of a message that reads the highest bit first. -/
def bitwiseCrc16 (message : List UInt8) : UInt16 := message.foldl bitwiseStep16 0

example : (0x31#8).reverse = 0x8c#8 ∧
    bitwiseCrc8 [0x31, 0x32, 0x33, 0x34, 0x35, 0x36, 0x37, 0x38, 0x39] = 0xa1 ∧
    bitwiseCrc16 [0x31, 0x32, 0x33, 0x34, 0x35, 0x36, 0x37, 0x38, 0x39] = 0x31c3 := by
  decide +kernel

/-! ### The tables -/

/-- Every entry of `CRC8Table` is its index, moved eight places. -/
theorem crc8Entries_advance (index : UInt8) :
    (crc8Entries.get ⟨index.toNat, index.toNat_lt⟩).toBitVec =
      (advanceLow 0x8c#8)^[8] index.toBitVec := by
  have all : ∀ place : Fin (2 ^ 8), (crc8Entries.get place).toBitVec =
      (advanceLow 0x8c#8)^[8] (BitVec.ofFin place) := by
    decide +kernel
  exact all ⟨index.toNat, index.toNat_lt⟩

theorem crc8Step_bitwise : crc8Step = bitwiseStep8 := by
  funext crc value
  apply UInt8.toBitVec_inj.mp
  exact crc8Entries_advance (crc ^^^ value)

theorem crc16Step_bitwise : crc16Step = bitwiseStep16 := by
  funext crc value
  apply UInt16.toBitVec_inj.mp
  show (crc16Step crc value).toBitVec = (advance crc16Taps)^[8] (_ ^^^ _)
  rw [crc16Step_eq, UInt16.toBitVec_xor, tableEntry_advance, advance_byte, BitVec.xor_comm]

/-- A message of at most 255 bytes is read whole. -/
theorem crc8Table_all {p : List UInt8} (short : p.length ≤ 255) :
    crc8Table p (UInt8.ofNat p.length) = p.foldl crc8Step 0 := by
  unfold crc8Table
  rw [UInt8.toNat_ofNat', Nat.mod_eq_of_lt (Nat.lt_succ_of_le short), List.take_length]

/-- **The tables compute their polynomials.** On a message of at most 255 bytes the two functions
are the checks of `0x31`, reflected, and of `0x1021`; no access leaves a table. -/
theorem tables_bitwise {message : List UInt8} (short : message.length ≤ 255) :
    crc8Table message (UInt8.ofNat message.length) = bitwiseCrc8 message ∧
      crc16Table message (UInt8.ofNat message.length) = bitwiseCrc16 message ∧
      (∀ crc8 value : UInt8, (crc8 ^^^ value).toNat < crc8Entries.toList.length) ∧
      ∀ (crc16 : UInt16) (value : UInt8),
        (((crc16 >>> 8) ^^^ value.toUInt16) &&& 0xff).toNat < crc16Entries.toList.length := by
  refine ⟨?_, ?_, fun crc8 value => ?_, fun crc16 value => ?_⟩
  · rw [crc8Table_all short, crc8Step_bitwise]
    rfl
  · rw [crc16Table_all short, crc16Step_bitwise]
    rfl
  · rw [Vector.length_toList]
    exact UInt8.toNat_lt _
  · rw [Vector.length_toList]
    exact crc16Index_lt crc16 value

theorem tables_bitwise_digits :
    crc8Table [0x31, 0x32, 0x33, 0x34, 0x35, 0x36, 0x37, 0x38, 0x39] 9 =
      bitwiseCrc8 [0x31, 0x32, 0x33, 0x34, 0x35, 0x36, 0x37, 0x38, 0x39] :=
  (tables_bitwise (show [0x31, 0x32, 0x33, 0x34, 0x35, 0x36, 0x37, 0x38, 0x39].length ≤ 255 by
    decide)).1

end Robocon.FDILink
