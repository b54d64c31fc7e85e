/-
**The checksums of the optical-flow links (`check.c`).**

* `hexinCrc16Compute` — the table-driven check of the MAVLink frames; it stores the byte of
  `crc_extra_array` at the end of the buffer and reads all of it, each byte from its low end.
* `crc8` — the check of the MSP frames.
* `mavlinkCrc`, `dvbCrc` — the shift registers that the two protocols prescribe;
  `hexinCrc16Compute_eq` and `crc8_eq`: these are what the functions compute;
  `hexin_is_mavlink`: for every buffer that is not empty.
-/

import Robocon.Lib.Crc

set_option maxRecDepth 8000

namespace Robocon.Flow

open Lib

/-! ### MAVLink -/

def crcExtraArray : Vector UInt8 256 :=
  ⟨#[
    50, 124, 137, 0, 237, 217, 104, 119, 0, 0,
    0, 89, 0, 0, 0, 0, 0, 0, 0, 0,
    214, 159, 220, 168, 24, 23, 170, 144, 67, 115,
    39, 246, 185, 104, 237, 244, 222, 212, 9, 254,
    230, 28, 28, 132, 221, 232, 11, 153, 41, 39,
    78, 0, 0, 0, 15, 3, 0, 0, 0, 0,
    0, 153, 183, 51, 59, 118, 148, 21, 0, 243,
    124, 0, 0, 38, 20, 158, 152, 143, 0, 0,
    0, 106, 49, 22, 143, 140, 5, 150, 0, 231,
    183, 63, 54, 0, 0, 0, 0, 0, 0, 0,
    175, 102, 158, 208, 56, 93, 138, 108, 32, 185,
    84, 34, 174, 124, 237, 4, 76, 128, 56, 116,
    134, 237, 203, 250, 87, 203, 220, 25, 226, 46,
    29, 223, 85, 6, 229, 203, 1, 195, 109, 168,
    181, 148, 72, 0, 0, 0, 103, 154, 178, 200,
    0, 0, 0, 0, 0, 0, 0, 0, 0, 0,
    0, 0, 0, 0, 0, 0, 0, 0, 0, 0,
    0, 0, 0, 0, 0, 0, 0, 0, 0, 0,
    0, 0, 0, 0, 0, 0, 0, 0, 0, 0,
    0, 0, 0, 0, 0, 0, 0, 0, 0, 0,
    0, 0, 0, 0, 0, 0, 0, 0, 0, 0,
    0, 0, 0, 0, 0, 0, 0, 0, 0, 0,
    0, 0, 0, 0, 0, 0, 0, 0, 0, 0,
    0, 0, 0, 0, 0, 0, 0, 0, 0, 0,
    0, 90, 104, 85, 95, 83, 0, 0, 8, 204,
    49, 170, 44, 83, 46, 0],
    rfl⟩

/-- `crc_extra_array[message_id]`. -/
def crcExtra (messageId : UInt8) : UInt8 :=
  crcExtraArray.get ⟨messageId.toNat, messageId.toNat_lt⟩

example : crcExtra 0x6a = 138 ∧ crcExtra 0x64 = 175 ∧ crcExtra 0x84 = 85 := by decide

/-- `t` after some turns of the loops of `__hexin_reverse8` and `hexin_reverse16`. -/
def hexinReverse {w : ℕ} (data : BitVec w) : ℕ → BitVec w
  | 0 => 0
  | i + 1 => hexinReverse data i ||| ((data >>> i) &&& 1) <<< (w - 1 - i)

def hexinReverse8 (data : UInt8) : UInt8 := ⟨hexinReverse data.toBitVec 8⟩

def hexinReverse16 (data : UInt16) : UInt16 := ⟨hexinReverse data.toBitVec 16⟩

structure HexinCrc16 where
  isInitial : Bool
  isGradual : ℕ
  poly : UInt16
  refin : Bool
  refout : Bool
  xorout : UInt16
  table : Vector UInt16 256

/-- `crc` and `c` after some turns of the inner loop of `hexin_crc16_compute_init_table`. -/
def initEntry (poly : UInt16) (i : ℕ) : ℕ → UInt16 × UInt16
  | 0 => (0, UInt16.ofNat i <<< 8)
  | j + 1 =>
    let (crc, c) := initEntry poly i j
    (if (crc ^^^ c) &&& 0x8000 ≠ 0 then (crc <<< 1) ^^^ poly else crc <<< 1, c <<< 1)

def hexinCrc16ComputeInitTable (param : HexinCrc16) : HexinCrc16 :=
  { param with table := Vector.ofFn fun i => (initEntry param.poly i 8).1 }

theorem index_lt (word : UInt16) : (word &&& 0xff).toNat < 256 := by
  rw [UInt16.toNat_and]
  exact Nat.and_lt_two_pow _ (by decide : (0xff : UInt16).toNat < 2 ^ 8)

def hexinCrc16ComputeChar (crc16 : UInt16) (c : UInt8) (param : HexinCrc16) : UInt16 :=
  (crc16 <<< 8) ^^^ param.table.get
    ⟨(((crc16 >>> 8) ^^^ (0x00ff &&& c.toUInt16)) &&& 0xff).toNat, index_lt _⟩

/-- `param_st` at the start of `hexin_crc16_compute`; what it does not name is zero. -/
def paramSt : HexinCrc16 where
  isInitial := false
  isGradual := 0
  poly := 0x1021
  refin := true
  refout := true
  xorout := 0x0000
  table := Vector.replicate 256 0

/-- `hexin_crc16_compute`: the buffer, whose last byte it stores, and the check. -/
def hexinCrc16Compute {len : ℕ} (pSrc : Vector UInt8 len) (messageId : UInt8) (init : UInt16) :
    Vector UInt8 len × UInt16 :=
  let pSrc := pSrc.setIfInBounds (len - 1) (crcExtra messageId)
  let param := if paramSt.isInitial then paramSt
    else { hexinCrc16ComputeInitTable paramSt with isInitial := true }
  let crc := if param.refout ∧ param.isGradual = 2 then hexinReverse16 init else init
  let crc := pSrc.toList.foldl (fun crc data =>
    hexinCrc16ComputeChar crc (if param.refin then hexinReverse8 data else data) param) crc
  (pSrc, (if param.refout then hexinReverse16 crc else crc) ^^^ param.xorout)

/-- One byte of the check that MAVLink prescribes: the register whose lowest bit is its first one,
with the byte added to its low end, moves eight places. -/
def mavlinkStep (crc : UInt16) (value : UInt8) : UInt16 :=
  ⟨(advanceLow 0x8408#16)^[8] (crc ^^^ value.toUInt16).toBitVec⟩

/-- The check of a MAVLink frame: the bytes after the start byte, and then the extra byte of the
message. -/
def mavlinkCrc (bytes : List UInt8) (extra : UInt8) : UInt16 :=
  (bytes ++ [extra]).foldl mavlinkStep 0xffff

example : mavlinkCrc [0x31, 0x32, 0x33, 0x34, 0x35, 0x36, 0x37, 0x38] 0x39 = 0x6f91 := by
  decide +kernel

/-! ### MSP -/

/-- `crc` after some turns of the loop of `crc8_dvb_s2`. -/
def dvbLoop (crc : UInt8) : ℕ → UInt8
  | 0 => crc
  | ii + 1 =>
    let crc := dvbLoop crc ii
    if crc &&& 0x80 ≠ 0 then (crc <<< 1) ^^^ 0xd5 else crc <<< 1

def crc8DvbS2 (crc a : UInt8) : UInt8 := dvbLoop (crc ^^^ a) 8

def crc8 {len : ℕ} (buf : Vector UInt8 len) : UInt8 := buf.toList.foldl crc8DvbS2 0

/-- One byte of the check that MSP prescribes: the register of `x⁸ + x⁷ + x⁶ + x⁴ + x² + 1`, with
the byte added, moves eight places. -/
def dvbStep (crc value : UInt8) : UInt8 := ⟨(advance 0xd5#8)^[8] (crc ^^^ value).toBitVec⟩

/-- The check of an MSP frame. -/
def dvbCrc (bytes : List UInt8) : UInt8 := bytes.foldl dvbStep 0

example : dvbCrc [0x31, 0x32, 0x33, 0x34, 0x35, 0x36, 0x37, 0x38, 0x39] = 0xbc := by decide +kernel

/-! ### The functions compute the prescribed checks -/

theorem getLsbD_lowest {w : ℕ} (x : BitVec w) (place : ℕ) :
    (x &&& 1).getLsbD place = (decide (place = 0) && x.getLsbD 0) := by
  rw [BitVec.getLsbD_and]
  cases place with
  | zero =>
    cases w with
    | zero => simp
    | succ w => simp
  | succ place => simp [BitVec.getLsbD_one]

/-- The bits that some turns of the loop have set. -/
theorem getLsbD_hexinReverse {w : ℕ} (data : BitVec w) {n : ℕ} (inside : n ≤ w) (place : ℕ) :
    (hexinReverse data n).getLsbD place =
      (decide (w - n ≤ place) && data.reverse.getLsbD place) := by
  induction n with
  | zero =>
    by_cases high : w ≤ place
    · rw [BitVec.getLsbD_of_ge _ _ high, BitVec.getLsbD_of_ge _ _ high, Bool.and_false]
    · rw [Nat.sub_zero, decide_eq_false high, Bool.false_and]
      exact BitVec.getLsbD_zero
  | succ n ih =>
    rw [hexinReverse, BitVec.getLsbD_or, ih (Nat.le_of_succ_le inside), BitVec.getLsbD_shiftLeft,
      getLsbD_lowest, BitVec.getLsbD_ushiftRight, Nat.add_zero]
    rcases lt_trichotomy place (w - (n + 1)) with before | edge | after
    · rw [decide_eq_false (show ¬ w - n ≤ place by omega),
        decide_eq_true (show place < w - 1 - n by omega),
        decide_eq_false (show ¬ w - (n + 1) ≤ place by omega)]
      simp
    · have bit : data.reverse.getLsbD place = data.getLsbD n := by
        rw [BitVec.getLsbD_reverse, BitVec.getMsbD_eq_getLsbD, decide_eq_true (by omega),
          Bool.true_and, show w - 1 - place = n by omega]
      rw [bit, decide_eq_false (show ¬ w - n ≤ place by omega),
        decide_eq_true (show place < w by omega),
        decide_eq_false (show ¬ place < w - 1 - n by omega),
        decide_eq_true (show place - (w - 1 - n) = 0 by omega), decide_eq_true edge.ge]
      simp
    · rw [decide_eq_true (by omega), decide_eq_true (show w - (n + 1) ≤ place by omega),
        decide_eq_false (show ¬ place - (w - 1 - n) = 0 by omega)]
      simp

theorem hexinReverse_eq {w : ℕ} (data : BitVec w) : hexinReverse data w = data.reverse := by
  apply BitVec.eq_of_getLsbD_eq
  intro place _
  rw [getLsbD_hexinReverse data le_rfl, Nat.sub_self, decide_eq_true (Nat.zero_le _),
    Bool.true_and]

theorem toBitVec_ne_zero (x : UInt8) : x ≠ 0 ↔ x.toBitVec ≠ 0 :=
  not_congr UInt8.toBitVec_inj.symm

theorem dvbLoop_eq (crc : UInt8) (ii : ℕ) :
    (dvbLoop crc ii).toBitVec = (advance 0xd5#8)^[ii] crc.toBitVec := by
  induction ii with
  | zero => rfl
  | succ ii ih =>
    rw [Function.iterate_succ_apply', ← ih, advance_eq_ite, dvbLoop]
    show UInt8.toBitVec (if dvbLoop crc ii &&& 0x80 ≠ 0 then _ else _) = _
    rw [apply_ite UInt8.toBitVec]
    simp only [toBitVec_ne_zero]
    rfl

theorem word_ne_zero (x : UInt16) : x ≠ 0 ↔ x.toBitVec ≠ 0 :=
  not_congr UInt16.toBitVec_inj.symm

/-- The two words of the loop add up to a register that moves. -/
theorem initEntry_sum (poly : UInt16) (i : UInt8) (j : ℕ) :
    (initEntry poly i.toNat j).1.toBitVec ^^^ (initEntry poly i.toNat j).2.toBitVec =
      (advance poly.toBitVec)^[j] (i.toBitVec ++ 0#8) := by
  induction j with
  | zero =>
    have low : (UInt16.ofNat i.toNat).toUInt8 = i := by simp
    show (0 : UInt16).toBitVec ^^^ (UInt16.ofNat i.toNat <<< 8).toBitVec = _
    rw [register_shift, low]
    exact BitVec.zero_xor
  | succ j ih =>
    rw [Function.iterate_succ_apply', ← ih, initEntry]
    obtain ⟨crc, c⟩ := initEntry poly i.toNat j
    have doubled : ((crc ^^^ c) <<< 1).toBitVec = (crc <<< 1).toBitVec ^^^ (c <<< 1).toBitVec :=
      BitVec.shiftLeft_xor_distrib _ _ _
    have top : ((crc ^^^ c) &&& 0x8000 ≠ 0) ↔
        (crc ^^^ c).toBitVec &&& BitVec.twoPow (15 + 1) 15 ≠ 0 := word_ne_zero _
    show UInt16.toBitVec (if (crc ^^^ c) &&& 0x8000 ≠ 0 then _ else _) ^^^ _ =
      advance _ (crc ^^^ c).toBitVec
    rw [advance_eq_ite]
    by_cases carry : (crc ^^^ c) &&& 0x8000 ≠ 0
    · rw [if_pos carry, if_pos (top.mp carry)]
      show _ = ((crc ^^^ c) <<< 1).toBitVec ^^^ _
      rw [doubled, UInt16.toBitVec_xor, BitVec.xor_assoc, BitVec.xor_assoc,
        BitVec.xor_comm poly.toBitVec]
    · rw [if_neg carry, if_neg (mt top.mpr carry)]
      exact doubled.symm

theorem initEntry_snd (poly : UInt16) (i : ℕ) (j : ℕ) :
    (initEntry poly i j).2.toBitVec = (UInt16.ofNat i).toBitVec <<< (8 + j) := by
  induction j with
  | zero => rfl
  | succ j ih =>
    rw [← Nat.add_assoc, BitVec.shiftLeft_add, ← ih]
    rfl

theorem initEntry_fst (poly : UInt16) (i : UInt8) :
    (initEntry poly i.toNat 8).1.toBitVec =
      (advance poly.toBitVec)^[8] (i.toBitVec ++ 0#8) := by
  have gone : (initEntry poly i.toNat 8).2.toBitVec = 0#16 := by
    rw [initEntry_snd]
    exact BitVec.shiftLeft_eq_zero le_rfl
  rw [← initEntry_sum, gone, BitVec.xor_zero]

/-- The parameters after `hexin_crc16_compute_init_table`. -/
def initialised : HexinCrc16 := { hexinCrc16ComputeInitTable paramSt with isInitial := true }

theorem table_eq (i : UInt8) :
    (initialised.table.get ⟨i.toNat, i.toNat_lt⟩).toBitVec =
      (advance 0x1021#16)^[8] (i.toBitVec ++ 0#8) := by
  have entry : _ = (advance 0x1021#16)^[8] (i.toBitVec ++ 0#8) := initEntry_fst 0x1021 i
  rw [← entry]
  simp [initialised, hexinCrc16ComputeInitTable, paramSt, Vector.get_eq_getElem]

theorem computeChar_eq (crc16 : UInt16) (c : UInt8) :
    (hexinCrc16ComputeChar crc16 c initialised).toBitVec =
      (advance 0x1021#16)^[8] (crc16.toBitVec ^^^ (c.toBitVec ++ 0#8)) := by
  have masked : 0x00ff &&& c.toUInt16 = c.toUInt16 := by
    have mask : (0x00ff : UInt16).toNat = 2 ^ 8 - 1 := rfl
    apply UInt16.toNat_inj.mp
    rw [UInt16.toNat_and, mask, Nat.and_comm, Nat.and_two_pow_sub_one_eq_mod,
      UInt8.toNat_toUInt16]
    exact Nat.mod_eq_of_lt c.toNat_lt
  have entry := table_eq ((crc16 >>> 8).toUInt8 ^^^ c)
  unfold hexinCrc16ComputeChar
  simp only [masked, index_toNat]
  rw [UInt16.toBitVec_xor, entry, advance_byte]

theorem reverse_computeChar (crc16 : UInt16) (value : UInt8) :
    hexinReverse16 (hexinCrc16ComputeChar crc16 (hexinReverse8 value) initialised) =
      mavlinkStep (hexinReverse16 crc16) value := by
  have taps : (0x1021#16).reverse = 0x8408#16 := by decide
  have low : (value.toBitVec.reverse ++ 0#8).reverse = value.toUInt16.toBitVec := by
    have zero : (0#8).reverse = 0#8 := by decide
    rw [BitVec.reverse_append, BitVec.reverse_reverse_eq, zero]
    apply BitVec.eq_of_toNat_eq
    rw [BitVec.toNat_cast, BitVec.toNat_append]
    simp
  apply UInt16.toBitVec_inj.mp
  show hexinReverse _ 16 = (advanceLow _)^[8] (hexinReverse _ 16 ^^^ _)
  rw [hexinReverse_eq, hexinReverse_eq, computeChar_eq, reverse_iterate, taps, reverse_xor]
  show _ = (advanceLow _)^[8] (_ ^^^ value.toUInt16.toBitVec)
  rw [← low]
  show (advanceLow _)^[8] (_ ^^^ (hexinReverse value.toBitVec 8 ++ 0#8).reverse) = _
  rw [hexinReverse_eq]

/-- **The MAVLink check** of a buffer whose last byte is free. -/
theorem hexinCrc16Compute_eq {len : ℕ} {pSrc : Vector UInt8 len} {bytes : List UInt8} {last : UInt8}
    (whole : pSrc.toList = bytes ++ [last]) (messageId : UInt8) :
    (hexinCrc16Compute pSrc messageId 0xffff).1.toList = bytes ++ [crcExtra messageId] ∧
      (hexinCrc16Compute pSrc messageId 0xffff).2 = mavlinkCrc bytes (crcExtra messageId) := by
  have length : len - 1 = bytes.length := by
    have same := congrArg List.length whole
    rw [Vector.length_toList, List.length_append, List.length_singleton] at same
    omega
  have stored : (pSrc.setIfInBounds (len - 1) (crcExtra messageId)).toList =
      bytes ++ [crcExtra messageId] := by
    rw [Vector.toList_setIfInBounds, whole, length, List.set_append_right _ _ le_rfl,
      Nat.sub_self, List.set_cons_zero]
  have folded (bytes : List UInt8) (crc : UInt16) :
      hexinReverse16 (bytes.foldl (fun crc data =>
        hexinCrc16ComputeChar crc (hexinReverse8 data) initialised) crc) =
      bytes.foldl mavlinkStep (hexinReverse16 crc) :=
    (List.foldl_hom hexinReverse16 fun crc data => (reverse_computeChar crc data).symm).symm
  have ones : hexinReverse16 0xffff = 0xffff := by decide
  refine ⟨stored, ?_⟩
  unfold mavlinkCrc
  rw [← stored, ← ones, ← folded, ones]
  exact UInt16.xor_zero

/-- **The check of a buffer of any length.** `hexin_crc16_compute` with the initial value `0xffff`
computes the MAVLink check of the bytes before the last one, and of the extra byte. -/
theorem hexin_is_mavlink (messageId : UInt8) {len : ℕ} (pSrc : Vector UInt8 (len + 1)) :
    (hexinCrc16Compute pSrc messageId 0xffff).2 =
      mavlinkCrc (pSrc.toList.take len) (crcExtra messageId) := by
  obtain ⟨bytes, last, whole⟩ : ∃ bytes last, pSrc.toList = bytes ++ [last] := by
    have some : pSrc.toList ≠ [] := by
      apply List.ne_nil_of_length_pos
      rw [Vector.length_toList]
      exact Nat.succ_pos len
    exact ⟨_, _, (List.dropLast_append_getLast some).symm⟩
  have length : bytes.length = len := by
    have same := congrArg List.length whole
    rw [Vector.length_toList, List.length_append, List.length_singleton] at same
    exact (Nat.succ.inj same).symm
  rw [(hexinCrc16Compute_eq whole messageId).2, whole, ← length, List.take_left]

/-- **The MSP check.** -/
theorem crc8_eq {len : ℕ} (buf : Vector UInt8 len) : crc8 buf = dvbCrc buf.toList := by
  unfold crc8 dvbCrc
  congr 1
  funext crc a
  exact UInt8.toBitVec_inj.mp (dvbLoop_eq (crc ^^^ a) 8)

end Robocon.Flow
