/-
**Bursts in a payload are detected.**

An error pattern is a byte string, one byte for each byte of the payload. `Burst order error` says
that some of its bits are set and that all of these lie among sixteen consecutive ones. The bits
of a byte can be numbered in two orders, and the result holds for both.

* From the highest bit, as the CRC reads them: the pattern is a polynomial with its coefficients in
  a window as wide as the generator's degree (`not_dvd_of_burst`).
* From the lowest bit, as a serial line sends them: the pattern touches three bytes at most, and
  three bytes that leave the register at zero are a byte and its entry in the table (`core_bytes`);
  no entry fits into a window (`tableEntry_window`).
-/

import Robocon.FDILink.Crc16
import Robocon.FDILink.Pack

namespace Robocon.FDILink

open Lib Status Polynomial

/-- The two orders of the bits of a byte. -/
inductive BitOrder
  | highFirst
  | lowFirst
  deriving DecidableEq

/-- The place in its byte of the bit with a number below eight. -/
def BitOrder.place : BitOrder → ℕ → ℕ
  | .highFirst, index => 7 - index
  | .lowFirst, index => index

/-- A bit of a byte string; past its end there are none. -/
def bitAt (order : BitOrder) (bytes : List UInt8) (index : ℕ) : Bool :=
  (bytes.getD (index / 8) 0).toBitVec.getLsbD (order.place (index % 8))

/-- Some bit is set, and those that are lie among sixteen consecutive ones. -/
structure Burst (order : BitOrder) (error : List UInt8) : Prop where
  nonzero : ∃ index, bitAt order error index = true
  window : ∃ first, ∀ index, bitAt order error index = true → first ≤ index ∧ index < first + 16

theorem bitAt_lt {order : BitOrder} {bytes : List UInt8} {index : ℕ}
    (set : bitAt order bytes index = true) : index < 8 * bytes.length := by
  by_contra outside
  have past : bytes.getD (index / 8) 0 = 0 := List.getD_eq_default _ _ (by omega)
  rw [bitAt, past] at set
  simp at set

theorem bitAt_head (order : BitOrder) (value : UInt8) (bytes : List UInt8) {index : ℕ}
    (first : index < 8) :
    bitAt order (value :: bytes) index = value.toBitVec.getLsbD (order.place index) := by
  rw [bitAt, Nat.div_eq_of_lt first, Nat.mod_eq_of_lt first]
  rfl

theorem bitAt_tail (order : BitOrder) (value : UInt8) (bytes : List UInt8) (index : ℕ) :
    bitAt order (value :: bytes) (index + 8) = bitAt order bytes index := by
  rw [bitAt, Nat.add_div_right _ (by decide), Nat.add_mod_right]
  rfl

/-! ### From the highest bit -/

/-- The error pattern as a polynomial. -/
noncomputable def errorPoly (error : List UInt8) : (ZMod 2)[X] :=
  horner X 8 (fun value => bits value.toBitVec) error

theorem mk_errorPoly (error : List UInt8) :
    AdjoinRoot.mk (generatorOf crc16Taps) (errorPoly error) = messageValue error := by
  rw [errorPoly, map_horner, AdjoinRoot.mk_X]
  rfl

/-- The coefficients are the bits of the pattern, the last one first. -/
theorem coeff_errorPoly (error : List UInt8) (place : ℕ) :
    (errorPoly error).coeff place =
      if place < 8 * error.length ∧
        bitAt .highFirst error (8 * error.length - 1 - place) = true then 1 else 0 := by
  induction error with
  | nil => simp [errorPoly, horner]
  | cons value error ih =>
    have split : errorPoly (value :: error) =
        bits value.toBitVec * X ^ (8 * error.length) + errorPoly error := rfl
    rw [split, coeff_add, coeff_mul_X_pow', ih, List.length_cons, coeff_bits]
    by_cases tail : place < 8 * error.length
    · have index : 8 * (error.length + 1) - 1 - place = 8 * error.length - 1 - place + 8 := by omega
      rw [if_neg (not_le.mpr tail), zero_add, index, bitAt_tail]
      simp [tail, show place < 8 * (error.length + 1) by omega]
    · have absent : ¬ (place < 8 * error.length ∧
          bitAt .highFirst error (8 * error.length - 1 - place) = true) := fun both => tail both.1
      rw [if_pos (not_lt.mp tail), if_neg absent, add_zero]
      by_cases head : place < 8 * (error.length + 1)
      · have below : 8 * (error.length + 1) - 1 - place < 8 := by omega
        have same : BitOrder.highFirst.place (8 * (error.length + 1) - 1 - place) =
            place - 8 * error.length := by
          show 7 - _ = _
          omega
        rw [bitAt_head _ _ _ below, same]
        simp [head]
      · rw [BitVec.getLsbD_of_ge _ _ (by omega)]
        simp [head]

/-- **A burst in the order of the CRC** has a value. -/
theorem highFirst_detected {error : List UInt8} (burst : Burst .highFirst error) :
    messageValue error ≠ 0 := by
  obtain ⟨⟨index, set⟩, first, window⟩ := burst
  rw [← mk_errorPoly, Ne, AdjoinRoot.mk_eq_zero]
  refine not_dvd_of_burst coeff_zero_generator ?_ (8 * error.length - (first + 16)) ?_ ?_
  · intro zero
    have coefficient := coeff_errorPoly error (8 * error.length - 1 - index)
    have inside := bitAt_lt set
    have back : 8 * error.length - 1 - (8 * error.length - 1 - index) = index := by omega
    rw [zero, coeff_zero, back, if_pos ⟨by omega, set⟩] at coefficient
    exact absurd coefficient (by decide)
  · intro place low
    rw [coeff_errorPoly, if_neg]
    rintro ⟨inside, set⟩
    have late := (window _ set).2
    omega
  · intro place high
    rw [natDegree_generatorOf] at high
    rw [coeff_errorPoly, if_neg]
    rintro ⟨inside, set⟩
    have early := (window _ set).1
    omega

/-! ### From the lowest bit -/

/-- An entry of the table is known by its low byte to be the first. -/
theorem tableEntry_low {index : UInt8} (low : (tableEntry index).toUInt8 = 0) : index = 0 := by
  have all : ∀ place : Fin 256, (crc16Entries.get place).toUInt8 = 0 → place = 0 := by
    decide +kernel
  have first := all ⟨index.toNat, index.toNat_lt⟩ low
  exact UInt8.toNat_inj.mp (congrArg Fin.val first)

/-- No entry of the table, after its index, fits into a window. -/
theorem tableEntry_window {index : UInt8} {shift : ℕ} (small : shift < 8)
    (front : index.toNat % 2 ^ shift = 0) (back : (tableEntry index).toUInt8.toNat < 2 ^ shift) :
    index = 0 := by
  have all : ∀ shift : Fin 8, ∀ place : Fin 256, place.val % 2 ^ shift.val = 0 →
      (crc16Entries.get place).toUInt8.toNat < 2 ^ shift.val → place = 0 := by
    decide +kernel
  have first := all ⟨shift, small⟩ ⟨index.toNat, index.toNat_lt⟩ front back
  exact UInt8.toNat_inj.mp (congrArg Fin.val first)

theorem shift_bytes (crc16 : UInt16) :
    ((crc16 <<< 8) >>> 8).toUInt8 = crc16.toUInt8 ∧ (crc16 <<< 8).toUInt8 = 0 := by
  have both := (register_split (crc16 <<< 8)).symm.trans (register_shift crc16)
  have high := congrArg (BitVec.extractLsb' 8 8) both
  have low := congrArg (BitVec.extractLsb' 0 8) both
  rw [BitVec.extractLsb'_append_eq_left, BitVec.extractLsb'_append_eq_left] at high
  rw [BitVec.extractLsb'_append_eq_right, BitVec.extractLsb'_append_eq_right] at low
  exact ⟨UInt8.toBitVec_inj.mp high, UInt8.toBitVec_inj.mp low⟩

/-- A step that clears the low byte of the register reads its high byte. -/
theorem crc16Step_low {crc16 : UInt16} {value : UInt8}
    (clear : (crc16Step crc16 value).toUInt8 = 0) :
    value = (crc16 >>> 8).toUInt8 ∧ crc16Step crc16 value = crc16 <<< 8 := by
  have entry := clear
  rw [crc16Step_eq, UInt16.toUInt8_xor, (shift_bytes crc16).2, UInt8.xor_zero] at entry
  have index := tableEntry_low entry
  refine ⟨?_, ?_⟩
  · exact (UInt8.xor_eq_zero_iff.mp index).symm
  · rw [crc16Step_eq, index]
    exact UInt16.zero_xor

/-- Three bytes that leave the register at zero are a byte and its entry in the table. -/
theorem core_bytes {first second third : UInt8}
    (zero : [first, second, third].foldl crc16Step 0 = 0) :
    second = (tableEntry first >>> 8).toUInt8 ∧ third = (tableEntry first).toUInt8 := by
  have entry : crc16Step 0 first = tableEntry first := by
    rw [crc16Step_eq]
    simp
  have last : crc16Step (crc16Step (crc16Step 0 first) second) third = 0 := zero
  obtain ⟨third_eq, shifted⟩ := crc16Step_low (by rw [last]; rfl)
  have low : (crc16Step (crc16Step 0 first) second).toUInt8 = 0 := by
    have bytes := shift_bytes (crc16Step (crc16Step 0 first) second)
    rw [← shifted, last] at bytes
    exact bytes.1.symm
  obtain ⟨second_eq, shifted'⟩ := crc16Step_low low
  rw [shifted', (shift_bytes _).1] at third_eq
  rw [entry] at second_eq third_eq
  exact ⟨second_eq, third_eq⟩

theorem bitAt_lowFirst (bytes : List UInt8) {index place : ℕ} (small : place < 8) :
    bitAt .lowFirst bytes (8 * index + place) = (bytes.getD index 0).toBitVec.getLsbD place := by
  unfold bitAt
  rw [show (8 * index + place) / 8 = index by omega, show (8 * index + place) % 8 = place by omega]
  rfl

theorem byte_eq_zero {value : UInt8} (clear : ∀ place < 8, value.toBitVec.getLsbD place = false) :
    value = 0 := by
  apply UInt8.toBitVec_inj.mp
  apply BitVec.eq_of_getLsbD_eq
  intro place small
  rw [clear place small]
  exact (BitVec.getLsbD_zero).symm

/-- The value of a pattern that is zero outside three bytes is that of the three bytes. -/
theorem messageValue_core {bytes : List UInt8} {start : ℕ} (long : start + 3 ≤ bytes.length)
    (outside : ∀ index, index < start ∨ start + 3 ≤ index → bytes.getD index 0 = 0)
    (zero : messageValue bytes = 0) :
    messageValue [bytes.getD start 0, bytes.getD (start + 1) 0, bytes.getD (start + 2) 0] = 0 := by
  have none : byteValue 0 = 0 := by simpa using byteValue_xor 0 0
  have core : bytes = bytes.take start ++ ([bytes.getD start 0, bytes.getD (start + 1) 0,
      bytes.getD (start + 2) 0] ++ bytes.drop (start + 3)) := by
    rw [List.getD_eq_getElem _ _ (show start < bytes.length by omega),
      List.getD_eq_getElem _ _ (show start + 1 < bytes.length by omega),
      List.getD_eq_getElem _ _ (show start + 2 < bytes.length by omega)]
    conv_lhs => rw [← List.take_append_drop start bytes]
    rw [List.drop_eq_getElem_cons (show start < bytes.length by omega),
      List.drop_eq_getElem_cons (show start + 1 < bytes.length by omega),
      List.drop_eq_getElem_cons (show start + 2 < bytes.length by omega)]
    rfl
  have front : messageValue (bytes.take start) = 0 := by
    refine horner_zero _ _ _ fun value member => ?_
    obtain ⟨index, small, rfl⟩ := List.getElem_of_mem member
    have at_start : index < start := by simp at small; omega
    have value := outside index (Or.inl at_start)
    rw [List.getD_eq_getElem _ _ (by omega)] at value
    rw [List.getElem_take, value, none]
  have back : messageValue (bytes.drop (start + 3)) = 0 := by
    refine horner_zero _ _ _ fun value member => ?_
    obtain ⟨index, small, rfl⟩ := List.getElem_of_mem member
    have inside : start + 3 + index < bytes.length := by simp at small; omega
    have value := outside (start + 3 + index) (Or.inr (by omega))
    rw [List.getD_eq_getElem _ _ inside] at value
    rw [List.getElem_drop, value, none]
  have unit : IsUnit (root ^ (8 * (bytes.drop (start + 3)).length)) :=
    (isUnit_root coeff_zero_generator).pow _
  unfold messageValue at zero front back ⊢
  rw [core, horner_append, front, zero_mul, zero_add, horner_append, back, add_zero] at zero
  exact unit.mul_left_eq_zero.mp zero

/-- The three bytes may reach past the end of the pattern. -/
theorem messageValue_window {bytes : List UInt8} {start : ℕ} (inside : start ≤ bytes.length)
    (outside : ∀ index, index < start ∨ start + 3 ≤ index → bytes.getD index 0 = 0)
    (zero : messageValue bytes = 0) :
    messageValue [bytes.getD start 0, bytes.getD (start + 1) 0, bytes.getD (start + 2) 0] = 0 := by
  have none : byteValue 0 = 0 := by simpa using byteValue_xor 0 0
  have padded (index : ℕ) : (bytes ++ [0, 0, 0]).getD index 0 = bytes.getD index 0 := by
    by_cases within : index < bytes.length
    · exact List.getD_append _ _ _ _ within
    · rw [List.getD_append_right _ _ _ _ (not_lt.mp within),
        List.getD_eq_default bytes _ (not_lt.mp within)]
      rcases index - bytes.length with _ | _ | _ | _ <;> rfl
  have extended : messageValue (bytes ++ [0, 0, 0]) = 0 := by
    unfold messageValue at zero ⊢
    rw [horner_append, zero, zero_mul, zero_add]
    simp [horner, none]
  have long : start + 3 ≤ (bytes ++ [0, 0, 0]).length := by
    rw [List.length_append]
    exact Nat.add_le_add_right inside 3
  have found := messageValue_core long
    (fun index away => (padded index).trans (outside index away)) extended
  rwa [padded, padded, padded] at found

/-- A byte whose low bits are clear is a multiple. -/
theorem mod_eq_zero {value : UInt8} {shift : ℕ}
    (clear : ∀ place < shift, value.toBitVec.getLsbD place = false) :
    value.toNat % 2 ^ shift = 0 := by
  apply Nat.eq_of_testBit_eq
  intro place
  rw [Nat.testBit_mod_two_pow, Nat.zero_testBit]
  by_cases low : place < shift
  · rw [show value.toNat.testBit place = false from clear place low, Bool.and_false]
  · rw [decide_eq_false low, Bool.false_and]

/-- **A burst in the order of the serial line** has a value. -/
theorem lowFirst_detected {error : List UInt8} (burst : Burst .lowFirst error) :
    messageValue error ≠ 0 := by
  intro zero
  obtain ⟨⟨index, set⟩, first, window⟩ := burst
  have clear (byte place : ℕ) (small : place < 8)
      (out : 8 * byte + place < first ∨ first + 16 ≤ 8 * byte + place) :
      (error.getD byte 0).toBitVec.getLsbD place = false := by
    rw [← bitAt_lowFirst error small]
    by_contra lit
    have inside := window _ (Bool.not_eq_false _ ▸ lit)
    omega
  have outside (byte : ℕ) (away : byte < first / 8 ∨ first / 8 + 3 ≤ byte) :
      error.getD byte 0 = 0 :=
    byte_eq_zero fun place small => clear byte place small (by omega)
  have start : first / 8 ≤ error.length := by
    have low := (window index set).1
    have inside := bitAt_lt set
    omega
  have core := messageValue_window start outside zero
  obtain ⟨second, third⟩ := core_bytes ((crc16_eq_zero_iff _).mpr core)
  have front : (error.getD (first / 8) 0).toNat % 2 ^ (first % 8) = 0 :=
    mod_eq_zero fun place low => clear _ place (by omega) (by omega)
  have back : (tableEntry (error.getD (first / 8) 0)).toUInt8.toNat < 2 ^ (first % 8) := by
    rw [← third]
    apply Nat.lt_pow_two_of_testBit
    intro place high
    by_cases small : place < 8
    · exact clear _ place small (by omega)
    · exact BitVec.getLsbD_of_ge _ _ (not_lt.mp small)
  have none := tableEntry_window (Nat.mod_lt _ (by decide)) front back
  have entry : tableEntry 0 = 0 := rfl
  rw [none, entry] at second third
  have empty (byte : ℕ) : error.getD byte 0 = 0 := by
    by_cases away : byte < first / 8 ∨ first / 8 + 3 ≤ byte
    · exact outside byte away
    · obtain rfl | rfl | rfl : byte = first / 8 ∨ byte = first / 8 + 1 ∨ byte = first / 8 + 2 := by
        omega
      · exact none
      · exact second
      · exact third
  unfold bitAt at set
  rw [empty] at set
  simp at set

/-! ### The receiver on a corrupted frame -/

/-- **Bursts are detected.** A burst changes the CRC16 of any payload. -/
theorem crc16_burst {order : BitOrder} {payload error : List UInt8}
    (same : error.length = payload.length) (burst : Burst order error) :
    (corrupt payload error).foldl crc16Step 0 ≠ payload.foldl crc16Step 0 := by
  intro equal
  have zero := (crc16_eq_iff same).mp equal
  cases order with
  | highFirst => exact highFirst_detected burst zero
  | lowFirst => exact lowFirst_detected burst zero

/-- A frame with bits of its payload flipped. -/
def burstFrame (type sn : UInt8) (payload error : List UInt8) : List UInt8 :=
  corrupt (frameBytes type sn payload) (List.replicate 7 0 ++ error ++ [0])

/-- The pattern leaves the header, the checksums and the end alone. -/
theorem burstFrame_eq (type sn : UInt8) {payload error : List UInt8}
    (same : error.length = payload.length) :
    let len := UInt8.ofNat payload.length
    let crc16 := crc16Table payload len
    burstFrame type sn payload error = frameHeader type len sn ++
      [crc8Table (frameHeader type len sn) 4, (crc16 >>> 8).toUInt8, crc16.toUInt8] ++
        (corrupt payload error ++ [edxFlag]) := by
  intro len crc16
  have whole : List.zipWith (· ^^^ ·) (payload ++ [edxFlag]) (error ++ [0]) =
      corrupt payload error ++ [edxFlag] := by
    rw [List.zipWith_append same.symm]
    rfl
  unfold burstFrame corrupt frameBytes frameHeader
  simp only [List.replicate, List.cons_append, List.nil_append, List.zipWith_cons_cons, whole,
    UInt8.xor_zero]
  rfl

/-- **A burst in the payload is rejected.** Fed to an idle receiver, the corrupted frame returns `0`
at every byte and `-1` at the last. -/
theorem burst_rejected (order : BitOrder) (type sn : UInt8) {payload error : List UInt8}
    (short : payload.length ≤ 255) (same : error.length = payload.length)
    (burst : Burst order error) {s : Status} (idle : s.rxStatus = frameStart) :
    crc16Table (corrupt payload error) (UInt8.ofNat payload.length) ≠
        crc16Table payload (UInt8.ofNat payload.length) ∧
      ∃ s', receiver.Run s (burstFrame type sn payload error)
        (List.replicate (7 + payload.length) 0 ++ [-1]) s' ∧ s'.rxStatus = frameStart := by
  have length : (corrupt payload error).length = payload.length := by
    simp [corrupt, same]
  have differs : crc16Table (corrupt payload error) (UInt8.ofNat payload.length) ≠
      crc16Table payload (UInt8.ofNat payload.length) := by
    have wrong := crc16_burst same burst
    rwa [← crc16Table_all short, ← crc16Table_all (length ▸ short), length] at wrong
  refine ⟨differs, ?_⟩
  have counted : (UInt8.ofNat payload.length).toNat = payload.length := by
    rw [UInt8.toNat_ofNat', Nat.mod_eq_of_lt (Nat.lt_succ_of_le short)]
  have some : UInt8.ofNat payload.length ≠ 0 := by
    intro zero
    obtain ⟨index, set⟩ := burst.nonzero
    have inside := bitAt_lt set
    rw [zero, UInt8.toNat_zero] at counted
    omega
  obtain ⟨s₁, head, body₁, index₁, bytes₁⟩ := header_run idle type sn
    (crc16Table payload (UInt8.ofNat payload.length) >>> 8).toUInt8
    (crc16Table payload (UInt8.ofNat payload.length)).toUInt8 some
  have left₁ : s₁.rxDataLeft = (corrupt payload error).length := by
    have len₁ : s₁.frameBuffer[2] = UInt8.ofNat payload.length := (header_cells bytes₁).2.1
    have total := body₁.length
    rw [index₁, len₁, counted] at total
    rw [length]
    simpa using total
  obtain ⟨s₂, data, body₂, done, bytes₂, index₂, payload₂⟩ :=
    payload_run (corrupt payload error) body₁ left₁
  rw [index₁, Nat.zero_add, length] at index₂
  rw [index₁, filled_zero, List.nil_append, index₂] at payload₂
  have cells₂ := header_cells (bytes₂.trans bytes₁)
  have hi₂ : s₂.frameBuffer[5] = _ := cells₂.2.2.2.1
  have lo₂ : s₂.frameBuffer[6] = _ := cells₂.2.2.2.2
  have verify : s₂.sum16 ≠ s₂.crc16Verify := by
    rw [body₂.crc16, hi₂, lo₂, crc16_bytes, sum16, index₂, payload₂]
    exact fun equal => differs (UInt16.toNat_inj.mp (Nat.cast_inj.mp equal))
  obtain ⟨s₃, code, step, idle₃, -, -, -, ⟨-, -, right⟩ | ⟨rfl, -⟩⟩ := body₂.end_cases edxFlag done
  · exact absurd right verify
  · refine ⟨s₃, ?_, idle₃⟩
    have codes : List.replicate (7 + payload.length) (0 : ℤ) ++ [-1] =
        List.replicate 7 0 ++ (List.replicate (corrupt payload error).length 0 ++ [-1]) := by
      rw [length, List.replicate_add, List.append_assoc]
    rw [burstFrame_eq type sn same, codes]
    exact head.append (data.append (.single trivial (receiver_step step)))

theorem burst_rejected_byte :
    ∃ s', receiver.Run Status.initial (burstFrame 0x41 0 [7] [1])
      (List.replicate 8 0 ++ [-1]) s' := by
  have short : ([7] : List UInt8).length ≤ 255 := by decide
  have same : ([1] : List UInt8).length = ([7] : List UInt8).length := rfl
  have burst : Burst .highFirst [1] :=
    ⟨⟨7, rfl⟩, 0, fun index set => ⟨index.zero_le, (bitAt_lt set).trans (by decide)⟩⟩
  have idle : Status.initial.rxStatus = frameStart := rfl
  obtain ⟨-, s', run, -⟩ := burst_rejected .highFirst 0x41 0 short same burst idle
  exact ⟨s', run⟩

end Robocon.FDILink
