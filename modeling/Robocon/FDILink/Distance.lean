/-
**The distance of the CRC16.**

A codeword is a payload with its two CRC16 bytes behind it; the wire carries the CRC16 first. An
error pattern flips bits of both.

* `flips` — the number of bits that a pattern flips; it is the weight of the pattern's polynomial.
* `Noise` — an odd number of flipped bits, or two, or a burst.
* `noise_detected` — such a pattern never takes a codeword of a frame to a codeword: the period of
  the generator is larger than any frame.
* `crc16_verify_iff` — what is received passes the test exactly if the pattern has no value.
-/

import Robocon.Lib.Distance
import Robocon.FDILink.Burst

namespace Robocon.FDILink

open Lib Status Polynomial

/-! ### Noise -/

/-- The number of bits that are set. -/
def flips (error : List UInt8) : ℕ :=
  ((Finset.range (8 * error.length)).filter fun index => bitAt .highFirst error index = true).card

/-- An odd number of bits is flipped, or two bits, or some among sixteen consecutive ones. -/
def Noise (error : List UInt8) : Prop :=
  Odd (flips error) ∨ flips error = 2 ∨ ∃ order, Burst order error

/-- The terms of the polynomial are the bits that are set. -/
theorem card_support_errorPoly (error : List UInt8) :
    (errorPoly error).support.card = flips error := by
  refine Finset.card_nbij' (fun place => 8 * error.length - 1 - place)
    (fun index => 8 * error.length - 1 - index) ?_ ?_ ?_ ?_
  · intro place term
    have nonzero := mem_support_iff.mp term
    rw [coeff_errorPoly, ite_ne_right_iff] at nonzero
    obtain ⟨⟨inside, set⟩, -⟩ := nonzero
    rw [Finset.mem_coe, Finset.mem_filter, Finset.mem_range]
    refine ⟨?_, set⟩
    show 8 * error.length - 1 - place < 8 * error.length
    omega
  · intro index set
    rw [Finset.mem_coe, Finset.mem_filter, Finset.mem_range] at set
    obtain ⟨inside, set⟩ := set
    rw [Finset.mem_coe, mem_support_iff, coeff_errorPoly, if_pos]
    · exact one_ne_zero
    · refine ⟨?_, ?_⟩
      · show 8 * error.length - 1 - index < 8 * error.length
        omega
      · rwa [show 8 * error.length - 1 - (8 * error.length - 1 - index) = index by omega]
  · intro place term
    have nonzero := mem_support_iff.mp term
    rw [coeff_errorPoly, ite_ne_right_iff] at nonzero
    have inside := nonzero.1.1
    show 8 * error.length - 1 - (8 * error.length - 1 - place) = place
    omega
  · intro index set
    rw [Finset.mem_coe, Finset.mem_filter, Finset.mem_range] at set
    have inside := set.1
    show 8 * error.length - 1 - (8 * error.length - 1 - index) = index
    omega

/-- The generator `x¹⁶ + x¹² + x⁵ + 1` has an even number of terms. -/
theorem eval_one_generator : (generatorOf crc16Taps).eval 1 = 0 := by
  have terms : bits crc16Taps = X ^ 12 + X ^ 5 + 1 := by
    ext place
    rw [coeff_bits, coeff_add, coeff_add, coeff_X_pow, coeff_X_pow, coeff_one]
    by_cases inside : place < 16
    · interval_cases place <;> decide
    · rw [BitVec.getLsbD_of_ge _ _ (not_lt.mp inside), if_neg (by decide), if_neg (by omega),
        if_neg (by omega), if_neg (by omega)]
      decide
  rw [generatorOf, terms]
  simp
  decide

/-- The register does not come back to `1` in as many places as a codeword has bits. -/
theorem staysAway_codeword : staysAway crc16Taps 1#16 2055 1#16 = true := by
  decide +kernel

/-- **Noise is detected** in every codeword of a frame. -/
theorem noise_detected {error : List UInt8} (short : error.length ≤ 257) (noise : Noise error) :
    messageValue error ≠ 0 := by
  rcases noise with odd | two | ⟨order, burst⟩
  · rw [← mk_errorPoly, Ne, AdjoinRoot.mk_eq_zero]
    exact not_dvd_of_odd eval_one_generator (by rwa [card_support_errorPoly])
  · rw [← mk_errorPoly, Ne, AdjoinRoot.mk_eq_zero]
    refine not_dvd_of_pair coeff_zero_generator (not_dvd_of_staysAway staysAway_codeword) ?_
      (by rwa [card_support_errorPoly])
    intro place outside
    rw [coeff_errorPoly, if_neg fun both => by omega]
  · cases order with
    | highFirst => exact highFirst_detected burst
    | lowFirst => exact lowFirst_detected burst

/-! ### The test of the receiver -/

theorem messageValue_word (hi lo : UInt8) :
    messageValue [hi, lo] = byteValue hi * root ^ 8 + byteValue lo := by
  simp [messageValue, horner]

/-- The word that is received in the place of `word`. -/
theorem crc16Value_bytes (word : UInt16) :
    crc16Value word = messageValue [(word >>> 8).toUInt8, word.toUInt8] := by
  rw [messageValue_word, crc16Value_split]

/-- **The test** passes exactly if the pattern on payload and CRC16 has no value. -/
theorem crc16_verify_iff {payload error : List UInt8} (same : error.length = payload.length)
    (hi lo : UInt8) (word : UInt16)
    (received : (word >>> 8).toUInt8 = (payload.foldl crc16Step 0 >>> 8).toUInt8 ^^^ hi ∧
      word.toUInt8 = (payload.foldl crc16Step 0).toUInt8 ^^^ lo) :
    (corrupt payload error).foldl crc16Step 0 = word ↔ messageValue (error ++ [hi, lo]) = 0 := by
  have whole : messageValue (error ++ [hi, lo]) =
      messageValue error * root ^ 16 + (byteValue hi * root ^ 8 + byteValue lo) := by
    rw [← messageValue_word]
    exact horner_append root 8 byteValue error [hi, lo]
  have split : messageValue (corrupt payload error) = messageValue payload + messageValue error :=
    horner_zipWith root 8 byteValue byteValue_xor payload error same
  have computed : crc16Value ((corrupt payload error).foldl crc16Step 0) =
      crc16Value (payload.foldl crc16Step 0) + messageValue error * root ^ 16 := by
    rw [crc16Value_foldl, crc16Value_foldl, split]
    ring
  have carried : crc16Value word =
      crc16Value (payload.foldl crc16Step 0) + (byteValue hi * root ^ 8 + byteValue lo) := by
    rw [crc16Value_bytes word, received.1, received.2, messageValue_word, byteValue_xor,
      byteValue_xor, crc16Value_split (payload.foldl crc16Step 0)]
    ring
  have double (value : Residue) : value + value = 0 := by
    have two : (1 : Residue) + 1 = 0 := by
      rw [← map_one (AdjoinRoot.mk (generatorOf crc16Taps)), ← map_add, CharTwo.add_self_eq_zero,
        map_zero]
    calc value + value = value * (1 + 1) := by ring
      _ = 0 := by rw [two, mul_zero]
  rw [← crc16Value_injective.eq_iff, computed, carried, add_right_inj, whole]
  refine ⟨fun equal => ?_, fun zero => ?_⟩
  · rw [equal, double]
  · exact (eq_neg_of_add_eq_zero_left zero).trans (eq_neg_of_add_eq_zero_left (double _)).symm

end Robocon.FDILink
