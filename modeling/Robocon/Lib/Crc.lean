/-
**Cyclic redundancy checks.**

* `not_dvd_of_burst` — over any field, a generator with a constant term divides no nonzero
  polynomial whose coefficients lie in a window as wide as its degree.
* `horner` — the value of a message at a point of a ring; `value_foldl`: a register whose step
  multiplies its value by a power of that point and adds a symbol computes it.
* `bits` — a bit vector as a polynomial over the two-element field; `advance` — the shift register
  with feedback `taps`, which multiplies by the root of `generatorOf taps` (`residue_advance`).
* `advance_append` — the rule of table-driven checks; `reverse_advance`: the register read from its
  other end, `advanceLow`.
* `advance_byte` — the rule for registers of two bytes.
-/

import Mathlib

namespace Robocon.Lib

open Polynomial

/-! ### Bursts -/

section Burst

variable {F : Type*} [Field F] {generator p : F[X]}

/-- A generator with a constant term is prime to every power of the variable. -/
theorem coprime_X_pow (unit : generator.coeff 0 ≠ 0) (low : ℕ) :
    IsCoprime generator (X ^ low) := by
  have other : ¬ (X : F[X]) ∣ generator := fun divides => unit (X_dvd_iff.mp divides)
  exact ((irreducible_X.coprime_iff_not_dvd.mpr other).symm).pow_right

/-- A generator with a constant term has an invertible root. -/
theorem isUnit_root (unit : generator.coeff 0 ≠ 0) : IsUnit (AdjoinRoot.root generator) := by
  obtain ⟨first, second, together⟩ := coprime_X_pow unit 1
  have image := congrArg (AdjoinRoot.mk generator) together
  rw [map_add, map_mul, map_mul, AdjoinRoot.mk_self, mul_zero, zero_add, pow_one,
    AdjoinRoot.mk_X, map_one, mul_comm] at image
  exact IsUnit.of_mul_eq_one _ image

/-- **Bursts are detected.** A generator with a constant term divides no nonzero polynomial whose
coefficients lie in a window as wide as its degree. -/
theorem not_dvd_of_burst (unit : generator.coeff 0 ≠ 0) (nonzero : p ≠ 0) (low : ℕ)
    (below : ∀ n < low, p.coeff n = 0)
    (above : ∀ n, low + generator.natDegree ≤ n → p.coeff n = 0) : ¬ generator ∣ p := by
  intro divides
  obtain ⟨burst, rfl⟩ := X_pow_dvd_iff.mpr below
  have shifted : generator ∣ burst := (coprime_X_pow unit low).dvd_of_dvd_mul_left divides
  have some : generator ≠ 0 := fun zero => unit (by rw [zero, coeff_zero])
  have short : burst.degree < generator.degree := by
    rw [degree_eq_natDegree some, degree_lt_iff_coeff_zero]
    intro n long
    have outside := above (n + low) (by omega)
    rwa [coeff_X_pow_mul] at outside
  exact nonzero (by rw [eq_zero_of_dvd_of_degree_lt shifted short, mul_zero])

end Burst

/-! ### Registers -/

section Register

variable {A R M : Type*} [CommRing A] (point : A) (width : ℕ) (symbol : M → A)

/-- The value at `point` of a message whose symbols are `width` places apart. -/
def horner : List M → A
  | [] => 0
  | value :: message => symbol value * point ^ (width * message.length) + horner message

theorem horner_append (first second : List M) :
    horner point width symbol (first ++ second) =
      horner point width symbol first * point ^ (width * second.length) +
        horner point width symbol second := by
  induction first with
  | nil => simp [horner]
  | cons value first ih =>
    rw [List.cons_append, horner, ih, horner, List.length_append]
    ring

theorem horner_zero {message : List M} (zeros : ∀ value ∈ message, symbol value = 0) :
    horner point width symbol message = 0 := by
  induction message with
  | nil => rfl
  | cons value message ih =>
    obtain ⟨zero, rest⟩ := List.forall_mem_cons.mp zeros
    rw [horner, zero, ih rest, zero_mul, add_zero]

theorem horner_zipWith {add : M → M → M}
    (additive : ∀ value error, symbol (add value error) = symbol value + symbol error)
    (message : List M) : ∀ error : List M, error.length = message.length →
      horner point width symbol (List.zipWith add message error) =
        horner point width symbol message + horner point width symbol error := by
  induction message with
  | nil =>
    intro error same
    obtain rfl := List.length_eq_zero_iff.mp same
    simp [horner]
  | cons value message ih =>
    intro error same
    cases error with
    | nil => simp at same
    | cons wrong error =>
      have rest : error.length = message.length := by simpa using same
      rw [List.zipWith_cons_cons, horner, horner, horner, ih error rest, additive,
        List.length_zipWith, rest, min_self]
      ring

theorem map_horner {B : Type*} [CommRing B] (f : A →+* B) (message : List M) :
    f (horner point width symbol message) = horner (f point) width (f ∘ symbol) message := by
  induction message with
  | nil => exact map_zero f
  | cons value message ih =>
    rw [horner, horner, map_add, map_mul, map_pow, ih]
    rfl

variable {point width symbol}

/-- **The register rule.** A register that multiplies its value by a power of the point and adds
the symbol, moved up by `degree` places, holds the value of the message moved up likewise. -/
theorem value_foldl {step : R → M → R} {value : R → A} {degree : ℕ}
    (reads : ∀ register input,
      value (step register input) = value register * point ^ width + symbol input * point ^ degree)
    (message : List M) (register : R) :
    value (message.foldl step register) = value register * point ^ (width * message.length) +
      horner point width symbol message * point ^ degree := by
  induction message generalizing register with
  | nil => simp [horner]
  | cons input message ih =>
    rw [List.foldl_cons, ih, reads, horner, List.length_cons]
    ring

end Register

/-! ### Bit vectors -/

section Bits

variable {w : ℕ}

/-- The polynomial over the two-element field whose coefficients are the bits. -/
noncomputable def bits (x : BitVec w) : (ZMod 2)[X] :=
  ofFn w fun place => if x.getLsbD place then 1 else 0

theorem coeff_bits (x : BitVec w) (place : ℕ) :
    (bits x).coeff place = if x.getLsbD place then 1 else 0 := by
  unfold bits
  by_cases inside : place < w
  · rw [ofFn_coeff_eq_val_of_lt _ inside]
  · rw [ofFn_coeff_eq_zero_of_ge _ (not_lt.mp inside),
      BitVec.getLsbD_of_ge x place (not_lt.mp inside)]
    rfl

theorem bits_injective : Function.Injective (bits : BitVec w → (ZMod 2)[X]) := by
  intro x y same
  apply BitVec.eq_of_getLsbD_eq
  intro place inside
  have coefficient := congrArg (fun p => p.coeff place) same
  simp only [coeff_bits] at coefficient
  revert coefficient
  cases x.getLsbD place <;> cases y.getLsbD place <;> decide

theorem bits_xor (x y : BitVec w) : bits (x ^^^ y) = bits x + bits y := by
  ext place
  rw [coeff_add, coeff_bits, coeff_bits, coeff_bits, BitVec.getLsbD_xor]
  cases x.getLsbD place <;> cases y.getLsbD place <;> decide

/-- The high part of a concatenation is moved up by the width of the low part. -/
theorem bits_append {v : ℕ} (high : BitVec v) (low : BitVec w) :
    bits (high ++ low) = bits high * X ^ w + bits low := by
  ext place
  rw [coeff_add, coeff_mul_X_pow', coeff_bits, coeff_bits, coeff_bits, BitVec.getLsbD_append]
  by_cases inside : place < w
  · rw [if_neg (not_le.mpr inside), if_pos inside, zero_add]
  · rw [if_pos (not_lt.mp inside), if_neg inside, BitVec.getLsbD_of_ge low place (not_lt.mp inside)]
    simp

/-- The bit that a shift drops is the term of the polynomial that leaves the vector. -/
theorem bits_shiftLeft (x : BitVec w) :
    bits (x <<< 1) = bits x * X + if x.msb then X ^ w else 0 := by
  ext place
  have top : (if x.msb then X ^ w else 0 : (ZMod 2)[X]).coeff place =
      if place = w ∧ x.msb then 1 else 0 := by
    cases x.msb <;> simp [coeff_X_pow]
  rw [coeff_add, top, coeff_bits, BitVec.getLsbD_shiftLeft]
  cases place with
  | zero =>
    rw [mul_coeff_zero, coeff_X_zero]
    by_cases empty : w = 0
    · subst empty
      simp [BitVec.msb, BitVec.getMsbD]
    · simp [Ne.symm empty]
  | succ place =>
    rw [coeff_mul_X, coeff_bits]
    rcases lt_trichotomy (place + 1) w with inside | edge | outside
    · simp [inside, inside.ne]
    · have msb : x.msb = x.getLsbD place := by
        rw [BitVec.msb_eq_getLsbD_last, show w - 1 = place by omega]
      rw [msb]
      cases x.getLsbD place
      · simp [edge]
      · simp only [edge, lt_irrefl, decide_false, Bool.false_and, and_self]
        decide
    · have gone : x.getLsbD place = false := BitVec.getLsbD_of_ge x place (by omega)
      simp [gone, outside.ne', outside.not_gt]

theorem degree_bits (x : BitVec w) : (bits x).degree < w := ofFn_degree_lt _

/-- The generator of the shift register with feedback `taps`. -/
noncomputable def generatorOf (taps : BitVec w) : (ZMod 2)[X] := X ^ w + bits taps

theorem monic_generatorOf (taps : BitVec w) : (generatorOf taps).Monic :=
  monic_X_pow_add (degree_bits taps)

theorem natDegree_generatorOf (taps : BitVec w) : (generatorOf taps).natDegree = w := by
  have short : (bits taps).degree < (X ^ w : (ZMod 2)[X]).degree := by
    rw [degree_X_pow]
    exact degree_bits taps
  apply natDegree_eq_of_degree_eq_some
  rw [generatorOf, degree_add_eq_left_of_degree_lt short, degree_X_pow]

theorem coeff_zero_generatorOf {taps : BitVec w} (positive : 0 < w) (low : taps.getLsbD 0 = true) :
    (generatorOf taps).coeff 0 ≠ 0 := by
  rw [generatorOf, coeff_add, coeff_X_pow, if_neg positive.ne, coeff_bits, low]
  decide

/-- One place of the shift register: the bit that leaves it feeds back `taps`. -/
def advance (taps x : BitVec w) : BitVec w := x <<< 1 ^^^ if x.msb then taps else 0

/-- The value of a bit vector at the root of the generator. -/
noncomputable def residue (taps x : BitVec w) : AdjoinRoot (generatorOf taps) :=
  AdjoinRoot.mk (generatorOf taps) (bits x)

/-- Nothing is lost in the residue: it has fewer places than the generator. -/
theorem residue_injective (taps : BitVec w) : Function.Injective (residue taps) := by
  intro x y same
  have divides : generatorOf taps ∣ bits x - bits y := AdjoinRoot.mk_eq_mk.mp same
  have short : (bits x - bits y).degree < (generatorOf taps).degree := by
    rw [degree_eq_natDegree (monic_generatorOf taps).ne_zero, natDegree_generatorOf]
    exact (degree_sub_le _ _).trans_lt (max_lt (degree_bits x) (degree_bits y))
  exact bits_injective (sub_eq_zero.mp (eq_zero_of_dvd_of_degree_lt divides short))

theorem residue_xor (taps x y : BitVec w) :
    residue taps (x ^^^ y) = residue taps x + residue taps y := by
  unfold residue
  rw [bits_xor, map_add]

/-- **The shift register.** One place multiplies the residue by the root of the generator. -/
theorem residue_advance (taps x : BitVec w) :
    residue taps (advance taps x) = residue taps x * AdjoinRoot.root (generatorOf taps) := by
  have fed : bits (if x.msb then taps else 0) + (if x.msb then X ^ w else 0) =
      if x.msb then generatorOf taps else 0 := by
    cases x.msb
    · have zero : bits (0#w) = 0 := by
        ext place
        simp [coeff_bits]
      simp [zero]
    · simp [generatorOf, add_comm]
  have shifted : bits (advance taps x) = bits x * X + if x.msb then generatorOf taps else 0 := by
    rw [advance, bits_xor, bits_shiftLeft, ← fed]
    ring
  unfold residue
  rw [shifted, map_add, map_mul, AdjoinRoot.mk_X]
  cases x.msb
  · simp
  · simp [AdjoinRoot.mk_self]

theorem residue_iterate (taps x : BitVec w) (count : ℕ) :
    residue taps ((advance taps)^[count] x) =
      residue taps x * AdjoinRoot.root (generatorOf taps) ^ count := by
  induction count with
  | zero => simp
  | succ count ih =>
    rw [Function.iterate_succ_apply', residue_advance, ih]
    ring

end Bits

/-! ### A symbol at a time -/

section Symbols

variable {w : ℕ}

/-- **The table rule.** A whole symbol of places: the symbol that leaves the register, alone in a
register, corrects the rest, which only moves up. -/
theorem advance_append (taps : BitVec (w + w)) (high low : BitVec w) :
    (advance taps)^[w] (high ++ low) =
      (low ++ 0#w) ^^^ (advance taps)^[w] (high ++ 0#w) := by
  have zero : bits 0#w = 0 := by
    ext place
    simp [coeff_bits]
  have moved : bits (low ++ 0#w) = bits low * X ^ w := by rw [bits_append, zero, add_zero]
  have split : bits (high ++ low) = bits (high ++ 0#w) + bits low := by
    rw [bits_append, bits_append, zero, add_zero]
  apply residue_injective taps
  rw [residue_xor, residue_iterate, residue_iterate]
  unfold residue
  rw [split, moved, map_add, map_mul, map_pow, AdjoinRoot.mk_X]
  ring

/-- One place of the register whose lowest bit is its first one. -/
def advanceLow (taps x : BitVec w) : BitVec w := x >>> 1 ^^^ if x.getLsbD 0 then taps else 0

theorem reverse_xor (x y : BitVec w) : (x ^^^ y).reverse = x.reverse ^^^ y.reverse := by
  apply BitVec.eq_of_getLsbD_eq
  intro place _
  rw [BitVec.getLsbD_reverse, BitVec.getLsbD_xor, BitVec.getLsbD_reverse, BitVec.getLsbD_reverse,
    BitVec.getMsbD_xor]

theorem reverse_shiftLeft (x : BitVec w) : (x <<< 1).reverse = x.reverse >>> 1 := by
  apply BitVec.eq_of_getLsbD_eq
  intro place inside
  rw [BitVec.getLsbD_reverse, BitVec.getMsbD_shiftLeft, BitVec.getLsbD_ushiftRight,
    BitVec.getLsbD_reverse, Nat.add_comm]

/-- Both registers are the same one, read from its two ends. -/
theorem reverse_advance (taps x : BitVec w) :
    (advance taps x).reverse = advanceLow taps.reverse x.reverse := by
  have zero : (0#w).reverse = 0#w := BitVec.reverse_eq_zero_iff.mpr rfl
  unfold advance advanceLow
  rw [reverse_xor, reverse_shiftLeft, BitVec.getLsbD_reverse]
  congr 1
  show BitVec.reverse (if x.getMsbD 0 then taps else 0) = if x.getMsbD 0 then taps.reverse else 0
  rw [apply_ite BitVec.reverse]
  congr 1

theorem reverse_iterate (taps x : BitVec w) (count : ℕ) :
    ((advance taps)^[count] x).reverse = (advanceLow taps.reverse)^[count] x.reverse :=
  (Function.Semiconj.iterate_right (f := BitVec.reverse) (reverse_advance taps) count) x

theorem and_top_iff {w : ℕ} (x : BitVec (w + 1)) :
    x &&& BitVec.twoPow (w + 1) w ≠ 0 ↔ x.msb = true := by
  have top : BitVec.twoPow (w + 1) w ≠ 0 := by
    intro zero
    have bit := congrArg (BitVec.getLsbD · w) zero
    simp at bit
  rw [BitVec.and_twoPow, BitVec.msb_eq_getLsbD_last, Nat.add_sub_cancel]
  cases x.getLsbD w
  · simp
  · simp

theorem advance_eq_ite {w : ℕ} (taps x : BitVec (w + 1)) :
    advance taps x =
      if x &&& BitVec.twoPow (w + 1) w ≠ 0 then x <<< 1 ^^^ taps else x <<< 1 := by
  rw [advance]
  by_cases top : x.msb = true
  · rw [if_pos ((and_top_iff x).mpr top), if_pos top]
  · rw [if_neg (mt (and_top_iff x).mp top), if_neg top]
    exact BitVec.xor_zero

end Symbols

/-! ### Words of two bytes -/

/-- The index of a table: the high byte of the register, corrected by the byte that is read. -/
theorem index_toNat (crc : UInt16) (value : UInt8) :
    (((crc >>> 8) ^^^ value.toUInt16) &&& 0xff).toNat = ((crc >>> 8).toUInt8 ^^^ value).toNat := by
  have mask : (0xff : UInt16).toNat = 2 ^ 8 - 1 := rfl
  rw [UInt16.toNat_and, mask, Nat.and_two_pow_sub_one_eq_mod, ← UInt16.toNat_toUInt8,
    UInt16.toUInt8_xor, UInt8.toUInt8_toUInt16]

/-- The register is its high byte over its low byte. -/
theorem register_split (crc16 : UInt16) :
    crc16.toBitVec = (crc16 >>> 8).toUInt8.toBitVec ++ crc16.toUInt8.toBitVec := by
  have eight : (UInt16.toBitVec 8 % 16).toNat = 8 := rfl
  apply BitVec.eq_of_getLsbD_eq
  intro place inside
  rw [BitVec.getLsbD_append, UInt16.toBitVec_toUInt8, UInt16.toBitVec_toUInt8,
    UInt16.toBitVec_shiftRight, BitVec.ushiftRight_eq', eight, BitVec.getLsbD_setWidth,
    BitVec.getLsbD_setWidth, BitVec.getLsbD_ushiftRight]
  by_cases low : place < 8
  · simp [low]
  · rw [if_neg low, decide_eq_true (by omega), Bool.true_and, show 8 + (place - 8) = place by omega]

theorem register_shift (crc16 : UInt16) :
    (crc16 <<< 8).toBitVec = crc16.toUInt8.toBitVec ++ 0#8 := by
  have eight : (UInt16.toBitVec 8 % 16).toNat = 8 := rfl
  apply BitVec.eq_of_getLsbD_eq
  intro place inside
  rw [BitVec.getLsbD_append, UInt16.toBitVec_toUInt8, UInt16.toBitVec_shiftLeft,
    BitVec.shiftLeft_eq', eight, BitVec.getLsbD_shiftLeft, BitVec.getLsbD_setWidth]
  by_cases low : place < 8
  · simp [low]
  · rw [if_neg low, decide_eq_true inside, decide_eq_false low, decide_eq_true (by omega)]
    rfl

/-- A byte that is added at the high end of the register. -/
theorem register_xor (crc16 : UInt16) (value : UInt8) :
    crc16.toBitVec ^^^ (value.toBitVec ++ 0#8) =
      ((crc16 >>> 8).toUInt8 ^^^ value).toBitVec ++ crc16.toUInt8.toBitVec := by
  rw [register_split crc16, BitVec.xor_append, BitVec.xor_zero]
  rfl

/-- **A byte at the high end** moves through the register as its table entry does. -/
theorem advance_byte (taps : BitVec 16) (crc16 : UInt16) (value : UInt8) :
    (advance taps)^[8] (crc16.toBitVec ^^^ (value.toBitVec ++ 0#8)) =
      (crc16 <<< 8).toBitVec ^^^
        (advance taps)^[8] (((crc16 >>> 8).toUInt8 ^^^ value).toBitVec ++ 0#8) := by
  rw [register_xor, register_shift, ← advance_append]

end Robocon.Lib
