/-
**The distance of cyclic redundancy checks.**

Over the two-element field the weight of a polynomial is the number of its terms. A generator
divides no polynomial of a small weight:

* `not_dvd_of_odd` — none of an odd weight, if it has the root `1`.
* `not_dvd_of_pair` — none of two terms, if these are closer than its period.
* `staysAway` — the period of a generator, by stepping the shift register; `not_dvd_of_staysAway`.
-/

import Robocon.Lib.Crc

namespace Robocon.Lib

open Polynomial

/-! ### Weights -/

section Weight

variable {generator p : (ZMod 2)[X]}

theorem coeff_eq_one {n : ℕ} (term : n ∈ p.support) : p.coeff n = 1 := by
  have nonzero := mem_support_iff.mp term
  revert nonzero
  generalize p.coeff n = c
  revert c
  decide

/-- At `1` a polynomial has the parity of its weight. -/
theorem eval_one (p : (ZMod 2)[X]) : p.eval 1 = (p.support.card : ZMod 2) := by
  rw [eval_eq_sum, Polynomial.sum, Finset.cast_card]
  refine Finset.sum_congr rfl fun n term => ?_
  rw [one_pow, mul_one, coeff_eq_one term]

/-- **An odd weight** is detected by a generator with the root `1`. -/
theorem not_dvd_of_odd (root : generator.eval 1 = 0) (odd : Odd p.support.card) :
    ¬ generator ∣ p := by
  rintro ⟨factor, rfl⟩
  have parity := eval_one (generator * factor)
  rw [eval_mul, root, zero_mul, odd.natCast_zmod_two] at parity
  exact zero_ne_one parity

theorem eq_sum_X_pow (p : (ZMod 2)[X]) : p = ∑ n ∈ p.support, X ^ n := by
  conv_lhs => rw [p.as_sum_support_C_mul_X_pow]
  refine Finset.sum_congr rfl fun n term => ?_
  rw [coeff_eq_one term, map_one, one_mul]

/-- **Two terms** are detected by a generator with a constant term, if they are closer than its
period. -/
theorem not_dvd_of_pair (unit : generator.coeff 0 ≠ 0) {period : ℕ}
    (far : ∀ gap, 0 < gap → gap < period → ¬ generator ∣ X ^ gap + 1)
    (short : ∀ n, period ≤ n → p.coeff n = 0) (two : p.support.card = 2) : ¬ generator ∣ p := by
  intro divides
  have terms {low high : ℕ} (less : low < high) (pair : p.support = {low, high}) : False := by
    have inside : high < period := by
      by_contra outside
      have member : high ∈ p.support := by simp [pair]
      exact mem_support_iff.mp member (short high (not_lt.mp outside))
    have factored : p = X ^ low * (X ^ (high - low) + 1) := by
      rw [mul_add, mul_one, ← pow_add, Nat.add_sub_cancel' less.le, eq_sum_X_pow p, pair,
        Finset.sum_pair less.ne, add_comm]
    rw [factored] at divides
    exact far (high - low) (Nat.sub_pos_of_lt less) (by omega)
      ((coprime_X_pow unit low).dvd_of_dvd_mul_left divides)
  obtain ⟨first, second, different, pair⟩ := Finset.card_eq_two.mp two
  rcases lt_or_gt_of_ne different with less | more
  · exact terms less pair
  · exact terms more (pair.trans (Finset.pair_comm first second))

end Weight

/-! ### Periods -/

section Period

variable {w : ℕ}

/-- The register does not come to `target` in so many places. -/
def staysAway (taps target : BitVec w) : ℕ → BitVec w → Bool
  | 0, _ => true
  | count + 1, x => advance taps x != target && staysAway taps target count (advance taps x)

theorem iterate_ne_of_staysAway {taps target : BitVec w} (count : ℕ) :
    ∀ {x : BitVec w}, staysAway taps target count x = true → ∀ gap < count,
      (advance taps)^[gap + 1] x ≠ target := by
  induction count with
  | zero => exact fun _ gap less => absurd less (Nat.not_lt_zero gap)
  | succ count ih =>
    intro x away gap less
    obtain ⟨first, later⟩ := Bool.and_eq_true_iff.mp away
    cases gap with
    | zero => exact bne_iff_ne.mp first
    | succ gap =>
      rw [Function.iterate_succ_apply]
      exact ih later gap (Nat.lt_of_succ_lt_succ less)

/-- **The period of a generator**: as long as the register does not come back to `1`, it divides no
`xⁿ + 1`. -/
theorem not_dvd_of_staysAway {taps : BitVec w} {count : ℕ}
    (away : staysAway taps 1#w count 1#w = true) (gap : ℕ) (some : 0 < gap)
    (less : gap < count + 1) : ¬ generatorOf taps ∣ X ^ gap + 1 := by
  intro divides
  have zero := AdjoinRoot.mk_eq_zero.mpr divides
  rw [map_add, map_pow, AdjoinRoot.mk_X, map_one] at zero
  have double : (1 : AdjoinRoot (generatorOf taps)) + 1 = 0 := by
    rw [← map_one (AdjoinRoot.mk (generatorOf taps)), ← map_add, CharTwo.add_self_eq_zero, map_zero]
  have power : AdjoinRoot.root (generatorOf taps) ^ gap = 1 :=
    (eq_neg_of_add_eq_zero_left zero).trans (eq_neg_of_add_eq_zero_left double).symm
  have back : residue taps ((advance taps)^[gap] 1#w) = residue taps 1#w := by
    rw [residue_iterate, power, mul_one]
  obtain ⟨gap, rfl⟩ := Nat.exists_eq_succ_of_ne_zero some.ne'
  exact iterate_ne_of_staysAway count away gap (by omega) (residue_injective taps back)

end Period

end Robocon.Lib
