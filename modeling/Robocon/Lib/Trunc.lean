/-
**The cast from a real-valued number to an integer: truncation towards zero.**

* `trunc_mono`, `trunc_neg`, `abs_trunc` — truncation is monotone and odd.
* `trunc_pos_iff`, `trunc_eq_zero_iff` — the sign of the truncated number, which is zero below one.
-/

import Mathlib

namespace Robocon.Lib

instance atLeastTwo_two : Nat.AtLeastTwo 2 := ⟨le_rfl⟩

instance atLeastTwo_sixty : Nat.AtLeastTwo 60 := ⟨by decide⟩

variable {K : Type*} [Field K] [LinearOrder K] [FloorRing K]

/-- `(int)x`. -/
def trunc (x : K) : ℤ := if 0 ≤ x then ⌊x⌋ else ⌈x⌉

theorem trunc_of_nonneg {x : K} (nonneg : 0 ≤ x) : trunc x = ⌊x⌋ := if_pos nonneg

theorem trunc_nonneg {x : K} (nonneg : 0 ≤ x) : 0 ≤ trunc x := by
  rw [trunc_of_nonneg nonneg]
  exact Int.floor_nonneg.mpr nonneg

section Ordered

variable [IsStrictOrderedRing K]

theorem trunc_of_nonpos {x : K} (nonpos : x ≤ 0) : trunc x = ⌈x⌉ := by
  rcases nonpos.lt_or_eq with negative | rfl
  · exact if_neg negative.not_ge
  · rw [trunc_of_nonneg le_rfl, Int.floor_zero, Int.ceil_zero]

theorem trunc_neg (x : K) : trunc (-x) = -trunc x := by
  rcases le_total 0 x with nonneg | nonpos
  · rw [trunc_of_nonneg nonneg, trunc_of_nonpos (neg_nonpos.mpr nonneg), Int.ceil_neg]
  · rw [trunc_of_nonpos nonpos, trunc_of_nonneg (neg_nonneg.mpr nonpos), Int.floor_neg]

theorem abs_trunc (x : K) : |trunc x| = trunc |x| := by
  rcases le_total 0 x with nonneg | nonpos
  · rw [abs_of_nonneg nonneg, abs_of_nonneg (trunc_nonneg nonneg)]
  · have below := trunc_nonneg (neg_nonneg.mpr nonpos)
    rw [trunc_neg] at below
    rw [abs_of_nonpos nonpos, trunc_neg]
    exact abs_of_nonpos (neg_nonneg.mp below)

theorem trunc_pos_iff {x : K} : 0 < trunc x ↔ 1 ≤ x := by
  rcases le_total 0 x with nonneg | nonpos
  · rw [trunc_of_nonneg nonneg, Int.floor_pos]
  · have below := trunc_nonneg (neg_nonneg.mpr nonpos)
    rw [trunc_neg] at below
    exact iff_of_false (by omega) (nonpos.trans_lt zero_lt_one).not_ge

theorem trunc_neg_iff {x : K} : trunc x < 0 ↔ x ≤ -1 := by
  rw [← neg_pos, ← trunc_neg, trunc_pos_iff, le_neg]

theorem trunc_eq_zero_iff {x : K} : trunc x = 0 ↔ |x| < 1 := by
  rw [abs_lt]
  have above : 0 < trunc x ↔ 1 ≤ x := trunc_pos_iff
  have below : trunc x < 0 ↔ x ≤ -1 := trunc_neg_iff
  rw [← not_le, ← not_le, ← above, ← below]
  omega

theorem trunc_intCast (n : ℤ) : trunc (n : K) = n := by
  rw [trunc, Int.floor_intCast, Int.ceil_intCast, ite_self]

theorem trunc_mono {x y : K} (less : x ≤ y) : trunc x ≤ trunc y := by
  rcases le_total 0 x with nonneg | nonpos
  · rw [trunc_of_nonneg nonneg, trunc_of_nonneg (nonneg.trans less)]
    exact Int.floor_le_floor less
  · rcases le_total 0 y with above | below
    · have start := trunc_nonneg (neg_nonneg.mpr nonpos)
      rw [trunc_neg] at start
      exact (neg_nonneg.mp start).trans (trunc_nonneg above)
    · rw [trunc_of_nonpos nonpos, trunc_of_nonpos below]
      exact Int.ceil_le_ceil less

end Ordered

theorem one_le_trunc [IsStrictOrderedRing K] {x : K} (large : 1 ≤ x) : 1 ≤ trunc x :=
  trunc_pos_iff.mpr large

end Robocon.Lib
