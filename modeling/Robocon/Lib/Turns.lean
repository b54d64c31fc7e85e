/-
**Counting turns from wrapped angles.**

A position `p` on a circle of `N` counts shows only its angle `p % N`. Between two positions less
than half a turn apart, the number of turns passed is read off the two angles: `turns_eq`.
-/

import Mathlib

namespace Robocon.Lib

/-- The turn taken between two angles, if the positions are less than half a turn apart. -/
def turn (N a b : ℤ) : ℤ := if N < 2 * (b - a) then -1 else if 2 * (b - a) < -N then 1 else 0

/-- **The turns between two positions** less than half a turn apart. -/
theorem turns_eq {N p q : ℤ} (positive : 0 < N) (near : 2 * |q - p| < N) :
    q / N = p / N + turn N (p % N) (q % N) := by
  obtain ⟨below, above⟩ := abs_lt.mp (show |2 * (q - p)| < N by rwa [abs_mul, abs_two])
  have first := Int.mul_ediv_add_emod p N
  have second := Int.mul_ediv_add_emod q N
  have low := Int.emod_nonneg p positive.ne'
  have high := Int.emod_lt_of_pos p positive
  have low' := Int.emod_nonneg q positive.ne'
  have high' := Int.emod_lt_of_pos q positive
  -- the difference of the turns is squeezed by the difference of the positions
  have squeeze : N * (q / N - p / N) = (q - p) - (q % N - p % N) := by
    rw [mul_sub]
    linarith
  unfold turn
  split_ifs with forward backward
  · have : q / N - p / N = -1 := by
      have upper : N * (q / N - p / N) < N * 0 := by linarith
      have lower : N * (-2) < N * (q / N - p / N) := by linarith
      have := lt_of_mul_lt_mul_left upper positive.le
      have := lt_of_mul_lt_mul_left lower positive.le
      omega
    omega
  · have : q / N - p / N = 1 := by
      have lower : N * 0 < N * (q / N - p / N) := by linarith
      have upper : N * (q / N - p / N) < N * 2 := by linarith
      have := lt_of_mul_lt_mul_left upper positive.le
      have := lt_of_mul_lt_mul_left lower positive.le
      omega
    omega
  · have : q / N - p / N = 0 := by
      have lower : N * (-1) < N * (q / N - p / N) := by linarith
      have upper : N * (q / N - p / N) < N * 1 := by linarith
      have := lt_of_mul_lt_mul_left upper positive.le
      have := lt_of_mul_lt_mul_left lower positive.le
      omega
    omega

end Robocon.Lib
