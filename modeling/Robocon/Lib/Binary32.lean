/-
**Rounding to a binary floating-point format.**

`roundFloat precision least` rounds to the nearest number with `precision` significant bits and no
bit below `2 ^ least`, ties to the even one; it knows no largest number. `binary32` is the rounding
of the single precision.

* `roundFloat_natCast` — the integers up to `2 ^ precision` are exact.
* `roundFloat_succ` — the next one is a tie, and is rounded down.
* `Single` — the numbers of the single precision with their arithmetic: the result of an operation
  is rounded, and is not finite from `2 ^ 128` on.
* `Single.Totals` — cells that are finite, and what they sum to without rounding.
-/

import Robocon.Lib.Ring
import Robocon.Lib.Trunc

namespace Robocon.Lib

variable {K : Type*} [Field K] [LinearOrder K] [FloorRing K]

/-- The nearest integer, the even one of two. -/
def roundEven (x : K) : ℤ :=
  if Int.fract x < 1 / 2 then ⌊x⌋
  else if 1 / 2 < Int.fract x then ⌊x⌋ + 1
  else if Even ⌊x⌋ then ⌊x⌋ else ⌊x⌋ + 1

variable [IsStrictOrderedRing K]

theorem roundEven_intCast (n : ℤ) : roundEven (n : K) = n := by
  have half : (0 : K) < 1 / 2 := by positivity
  rw [roundEven, Int.fract_intCast, if_pos half, Int.floor_intCast]

theorem roundEven_tie {n : ℤ} (even : Even n) : roundEven ((n : K) + 1 / 2) = n := by
  have fract : Int.fract ((n : K) + 1 / 2) = 1 / 2 := by
    rw [Int.fract_intCast_add, Int.fract_eq_self]
    constructor <;> norm_num
  have floor : ⌊(n : K) + 1 / 2⌋ = n := by
    rw [Int.floor_eq_iff]
    constructor <;> linarith
  rw [roundEven, fract, if_neg (lt_irrefl _), if_neg (lt_irrefl _), floor, if_pos even]

section Format

variable (precision : ℕ) (least : ℤ)

/-- The distance of the numbers of the format around `x`. -/
def ulp (x : K) : K := 2 ^ max (Int.log 2 |x| + 1 - precision) least

/-- The nearest number of the format. -/
def roundFloat (x : K) : K := roundEven (x / ulp precision least x) * ulp precision least x

/-- The single precision. -/
def binary32 (x : K) : K := roundFloat 24 (-149) x

variable {precision} {least}

theorem roundFloat_of_multiple {x : K} {k : ℤ} (multiple : x = k * ulp precision least x) :
    roundFloat precision least x = x := by
  have positive : ulp precision least x ≠ 0 := (zpow_pos two_pos _).ne'
  have quotient : x / ulp precision least x = k := by
    rw [div_eq_iff positive]
    exact multiple
  rw [roundFloat, quotient, roundEven_intCast]
  exact multiple.symm

theorem ulp_natCast (n : ℕ) :
    ulp precision least (n : K) = 2 ^ max ((Nat.log 2 n : ℤ) + 1 - precision) least := by
  rw [ulp, abs_of_nonneg (Nat.cast_nonneg n), Int.log_natCast]

/-- **The small integers are exact.** -/
theorem roundFloat_natCast (fine : least ≤ 0) (bits : 0 < precision) {n : ℕ}
    (small : n ≤ 2 ^ precision) : roundFloat precision least (n : K) = n := by
  obtain ⟨half, rfl⟩ : ∃ half, precision = half + 1 := ⟨precision - 1, by omega⟩
  by_cases power : n = 2 ^ (half + 1)
  · have two : ulp (half + 1) least (n : K) = 2 := by
      rw [ulp_natCast, power, Nat.log_pow Nat.one_lt_two, add_sub_cancel_left,
        max_eq_left (fine.trans zero_le_one), zpow_one]
    refine roundFloat_of_multiple (k := 2 ^ half) ?_
    rw [two, power, pow_succ]
    push_cast
    rfl
  · have log : Nat.log 2 n < half + 1 :=
      Nat.log_lt_of_lt_pow' (Nat.succ_ne_zero half) (lt_of_le_of_ne small power)
    obtain ⟨below, exponent⟩ : ∃ below : ℕ,
        max ((Nat.log 2 n : ℤ) + 1 - (half + 1 : ℕ)) least = -below :=
      ⟨(-max ((Nat.log 2 n : ℤ) + 1 - (half + 1 : ℕ)) least).toNat, by omega⟩
    have positive : (2 : K) ^ below ≠ 0 := (pow_pos two_pos _).ne'
    refine roundFloat_of_multiple (k := n * 2 ^ below) ?_
    rw [ulp_natCast, exponent, zpow_neg, zpow_natCast]
    push_cast
    rw [mul_assoc, mul_inv_cancel₀ positive, mul_one]

/-- **The first integer that is not in the format** lies halfway between two that are. -/
theorem roundFloat_succ (fine : least ≤ 0) (bits : 1 < precision) :
    roundFloat precision least ((2 ^ precision + 1 : ℕ) : K) = (2 ^ precision : ℕ) := by
  obtain ⟨half, rfl⟩ : ∃ half, precision = half + 2 := ⟨precision - 2, by omega⟩
  have log : Nat.log 2 (2 ^ (half + 2) + 1) = half + 2 := by
    refine (Nat.log_eq_iff (Or.inr ⟨Nat.one_lt_two, Nat.succ_ne_zero _⟩)).mpr ⟨Nat.le_succ _, ?_⟩
    have grows : 1 < 2 ^ (half + 2) := Nat.one_lt_two_pow (Nat.succ_ne_zero _)
    rw [pow_succ 2 (half + 2)]
    omega
  have two : ulp (half + 2) least ((2 ^ (half + 2) + 1 : ℕ) : K) = 2 := by
    rw [ulp_natCast, log, add_sub_cancel_left, max_eq_left (fine.trans zero_le_one), zpow_one]
  have quotient : ((2 ^ (half + 2) + 1 : ℕ) : K) / 2 = ((2 ^ (half + 1) : ℤ) : K) + 1 / 2 := by
    rw [pow_succ 2 (half + 1)]
    push_cast
    ring
  have even : Even ((2 : ℤ) ^ (half + 1)) := even_two.pow_of_ne_zero (Nat.succ_ne_zero half)
  rw [roundFloat, two, quotient, roundEven_tie even, pow_succ 2 (half + 1)]
  push_cast
  rfl

end Format

/-- The integers up to `2 ^ 24` are single-precision numbers. -/
theorem binary32_natCast {n : ℕ} (small : n ≤ 2 ^ 24) : binary32 (n : K) = n :=
  roundFloat_natCast (by decide) (by decide) small

theorem binary32_succ : binary32 ((2 ^ 24 + 1 : ℕ) : K) = (2 ^ 24 : ℕ) :=
  roundFloat_succ (by decide) (by decide)

/-- A number of the single precision: a finite one by its value, or one that is not finite. -/
inductive Single
  | finite (value : ℚ)
  | notFinite
  deriving DecidableEq

namespace Single

/-- The number nearest to a rational. -/
def ofRat (x : ℚ) : Single := if |binary32 x| < 2 ^ 128 then .finite (binary32 x) else .notFinite

/-- An operation of the rationals, rounded. -/
def lift (op : ℚ → ℚ → ℚ) : Single → Single → Single
  | .finite x, .finite y => ofRat (op x y)
  | _, _ => .notFinite

instance : Zero Single := ⟨.finite 0⟩

instance : NatCast Single := ⟨fun n => ofRat n⟩

instance : Add Single := ⟨lift (· + ·)⟩

instance : Sub Single := ⟨lift (· - ·)⟩

/-- The quotient by a number that is finite. -/
instance : Div Single := ⟨fun x y => if y = 0 then .notFinite else lift (· / ·) x y⟩

/-! ### Totals -/

/-- The cells are finite, and `total` is their sum. -/
def Totals (cells : List Single) (total : ℚ) : Prop :=
  ∃ values : List ℚ, cells = values.map finite ∧ values.sum = total

variable {cells more : List Single} {total other : ℚ}

theorem finite_injective : Function.Injective finite := fun _ _ => finite.inj

theorem Totals.unique (one : Totals cells total) (two : Totals cells other) : total = other := by
  obtain ⟨values, rfl, rfl⟩ := one
  obtain ⟨values', same, rfl⟩ := two
  rw [finite_injective.list_map same]

theorem totals_zeros (count : ℕ) : Totals (List.replicate count 0) 0 :=
  ⟨List.replicate count 0, (List.map_replicate (f := finite)).symm,
    by rw [List.sum_replicate, smul_zero]⟩

theorem totals_append :
    Totals (cells ++ more) total ↔
      ∃ first second, Totals cells first ∧ Totals more second ∧ first + second = total := by
  constructor
  · rintro ⟨values, split, rfl⟩
    obtain ⟨early, late, rfl, rfl, rfl⟩ := List.append_eq_map_iff.mp split
    exact ⟨_, _, ⟨early, rfl, rfl⟩, ⟨late, rfl, rfl⟩, List.sum_append.symm⟩
  · rintro ⟨_, _, ⟨early, rfl, rfl⟩, ⟨late, rfl, rfl⟩, rfl⟩
    exact ⟨early ++ late, (List.map_append ..).symm, List.sum_append⟩

theorem Totals.finite_of_mem (totals : Totals cells total) {cell : Single} (member : cell ∈ cells) :
    ∃ value, cell = finite value := by
  obtain ⟨values, rfl, -⟩ := totals
  obtain ⟨value, -, rfl⟩ := List.mem_map.mp member
  exact ⟨value, rfl⟩

/-- **A cell is replaced.** The new total is the old one without the old value and with the new
one. -/
theorem Totals.set_iff (totals : Totals cells total) {place : ℕ} {oldest : ℚ}
    (here : cells[place]? = some (finite oldest)) {new : Single} :
    Totals (cells.set place new) other ↔
      ∃ value, new = finite value ∧ other = total - oldest + value := by
  obtain ⟨values, rfl, rfl⟩ := totals
  obtain ⟨short, at_place⟩ := List.getElem?_eq_some_iff.mp here
  have inside : place < values.length := by rwa [List.length_map] at short
  rw [List.getElem_map] at at_place
  have old : values.getD place 0 = oldest :=
    (List.getD_eq_getElem _ _ inside).trans (finite_injective at_place)
  have replaced (value : ℚ) : Totals ((values.map finite).set place (finite value))
      (values.sum - oldest + value) :=
    ⟨values.set place value, List.map_set.symm, by rw [sum_set inside, old]⟩
  constructor
  · intro totals
    obtain ⟨value, rfl⟩ := totals.finite_of_mem (List.mem_set short new)
    exact ⟨value, rfl, totals.unique (replaced value)⟩
  · rintro ⟨value, rfl, rfl⟩
    exact replaced value

end Single

end Robocon.Lib
