/-
**The block mean filter.**

* `filterMean_eq` — a call whose write is inside returns zero: the sum is reset before it is
  divided.
* `block_mean_iff` — the filter returns the means of the blocks of its inputs exactly if these are
  all zero, and never over a window of one cell.
-/

import Robocon.Filters.Filter

namespace Robocon.Filters

open Lib

variable {K : Type*} [Field K]

/-- A write of `filter_mean` has an index below `size`. -/
def WritesBelow (size : ℕ) (filter : Filter K) (op : FilterOp K) : Prop :=
  match filter, op with
  | .mean params, .run _ => params.index + 1 < size
  | _, _ => True

/-- An initialisation gives zeros, if it has the cells for them. -/
theorem filterInitMean_eq (cells : List K) (size : ℕ) :
    filterInitMean cells size =
      if size ≤ cells.length then
        some (.mean ⟨List.replicate size 0 ++ cells.drop size, size, 0, 0⟩)
      else none := by
  rw [filterInitMean, memset_front, apply_ite (Option.map _)]
  rfl

/-- The filter after a sample. -/
def MeanFilter.push (params : MeanFilter K) (inData : K) : MeanFilter K where
  data := params.data.set (params.index + 1) inData
  size := params.size
  index := if params.index + 2 = params.size then 0 else params.index + 1
  sum := if params.index + 2 = params.size then 0 else params.sum + inData

/-- **A call whose write is inside returns zero**: at the end of a block the sum is reset before it
is divided. -/
theorem filterMean_eq {params : MeanFilter K} (inside : params.index + 1 < params.data.length)
    (inData : K) : filterMean params inData = some (params.push inData, 0) := by
  by_cases last : params.index + 2 = params.size
  · simp [filterMean, MeanFilter.push, inside, last]
  · simp [filterMean, MeanFilter.push, inside, last]

/-- The filter between two calls: the next write is inside. -/
structure Ready (size : ℕ) (params : MeanFilter K) : Prop where
  size_eq : params.size = size
  size_le : size ≤ params.data.length
  next_lt : params.index + 1 < size

theorem init_ready {size : ℕ} (two : 2 ≤ size) (rest : List K) :
    Ready size ⟨List.replicate size 0 ++ rest, size, 0, 0⟩ :=
  ⟨rfl, size_le_zeros size rest, two⟩

theorem Ready.push {size : ℕ} {params : MeanFilter K} (ready : Ready size params) (inData : K) :
    Ready size (params.push inData) where
  size_eq := ready.size_eq
  size_le := ready.size_le.trans List.length_set.ge
  next_lt := by
    have below := ready.next_lt
    have same := ready.size_eq
    show (if params.index + 2 = params.size then 0 else params.index + 1) + 1 < size
    split
    · exact (Nat.le_add_left 1 params.index).trans_lt below
    · omega

theorem run_ready (fresh : ℕ → K) {size : ℕ} {params : MeanFilter K} (ready : Ready size params)
    (inData : K) :
    (filters fresh).step (.mean params) (.run inData) = some (.mean (params.push inData), [0]) := by
  simp only [filters, filterRun, filterMean_eq (ready.next_lt.trans_le ready.size_le),
    Option.map_some]

/-- A filter over two cells or more runs on any inputs, writes inside and returns zeros. -/
theorem run_zeros (fresh : ℕ → K) {size : ℕ} {params : MeanFilter K} (ready : Ready size params)
    (xs : List K) :
    ∃ outs final, (filters fresh).RunOn (WritesBelow size) (.mean params) (xs.map .run) outs final ∧
      outs.length = xs.length ∧ ∀ k < xs.length, outs[k]? = some 0 := by
  obtain ⟨outs, final, run, -, length, zeros⟩ :=
    Machine.RunOn.stream (filters fresh) (WritesBelow size)
      (fun (_ : List K) filter => ∃ params, filter = .mean params ∧ Ready size params) .run
      (fun _ => 0)
      (by
        rintro past _ inData ⟨params, rfl, ready⟩
        exact ⟨ready.next_lt, _, run_ready fresh ready inData, _, rfl, ready.push inData⟩)
      xs [] ⟨params, rfl, ready⟩
  exact ⟨outs, final, run, length, zeros⟩

/-- **The block mean filter averages the blocks of its inputs** exactly if these all average to
zero. Over a window of one cell its first write is outside; over more cells every write is inside
and every call returns zero. The block that the initialisation allocates does not have the cells of
the window. -/
theorem block_mean_iff [CharZero K] {size : ℕ} (positive : 0 < size) (cells : List K)
    (fresh : ℕ → K) (xs : List K) :
    ((∃ start outs final, filterInitMean cells size = some start ∧
        (filters fresh).RunOn (WritesBelow size) start (xs.map .run) outs final ∧
        outs.length = xs.length ∧
        ∀ k < xs.length, outs[k]? =
          some (if size ∣ k + 1 then (∑ j ∈ Finset.Icc (k + 1 - size) k, xs.getD j 0) / size
            else 0)) ↔
      size ≤ cells.length ∧
        (xs = [] ∨ 2 ≤ size ∧ ∀ k < xs.length, size ∣ k + 1 →
          ∑ j ∈ Finset.Icc (k + 1 - size) k, xs.getD j 0 = 0)) ∧
    cellsBehind size < size := by
  refine ⟨?_, cellsBehind_lt positive⟩
  rw [filterInitMean_eq]
  by_cases enough : size ≤ cells.length
  · rw [if_pos enough]
    have nonzero : (size : K) ≠ 0 := Nat.cast_ne_zero.mpr positive.ne'
    constructor
    · rintro ⟨start, outs, final, init, run, length, means⟩
      obtain rfl := Option.some.inj init
      refine ⟨enough, ?_⟩
      cases xs with
      | nil => exact Or.inl rfl
      | cons x xs =>
        obtain ⟨middle, output, outputs, -, writes, -, -⟩ := run.uncons
        have two : 2 ≤ size := writes
        obtain ⟨outs', final', run', -, zeros⟩ := run_zeros fresh (init_ready two _) (x :: xs)
        have forget : ∀ (state : Filter K) (op : FilterOp K), WritesBelow size state op → True :=
          fun _ _ _ => trivial
        obtain ⟨rfl, -⟩ := Machine.Run.unique (run'.weaken forget) (run.weaken forget)
        refine Or.inr ⟨two, fun k inside divides => ?_⟩
        have mean := means k inside
        rw [if_pos divides, zeros k inside] at mean
        exact (div_eq_zero_iff.mp (Option.some.inj mean).symm).resolve_right nonzero
    · rintro ⟨-, rfl | ⟨two, blocks⟩⟩
      · exact ⟨_, [], _, rfl, .nil _, rfl, fun k inside => absurd inside (Nat.not_lt_zero k)⟩
      · obtain ⟨outs, final, run, length, zeros⟩ := run_zeros fresh (init_ready two _) xs
        refine ⟨_, outs, final, rfl, run, length, fun k inside => ?_⟩
        rw [zeros k inside]
        split
        · rw [blocks k inside ‹_›, zero_div]
        · rfl
  · rw [if_neg enough]
    refine iff_of_false ?_ fun conditions => enough conditions.1
    rintro ⟨start, outs, final, init, -⟩
    cases init

theorem block_mean_iff_two :
    0 < 2 ∧
      ((∃ start outs final, filterInitMean [0, (0 : ℚ)] 2 = some start ∧
          (filters fun _ => 0).RunOn (WritesBelow 2) start ([1, 1].map .run) outs final ∧
          outs.length = 2 ∧
          ∀ k < 2, outs[k]? =
            some (if 2 ∣ k + 1 then
              (∑ j ∈ Finset.Icc (k + 1 - 2) k, [1, (1 : ℚ)].getD j 0) / (2 : ℕ) else 0)) ↔
        2 ≤ [0, (0 : ℚ)].length ∧
          ([1, (1 : ℚ)] = [] ∨ 2 ≤ 2 ∧ ∀ k < 2, 2 ∣ k + 1 →
            ∑ j ∈ Finset.Icc (k + 1 - 2) k, [1, (1 : ℚ)].getD j 0 = 0)) ∧
      cellsBehind 2 < 2 :=
  ⟨two_pos, block_mean_iff two_pos _ _ _⟩

/-- Two ones over a window of two cells: the second call returns zero, their mean is one. Over a
window of one cell the first call writes outside. -/
theorem block_mean_resets :
    (∃ start final, filterInitMean [0, (0 : ℚ)] 2 = some start ∧
        (filters fun _ => 0).Run start [.run 1, .run 1] [0, 0] final ∧
        (∑ j ∈ Finset.Icc (1 + 1 - 2) 1, [1, (1 : ℚ)].getD j 0) / (2 : ℕ) ≠ 0) ∧
      ∃ start, filterInitMean [(0 : ℚ)] 1 = some start ∧
        ∀ outs final, ¬ (filters fun _ => 0).Run start [.run 1] outs final := by
  refine ⟨⟨.mean ⟨[0, 0], 2, 0, 0⟩, .mean ⟨[0, 1], 2, 0, 0⟩, rfl,
    Machine.runOn_iff_exec.mpr ?_, ?_⟩, .mean ⟨[0], 1, 0, 0⟩, rfl, fun outs final run => ?_⟩
  · simp [Machine.exec, filters, filterRun, filterMean]
  · simp [Finset.sum_Icc_succ_top]
  · have computed := Machine.runOn_iff_exec.mp run
    simp [Machine.exec, filters, filterRun, filterMean] at computed

end Robocon.Filters
