/-
**What a resize does to the sliding window filter.**

Here `filter_type_t` is the single precision, so that a sample is rounded into the sum.

* `Whole` — the index is inside the window, the window inside its cells, and the sum is exactly that
  of the window.
* `Exact` — a sample enters the sum without a rounding error.
* `Averages`, `Suitable` — a call leaves the filter whole and returns the quotient of its sum; what a
  sample and a resize have to meet for that. `resizing_consistent_iff`: the first holds at every call
  of a run exactly if the second does.
-/

import Robocon.Filters.Filter
import Robocon.Lib.Binary32

namespace Robocon.Filters

open Lib Single

/-- The filter is a sliding filter that meets `Good`. -/
def Filter.Slides (Good : SlidingWindowFilter Single → Prop) : Filter Single → Prop
  | .slide params => Good params
  | .mean _ => False

namespace SlidingWindowFilter

/-- The index is inside the window, the window inside its cells, and the sum is that of the
window. -/
structure Whole (params : SlidingWindowFilter Single) : Prop where
  index_lt : params.index < params.size
  size_le : params.size ≤ params.window.length
  sum_eq : ∃ total, params.sum = finite total ∧ Totals params.current total

/-- The sample takes the place of the oldest one in the sum without a rounding error. -/
def Exact (params : SlidingWindowFilter Single) (inData : Single) : Prop :=
  ∃ total oldest value, params.sum = finite total ∧
    params.window[params.index]? = some (finite oldest) ∧ inData = finite value ∧
    finite total - finite oldest + finite value = finite (total - oldest + value)

/-- The cells between the current size and another one. -/
def between (params : SlidingWindowFilter Single) (size : ℕ) : List Single :=
  (params.window.take (max params.size size)).drop (min params.size size)

end SlidingWindowFilter

/-- The call leaves a whole filter, and what it returns is the sum by the size. -/
def Averages (fresh : ℕ → Single) (filter : Filter Single) (op : FilterOp Single) : Prop :=
  ∀ next outs, (filters fresh).step filter op = some (next, outs) →
    next.Slides fun params => params.Whole ∧ ∀ out ∈ outs, out = params.sum / params.size

/-- A sample enters the sum exactly. A resize keeps the index inside the window and the window
inside its cells, and the cells that it drops or adds sum to zero. -/
def Suitable (filter : Filter Single) (op : FilterOp Single) : Prop :=
  match filter, op with
  | .slide params, .run inData => params.Exact inData
  | .slide params, .setSlidingWindow size =>
    params.index < size ∧ size ≤ params.window.length ∧ Totals (params.between size) 0
  | .mean _, _ => True

/-- A sum up to one place of a list is the one up to another exactly if the cells between them sum
to zero. -/
theorem totals_take_iff {cells : List Single} {one : ℕ} {total : ℚ}
    (totals : Totals (cells.take one) total) (other : ℕ) :
    Totals (cells.take other) total ↔
      Totals ((cells.take (max one other)).drop (min one other)) 0 := by
  have split {low high : ℕ} (le : low ≤ high) :
      cells.take high = cells.take low ++ (cells.take high).drop low := by
    conv_lhs => rw [← List.take_append_drop low (cells.take high)]
    rw [List.take_take, min_eq_left le]
  rcases le_total one other with le | le
  · rw [max_eq_right le, min_eq_left le, split le, totals_append, ← split le]
    constructor
    · rintro ⟨first, rest, front, added, sum⟩
      obtain rfl := totals.unique front
      rwa [add_eq_left.mp sum] at added
    · exact fun added => ⟨total, 0, totals, added, add_zero total⟩
  · rw [max_eq_left le, min_eq_right le]
    obtain ⟨first, rest, front, dropped, sum⟩ := totals_append.mp (split le ▸ totals)
    constructor
    · intro kept
      obtain rfl := front.unique kept
      rwa [add_eq_left.mp sum] at dropped
    · intro none
      rwa [← sum, dropped.unique none, add_zero]

namespace SlidingWindowFilter

/-- **A sample** leaves the filter whole exactly if it enters the sum exactly. -/
theorem Whole.push_iff {params : SlidingWindowFilter Single} (whole : params.Whole)
    (inData : Single) : (params.push inData).Whole ↔ params.Exact inData := by
  obtain ⟨total, sum, totals⟩ := whole.sum_eq
  have inside := whole.index_lt.trans_le whole.size_le
  have cell : params.current[params.index]? = params.window[params.index]? :=
    List.getElem?_take_of_lt whole.index_lt
  have first := List.getElem?_eq_getElem inside
  obtain ⟨oldest, old⟩ := totals.finite_of_mem (List.mem_of_getElem? (cell.trans first))
  rw [old] at first
  have replaced : params.window.getD params.index 0 = finite oldest := by
    rw [List.getD_eq_getElem?_getD, first, Option.getD_some]
  have pushed : (params.push inData).sum = finite total - finite oldest + inData := by
    rw [← sum, ← replaced]
    rfl
  constructor
  · rintro ⟨-, -, total', sum', totals'⟩
    rw [push_current] at totals'
    obtain ⟨value, rfl, rfl⟩ := (totals.set_iff (cell.trans first)).mp totals'
    exact ⟨total, oldest, value, sum, first, rfl, pushed.symm.trans sum'⟩
  · rintro ⟨total', oldest', value, sum', first', rfl, exact⟩
    obtain rfl := finite_injective (sum.symm.trans sum')
    obtain rfl := finite_injective (Option.some.inj (first.symm.trans first'))
    refine ⟨Nat.mod_lt _ (Nat.zero_lt_of_lt whole.index_lt), ?_, total - oldest + value,
      pushed.trans exact, ?_⟩
    · rw [push_size, length_push_window]
      exact whole.size_le
    · rw [push_current]
      exact (totals.set_iff (cell.trans first)).mpr ⟨value, rfl, rfl⟩

/-- **A resize** leaves the filter whole exactly if the new window has its index and its cells, and
the cells between the two windows sum to zero. -/
theorem Whole.resize_iff {params : SlidingWindowFilter Single} (whole : params.Whole) (size : ℕ) :
    Whole { params with size } ↔
      params.index < size ∧ size ≤ params.window.length ∧ Totals (params.between size) 0 := by
  obtain ⟨total, sum, totals⟩ := whole.sum_eq
  have same := totals_take_iff totals size
  constructor
  · rintro ⟨index_lt, size_le, total', sum', totals'⟩
    obtain rfl := finite_injective (sum.symm.trans sum')
    exact ⟨index_lt, size_le, same.mp totals'⟩
  · rintro ⟨index_lt, size_le, zero⟩
    exact ⟨index_lt, size_le, total, sum, same.mpr zero⟩

end SlidingWindowFilter

theorem averages_iff_suitable (fresh : ℕ → Single) {filter next : Filter Single}
    {op : FilterOp Single} {outs : List Single} (whole : filter.Slides SlidingWindowFilter.Whole)
    (step : (filters fresh).step filter op = some (next, outs)) :
    (Averages fresh filter op ↔ Suitable filter op) ∧
      (Suitable filter op → next.Slides SlidingWindowFilter.Whole) := by
  rw [Averages, Machine.forall_step_iff step]
  cases filter with
  | mean params => cases whole
  | slide params =>
    have whole : params.Whole := whole
    cases op with
    | run inData =>
      have slides := filterSlide_eq whole.index_lt whole.size_le inData
      simp only [filters, filterRun, slides, Option.map_some] at step
      obtain ⟨rfl, rfl⟩ := Prod.mk.inj (Option.some.inj step)
      have pushed := whole.push_iff inData
      refine ⟨⟨fun averages => pushed.mp averages.1, fun exact => ⟨pushed.mpr exact, ?_⟩⟩,
        pushed.mpr⟩
      exact fun out member => List.mem_singleton.mp member
    | setSlidingWindow size =>
      simp only [filters, filterSetSlidingWindow_eq, Option.map_some] at step
      obtain ⟨rfl, rfl⟩ := Prod.mk.inj (Option.some.inj step)
      have resized := whole.resize_iff size
      refine ⟨⟨fun averages => resized.mp averages.1, fun resizes => ⟨resized.mpr resizes, ?_⟩⟩,
        resized.mpr⟩
      exact fun out member => absurd member List.not_mem_nil

/-- A sliding filter can be initialised exactly if the cells are there, and is whole then. -/
theorem init_whole {size : ℕ} (positive : 0 < size) {cells : List Single} {start : Filter Single}
    (init : filterInitSlidingWindow cells size = some start) :
    size ≤ cells.length ∧ start.Slides SlidingWindowFilter.Whole := by
  have enough : size ≤ cells.length := by
    by_contra short
    rw [filterInitSlidingWindow, memset_front, if_neg short] at init
    cases init
  rw [filterInitSlidingWindow_eq enough] at init
  obtain rfl := Option.some.inj init
  have zeros : Totals ((List.replicate size 0 ++ cells.drop size).take size) 0 := by
    rw [List.take_left' List.length_replicate]
    exact totals_zeros size
  exact ⟨enough, positive, size_le_zeros size (cells.drop size), 0, rfl, zeros⟩

/-- **Resizing keeps the sliding filter whole** exactly if every sample enters the sum without a
rounding error, and every resize keeps the index inside the new window, the new window inside the
cells that are there, and drops or adds cells that sum to zero. The block that the initialisation
allocates does not have the cells of even the first window. -/
theorem resizing_consistent_iff {size : ℕ} (positive : 0 < size) (cells : List Single)
    (fresh : ℕ → Single) (ops : List (FilterOp Single)) :
    ((∃ start outs final, filterInitSlidingWindow cells size = some start ∧
        start.Slides SlidingWindowFilter.Whole ∧
        (filters fresh).RunOn (Averages fresh) start ops outs final) ↔
      size ≤ cells.length ∧
        ∃ start outs final, filterInitSlidingWindow cells size = some start ∧
          (filters fresh).RunOn Suitable start ops outs final) ∧
    cellsBehind size < size := by
  have agree : ∀ {start : Filter Single} {outs : List Single} {final : Filter Single},
      start.Slides SlidingWindowFilter.Whole → (filters fresh).Run start ops outs final →
      ((filters fresh).RunOn (Averages fresh) start ops outs final ↔
        (filters fresh).RunOn Suitable start ops outs final) := by
    intro start outs final whole run
    exact run.agree_iff_of_met _ (fun state input next output _ inv step =>
      averages_iff_suitable fresh inv step) whole
  refine ⟨⟨?_, ?_⟩, cellsBehind_lt positive⟩
  · rintro ⟨start, outs, final, init, whole, run⟩
    have always := run.weaken fun _ _ _ => trivial
    exact ⟨(init_whole positive init).1, start, outs, final, init, (agree whole always).mp run⟩
  · rintro ⟨-, start, outs, final, init, run⟩
    have always := run.weaken fun _ _ _ => trivial
    have whole := (init_whole positive init).2
    exact ⟨start, outs, final, init, whole, (agree whole always).mpr run⟩

theorem resizing_consistent_iff_two :
    0 < 2 ∧
      ((∃ start outs final, filterInitSlidingWindow [0, (0 : Single)] 2 = some start ∧
          start.Slides SlidingWindowFilter.Whole ∧
          (filters fun _ => 0).RunOn (Averages fun _ => 0) start
            [.run (finite 1), .setSlidingWindow 1, .run (finite 3)] outs final) ↔
        2 ≤ [0, (0 : Single)].length ∧
          ∃ start outs final, filterInitSlidingWindow [0, (0 : Single)] 2 = some start ∧
            (filters fun _ => 0).RunOn Suitable start
              [.run (finite 1), .setSlidingWindow 1, .run (finite 3)] outs final) ∧
      cellsBehind 2 < 2 :=
  ⟨two_pos, resizing_consistent_iff two_pos _ _ _⟩

/-- A window of two cells is shrunk to one after one sample, and its index stays at one; the next
sample then returns a mean that is not that of the window. A window of one cell is grown to two, and
has the cells of one. Without a resize, a large sample takes a small one with it out of the sum. -/
theorem resizing_breaks :
    (∃ start params, filterInitSlidingWindow [0, (0 : Single)] 2 = some (.slide start) ∧
        (filters fun _ => 0).Run (.slide start) [.run (finite 1), .setSlidingWindow 1]
          [finite (1 / 2)] (.slide params) ∧ ¬ params.index < params.size) ∧
      (∃ start params, filterInitSlidingWindow [0, (0 : Single)] 2 = some (.slide start) ∧
        (filters fun _ => 0).Run (.slide start)
          [.run (finite 1), .setSlidingWindow 1, .run (finite 3)] [finite (1 / 2), finite 4]
          (.slide params) ∧
        params.sum = finite 4 ∧ params.current = [finite 1] ∧ params.size = 1) ∧
      (∃ start params, filterInitSlidingWindow [(0 : Single)] 1 = some (.slide start) ∧
        (filters fun _ => 0).Run (.slide start) [.setSlidingWindow 2] [] (.slide params) ∧
        ¬ params.size ≤ params.window.length) ∧
      ∃ start outs params, filterInitSlidingWindow [0, (0 : Single)] 2 = some (.slide start) ∧
        (filters fun _ => 0).Run (.slide start)
          [.run (finite (10 ^ 8)), .run (finite 1), .run (finite 0)] outs (.slide params) ∧
        params.sum = finite 0 ∧ params.current = [finite 0, finite 1] := by
  refine ⟨⟨⟨[0, 0], 2, 0, 0⟩, ⟨[finite 1, 0], 1, 1, finite 1⟩, rfl,
      Machine.runOn_iff_exec.mpr ?_, by decide⟩,
    ⟨⟨[0, 0], 2, 0, 0⟩, ⟨[finite 1, finite 3], 1, 0, finite 4⟩, rfl,
      Machine.runOn_iff_exec.mpr ?_, rfl, rfl, rfl⟩,
    ⟨⟨[0], 1, 0, 0⟩, ⟨[0], 2, 0, 0⟩, rfl, Machine.runOn_iff_exec.mpr ?_, by decide⟩,
    ⟨⟨[0, 0], 2, 0, 0⟩, [finite (5 * 10 ^ 7), finite (5 * 10 ^ 7), finite 0],
      ⟨[finite 0, finite 1], 2, 1, finite 0⟩, rfl, Machine.runOn_iff_exec.mpr ?_, rfl, rfl⟩⟩
  all_goals decide +kernel

end Robocon.Filters
