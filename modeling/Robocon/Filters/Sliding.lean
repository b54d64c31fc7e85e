/-
**The sliding window filter is a moving average.**

* `Moving` — the window, from the oldest cell on, holds the last inputs.
* `sliding_window_averages` — without a resize, each output is the mean of the last inputs.
-/

import Robocon.Filters.Filter

namespace Robocon.Filters

open Lib

variable {K : Type*} [Field K]

/-- The filter after the inputs `past`: its window, from the oldest cell on, holds the last of
them. -/
structure Moving (size : ℕ) (past : List K) (params : SlidingWindowFilter K) : Prop where
  size_eq : params.size = size
  consistent : params.Consistent
  holds : ring params.current params.index = latest size 0 past

theorem init_moving {size : ℕ} (positive : 0 < size) (rest : List K) :
    Moving size [] ⟨List.replicate size 0 ++ rest, size, 0, 0⟩ := by
  have current : SlidingWindowFilter.current ⟨List.replicate size 0 ++ rest, size, 0, (0 : K)⟩ =
      List.replicate size 0 :=
    List.take_left' List.length_replicate
  refine ⟨rfl, ⟨positive, size_le_zeros size rest, ?_⟩, ?_⟩
  · rw [current, List.sum_replicate, smul_zero]
  · rw [current, latest_nil, ring, List.rotate_zero]

theorem Moving.push {size : ℕ} {past : List K} {params : SlidingWindowFilter K}
    (moving : Moving size past params) (inData : K) :
    Moving size (past ++ [inData]) (params.push inData) where
  size_eq := moving.size_eq
  consistent := moving.consistent.push inData
  holds := by
    have pushed := ring_push moving.consistent.inside moving.holds inData
    rwa [moving.consistent.length_current, ← params.push_current] at pushed

/-- The sum of a moving window is that of the last inputs. -/
theorem Moving.sum_eq {size : ℕ} {past : List K} {params : SlidingWindowFilter K}
    (moving : Moving size past params) :
    params.sum = ∑ place ∈ Finset.Ico (past.length - size) past.length, past.getD place 0 := by
  rw [moving.consistent.sum_eq, ← sum_ring _ params.index, moving.holds, sum_latest]

theorem run_moving (fresh : ℕ → K) {size : ℕ} {past : List K} {params : SlidingWindowFilter K}
    (moving : Moving size past params) (inData : K) :
    (filters fresh).step (.slide params) (.run inData) =
      some (.slide (params.push inData),
        [(∑ place ∈ Finset.Ico (past.length + 1 - size) (past.length + 1),
          (past ++ [inData]).getD place 0) / size]) := by
  have sum := (moving.push inData).sum_eq
  rw [List.length_append, List.length_singleton] at sum
  have slides := filterSlide_eq moving.consistent.index_lt moving.consistent.size_le inData
  simp only [filters, filterRun, slides, Option.map_some, sum, moving.size_eq]

/-- **The sliding filter is the moving average.** After an initialisation over enough cells every
input list has a run, the output for each input is the sum of the inputs of its window divided by
the window's size, and the filter stays consistent. -/
theorem sliding_window_averages {size : ℕ} (positive : 0 < size) {cells : List K}
    (enough : size ≤ cells.length) (fresh : ℕ → K) (xs : List K) :
    ∃ start outs params, filterInitSlidingWindow cells size = some start ∧
      (filters fresh).Run start (xs.map .run) outs (.slide params) ∧
      outs.length = xs.length ∧
      (∀ k < xs.length, outs[k]? =
        some ((∑ j ∈ Finset.Icc (k + 1 - size) k, xs.getD j 0) / size)) ∧
      params.sum = params.current.sum ∧ params.current.length = size ∧ params.index < size := by
  obtain ⟨outs, final, run, ⟨params, rfl, moving⟩, length, answers⟩ :=
    Machine.RunOn.stream (filters fresh) (fun _ _ => True)
      (fun past filter => ∃ params, filter = .slide params ∧ Moving size past params) .run
      (fun past => (∑ place ∈ Finset.Ico (past.length - size) past.length,
        past.getD place 0) / size)
      (by
        rintro past _ inData ⟨params, rfl, moving⟩
        refine ⟨trivial, _, ?_, params.push inData, rfl, moving.push inData⟩
        rw [run_moving fresh moving, List.length_append, List.length_singleton])
      xs [] ⟨_, rfl, init_moving positive (cells.drop size)⟩
  refine ⟨_, outs, params, filterInitSlidingWindow_eq enough, run, length, fun k inside => ?_,
    moving.consistent.sum_eq, moving.size_eq ▸ moving.consistent.length_current,
    moving.size_eq ▸ moving.consistent.index_lt⟩
  have taken : (xs.take (k + 1)).length = k + 1 := by
    rw [List.length_take, min_eq_left inside]
  rw [answers k inside, List.nil_append, taken, Finset.Ico_add_one_right_eq_Icc]
  congr 2
  refine Finset.sum_congr rfl fun place member => ?_
  have before : place < k + 1 := Nat.lt_succ_of_le (Finset.mem_Icc.mp member).2
  rw [List.getD_eq_getElem?_getD, List.getElem?_take_of_lt before, List.getD_eq_getElem?_getD]

theorem sliding_window_averages_three :
    (0 < 2 ∧ 2 ≤ [7, 7, 7, (7 : ℚ)].length) ∧
      ∃ start outs params, filterInitSlidingWindow [7, 7, 7, (7 : ℚ)] 2 = some start ∧
        (filters fun _ => 0).Run start ([1, 2, 6].map .run) outs (.slide params) ∧
        outs.length = 3 ∧
        (∀ k < 3, outs[k]? =
          some ((∑ j ∈ Finset.Icc (k + 1 - 2) k, [1, 2, (6 : ℚ)].getD j 0) / (2 : ℕ))) ∧
        params.sum = params.current.sum ∧ params.current.length = 2 ∧ params.index < 2 :=
  ⟨⟨two_pos, by decide⟩, sliding_window_averages two_pos (by decide) _ _⟩

end Robocon.Filters
