/-
**The filters over a window** (`filter.c`, `filter.h`).

The sliding window filter and the block mean filter behind `filter_run`. The functions are written
over any arithmetic of `filter_type_t`: that of a field, where samples are exact, or that of the
single precision. A pointer into the memory is the list of the cells behind it; a function fails
where the code reads or writes past them.

* `filterSlide_eq` — a call of the sliding filter, as `SlidingWindowFilter.push`.
* `Consistent`, `Consistent.push` — the index is inside the window, the window inside its cells, and
  the sum that of the window; over a field every call keeps this.
* `filterSetSlidingWindow_eq` — a new window size is only stored.
* `cellsBehind_lt` — the block that an initialisation allocates has too few cells behind its
  pointer.
-/

import Robocon.Lib.Run
import Robocon.Lib.Ring

namespace Robocon.Filters

open Lib

section Model

variable {K : Type*}

structure SlidingWindowFilter (K : Type*) where
  window : List K
  size : ℕ
  index : ℕ
  sum : K
  deriving DecidableEq

structure MeanFilter (K : Type*) where
  data : List K
  size : ℕ
  index : ℕ
  sum : K
  deriving DecidableEq

/-- `filter_t`: the filter function it points to, with its parameters. -/
inductive Filter (K : Type*)
  | slide (params : SlidingWindowFilter K)
  | mean (params : MeanFilter K)
  deriving DecidableEq

/-- The calls on a filter. -/
inductive FilterOp (K : Type*)
  | run (inData : K)
  | setSlidingWindow (size : ℕ)

/-- `realloc(cells, size * sizeof(int))`: the cells it adds hold anything. -/
def realloc (fresh : ℕ → K) (cells : List K) (size : ℕ) : List K :=
  (List.range size).map fun cell => cells.getD cell (fresh cell)

variable [Zero K]

/-- `memset(cells + start, 0, count * sizeof(int))`. -/
def memset (cells : List K) (start count : ℕ) : Option (List K) :=
  if start + count ≤ cells.length then
    some (cells.take start ++ List.replicate count 0 ++ cells.drop (start + count))
  else none

/-- `filter_init_sliding_window`, where `cells` are the cells behind the pointer it sets. -/
def filterInitSlidingWindow (cells : List K) (size : ℕ) : Option (Filter K) :=
  (memset cells 0 size).map fun window => .slide { window, size, index := 0, sum := 0 }

/-- `filter_init_mean`, where `cells` are the cells behind the pointer it sets. -/
def filterInitMean (cells : List K) (size : ℕ) : Option (Filter K) :=
  (memset cells 0 size).map fun data => .mean { data, size, index := 0, sum := 0 }

/-- `filter_set_sliding_window`: the size is stored before it is compared with the new one. The cast
of the parameters of another filter is not defined. -/
def filterSetSlidingWindow (fresh : ℕ → K) (filter : Filter K) (size : ℕ) : Option (Filter K) :=
  match filter with
  | .slide params =>
    let params := { params with size }
    if size > params.size then
      let window := realloc fresh params.window size
      (memset window params.index (params.size - params.index)).map fun window =>
        .slide { params with window }
    else some (.slide params)
  | .mean _ => none

variable [Add K] [Sub K] [Div K] [NatCast K]

def filterSlide (filter : SlidingWindowFilter K) (inData : K) :
    Option (SlidingWindowFilter K × K) :=
  filter.window[filter.index]?.bind fun oldest =>
    let filter := { filter with sum := filter.sum - oldest + inData }
    let filter := { filter with window := filter.window.set filter.index inData }
    if filter.size = 0 then none
    else
      let filter := { filter with index := (filter.index + 1) % filter.size }
      some (filter, filter.sum / filter.size)

/-- `filter_mean`: the sum is reset before it is divided. -/
def filterMean (filter : MeanFilter K) (inData : K) : Option (MeanFilter K × K) :=
  let filter := { filter with index := filter.index + 1 }
  if filter.index < filter.data.length then
    let filter := { filter with
      data := filter.data.set filter.index inData
      sum := filter.sum + inData }
    if filter.index + 1 = filter.size then
      let filter := { filter with index := 0, sum := 0 }
      some (filter, filter.sum / filter.size)
    else some (filter, 0)
  else none

def filterRun (filter : Filter K) (inData : K) : Option (Filter K × K) :=
  match filter with
  | .slide params => (filterSlide params inData).map fun next => (.slide next.1, next.2)
  | .mean params => (filterMean params inData).map fun next => (.mean next.1, next.2)

/-- The filter as a machine that outputs what the calls of `filter_run` return. -/
def filters (fresh : ℕ → K) : Machine (Filter K) (FilterOp K) K where
  step filter op :=
    match op with
    | .run inData => (filterRun filter inData).map fun next => (next.1, [next.2])
    | .setSlidingWindow size =>
      (filterSetSlidingWindow fresh filter size).map fun next => (next, [])

end Model

/-! ### The allocated block -/

section Block

/-- `sizeof(SlidingWindowFilter)`, also that of `MeanFilter`: a pointer, two integers and a
`float`. -/
def sizeofParams : ℕ := 16

/-- `sizeof(filter_type_t)`. -/
def sizeofCell : ℕ := 4

/-- The cells of the block that an initialisation allocates which lie behind the pointer it sets.
The pointer is moved by `sizeof` the parameters in steps of the parameters, not of bytes. -/
def cellsBehind (size : ℕ) : ℕ :=
  (sizeofParams + size * sizeofCell - sizeofParams * sizeofParams) / sizeofCell

/-- The block never has the cells of the window behind that pointer. -/
theorem cellsBehind_lt {size : ℕ} (positive : 0 < size) : cellsBehind size < size := by
  unfold cellsBehind sizeofParams sizeofCell
  omega

end Block

/-! ### What the calls do -/

section Calls

variable {K : Type*}

theorem memset_front [Zero K] (cells : List K) (count : ℕ) :
    memset cells 0 count =
      if count ≤ cells.length then some (List.replicate count 0 ++ cells.drop count) else none := by
  simp only [memset, zero_add, List.take_zero, List.nil_append]

/-- The zeros of an initialisation are inside its cells. -/
theorem size_le_zeros [Zero K] (size : ℕ) (rest : List K) :
    size ≤ (List.replicate size (0 : K) ++ rest).length := by
  rw [List.length_append, List.length_replicate]
  exact Nat.le_add_right _ _

/-- An initialisation gives a window of zeros, if it has the cells for it. -/
theorem filterInitSlidingWindow_eq [Zero K] {cells : List K} {size : ℕ}
    (enough : size ≤ cells.length) :
    filterInitSlidingWindow cells size =
      some (.slide ⟨List.replicate size 0 ++ cells.drop size, size, 0, 0⟩) := by
  rw [filterInitSlidingWindow, memset_front, if_pos enough, Option.map_some]

/-- A new window size is stored; the branch that enlarges the window is never taken. -/
theorem filterSetSlidingWindow_eq [Zero K] (fresh : ℕ → K) (params : SlidingWindowFilter K)
    (size : ℕ) :
    filterSetSlidingWindow fresh (.slide params) size = some (.slide { params with size }) :=
  if_neg (lt_irrefl size)

namespace SlidingWindowFilter

/-- The current window: `size` cells. -/
def current (params : SlidingWindowFilter K) : List K := params.window.take params.size

section Push

variable [Zero K] [Add K] [Sub K]

/-- The filter after a sample. -/
def push (params : SlidingWindowFilter K) (inData : K) : SlidingWindowFilter K where
  window := params.window.set params.index inData
  size := params.size
  index := (params.index + 1) % params.size
  sum := params.sum - params.window.getD params.index 0 + inData

@[simp]
theorem push_size (params : SlidingWindowFilter K) (inData : K) :
    (params.push inData).size = params.size := rfl

@[simp]
theorem length_push_window (params : SlidingWindowFilter K) (inData : K) :
    (params.push inData).window.length = params.window.length :=
  List.length_set

theorem push_current (params : SlidingWindowFilter K) (inData : K) :
    (params.push inData).current = params.current.set params.index inData :=
  List.take_set

end Push

variable [Field K]

/-- The index is inside the window, the window inside its cells, and the sum is that of the
window. -/
structure Consistent (params : SlidingWindowFilter K) : Prop where
  index_lt : params.index < params.size
  size_le : params.size ≤ params.window.length
  sum_eq : params.sum = params.current.sum

namespace Consistent

variable {params : SlidingWindowFilter K}

theorem length_current (consistent : params.Consistent) :
    params.current.length = params.size := by
  rw [current, List.length_take, min_eq_left consistent.size_le]

theorem inside (consistent : params.Consistent) : params.index < params.current.length :=
  consistent.length_current ▸ consistent.index_lt

/-- **Every sample keeps the filter consistent.** -/
theorem push (consistent : params.Consistent) (inData : K) : (params.push inData).Consistent where
  index_lt := Nat.mod_lt _ (Nat.zero_lt_of_lt consistent.index_lt)
  size_le := by
    rw [push_size, length_push_window]
    exact consistent.size_le
  sum_eq := by
    have oldest : params.current.getD params.index 0 = params.window.getD params.index 0 := by
      rw [current, List.getD_eq_getElem?_getD, List.getElem?_take_of_lt consistent.index_lt,
        List.getD_eq_getElem?_getD]
    rw [push_current, sum_set consistent.inside, ← consistent.sum_eq, oldest]
    rfl

end Consistent

end SlidingWindowFilter

/-- A call whose index is inside the window succeeds and returns the sum by the size. -/
theorem filterSlide_eq [Zero K] [Add K] [Sub K] [Div K] [NatCast K]
    {params : SlidingWindowFilter K} (index_lt : params.index < params.size)
    (size_le : params.size ≤ params.window.length) (inData : K) :
    filterSlide params inData =
      some (params.push inData, (params.push inData).sum / params.size) := by
  have inside := index_lt.trans_le size_le
  have positive : params.size ≠ 0 := (Nat.zero_lt_of_lt index_lt).ne'
  simp [filterSlide, SlidingWindowFilter.push, inside, positive]

end Calls

end Robocon.Filters
