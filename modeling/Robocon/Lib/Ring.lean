/-
**Circular buffers.**

A circular buffer is a list of cells with the place that is written next. `ring` reads it from that
place on, the oldest cell first.

* `ring_set` — a write drops the oldest cell and appends the new one.
* `latest` — the last cells of a history before which there is a constant; `ring_push`: a buffer
  that holds them holds them after every write.
* `sum_set`, `sum_latest` — the sum of the cells after a write; the sum of the last cells of a
  history, over its places.
-/

import Mathlib

namespace Robocon.Lib

section Ring

variable {Data : Type*}

/-- The cells of a circular buffer, the oldest one first. -/
def ring (cells : List Data) (index : ℕ) : List Data := cells.rotate index

/-- A write, as the cells before it, the new cell and the cells after it. -/
theorem set_eq_around {cells : List Data} {index : ℕ} (inside : index < cells.length)
    (new : Data) : cells.set index new = cells.take index ++ new :: cells.drop (index + 1) :=
  List.set_eq_take_append_cons_drop ▸ if_pos inside

/-- **A write** drops the oldest cell and appends the new one. -/
theorem ring_set {cells : List Data} {index : ℕ} (inside : index < cells.length) (new : Data) :
    ring (cells.set index new) ((index + 1) % cells.length) = (ring cells index).tail ++ [new] := by
  have old : ring cells index = cells[index] :: cells.drop (index + 1) ++ cells.take index := by
    rw [ring, List.rotate_eq_drop_append_take inside.le, ← List.drop_eq_getElem_cons inside]
  have seam : (cells.take index ++ [new]).length = index + 1 := by
    rw [List.length_append, List.length_take, min_eq_left inside.le, List.length_singleton]
  have written : ring (cells.set index new) ((index + 1) % cells.length) =
      cells.drop (index + 1) ++ (cells.take index ++ [new]) := by
    rw [ring, ← List.length_set (i := index) (a := new), List.rotate_mod, set_eq_around inside,
      List.append_cons, ← seam, List.rotate_append_length_eq]
  rw [written, old, List.cons_append, List.tail_cons, List.append_assoc]

/-- The last `size` cells of a history before which there is only `initial`. -/
def latest (size : ℕ) (initial : Data) (past : List Data) : List Data :=
  (List.replicate size initial ++ past).drop past.length

@[simp]
theorem latest_nil (size : ℕ) (initial : Data) :
    latest size initial [] = List.replicate size initial := by
  simp [latest]

@[simp]
theorem length_latest (size : ℕ) (initial : Data) (past : List Data) :
    (latest size initial past).length = size := by
  simp [latest]

/-- A further cell drops the first of the last ones. -/
theorem latest_push {size : ℕ} (positive : 0 < size) (initial : Data) (past : List Data)
    (new : Data) :
    latest size initial (past ++ [new]) = (latest size initial past).tail ++ [new] := by
  have enough : past.length + 1 ≤ (List.replicate size initial ++ past).length := by
    rw [List.length_append, List.length_replicate]
    omega
  rw [latest, latest, List.tail_drop, List.length_append, List.length_singleton,
    ← List.append_assoc, List.drop_append_of_le_length enough]

/-- **A buffer that holds the last cells of a history** holds them after every write. -/
theorem ring_push {cells : List Data} {index size : ℕ} {initial : Data} {past : List Data}
    (inside : index < cells.length) (holds : ring cells index = latest size initial past)
    (new : Data) :
    ring (cells.set index new) ((index + 1) % cells.length) =
      latest size initial (past ++ [new]) := by
  have size_eq : cells.length = size := by
    rw [← length_latest size initial past, ← holds, ring, List.length_rotate]
  rw [ring_set inside, holds, latest_push (size_eq ▸ Nat.zero_lt_of_lt inside)]

section Sum

variable [AddCommGroup Data]

/-- The sum of a buffer does not depend on the place it is read from. -/
theorem sum_ring (cells : List Data) (index : ℕ) : (ring cells index).sum = cells.sum :=
  (List.rotate_perm cells index).sum_eq

/-- The sum after a write: the old cell is taken off and the new one added. -/
theorem sum_set {cells : List Data} {index : ℕ} (inside : index < cells.length) (new : Data) :
    (cells.set index new).sum = cells.sum - cells.getD index 0 + new := by
  have split : cells.sum =
      (cells.take index).sum + (cells.getD index 0 + (cells.drop (index + 1)).sum) := by
    rw [List.getD_eq_getElem _ _ inside, ← List.sum_cons, ← List.drop_eq_getElem_cons inside,
      ← List.sum_append, List.take_append_drop]
  rw [set_eq_around inside, List.sum_append, List.sum_cons, split]
  abel

theorem sum_eq_sum_range (cells : List Data) :
    cells.sum = ∑ place ∈ Finset.range cells.length, cells.getD place 0 := by
  induction cells with
  | nil => rfl
  | cons cell cells ih => simp [Finset.sum_range_succ', ih, add_comm]

/-- **The sum of the last cells** of a history before which there are zeros, over its places. -/
theorem sum_latest (size : ℕ) (past : List Data) :
    (latest size 0 past).sum =
      ∑ place ∈ Finset.Ico (past.length - size) past.length, past.getD place 0 := by
  rcases le_total size past.length with long | short
  · have cut : latest size 0 past = past.drop (past.length - size) := by
      rw [latest, List.drop_append, List.drop_replicate, List.length_replicate,
        Nat.sub_eq_zero_of_le long, List.replicate_zero, List.nil_append]
    rw [cut, sum_eq_sum_range, List.length_drop, Finset.sum_Ico_eq_sum_range]
    exact Finset.sum_congr rfl fun place _ => by rw [List.getD_eq_getElem?_getD,
      List.getD_eq_getElem?_getD, List.getElem?_drop]
  · have whole : latest size 0 past = List.replicate (size - past.length) 0 ++ past := by
      rw [latest, List.drop_append, List.drop_replicate, List.length_replicate,
        Nat.sub_eq_zero_of_le short, List.drop_zero]
    rw [whole, List.sum_append, List.sum_replicate, smul_zero, zero_add, sum_eq_sum_range,
      Nat.sub_eq_zero_of_le short, Finset.range_eq_Ico]

end Sum

end Ring

end Robocon.Lib
