/-
**Fixed-size buffers filled from the front.**

`filled bytes count` is the list of the first `count` cells. Storing at the fill index appends to
it (`filled_set`), and storing at or after the fill index leaves it alone (`filled_set_of_le`).
`cell` reads a buffer of bytes.

`store` and `storeAll` write to a buffer and fail outside of it (`storeAll_isSome`); where the
buffer is a prefix, the old values and a rest, they replace the old values (`store_append`,
`storeAll_append`), and from the front on they fill it (`storeAll_front`).
-/

import Mathlib

namespace Robocon.Lib

/-- A float, as its four bytes. -/
abbrev FloatBytes := Vector UInt8 4

variable {α : Type*} {size : ℕ}

/-- The first `count` cells of a buffer. -/
def filled (bytes : Vector α size) (count : ℕ) : List α := bytes.toList.take count

@[simp] theorem filled_zero (bytes : Vector α size) : filled bytes 0 = [] := List.take_zero

theorem filled_length (bytes : Vector α size) {count : ℕ} (inside : count ≤ size) :
    (filled bytes count).length = count := by
  simp [filled, inside]

/-- The next cell of a buffer extends the filled part. -/
theorem filled_succ (bytes : Vector α size) {index : ℕ} (inside : index < size) :
    filled bytes (index + 1) = filled bytes index ++ [bytes[index]] := by
  have long : index < bytes.toList.length := by simpa using inside
  unfold filled
  rw [List.take_succ_eq_append_getElem long]
  simp

/-- A store at or after the fill index does not touch the filled part. -/
theorem filled_set_of_le (bytes : Vector α size) {index count : ℕ} (value : α)
    (inside : index < size) (before : count ≤ index) :
    filled (bytes.set index value inside) count = filled bytes count := by
  unfold filled
  rw [Vector.toList_set, List.take_set_of_le before]

theorem filled_set (bytes : Vector α size) {index : ℕ} (value : α) (inside : index < size) :
    filled (bytes.set index value inside) (index + 1) = filled bytes index ++ [value] := by
  rw [filled_succ _ inside, filled_set_of_le _ _ _ le_rfl, Vector.getElem_set_self]

theorem filled_full (bytes : Vector α size) : filled bytes size = bytes.toList :=
  List.take_of_length_le bytes.length_toList.le

/-- The byte at an index in range. -/
def cell (bytes : Vector UInt8 size) (index : ℕ) : UInt8 := bytes[index]?.getD 0

theorem cell_eq (bytes : Vector UInt8 size) (index : ℕ) :
    cell bytes index = bytes.toList.getD index 0 := by
  rw [cell, List.getD_eq_getElem?_getD, Vector.getElem?_toList]

theorem cell_filled (bytes : Vector UInt8 size) {index count : ℕ} (before : index < count) :
    cell bytes index = (filled bytes count).getD index 0 := by
  rw [cell_eq, filled, List.getD_eq_getElem?_getD, List.getD_eq_getElem?_getD,
    List.getElem?_take_of_lt before]

theorem filled_cell (bytes : Vector UInt8 size) {index : ℕ} (inside : index < size) :
    filled bytes (index + 1) = filled bytes index ++ [cell bytes index] := by
  rw [filled_succ bytes inside, cell, Vector.getElem?_eq_getElem inside]
  rfl

/-! ### Checked stores -/

/-- `bytes[index] = value`; a write outside the buffer fails. -/
def store (bytes : Vector α size) (index : ℕ) (value : α) : Option (Vector α size) :=
  if inside : index < size then some (bytes.set index value inside) else none

/-- The values from an index on, one after the other. -/
def storeAll (bytes : Vector α size) (index : ℕ) : List α → Option (Vector α size)
  | [] => some bytes
  | value :: values => (store bytes index value).bind fun bytes => storeAll bytes (index + 1) values

theorem storeAll_single (bytes : Vector α size) (index : ℕ) (value : α) :
    storeAll bytes index [value] = store bytes index value := by
  simp [storeAll]

theorem storeAll_concat (first second : List α) : ∀ (bytes : Vector α size) (index : ℕ),
    storeAll bytes index (first ++ second) =
      (storeAll bytes index first).bind fun bytes =>
        storeAll bytes (index + first.length) second := by
  induction first with
  | nil => simp [storeAll]
  | cons value first ih =>
    intro bytes index
    simp only [List.cons_append, storeAll, List.length_cons, Option.bind_assoc, ih]
    simp only [Nat.add_assoc, Nat.add_comm 1]

/-- Stores in a row succeed exactly in the buffer. -/
theorem storeAll_isSome {values : List α} : ∀ {bytes : Vector α size} {index : ℕ},
    index ≤ size → ((storeAll bytes index values).isSome ↔ index + values.length ≤ size) := by
  induction values with
  | nil => simp [storeAll]
  | cons value values ih =>
    intro bytes index _
    rw [storeAll, List.length_cons, store]
    split_ifs with inside
    · rw [Option.bind_some, ih inside]
      omega
    · simp
      omega

theorem store_append (before : List α) {bytes : Vector α size} {after : List α} {old : α}
    (shape : bytes.toList = before ++ old :: after) (value : α) :
    ∃ bytes', store bytes before.length value = some bytes' ∧
      bytes'.toList = before ++ value :: after := by
  have inside : before.length < size := by
    have length := congrArg List.length shape
    rw [Vector.length_toList, List.length_append, List.length_cons] at length
    omega
  refine ⟨_, dif_pos inside, ?_⟩
  rw [Vector.toList_set, shape, List.set_append_right _ _ le_rfl, Nat.sub_self, List.set_cons_zero]

theorem storeAll_append {after : List α} (values : List α) :
    ∀ {bytes : Vector α size} {before old : List α}, bytes.toList = before ++ old ++ after →
      old.length = values.length →
      ∃ bytes', storeAll bytes before.length values = some bytes' ∧
        bytes'.toList = before ++ values ++ after := by
  induction values with
  | nil =>
    intro bytes before old shape length
    rw [List.eq_nil_of_length_eq_zero length] at shape
    exact ⟨bytes, rfl, shape⟩
  | cons value values ih =>
    intro bytes before old shape length
    obtain ⟨first, rest, rfl⟩ := List.exists_cons_of_length_eq_add_one length
    rw [List.append_assoc, List.cons_append] at shape
    obtain ⟨bytes', stored, shape'⟩ := store_append before shape value
    rw [List.append_cons, ← List.append_assoc] at shape'
    obtain ⟨bytes'', stored', shape''⟩ := ih shape' (Nat.succ.inj length)
    refine ⟨bytes'', ?_, ?_⟩
    · rw [storeAll, stored]
      rwa [List.length_append] at stored'
    · rw [shape'', List.append_assoc before, List.singleton_append]

theorem storeAll_front (bytes : Vector α size) {values : List α} (fits : values.length ≤ size) :
    ∃ bytes', storeAll bytes 0 values = some bytes' ∧ filled bytes' values.length = values := by
  have shape : bytes.toList = [] ++ bytes.toList.take values.length ++
      bytes.toList.drop values.length := by
    rw [List.nil_append, List.take_append_drop]
  obtain ⟨bytes', stored, shape'⟩ := storeAll_append values shape (by simpa using fits)
  refine ⟨bytes', stored, ?_⟩
  rw [filled, shape', List.nil_append, List.take_left]

end Robocon.Lib
