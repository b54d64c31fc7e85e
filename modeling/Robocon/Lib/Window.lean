/-
**Queues in circular buffers.**

A queue in a circular buffer is a window: so many cells from a start on, past the end back to the
front. `setAll` writes values one after the other round the buffer.

* `window_set` — one value is appended behind a window.
* `window_setAll` — values that fit behind the window are appended to it.
* `window_force` — in a full buffer they push the oldest ones out; `window_overrun`: the same for
  a window that they fill first.
* `storeAll_setAll`, `storeAll_wrap` — stores in a row, in one piece or in two, write round the
  buffer.
-/

import Robocon.Lib.Buffer
import Robocon.Lib.Ring

namespace Robocon.Lib

variable {Data : Type*} (cells : List Data) (start : ℕ) {count : ℕ}

/-! ### Windows -/

/-- The queue of `count` cells from `start` on. -/
def window (count : ℕ) : List Data := (ring cells start).take count

theorem window_zero : window cells start 0 = [] := List.take_zero

variable {cells start} in
theorem length_window (fits : count ≤ cells.length) :
    (window cells start count).length = count := by
  rw [window, ring, List.length_take, List.length_rotate, min_eq_left fits]

theorem window_full :
    window cells start cells.length = ring cells start := by
  rw [window, ← List.length_rotate cells start]
  exact List.take_length

variable {cells start} in
theorem getElem?_window {place : ℕ} (fits : count ≤ cells.length) (inside : place < count) :
    (window cells start count)[place]? = cells[(start + place) % cells.length]? := by
  rw [window, ring, List.getElem?_take_of_lt inside, List.getElem?_rotate (inside.trans_le fits),
    Nat.add_comm]

variable {start} in
/-- Different places of a buffer stay different round the end. -/
theorem wrap_ne {size place : ℕ} (less : place < count) (room : count < size) :
    (start + count) % size ≠ (start + place) % size := by
  intro same
  have divides := (Nat.modEq_iff_dvd' (Nat.add_le_add_left less.le start)).mp same.symm
  have gap : start + count - (start + place) < size := by omega
  have zero := Nat.eq_zero_of_dvd_of_lt divides gap
  omega

/-- **A value behind a window** is appended to it. -/
theorem window_set (room : count < cells.length) (new : Data) :
    window (cells.set ((start + count) % cells.length) new) start (count + 1) =
      window cells start count ++ [new] := by
  have positive : 0 < cells.length := Nat.zero_lt_of_lt room
  apply List.ext_getElem?
  intro place
  rcases lt_trichotomy place count with before | rfl | after
  · rw [getElem?_window (by simpa using room) (by omega), List.length_set,
      List.getElem?_set_ne (wrap_ne before room),
      List.getElem?_append_left (by rwa [length_window room.le]), getElem?_window room.le before]
  · rw [getElem?_window (by simpa using room) (by omega), List.length_set,
      List.getElem?_set_self (Nat.mod_lt _ positive),
      List.getElem?_append_right (length_window room.le).le, length_window room.le, Nat.sub_self]
    rfl
  · rw [List.getElem?_eq_none, List.getElem?_eq_none]
    · rw [List.length_append, length_window room.le, List.length_singleton]
      omega
    · rw [length_window (by simpa using room)]
      omega

theorem window_drop (fits : count ≤ cells.length) (taken : ℕ) (enough : taken ≤ count) :
    window cells ((start + taken) % cells.length) (count - taken) =
      (window cells start count).drop taken := by
  apply List.ext_getElem?
  intro place
  rw [List.getElem?_drop]
  by_cases within : taken + place < count
  · rw [getElem?_window (by omega) (by omega), getElem?_window fits within, Nat.mod_add_mod,
      Nat.add_assoc]
  · rw [List.getElem?_eq_none, List.getElem?_eq_none]
    · rw [length_window fits]
      omega
    · rw [length_window (by omega)]
      omega

/-- The cells of a window that lie before the end of the buffer. -/
theorem window_linear {taken : ℕ} (within : start + taken ≤ cells.length) (enough : taken ≤ count) :
    (cells.drop start).take taken = (window cells start count).take taken := by
  have inside : start ≤ cells.length := by omega
  have long : taken ≤ (cells.drop start).length := by
    rw [List.length_drop]
    omega
  rw [window, List.take_take, min_eq_left enough, ring, List.rotate_eq_drop_append_take inside,
    List.take_append_of_le_length long]

/-- The cells of a window that reaches past the end of the buffer, in two pieces. -/
theorem window_wrap {taken : ℕ} (inside : start < cells.length)
    (past : cells.length ≤ start + taken) (enough : taken ≤ count) (fits : count ≤ cells.length) :
    cells.drop start ++ cells.take (taken - (cells.length - start)) =
      (window cells start count).take taken := by
  have front : (cells.drop start).length ≤ taken := by
    rw [List.length_drop]
    omega
  have back : taken - (cells.length - start) ≤ start := by omega
  rw [window, List.take_take, min_eq_left enough, ring, List.rotate_eq_drop_append_take inside.le,
    List.take_append, List.take_of_length_le front, List.length_drop, List.take_take,
    min_eq_left back]

/-! ### Values round the buffer -/

/-- Values written one after the other from a place on, past the end back to the front. -/
def setAll (cells : List Data) (place : ℕ) : List Data → List Data
  | [] => cells
  | value :: values => setAll (cells.set place value) ((place + 1) % cells.length) values

@[simp]
theorem length_setAll (values : List Data) : ∀ (cells : List Data) (place : ℕ),
    (setAll cells place values).length = cells.length := by
  induction values with
  | nil => exact fun cells place => rfl
  | cons value values ih =>
    intro cells place
    rw [setAll, ih, List.length_set]

theorem setAll_append (first second : List Data) : ∀ (cells : List Data) (place : ℕ),
    place < cells.length →
    setAll cells place (first ++ second) =
      setAll (setAll cells place first) ((place + first.length) % cells.length) second := by
  induction first with
  | nil =>
    intro cells place inside
    rw [List.nil_append, setAll, List.length_nil, Nat.add_zero, Nat.mod_eq_of_lt inside]
  | cons value first ih =>
    intro cells place inside
    have next : (place + 1) % cells.length < cells.length :=
      Nat.mod_lt _ (Nat.zero_lt_of_lt inside)
    rw [List.cons_append, setAll, setAll, ih _ _ (by rwa [List.length_set]), List.length_set,
      Nat.mod_add_mod, List.length_cons, Nat.add_assoc, Nat.add_comm 1]

/-- **Values that fit behind a window** are appended to it. -/
theorem window_setAll (values : List Data) : ∀ (cells : List Data) (start : ℕ) {count : ℕ},
    count + values.length ≤ cells.length →
    window (setAll cells ((start + count) % cells.length) values) start (count + values.length) =
      window cells start count ++ values := by
  induction values with
  | nil => exact fun _ _ _ _ => (List.append_nil _).symm
  | cons value values ih =>
    intro cells start count fits
    rw [List.length_cons] at fits
    have length : (cells.set ((start + count) % cells.length) value).length = cells.length :=
      List.length_set
    have fits' : count + 1 + values.length ≤
        (cells.set ((start + count) % cells.length) value).length := by omega
    have later := ih (cells.set ((start + count) % cells.length) value) start fits'
    rw [length, window_set cells start (by omega), List.append_assoc,
      List.singleton_append] at later
    rw [setAll, Nat.mod_add_mod, List.length_cons, ← later, Nat.add_assoc start,
      show count + (values.length + 1) = count + 1 + values.length by omega]

/-- **Values written into a full buffer** push as many of the oldest ones out. -/
theorem window_force (values : List Data) : ∀ (cells : List Data) {start : ℕ},
    start < cells.length →
    window (setAll cells start values) ((start + values.length) % cells.length) cells.length =
      (window cells start cells.length ++ values).drop values.length := by
  induction values with
  | nil =>
    intro cells start inside
    rw [setAll, List.length_nil, Nat.add_zero, Nat.mod_eq_of_lt inside, List.append_nil,
      List.drop_zero]
  | cons value values ih =>
    intro cells start inside
    have length : (cells.set start value).length = cells.length := List.length_set
    have next : (start + 1) % cells.length < (cells.set start value).length := by
      rw [length]
      exact Nat.mod_lt _ (Nat.zero_lt_of_lt inside)
    have shifted : window (cells.set start value) ((start + 1) % cells.length) cells.length =
        (window cells start cells.length).tail ++ [value] := by
      conv_lhs => rw [← length, window_full]
      rw [window_full, ← ring_set inside value, length]
    have later := ih _ next
    rw [length, shifted, List.append_assoc, List.singleton_append] at later
    have some : window cells start cells.length ≠ [] := by
      rw [← List.length_pos_iff_ne_nil, length_window le_rfl]
      exact Nat.zero_lt_of_lt inside
    have cut : (window cells start cells.length ++ value :: values).drop (value :: values).length =
        ((window cells start cells.length).tail ++ value :: values).drop values.length := by
      rw [List.length_cons, Nat.add_comm, ← List.drop_drop, List.drop_one, List.tail_append_of_ne_nil
        some]
    rw [setAll, cut, ← later, Nat.mod_add_mod, List.length_cons, Nat.add_assoc,
      Nat.add_comm 1 values.length]

/-- **Values that overrun a window** fill the buffer and then push the oldest ones out. -/
theorem window_overrun {values : List Data} (inside : start < cells.length)
    (fits : count ≤ cells.length) (overrun : cells.length ≤ count + values.length) :
    window (setAll cells ((start + count) % cells.length) values)
        ((start + count + values.length) % cells.length) cells.length =
      (window cells start count ++ values).drop (count + values.length - cells.length) := by
  have split := List.take_append_drop (cells.length - count) values
  have filling : (values.take (cells.length - count)).length = cells.length - count := by
    rw [List.length_take, min_eq_left (by omega)]
  have rest :
      (values.drop (cells.length - count)).length = count + values.length - cells.length := by
    rw [List.length_drop]
    omega
  have fits' : count + (values.take (cells.length - count)).length ≤ cells.length := by omega
  have filled := window_setAll (values.take (cells.length - count)) cells start fits'
  rw [filling, Nat.add_sub_cancel' fits] at filled
  have place :
      ((start + count) % cells.length + (cells.length - count)) % cells.length = start := by
    rw [Nat.mod_add_mod, show start + count + (cells.length - count) = start + cells.length by omega,
      Nat.add_mod_right, Nat.mod_eq_of_lt inside]
  have forced := window_force (values.drop (cells.length - count))
    (setAll cells ((start + count) % cells.length) (values.take (cells.length - count)))
    (show start < _ by rwa [length_setAll])
  rw [length_setAll, filled, rest, List.append_assoc, split] at forced
  have landing : start + (count + values.length - cells.length) + cells.length =
      start + count + values.length := by omega
  rw [← forced, ← landing, Nat.add_mod_right]
  congr 1
  conv_lhs => rw [← split]
  rw [setAll_append _ _ _ _ (Nat.mod_lt _ (Nat.zero_lt_of_lt inside)), filling, place]

/-! ### Stores in a row -/

variable {size : ℕ}

theorem storeAll_setAll (values : List Data) : ∀ (bytes : Vector Data size) {place : ℕ},
    place + values.length ≤ size →
    ∃ bytes', storeAll bytes place values = some bytes' ∧
      bytes'.toList = setAll bytes.toList place values := by
  induction values with
  | nil => exact fun _ _ _ => ⟨_, rfl, rfl⟩
  | cons value values ih =>
    intro bytes place fits
    rw [List.length_cons] at fits
    have inside : place < size := by omega
    obtain ⟨bytes', stored, cells⟩ :=
      ih (bytes.set place value inside) (show place + 1 + values.length ≤ size by omega)
    refine ⟨bytes', ?_, ?_⟩
    · rw [storeAll, store, dif_pos inside]
      exact stored
    · rw [cells, setAll, Vector.toList_set, Vector.length_toList]
      cases values with
      | nil => rfl
      | cons other values =>
        rw [List.length_cons] at fits
        rw [Nat.mod_eq_of_lt (by omega)]

/-- Stores in two pieces, the second one at the front of the buffer. -/
theorem storeAll_wrap (bytes : Vector Data size) {place : ℕ} {values : List Data}
    (inside : place < size) (past : size ≤ place + values.length) (fits : values.length ≤ size) :
    ∃ first second, storeAll bytes place (values.take (size - place)) = some first ∧
      storeAll first 0 (values.drop (size - place)) = some second ∧
      second.toList = setAll bytes.toList place values := by
  have front : (values.take (size - place)).length = size - place := by
    rw [List.length_take, min_eq_left (by omega)]
  obtain ⟨first, stored, cells⟩ :=
    storeAll_setAll (values.take (size - place)) bytes
      (show place + (values.take (size - place)).length ≤ size by omega)
  obtain ⟨second, stored', cells'⟩ :=
    storeAll_setAll (values.drop (size - place)) first
      (show 0 + (values.drop (size - place)).length ≤ size by rw [List.length_drop]; omega)
  refine ⟨first, second, stored, stored', ?_⟩
  conv_rhs => rw [← List.take_append_drop (size - place) values]
  rw [setAll_append _ _ _ _ (by rwa [Vector.length_toList]), cells', cells, front,
    Vector.length_toList, Nat.add_sub_cancel' inside.le, Nat.mod_self]

end Robocon.Lib
