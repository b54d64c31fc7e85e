/-
**Byte streams that avoid a pair.**

A recogniser of a two-byte header reads a stream from left to right. `Apart first second stream`
says that the header never stands in it; the lemmas cut off the last byte, so that an induction over
the stream can follow the recogniser. `trailing` counts the bytes that a stream ends with; a
recogniser that drops `first` together with the byte before it follows its parity.
-/

import Mathlib

namespace Robocon.Lib

variable {α : Type*} {first second : α} {stream : List α} {last : α}

/-- The stream does not contain `first` directly before `second`. -/
def Apart (first second : α) (stream : List α) : Prop := ¬ [first, second] <:+: stream

instance [DecidableEq α] : Decidable (Apart first second stream) :=
  inferInstanceAs (Decidable (¬ _))

theorem Apart.init (apart : Apart first second (stream ++ [last])) : Apart first second stream :=
  fun inside => apart (inside.trans (List.infix_append' [] stream [last]))

theorem Apart.last_ne (apart : Apart first second (stream ++ [last]))
    (ends : stream.getLast? = some first) : last ≠ second := by
  rintro rfl
  obtain ⟨front, rfl⟩ := List.getLast?_eq_some_iff.mp ends
  exact apart ⟨front, [], by simp⟩

/-! ### The end of a stream -/

section Trailing

variable [DecidableEq α]

/-- The number of bytes `first` at the end of a stream. -/
def trailing (first : α) (stream : List α) : ℕ := (stream.rtakeWhile (· = first)).length

theorem trailing_append : trailing first (stream ++ [last]) =
    if last = first then trailing first stream + 1 else 0 := by
  unfold trailing
  rw [List.rtakeWhile_concat]
  by_cases same : last = first
  · simp [same]
  · simp [same]

theorem getLast_of_trailing (some : trailing first stream ≠ 0) : stream.getLast? = .some first := by
  rcases List.eq_nil_or_concat stream with rfl | ⟨front, last, rfl⟩
  · exact absurd rfl some
  · rw [List.concat_eq_append] at some ⊢
    rw [trailing_append] at some
    rw [List.getLast?_concat, (ite_ne_right_iff.mp some).1]

end Trailing

end Robocon.Lib
