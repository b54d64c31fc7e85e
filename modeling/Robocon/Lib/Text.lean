/-
**Patterns and pieces of a text with a delimiter.**

* `infix_around_iff`, `infix_through_iff` — a pattern in a text with one delimiter: without the
  delimiter it is on one side, with it it ends the first side and starts the second.
* `splitOn_pieces` — a text of pieces that each end with the delimiter, split at the delimiter.
* `idxOf_reverse` — the last place of a delimiter.
-/

import Mathlib

namespace Robocon.Lib

section Text

variable {α : Type*} {mark : α}

/-- A pattern without the delimiter is on one side of it. -/
theorem infix_around_iff {pattern before after : List α} (absent : mark ∉ pattern) :
    pattern <:+: before ++ mark :: after ↔ pattern <:+: before ∨ pattern <:+: after := by
  constructor
  · rintro ⟨front, back, whole⟩
    obtain ⟨rest, rfl, -⟩ | ⟨rest, seam, whole⟩ := List.append_eq_append_iff.mp whole
    · exact Or.inl ⟨front, rest, rfl⟩
    · cases rest with
      | nil => exact Or.inl ⟨front, [], by rw [List.append_nil, seam, List.append_nil]⟩
      | cons first rest =>
        obtain ⟨rfl, rfl⟩ := List.cons.inj whole
        obtain ⟨_, -, rfl⟩ | ⟨cut, -, overlap⟩ := List.append_eq_append_iff.mp seam
        · exact absurd (List.mem_append_right _ List.mem_cons_self) absent
        · cases cut with
          | nil => exact absurd (overlap ▸ List.mem_cons_self : mark ∈ [] ++ pattern) absent
          | cons first cut =>
            obtain ⟨rfl, rfl⟩ := List.cons.inj overlap
            exact Or.inr ⟨cut, back, rfl⟩
  · rintro (before' | after')
    · exact before'.trans List.infix_append_left
    · exact after'.trans ((List.suffix_cons mark after).isInfix.trans List.infix_append_right)

/-- **A pattern with the delimiter** ends the first side and starts the second. -/
theorem infix_through_iff {first second before after : List α} (before_free : mark ∉ before)
    (after_free : mark ∉ after) :
    first ++ mark :: second <:+: before ++ mark :: after ↔ first <:+ before ∧ second <+: after := by
  constructor
  · rintro ⟨front, back, whole⟩
    have seam : before ++ mark :: after = (front ++ first) ++ mark :: (second ++ back) := by
      rw [← whole]
      simp only [List.append_assoc, List.cons_append]
    obtain ⟨rfl, -, rfl⟩ := (List.append_cons_inj_of_notMem before_free after_free).mp seam
    exact ⟨⟨front, rfl⟩, ⟨back, rfl⟩⟩
  · rintro ⟨⟨front, rfl⟩, back, rfl⟩
    exact ⟨front, back, by simp only [List.append_assoc, List.cons_append]⟩

variable [DecidableEq α]

/-- Pieces that each end with the delimiter, split at the delimiter. -/
theorem splitOn_pieces {pieces : List (List α)} {last : List α}
    (free : ∀ piece ∈ pieces, mark ∉ piece) (last_free : mark ∉ last) :
    (pieces.flatMap (fun piece => piece ++ [mark]) ++ last).splitOn mark = pieces ++ [last] := by
  induction pieces with
  | nil => exact List.splitOn_eq_singleton last_free
  | cons piece pieces ih =>
    rw [List.flatMap_cons, List.append_assoc, List.append_assoc, List.singleton_append,
      List.splitOn_append_cons_self_of_not_mem (free piece List.mem_cons_self),
      ih fun other member => free other (List.mem_cons_of_mem piece member), List.cons_append]

/-- The place of a delimiter after which there is no other, counted from the end. -/
theorem idxOf_reverse {before after : List α} (free : mark ∉ after) :
    (before ++ mark :: after).reverse.idxOf mark = after.length := by
  have reversed : (before ++ mark :: after).reverse =
      after.reverse ++ mark :: before.reverse := by
    simp only [List.reverse_append, List.reverse_cons, List.append_assoc, List.singleton_append]
  rw [reversed, List.idxOf_append_of_notMem (mt List.mem_reverse.mp free), List.idxOf_cons_self,
    List.length_reverse, add_zero]

end Text

end Robocon.Lib
