/-
**Tables of buckets.**

A table is seen as a function from addresses to buckets, and an entry is put into the bucket at its
address.

* `foldl_at` — after some entries, the bucket at an address is what the entries of this address have
  made of it.
* `sum_filter` — every entry has one address.
-/

import Mathlib

namespace Robocon.Lib

variable {Table Entry Bucket : Type*}

theorem foldl_at (place : Entry → ℕ) (put : Bucket → Entry → Bucket) (view : Table → ℕ → Bucket)
    (step : Table → Entry → Table)
    (puts : ∀ table entry address, view (step table entry) address =
      if place entry = address then put (view table address) entry else view table address)
    (address : ℕ) (entries : List Entry) :
    ∀ table, view (entries.foldl step table) address =
      (entries.filter fun entry => place entry = address).foldl put (view table address) := by
  induction entries with
  | nil => exact fun table => rfl
  | cons entry entries ih =>
    intro table
    rw [List.foldl_cons, ih, puts, List.filter_cons]
    by_cases here : place entry = address
    · rw [if_pos here, if_pos (decide_eq_true here), List.foldl_cons]
    · rw [if_neg here, if_neg fun same => here (of_decide_eq_true same)]

theorem sum_filter (place : Entry → ℕ) (size : ℕ) (entries : List Entry) :
    (∀ entry ∈ entries, place entry < size) →
      ∑ address ∈ Finset.range size, (entries.filter fun entry => place entry = address).length =
        entries.length := by
  induction entries with
  | nil => exact fun _ => Finset.sum_const_zero
  | cons entry entries ih =>
    intro inside
    obtain ⟨here, there⟩ := List.forall_mem_cons.mp inside
    have split : ∀ address, ((entry :: entries).filter fun entry => place entry = address).length =
        (if place entry = address then 1 else 0) +
          (entries.filter fun entry => place entry = address).length := by
      intro address
      rw [List.filter_cons]
      by_cases same : place entry = address
      · simp [same, Nat.add_comm]
      · simp [same]
    rw [Finset.sum_congr rfl fun address _ => split address, Finset.sum_add_distrib, ih there,
      Finset.sum_ite_eq, if_pos (Finset.mem_range.mpr here), List.length_cons, Nat.add_comm]

end Robocon.Lib
