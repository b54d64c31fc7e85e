/-
**Circular lists of linked nodes.**

A list is an anchor and the nodes that its links run through, in a circle. The links are kept in the
nodes themselves, so that a node is in one list at most, and is taken out of it without knowing
which one it is in.

* `Links.init`, `Links.insertBefore`, `Links.remove`, `Links.isEmpty`, `Links.lenFrom` — the
  operations on links.
* `Path` — the links run from a node through a list to a node.
* `Arranged` — the links of all nodes are those of lists that share none; other nodes are alone.
* `Arranged.insertBefore`, `Arranged.remove` — a node that is inserted before an anchor is appended
  to its list, and one that is removed is erased; all other lists stay as they are.
* `Arranged.isEmpty_iff`, `Arranged.next_anchor`, `Arranged.lenFrom` — what is read.
-/

import Mathlib

namespace Robocon.Lib

/-- The links of every node to the next and to the previous one. -/
@[ext] structure Links (Node : Type*) where
  next : Node → Node
  prev : Node → Node

namespace Links

variable {Node : Type*}

/-- Every node is alone. -/
def alone : Links Node where
  next := id
  prev := id

variable [DecidableEq Node]

/-- Node `l` is alone. -/
def init (s : Links Node) (l : Node) : Links Node where
  next := Function.update s.next l l
  prev := Function.update s.prev l l

/-- Node `n` is put before node `l`. -/
def insertBefore (s : Links Node) (l n : Node) : Links Node :=
  let next := Function.update s.next (s.prev l) n
  let prev := Function.update s.prev n (s.prev l)
  let prev := Function.update prev l n
  let next := Function.update next n l
  { next, prev }

/-- Node `n` is taken out. -/
def remove (s : Links Node) (n : Node) : Links Node :=
  let prev := Function.update s.prev (s.next n) (s.prev n)
  let next := Function.update s.next (prev n) (s.next n)
  let prev := Function.update prev n n
  let next := Function.update next n n
  { next, prev }

theorem insertBefore_next_of_ne (s : Links Node) {l n z : Node} (last : z ≠ s.prev l)
    (new : z ≠ n) : (s.insertBefore l n).next z = s.next z := by
  simp [insertBefore, last, new]

theorem insertBefore_prev_of_ne (s : Links Node) {l n z : Node} (anchor : z ≠ l) (new : z ≠ n) :
    (s.insertBefore l n).prev z = s.prev z := by
  simp [insertBefore, anchor, new]

theorem remove_next_of_ne {s : Links Node} {n z : Node} (linked : s.next n ≠ n)
    (before : z ≠ s.prev n) (other : z ≠ n) : (s.remove n).next z = s.next z := by
  simp [remove, before, other, linked.symm]

theorem remove_prev_of_ne (s : Links Node) {n z : Node} (after : z ≠ s.next n) (other : z ≠ n) :
    (s.remove n).prev z = s.prev z := by
  simp [remove, after, other]

theorem init_alone {s : Links Node} {n : Node} (next : s.next n = n) (prev : s.prev n = n) :
    s.init n = s := by
  apply Links.ext
  · exact Function.update_eq_self_iff.mpr next.symm
  · exact Function.update_eq_self_iff.mpr prev.symm

/-- **A node that is alone** may be removed. -/
theorem remove_alone {s : Links Node} {n : Node} (next : s.next n = n) (prev : s.prev n = n) :
    s.remove n = s := by
  have next' : Function.update s.next n n = s.next := Function.update_eq_self_iff.mpr next.symm
  have prev' : Function.update s.prev n n = s.prev := Function.update_eq_self_iff.mpr prev.symm
  apply Links.ext
  · simp [remove, next, prev, next']
  · simp [remove, next, prev, prev']

/-- Nothing is linked to node `l`. -/
def isEmpty (s : Links Node) (l : Node) : Bool := s.next l = l

/-- The nodes after `p`, up to node `l`. -/
def lenFrom (s : Links Node) (l : Node) : ℕ → Node → Option ℕ
  | 0, _ => none
  | fuel + 1, p => if s.next p = l then some 0 else (lenFrom s l fuel (s.next p)).map (· + 1)

/-! ### Paths -/

omit [DecidableEq Node] in
/-- The links run from a node through a list of nodes to a node. -/
def Path (s : Links Node) : Node → List Node → Node → Prop
  | a, [], b => s.next a = b ∧ s.prev b = a
  | a, c :: l, b => s.next a = c ∧ s.prev c = a ∧ Path s c l b

namespace Path

variable {s s' : Links Node}

omit [DecidableEq Node] in
theorem append_iff {l l' : List Node} {c : Node} : ∀ {a b : Node},
    Path s a (l ++ c :: l') b ↔ Path s a l c ∧ Path s c l' b := by
  induction l with
  | nil => exact and_assoc.symm
  | cons d l ih =>
    intro a b
    show _ ∧ _ ∧ Path s d (l ++ c :: l') b ↔ (_ ∧ _ ∧ Path s d l c) ∧ _
    rw [ih, and_assoc, and_assoc]

omit [DecidableEq Node] in
theorem prev_mem {l : List Node} : ∀ {a b : Node}, Path s a l b → s.prev b ∈ a :: l := by
  induction l with
  | nil => exact fun path => List.mem_singleton.mpr path.2
  | cons c l ih => exact fun path => List.mem_cons_of_mem _ (ih path.2.2)

omit [DecidableEq Node] in
/-- **The frame rule.** A path that is not written to stays. -/
theorem frame {l : List Node} : ∀ {a b : Node}, Path s a l b →
    (∀ z ∈ a :: l, s'.next z = s.next z) → (∀ z ∈ l ++ [b], s'.prev z = s.prev z) →
    Path s' a l b := by
  induction l with
  | nil =>
    intro a b path next prev
    exact ⟨(next a List.mem_cons_self).trans path.1, (prev b List.mem_cons_self).trans path.2⟩
  | cons c l ih =>
    intro a b path next prev
    refine ⟨(next a List.mem_cons_self).trans path.1, (prev c List.mem_cons_self).trans path.2.1,
      ih path.2.2 (fun z member => next z (List.mem_cons_of_mem a member))
        fun z member => prev z (List.mem_cons_of_mem c member)⟩

omit [DecidableEq Node] in
/-- **The last link** of a path may be led elsewhere. -/
theorem redirect {l : List Node} {b y : Node} : ∀ {a : Node}, Path s a l b → (a :: l).Nodup →
    (∀ z ∈ a :: l, z ≠ s.prev b → s'.next z = s.next z) → (∀ z ∈ l, s'.prev z = s.prev z) →
    s'.next (s.prev b) = y → s'.prev y = s.prev b → Path s' a l y := by
  induction l with
  | nil =>
    intro a path _ _ _ there back
    rw [path.2] at there back
    exact ⟨there, back⟩
  | cons c l ih =>
    intro a path once next prev there back
    obtain ⟨first, once⟩ := List.nodup_cons.mp once
    have inner : a ≠ s.prev b := fun same => first (same ▸ path.2.2.prev_mem)
    refine ⟨(next a List.mem_cons_self inner).trans path.1,
      (prev c List.mem_cons_self).trans path.2.1, ih path.2.2 once
        (fun z member => next z (List.mem_cons_of_mem a member))
        (fun z member => prev z (List.mem_cons_of_mem c member)) there back⟩

omit [DecidableEq Node] in
theorem next_eq {l : List Node} {a b : Node} (path : Path s a l b) :
    s.next a = l.head?.getD b := by
  cases l with
  | nil => exact path.1
  | cons c l => exact path.1

theorem lenFrom_eq {l : List Node} {b : Node} : ∀ {a : Node} {fuel : ℕ}, Path s a l b → b ∉ l →
    l.length < fuel → s.lenFrom b fuel a = some l.length := by
  induction l with
  | nil =>
    intro a fuel path _ enough
    cases fuel with
    | zero => cases enough
    | succ fuel => exact if_pos path.1
  | cons c l ih =>
    intro a fuel path outside enough
    obtain ⟨other, outside⟩ := not_or.mp (mt List.mem_cons.mpr outside)
    cases fuel with
    | zero => cases enough
    | succ fuel =>
      have on : s.next a ≠ b := fun same => other (same.symm.trans path.1)
      rw [lenFrom, if_neg on, path.1, ih path.2.2 outside (Nat.lt_of_succ_lt_succ enough)]
      rfl

/-- **A node is inserted** at the end of a circle. -/
theorem insertBefore {l : List Node} {a n : Node} (path : Path s a l a) (once : (a :: l).Nodup)
    (fresh : n ∉ a :: l) : Path (s.insertBefore a n) a (l ++ [n]) a := by
  have different {z : Node} (member : z ∈ a :: l) : z ≠ n := fun same => fresh (same ▸ member)
  have last := different path.prev_mem
  refine append_iff.mpr ⟨path.redirect once
    (fun z member inner => s.insertBefore_next_of_ne inner (different member))
    (fun z member => s.insertBefore_prev_of_ne ?_ (different (List.mem_cons_of_mem a member)))
    ?_ ?_, ?_, ?_⟩
  · rintro rfl
    exact (List.nodup_cons.mp once).1 member
  · simp [Links.insertBefore, last]
  · simp [Links.insertBefore, (different List.mem_cons_self).symm]
  · simp [Links.insertBefore]
  · simp [Links.insertBefore]

omit [DecidableEq Node] in
theorem neighbours {l : List Node} {a n : Node} (path : Path s a l a) (here : n ∈ l) :
    s.prev n ∈ a :: l ∧ s.next n ∈ a :: l := by
  obtain ⟨l₁, l₂, rfl⟩ := List.append_of_mem here
  obtain ⟨before, after⟩ := append_iff.mp path
  refine ⟨List.mem_append_left (n :: l₂) before.prev_mem, ?_⟩
  cases l₂ with
  | nil => exact after.1 ▸ List.mem_cons_self
  | cons c l₂ => simp [after.1]

omit [DecidableEq Node] in
theorem next_ne {l : List Node} {a n : Node} (path : Path s a l a) (once : (a :: l).Nodup)
    (here : n ∈ l) : s.next n ≠ n := by
  obtain ⟨l₁, l₂, rfl⟩ := List.append_of_mem here
  obtain ⟨-, after⟩ := append_iff.mp path
  cases l₂ with
  | nil =>
    rw [after.1]
    rintro rfl
    exact (List.nodup_cons.mp once).1 here
  | cons c l₂ =>
    rw [after.1]
    rintro rfl
    have inner := (List.nodup_cons.mp once).2.of_append_right
    exact (List.nodup_cons.mp inner).1 List.mem_cons_self

/-- **A node is removed** from a circle. -/
theorem remove {l₁ l₂ : List Node} {a n : Node} (path : Path s a (l₁ ++ n :: l₂) a)
    (once : (a :: (l₁ ++ n :: l₂)).Nodup) : Path (s.remove n) a (l₁ ++ l₂) a := by
  have linked := path.next_ne once (List.mem_append_right _ List.mem_cons_self)
  obtain ⟨before, after⟩ := append_iff.mp path
  rw [← List.cons_append] at once
  have apart := List.disjoint_of_nodup_append once
  have once₁ := once.of_append_left
  have once₂ := List.nodup_cons.mp once.of_append_right
  have own₁ {z : Node} (member : z ∈ a :: l₁) : z ≠ n :=
    fun same => apart member (same ▸ List.mem_cons_self)
  have own₂ {z : Node} (member : z ∈ l₂) : z ≠ n := fun same => once₂.1 (same ▸ member)
  have last := before.prev_mem
  have there : (s.remove n).next (s.prev n) = s.next n := by
    simp [Links.remove, own₁ last, linked.symm]
  have back : (s.remove n).prev (s.next n) = s.prev n := by
    simp [Links.remove, linked]
  have head (outside : s.next n ∉ l₁) : Path (s.remove n) a l₁ (s.next n) := by
    refine before.redirect once₁ (fun z member inner => ?_) (fun z member => ?_) there back
    · exact remove_next_of_ne linked inner (own₁ member)
    · refine s.remove_prev_of_ne ?_ (own₁ (List.mem_cons_of_mem a member))
      rintro rfl
      exact outside member
  cases l₂ with
  | nil =>
    rw [after.1] at head
    rw [List.append_nil]
    exact head (List.nodup_cons.mp once₁).1
  | cons c l₂ =>
    have tail := List.nodup_cons.mp once₂.2
    rw [after.1] at head
    refine append_iff.mpr ⟨head fun member => ?_, after.2.2.frame (fun z member => ?_)
      fun z member => ?_⟩
    · exact apart (List.mem_cons_of_mem a member) (List.mem_cons_of_mem n List.mem_cons_self)
    · refine remove_next_of_ne linked ?_ (own₂ member)
      rintro rfl
      exact apart last (List.mem_cons_of_mem n member)
    · rw [List.mem_append, List.mem_singleton] at member
      refine s.remove_prev_of_ne ?_ ?_
      · rw [after.1]
        rintro rfl
        rcases member with late | rfl
        · exact tail.1 late
        · exact apart List.mem_cons_self (List.mem_cons_of_mem n List.mem_cons_self)
      · rcases member with late | rfl
        · exact own₂ (List.mem_cons_of_mem c late)
        · exact own₁ List.mem_cons_self

end Path

/-! ### Lists -/

/-- The links are those of the lists, which share no nodes; a node in none of them is alone. -/
structure Arranged {Head : Type*} (s : Links Node) (anchor : Head → Node)
    (lists : Head → List Node) : Prop where
  ring : ∀ h, s.Path (anchor h) (lists h) (anchor h)
  once : ∀ h, (anchor h :: lists h).Nodup
  apart : ∀ n h h', n ∈ anchor h :: lists h → n ∈ anchor h' :: lists h' → h = h'
  alone : ∀ n, (∀ h, n ∉ anchor h :: lists h) → s.next n = n ∧ s.prev n = n

namespace Arranged

variable {Head : Type*} {anchor : Head → Node} {lists : Head → List Node} {s : Links Node}

omit [DecidableEq Node] in
theorem init (injective : Function.Injective anchor) :
    Arranged (Links.alone : Links Node) anchor fun _ => [] where
  ring _ := ⟨rfl, rfl⟩
  once _ := List.nodup_singleton _
  apart n h h' here there := by
    rw [List.mem_singleton] at here there
    exact injective (here.symm.trans there)
  alone _ _ := ⟨rfl, rfl⟩

omit [DecidableEq Node] in
theorem next_anchor (arranged : Arranged s anchor lists) (h : Head) :
    s.next (anchor h) = (lists h).head?.getD (anchor h) :=
  (arranged.ring h).next_eq

omit [DecidableEq Node] in
theorem anchor_not_mem (arranged : Arranged s anchor lists) (h h' : Head) :
    anchor h ∉ lists h' := by
  intro member
  obtain rfl := arranged.apart _ h h' List.mem_cons_self (List.mem_cons_of_mem _ member)
  exact (List.nodup_cons.mp (arranged.once h)).1 member

theorem isEmpty_iff (arranged : Arranged s anchor lists) (h : Head) :
    s.isEmpty (anchor h) = true ↔ lists h = [] := by
  rw [isEmpty, decide_eq_true_iff, arranged.next_anchor]
  cases list : lists h with
  | nil => exact ⟨fun _ => rfl, fun _ => rfl⟩
  | cons n l =>
    have other : n ≠ anchor h := by
      rintro rfl
      exact arranged.anchor_not_mem h h (list ▸ List.mem_cons_self)
    exact ⟨fun same => absurd same other, fun none => by cases none⟩

theorem lenFrom (arranged : Arranged s anchor lists) (h : Head) {fuel : ℕ}
    (enough : (lists h).length < fuel) :
    s.lenFrom (anchor h) fuel (anchor h) = some (lists h).length :=
  (arranged.ring h).lenFrom_eq (arranged.anchor_not_mem h h) enough

variable [DecidableEq Head]

omit [DecidableEq Node] in
/-- What stands in the lists after a node was appended. -/
theorem mem_append_iff {n z : Node} {h h' : Head} :
    z ∈ anchor h' :: Function.update lists h (lists h ++ [n]) h' ↔
      z ∈ anchor h' :: lists h' ∨ h' = h ∧ z = n := by
  by_cases same : h' = h
  · subst same
    simp [or_assoc]
  · simp [same]

/-- **A node is inserted before an anchor.** -/
theorem insertBefore (arranged : Arranged s anchor lists) (h : Head) {n : Node}
    (fresh : ∀ h', n ∉ anchor h' :: lists h') :
    Arranged (s.insertBefore (anchor h) n) anchor
      (Function.update lists h (lists h ++ [n])) := by
  have last := (arranged.ring h).prev_mem
  have different {z : Node} {h' : Head} (member : z ∈ anchor h' :: lists h') : z ≠ n :=
    fun same => fresh h' (same ▸ member)
  refine ⟨fun h' => ?_, fun h' => ?_, fun z h₁ h₂ here there => ?_, fun z outside => ?_⟩
  · by_cases same : h' = h
    · subst same
      rw [Function.update_self]
      exact (arranged.ring h').insertBefore (arranged.once h') (fresh h')
    · rw [Function.update_of_ne same]
      refine (arranged.ring h').frame (fun z member => ?_) fun z member => ?_
      · refine s.insertBefore_next_of_ne ?_ (different member)
        rintro rfl
        exact same (arranged.apart _ h' h member last)
      · rw [List.mem_append, List.mem_singleton, or_comm, ← List.mem_cons] at member
        refine s.insertBefore_prev_of_ne ?_ (different member)
        rintro rfl
        exact same (arranged.apart _ h' h member List.mem_cons_self)
  · by_cases same : h' = h
    · subst same
      rw [Function.update_self, ← List.cons_append]
      exact (arranged.once h').append (List.nodup_singleton n)
        (List.disjoint_singleton.mpr (fresh h'))
    · rw [Function.update_of_ne same]
      exact arranged.once h'
  · rw [mem_append_iff] at here there
    rcases here with here | ⟨rfl, rfl⟩
    · rcases there with there | ⟨rfl, rfl⟩
      · exact arranged.apart z h₁ h₂ here there
      · exact absurd here (fresh h₁)
    · rcases there with there | ⟨rfl, -⟩
      · exact absurd there (fresh h₂)
      · rfl
  · have before (h' : Head) : z ∉ anchor h' :: lists h' :=
      fun member => outside h' (mem_append_iff.mpr (Or.inl member))
    have other : z ≠ n := fun same => outside h (mem_append_iff.mpr (Or.inr ⟨rfl, same⟩))
    have not_last : z ≠ s.prev (anchor h) := by
      rintro rfl
      exact before h last
    have not_anchor : z ≠ anchor h := by
      rintro rfl
      exact before h List.mem_cons_self
    rw [s.insertBefore_next_of_ne not_last other, s.insertBefore_prev_of_ne not_anchor other]
    exact arranged.alone z before

/-- What stands in the lists after a node was erased. -/
theorem mem_erase_iff (arranged : Arranged s anchor lists) {n z : Node} {h h' : Head}
    (here : n ∈ lists h) :
    z ∈ anchor h' :: Function.update lists h ((lists h).erase n) h' ↔
      z ∈ anchor h' :: lists h' ∧ z ≠ n := by
  have own : anchor h' ≠ n := by
    rintro rfl
    exact arranged.anchor_not_mem h' h here
  by_cases same : h' = h
  · subst same
    have once := (List.nodup_cons.mp (arranged.once h')).2
    rw [Function.update_self, List.mem_cons, List.mem_cons, once.mem_erase_iff]
    constructor
    · rintro (rfl | ⟨other, member⟩)
      · exact ⟨Or.inl rfl, own⟩
      · exact ⟨Or.inr member, other⟩
    · rintro ⟨rfl | member, other⟩
      · exact Or.inl rfl
      · exact Or.inr ⟨other, member⟩
  · rw [Function.update_of_ne same]
    refine ⟨fun member => ⟨member, ?_⟩, And.left⟩
    rintro rfl
    exact same (arranged.apart _ h' h member (List.mem_cons_of_mem _ here))

/-- **A node is removed** from the list that it is in. -/
theorem remove (arranged : Arranged s anchor lists) {h : Head} {n : Node} (here : n ∈ lists h) :
    Arranged (s.remove n) anchor (Function.update lists h ((lists h).erase n)) := by
  have linked := (arranged.ring h).next_ne (arranged.once h) here
  obtain ⟨prev_in, next_in⟩ := (arranged.ring h).neighbours here
  refine ⟨fun h' => ?_, fun h' => ?_, fun z h₁ h₂ in₁ in₂ => ?_, fun z outside => ?_⟩
  · by_cases same : h' = h
    · subst same
      obtain ⟨l₁, l₂, split⟩ := List.append_of_mem here
      have ring := arranged.ring h'
      have once := arranged.once h'
      rw [split] at ring once
      have first : n ∉ l₁ := fun member =>
        List.disjoint_of_nodup_append (List.nodup_cons.mp once).2 member List.mem_cons_self
      rw [Function.update_self, split, List.erase_append_right _ first, List.erase_cons_head]
      exact ring.remove once
    · rw [Function.update_of_ne same]
      have elsewhere {z : Node} (member : z ∈ anchor h' :: lists h') :
          z ∉ anchor h :: lists h := fun inside => same (arranged.apart z h' h member inside)
      have other {z : Node} (member : z ∈ anchor h' :: lists h') : z ≠ n := by
        rintro rfl
        exact elsewhere member (List.mem_cons_of_mem _ here)
      refine (arranged.ring h').frame (fun z member => ?_) fun z member => ?_
      · refine remove_next_of_ne linked ?_ (other member)
        rintro rfl
        exact elsewhere member prev_in
      · rw [List.mem_append, List.mem_singleton, or_comm, ← List.mem_cons] at member
        refine s.remove_prev_of_ne ?_ (other member)
        rintro rfl
        exact elsewhere member next_in
  · by_cases same : h' = h
    · subst same
      rw [Function.update_self]
      exact (arranged.once h').sublist (List.erase_sublist.cons_cons _)
    · rw [Function.update_of_ne same]
      exact arranged.once h'
  · rw [arranged.mem_erase_iff here] at in₁ in₂
    exact arranged.apart z h₁ h₂ in₁.1 in₂.1
  · by_cases same : z = n
    · subst same
      exact ⟨Function.update_self .., Function.update_self ..⟩
    · have before (h' : Head) : z ∉ anchor h' :: lists h' :=
        fun member => outside h' ((arranged.mem_erase_iff here).mpr ⟨member, same⟩)
      have not_prev : z ≠ s.prev n := by
        rintro rfl
        exact before h prev_in
      have not_next : z ≠ s.next n := by
        rintro rfl
        exact before h next_in
      rw [remove_next_of_ne linked not_prev same, s.remove_prev_of_ne not_next same]
      exact arranged.alone z before

end Arranged

end Links

end Robocon.Lib
