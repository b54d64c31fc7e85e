/-
**The search for a CAN id (`motor_get_by_canid` in `motor_dj_rm_driver.c`).**

The search halves an interval of indices whose two ends are `uint8_t`. It is stated here for any
table of records, so that every table of the driver is one of its instances.

* `search_finds` — from an id that is not below the first one, each turn keeps the id between the
  ends, and the search ends with the entry that carries it, or with `RT_NULL`.
* `search_lost` — below the first id the upper end passes zero and wraps to `255`, and the next
  index lies past the end of the table.
* `search_exact` — the two together: the search does what a scan of the table does exactly for the
  ids that are not below the first one.
* `motorGetByCanid_eq` — the search of the driver is an instance.
-/

import Robocon.Dji.Config

namespace Robocon.Dji

section Table

variable {Record : Type*} (canId : Record → ℕ)

/-- The loop of `motor_get_by_canid` on a table of records with their `can_id`s. It fails on a read
past the end of the table, finds `none` for `RT_NULL`, and each turn uses one unit of fuel. -/
def searchTable (table : List Record) (id : ℕ) : ℕ → UInt8 → UInt8 → Option (Option Record)
  | 0, _, _ => none
  | fuel + 1, left, right =>
    if left ≤ right then
      let mid := (left.toNat + right.toNat) / 2
      match table[mid]? with
      | none => none
      | some record =>
        if canId record = id then some (some record)
        else if canId record < id then searchTable table id fuel (UInt8.ofNat (mid + 1)) right
        else searchTable table id fuel left (UInt8.ofNat mid - 1)
    else some none

/-- `motor_get_by_canid` on a table: the ends start at `0` and at `DJ_M_NUM - 1`. -/
def getByCanid (table : List Record) (id fuel : ℕ) : Option (Option Record) :=
  searchTable canId table id fuel 0 (UInt8.ofNat table.length - 1)

/-- The `can_id`s of a table are strictly ascending. -/
def Ascending (table : List Record) : Prop :=
  table.Pairwise fun first second => canId first < canId second

/-- What the search is for: the entry with the id, if the table has one. -/
def scan (table : List Record) (id : ℕ) : Option Record :=
  table.find? fun record => canId record = id

variable {canId}

/-! ### Ascending tables -/

theorem Ascending.lt {table : List Record} (ascending : Ascending canId table) {first second : ℕ}
    (order : first < second) (bound : second < table.length) :
    canId (table.get ⟨first, order.trans bound⟩) < canId (table.get ⟨second, bound⟩) :=
  List.pairwise_iff_get.mp ascending _ _ order

theorem Ascending.head_le {head : Record} {tail : List Record}
    (ascending : Ascending canId (head :: tail)) {record : Record}
    (member : record ∈ head :: tail) : canId head ≤ canId record := by
  rcases List.mem_cons.mp member with rfl | later
  · exact le_rfl
  · exact (List.rel_of_pairwise_cons ascending later).le

/-- In an ascending table only one entry carries an id. -/
theorem Ascending.scan_eq {table : List Record} (ascending : Ascending canId table)
    {record : Record} (member : record ∈ table) :
    scan canId table (canId record) = some record := by
  induction table with
  | nil => cases member
  | cons head tail ih =>
    rw [scan, List.find?_cons]
    rcases List.mem_cons.mp member with rfl | later
    · rw [decide_eq_true rfl]
    · have less : canId head < canId record := List.rel_of_pairwise_cons ascending later
      rw [decide_eq_false less.ne]
      exact ih ascending.of_cons later

theorem scan_eq_none {table : List Record} {id : ℕ}
    (absent : ∀ record ∈ table, canId record ≠ id) : scan canId table id = none :=
  List.find?_eq_none.mpr fun record member same => absent record member (of_decide_eq_true same)

/-! ### One turn of the loop -/

theorem searchTable_succ {table : List Record} {id fuel : ℕ} {left right : UInt8}
    (order : left ≤ right) (inside : (left.toNat + right.toNat) / 2 < table.length) :
    searchTable canId table id (fuel + 1) left right =
      if canId (table.get ⟨_, inside⟩) = id then some (some (table.get ⟨_, inside⟩))
      else if canId (table.get ⟨_, inside⟩) < id then
        searchTable canId table id fuel
          (UInt8.ofNat ((left.toNat + right.toNat) / 2 + 1)) right
      else searchTable canId table id fuel left
        (UInt8.ofNat ((left.toNat + right.toNat) / 2) - 1) := by
  rw [searchTable, if_pos order]
  simp only [List.getElem?_eq_getElem inside, List.get_eq_getElem]

theorem searchTable_past {table : List Record} {id fuel : ℕ} {left right : UInt8}
    (order : left ≤ right) (past : table.length ≤ (left.toNat + right.toNat) / 2) :
    searchTable canId table id (fuel + 1) left right = none := by
  rw [searchTable, if_pos order]
  simp only [List.getElem?_eq_none past]

theorem toNat_ofNat_succ {mid : ℕ} (small : mid < 255) : (UInt8.ofNat (mid + 1)).toNat = mid + 1 :=
  UInt8.toNat_ofNat_of_lt' (show mid + 1 < 256 by omega)

theorem toNat_ofNat_sub_one {mid : ℕ} (positive : 0 < mid) (small : mid < 256) :
    (UInt8.ofNat mid - 1).toNat = mid - 1 := by
  have whole : (UInt8.ofNat mid).toNat = mid := UInt8.toNat_ofNat_of_lt' small
  have one : (1 : UInt8) ≤ UInt8.ofNat mid := by
    rw [UInt8.le_iff_toNat_le, whole]
    exact positive
  rw [UInt8.toNat_sub_of_le _ _ one, whole]
  rfl

theorem ofNat_zero_sub_one : (UInt8.ofNat 0 - 1).toNat = 255 := by decide

/-! ### The search -/

/-- **The loop invariant.** All entries before `left` lie below the id and all entries after
`right` above it. While the first entry does not lie above the id, no end ever wraps. -/
theorem search_finds {table : List Record} {id : ℕ} (small : table.length ≤ 24)
    (ascending : Ascending canId table) (fuel : ℕ) :
    ∀ {left right : UInt8}, right.toNat < table.length → left.toNat ≤ right.toNat + 1 →
      right.toNat + 1 < left.toNat + fuel →
      (∀ index : Fin table.length, index < left.toNat → canId (table.get index) < id) →
      (∀ index : Fin table.length, right.toNat < index → id < canId (table.get index)) →
      (∀ index : Fin table.length, (index : ℕ) = 0 → canId (table.get index) ≤ id) →
      searchTable canId table id fuel left right = some (scan canId table id) := by
  induction fuel with
  | zero => intro left right _ ends enough; omega
  | succ fuel ih =>
    intro left right bound ends enough below above first
    by_cases order : left ≤ right
    · have le : left.toNat ≤ right.toNat := UInt8.le_iff_toNat_le.mp order
      have inside : (left.toNat + right.toNat) / 2 < table.length := by omega
      rw [searchTable_succ order inside]
      by_cases same : canId (table.get ⟨_, inside⟩) = id
      · rw [if_pos same]
        subst same
        rw [ascending.scan_eq (List.get_mem table _)]
      · rw [if_neg same]
        by_cases less : canId (table.get ⟨_, inside⟩) < id
        · rw [if_pos less]
          have next := toNat_ofNat_succ (show (left.toNat + right.toNat) / 2 < 255 by omega)
          refine ih bound (by omega) (by omega) (fun index early => ?_) above first
          rw [next] at early
          rcases Nat.lt_succ_iff_lt_or_eq.mp early with early | equal
          · exact (ascending.lt early inside).trans less
          · rwa [show index = ⟨_, inside⟩ from Fin.ext equal]
        · rw [if_neg less]
          have more : id < canId (table.get ⟨_, inside⟩) := by omega
          have positive : 0 < (left.toNat + right.toNat) / 2 := by
            by_contra zero
            have := first ⟨_, inside⟩ (show (left.toNat + right.toNat) / 2 = 0 by omega)
            omega
          have next := toNat_ofNat_sub_one positive (by omega)
          refine ih (by omega) (by omega) (by omega) below (fun index late => ?_) first
          rw [next] at late
          have since : (left.toNat + right.toNat) / 2 ≤ index := by omega
          rcases Nat.eq_or_lt_of_le since with equal | later
          · rwa [show index = ⟨_, inside⟩ from Fin.ext equal.symm]
          · exact more.trans (ascending.lt later index.isLt)
    · have crossed : right.toNat < left.toNat := by
        rw [UInt8.le_iff_toNat_le] at order
        omega
      have absent : ∀ record ∈ table, canId record ≠ id := by
        intro record member same
        obtain ⟨index, rfl⟩ := List.get_of_mem member
        rcases Nat.lt_or_ge index left.toNat with early | late
        · exact (below index early).ne same
        · exact (above index (by omega)).ne same.symm
      rw [searchTable, if_neg order, scan_eq_none absent]

/-- **Below the first id** the lower end stays at `0`, the upper end falls until it wraps, and the
index after that is `127`. -/
theorem search_lost {table : List Record} {id : ℕ} (small : table.length ≤ 24)
    (below : ∀ record ∈ table, id < canId record) (fuel : ℕ) :
    ∀ {right : UInt8}, right.toNat < table.length ∨ right.toNat = 255 →
      searchTable canId table id fuel 0 right = none := by
  induction fuel with
  | zero => intro right _; rfl
  | succ fuel ih =>
    intro right ends
    have order : (0 : UInt8) ≤ right := UInt8.le_iff_toNat_le.mpr (Nat.zero_le _)
    have zero : (0 : UInt8).toNat = 0 := rfl
    rcases ends with bound | wrapped
    · have inside : ((0 : UInt8).toNat + right.toNat) / 2 < table.length := by omega
      have more := below _ (List.get_mem table ⟨_, inside⟩)
      rw [searchTable_succ order inside, if_neg more.ne', if_neg more.le.not_gt]
      refine ih ?_
      rcases Nat.eq_zero_or_pos (((0 : UInt8).toNat + right.toNat) / 2) with first | positive
      · right
        rw [first]
        exact ofNat_zero_sub_one
      · left
        rw [toNat_ofNat_sub_one positive (by omega)]
        omega
    · exact searchTable_past order (by omega)

theorem toNat_last {table : List Record} (nonempty : table ≠ []) (small : table.length ≤ 24) :
    (UInt8.ofNat table.length - 1).toNat = table.length - 1 :=
  toNat_ofNat_sub_one (List.length_pos_iff.mpr nonempty) (by omega)

/-- With one turn for each entry and one more, the search finds what a scan finds, if the id is not
below the first one. -/
theorem getByCanid_eq {head : Record} {tail : List Record} {id fuel : ℕ}
    (small : (head :: tail).length ≤ 24) (ascending : Ascending canId (head :: tail))
    (first : canId head ≤ id) (enough : (head :: tail).length < fuel) :
    getByCanid canId (head :: tail) id fuel = some (scan canId (head :: tail) id) := by
  have last := toNat_last (List.cons_ne_nil head tail) small
  have positive : 0 < (head :: tail).length := Nat.succ_pos _
  have zero : (0 : UInt8).toNat = 0 := rfl
  refine search_finds small ascending fuel (by omega) (by omega) (by omega)
    (fun index early => ?_) (fun index late => ?_) (fun index start => ?_)
  · omega
  · have := index.isLt
    omega
  · rw [show index = ⟨0, positive⟩ from Fin.ext start]
    exact first

theorem getByCanid_lost {head : Record} {tail : List Record} {id : ℕ}
    (small : (head :: tail).length ≤ 24) (ascending : Ascending canId (head :: tail))
    (below : id < canId head) (fuel : ℕ) : getByCanid canId (head :: tail) id fuel = none := by
  have last := toNat_last (List.cons_ne_nil head tail) small
  refine search_lost small (fun record member => ?_) fuel (Or.inl ?_)
  · exact below.trans_le (ascending.head_le member)
  · rw [last]
    exact Nat.sub_lt (Nat.succ_pos _) Nat.one_pos

/-- **The search of an ascending table** ends with what a scan of the table finds, and reads inside
the table, exactly if the id is not below the first one. -/
theorem search_exact {table : List Record} (nonempty : table ≠ []) (small : table.length ≤ 24)
    (ascending : Ascending canId table) (id : ℕ) :
    (∃ fuel, getByCanid canId table id fuel = some (scan canId table id)) ↔
      canId (table.head nonempty) ≤ id := by
  cases table with
  | nil => exact absurd rfl nonempty
  | cons head tail =>
    refine ⟨fun found => ?_, fun first => ?_⟩
    · obtain ⟨fuel, found⟩ := found
      by_contra below
      rw [getByCanid_lost small ascending (Nat.lt_of_not_le below)] at found
      cases found
    · exact ⟨_, getByCanid_eq small ascending first (Nat.lt_succ_self _)⟩

end Table

/-- The table of one enabled motor, and an id below it and above. -/
theorem search_exact_single :
    ¬ (∃ fuel, getByCanid id [canMotor1Id] 0x200 fuel = some (scan id [canMotor1Id] 0x200)) ∧
      ∃ fuel, getByCanid id [canMotor1Id] 0x205 fuel = some (scan id [canMotor1Id] 0x205) := by
  have ascending : Ascending id [canMotor1Id] := List.pairwise_singleton _ _
  have small : [canMotor1Id].length ≤ 24 := by decide
  refine ⟨fun found => ?_, ?_⟩
  · exact absurd ((search_exact (List.cons_ne_nil _ _) small ascending _).mp found) (by decide)
  · exact (search_exact (List.cons_ne_nil _ _) small ascending _).mpr (by decide)

/-- The filter of the receiving thread admits the id `0x200`. With one motor on the bus, its search
leaves the table. -/
theorem search_below_first :
    ¬ ∃ fuel, getByCanid id [canMotor1Id] 0x200 fuel = some (scan id [canMotor1Id] 0x200) := by
  rintro ⟨fuel, found⟩
  have lost : getByCanid id [canMotor1Id] 0x200 fuel = none :=
    getByCanid_lost (by decide) (List.pairwise_singleton _ _) (by decide) fuel
  rw [lost] at found
  cases found

/-! ### The instance -/

theorem search_eq_searchTable (slots : List Slot) (canId fuel : ℕ) (left right : UInt8) :
    Config.search slots canId fuel left right =
      searchTable Slot.canId slots canId fuel left right := by
  induction fuel generalizing left right with
  | zero => rfl
  | succ fuel ih =>
    rw [Config.search, searchTable]
    simp only [ih]
    cases slots[(left.toNat + right.toNat) / 2]? <;> rfl

/-- The search of the driver is the search of its table. -/
theorem motorGetByCanid_eq (cfg : Config) (canId : ℕ) :
    cfg.motorGetByCanid canId = getByCanid Slot.canId cfg.djSlots canId 256 :=
  search_eq_searchTable _ _ _ _ _

end Robocon.Dji
