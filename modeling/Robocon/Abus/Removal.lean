/-
**Removal from a hash table, and the destruction of topics.**

`HashTableRemove` walks along a bucket with the node before the current one in hand. It compares the
name of a free first entry, which is null, and has no node before the first entry; so it fails on
both. It never changes the count.

* `tables` — tables under insertions and removals; `Distinct`: their keys are pairwise distinct.
* `Bucket.remove_cases` — what a removal that does not fail does to a bucket.
* `removes_iff` — a removal does what it is for exactly if there is nothing to do for it.
* `topicLife` — the bus with `abus_topic_destroy`; `destroys_iff`: a topic is destroyed exactly if
  another topic stands in the array at its address and it has a table of its own.
-/

import Robocon.Abus.Accounts
import Robocon.Abus.Delivery
import Robocon.Abus.Map

namespace Robocon.Abus

open Lib

variable {Data : Type}

/-! ### Buckets -/

/-- A search for other entries does not notice an erasure. -/
theorem find?_eraseP {Entry : Type} {hit other : Entry → Bool}
    (apart : ∀ entry, hit entry = true → other entry = false) (entries : List Entry) :
    (entries.eraseP hit).find? other = entries.find? other := by
  induction entries with
  | nil => rfl
  | cons entry entries ih =>
    by_cases here : hit entry = true
    · rw [List.eraseP_cons_of_pos here, List.find?_cons_of_neg]
      rw [apart entry here]
      exact Bool.false_ne_true
    · rw [List.eraseP_cons_of_neg here, List.find?_cons, List.find?_cons, ih]

/-- Among distinct keys an erasure erases every entry of the key. -/
theorem not_mem_eraseP {entries : List (CString × Data)} {key : CString}
    (distinct : (entries.map Prod.fst).Nodup) (data : Data) :
    (key, data) ∉ entries.eraseP fun entry => entry.1 = key := by
  induction entries with
  | nil => exact List.not_mem_nil
  | cons entry entries ih =>
    obtain ⟨first, rest⟩ := List.nodup_cons.mp distinct
    by_cases here : entry.1 = key
    · rw [List.eraseP_cons, decide_eq_true here, cond_true]
      exact fun member => first (List.mem_map.mpr ⟨(key, data), member, here.symm⟩)
    · rw [List.eraseP_cons, decide_eq_false here, cond_false, List.mem_cons]
      rintro (rfl | member)
      · exact here rfl
      · exact ih rest member

/-- The keys of the entries of a bucket are pairwise distinct. -/
def Bucket.Distinct (bucket : Bucket Data) : Prop := (bucket.entries.map Prod.fst).Nodup

namespace Bucket

variable {bucket bucket' : Bucket Data} {key : CString}

/-- A removal that does not fail has another key before it, and erases behind that. -/
theorem remove_cases (removes : bucket.remove key = some bucket') :
    ∃ head, bucket.head = some head ∧ head.1 ≠ key ∧
      bucket' = ⟨some head, bucket.chain.eraseP fun entry => entry.1 = key⟩ := by
  obtain ⟨head, chain⟩ := bucket
  cases head with
  | none => cases removes
  | some head =>
    unfold remove at removes
    simp only at removes
    split at removes
    · cases removes
    case isFalse other => exact ⟨head, rfl, other, (Option.some.inj removes).symm⟩

theorem remove_isSome : (∃ bucket', bucket.remove key = some bucket') ↔
    ∃ head, bucket.head = some head ∧ head.1 ≠ key := by
  constructor
  · rintro ⟨bucket', removes⟩
    obtain ⟨head, here, other, -⟩ := remove_cases removes
    exact ⟨head, here, other⟩
  · rintro ⟨head, here, other⟩
    refine ⟨⟨some head, bucket.chain.eraseP fun entry => entry.1 = key⟩, ?_⟩
    unfold remove
    rw [here]
    exact if_neg other

theorem entries_removed (removes : bucket.remove key = some bucket') :
    bucket'.entries = bucket.entries.eraseP fun entry => entry.1 = key := by
  obtain ⟨head, here, other, rfl⟩ := remove_cases removes
  show head :: bucket.chain.eraseP _ = (bucket.head.toList ++ bucket.chain).eraseP _
  rw [here, Option.toList_some, List.singleton_append, List.eraseP_cons, decide_eq_false other,
    cond_false]

theorem search_removed_ne (removes : bucket.remove key = some bucket') {key' : CString}
    (other : key' ≠ key) : bucket'.search key' = bucket.search key' := by
  rw [search, search, entries_removed removes, find?_eraseP]
  intro entry hit
  refine decide_eq_false fun same => other ?_
  rw [← same]
  exact of_decide_eq_true hit

/-- Among distinct keys the removed one is not found any more. -/
theorem search_removed (distinct : bucket.Distinct) (removes : bucket.remove key = some bucket') :
    bucket'.search key = none := by
  rw [search_eq_none, entries_removed removes]
  exact not_mem_eraseP distinct

theorem Distinct.removed (distinct : bucket.Distinct) (removes : bucket.remove key = some bucket') :
    bucket'.Distinct := by
  rw [Distinct, entries_removed removes]
  exact distinct.sublist ((List.eraseP_sublist).map Prod.fst)

theorem length_removed (removes : bucket.remove key = some bucket') :
    bucket'.entries.length + (bucket.removed key).toList.length = bucket.entries.length := by
  obtain ⟨head, here, other, rfl⟩ := remove_cases removes
  show (head :: bucket.chain.eraseP _).length + _ =
    (bucket.head.toList ++ bucket.chain).length
  rw [here, removed, List.length_cons, List.length_eraseP]
  cases hit : bucket.chain.find? fun entry => entry.1 = key with
  | none =>
    have absent : (bucket.chain.any fun entry => entry.1 = key) = false := by
      simpa using hit
    simp [absent]
  | some entry =>
    have present : (bucket.chain.any fun entry => entry.1 = key) = true := by
      refine List.any_eq_true.mpr ⟨entry, List.mem_of_find?_eq_some hit, ?_⟩
      simpa using List.find?_some hit
    have some : 0 < bucket.chain.length :=
      List.length_pos_of_mem (List.mem_of_find?_eq_some hit)
    simp [present]
    omega

/-- Nothing is taken out exactly if the key is not found. -/
theorem removed_eq_none (removes : bucket.remove key = some bucket') :
    bucket.removed key = none ↔ bucket.search key = none := by
  obtain ⟨head, here, other, -⟩ := remove_cases removes
  obtain ⟨first, chain⟩ := bucket
  obtain rfl : first = some head := here
  rw [search_cons, if_neg other]
  rfl

theorem length_insert (bucket : Bucket Data) (key : CString) (data : Data) :
    (bucket.insert key data).entries.length = bucket.entries.length + 1 := by
  obtain ⟨head, chain⟩ := bucket
  cases head with
  | none => rfl
  | some head => rfl

theorem Distinct.insert (distinct : bucket.Distinct) (absent : bucket.search key = none)
    (data : Data) : (bucket.insert key data).Distinct := by
  have fresh : key ∉ bucket.entries.map Prod.fst := by
    intro member
    obtain ⟨⟨name, data⟩, here, rfl⟩ := List.mem_map.mp member
    exact search_eq_none.mp absent data here
  obtain ⟨head, chain⟩ := bucket
  cases head with
  | none => exact List.nodup_cons.mpr ⟨fresh, distinct⟩
  | some head =>
    have both := List.nodup_cons.mp distinct
    have apart : key ≠ head.1 ∧ key ∉ chain.map Prod.fst :=
      not_or.mp fun member => fresh (List.mem_cons.mpr member)
    refine List.nodup_cons.mpr ⟨fun member => ?_, List.nodup_cons.mpr ⟨apart.2, both.2⟩⟩
    rcases List.mem_cons.mp member with same | member
    · exact apart.1 same.symm
    · exact both.1 member

end Bucket

/-! ### Tables -/

namespace HashTable

/-- The keys in every bucket are pairwise distinct. -/
def Distinct (table : HashTable Data) : Prop := ∀ address, (table.bucketAt address).Distinct

variable {table table' : HashTable Data} {key : CString}

theorem remove_bucketAt (removes : table.remove key = some table') :
    ∃ bucket, (table.bucketAt (hashFunction key)).remove key = some bucket ∧
      table'.listSize = table.listSize ∧ table'.count = table.count ∧
      ∀ address, table'.bucketAt address =
        if hashFunction key = address then bucket else table.bucketAt address := by
  obtain ⟨bucket, removed, rfl⟩ := Option.map_eq_some_iff.mp removes
  rw [bucketAt_address]
  exact ⟨bucket, removed, rfl, rfl, fun address => table.getD_set key bucket address⟩

/-- A removal fails exactly if the entry in the array is free or has the key itself. -/
theorem remove_isSome : (∃ table', table.remove key = some table') ↔
    ∃ head, (table.bucketAt (hashFunction key)).head = some head ∧ head.1 ≠ key := by
  rw [← Bucket.remove_isSome, bucketAt_address]
  constructor
  · rintro ⟨table', removes⟩
    obtain ⟨bucket, removed, -⟩ := Option.map_eq_some_iff.mp removes
    exact ⟨bucket, removed⟩
  · rintro ⟨bucket, removed⟩
    exact ⟨_, Option.map_eq_some_iff.mpr ⟨bucket, removed, rfl⟩⟩

theorem removed_eq (table : HashTable Data) (key : CString) :
    table.removed key = (table.bucketAt (hashFunction key)).removed key := by
  rw [bucketAt_address]
  rfl

/-- **A removal that does not fail** unbinds the key, and no other one. -/
theorem search_remove (distinct : table.Distinct) (removes : table.remove key = some table')
    (key' : CString) : table'.search key' = if key' = key then none else table.search key' := by
  obtain ⟨bucket, removed, -, -, after⟩ := remove_bucketAt removes
  rw [search_eq, search_eq, after]
  by_cases same : key' = key
  · subst same
    rw [if_pos rfl, if_pos rfl]
    exact Bucket.search_removed (distinct _) removed
  · rw [if_neg same]
    split
    case isTrue here =>
      rw [← here]
      exact Bucket.search_removed_ne removed same
    case isFalse => rfl

theorem Distinct.remove (distinct : table.Distinct) (removes : table.remove key = some table') :
    table'.Distinct := by
  obtain ⟨bucket, removed, -, -, after⟩ := remove_bucketAt removes
  intro address
  rw [after]
  split
  · exact (distinct _).removed removed
  · exact distinct address

theorem Distinct.insert (distinct : table.Distinct) (absent : table.search key = none)
    (data : Data) : (table.insert key data).Distinct := by
  intro address
  rw [bucketAt_insert]
  split
  case isTrue here =>
    rw [search_eq, here] at absent
    exact (distinct address).insert absent data
  case isFalse => exact distinct address

theorem distinct_init (size : ℕ) : (init size : HashTable Data).Distinct := by
  intro address
  rw [bucketAt_init]
  exact List.nodup_nil

/-- The stored nodes of two tables that agree but for the bucket of a key. -/
theorem stored_change (size : table'.listSize = table.listSize)
    (elsewhere : ∀ address : ℕ, (hashFunction key : ℕ) ≠ address →
      table'.bucketAt address = table.bucketAt address) :
    table'.stored + (table.bucketAt (hashFunction key)).entries.length =
      table.stored + (table'.bucketAt (hashFunction key)).entries.length := by
  have inside := Finset.mem_range.mpr (table.hash_lt key)
  have rest : ∑ address ∈ (Finset.range table.listSize).erase (hashFunction key : ℕ),
        (table'.bucketAt address).entries.length =
      ∑ address ∈ (Finset.range table.listSize).erase (hashFunction key : ℕ),
        (table.bucketAt address).entries.length := by
    refine Finset.sum_congr rfl fun address member => ?_
    rw [elsewhere address (Finset.ne_of_mem_erase member).symm]
  rw [stored, stored, size, ← Finset.add_sum_erase _ _ inside,
    ← Finset.add_sum_erase _ (fun address => (table.bucketAt address).entries.length) inside, rest]
  omega

theorem stored_remove (removes : table.remove key = some table') :
    table'.stored + (table.removed key).toList.length = table.stored := by
  obtain ⟨bucket, removed, size, -, after⟩ := remove_bucketAt removes
  have change := stored_change size fun address other => (after address).trans (if_neg other)
  have shorter := Bucket.length_removed removed
  rw [after, if_pos rfl] at change
  rw [removed_eq]
  omega

theorem stored_insert (table : HashTable Data) (key : CString) (data : Data) :
    (table.insert key data).stored = table.stored + 1 := by
  have after := table.bucketAt_insert key data
  have same : (table.insert key data).listSize = table.listSize := rfl
  have change := stored_change same fun address other => (after address).trans (if_neg other)
  rw [after, if_pos rfl, Bucket.length_insert] at change
  omega

end HashTable

/-! ### Tables under insertions and removals -/

/-- The calls on a table. -/
inductive TableOp (Data : Type)
  | insert (key : CString) (data : Data)
  | remove (key : CString)

/-- A table as a machine. It puts out the data of the nodes that are unlinked. -/
def tables : Machine (HashTable Data) (TableOp Data) Data where
  step table
    | .insert key data => some (table.insert key data, [])
    | .remove key => (table.remove key).map fun table' => (table', (table.removed key).toList)

/-- A key is inserted only while it is not in the table. -/
def Fresh (table : HashTable Data) : TableOp Data → Prop
  | .insert key _ => table.search key = none
  | .remove _ => True

/-- A removal that does what it is for: it ends, the key is not found any more, every other lookup
is as before, and the count is the number of stored nodes. -/
def Removes (table : HashTable Data) (key : CString) : Prop :=
  ∃ table', table.remove key = some table' ∧ table'.search key = none ∧
    (∀ key', key' ≠ key → table'.search key' = table.search key') ∧ table'.count = table'.stored

/-- **Every step** keeps the keys distinct, and counts the nodes stored but not those taken out. -/
theorem tables_step {table table' : HashTable Data} {op : TableOp Data} {output : List Data}
    (distinct : table.Distinct) (fresh : Fresh table op)
    (step : tables.step table op = some (table', output)) :
    table'.Distinct ∧
      table'.count + table.stored = table'.stored + table.count + output.length := by
  cases op with
  | insert key data =>
    obtain ⟨rfl, rfl⟩ := Prod.mk.inj (Option.some.inj step)
    refine ⟨distinct.insert fresh data, ?_⟩
    rw [HashTable.stored_insert, List.length_nil]
    show table.count + 1 + table.stored = _
    omega
  | remove key =>
    obtain ⟨table'', removes, same⟩ := Option.map_eq_some_iff.mp step
    obtain ⟨rfl, rfl⟩ := Prod.mk.inj same
    have missing := HashTable.stored_remove removes
    obtain ⟨-, -, -, count, -⟩ := HashTable.remove_bucketAt removes
    exact ⟨distinct.remove removes, by omega⟩

/-- **Every run** keeps the keys distinct, and its count is the number of stored nodes and of those
taken out. -/
theorem tables_run {size : ℕ} {ops : List (TableOp Data)} {outs : List Data}
    {table : HashTable Data} (run : tables.RunOn Fresh (.init size) ops outs table) :
    table.Distinct ∧ table.count = table.stored + outs.length := by
  have kept : ∀ {start final : HashTable Data} {ops outs}, tables.RunOn Fresh start ops outs final →
      start.Distinct → final.Distinct ∧
        final.count + start.stored = final.stored + start.count + outs.length := by
    intro start final ops outs run
    induction run with
    | nil table => exact fun distinct => ⟨distinct, Nat.add_comm _ _⟩
    | cons fresh step _ ih =>
      intro distinct
      obtain ⟨distinct', here⟩ := tables_step distinct fresh step
      obtain ⟨last, there⟩ := ih distinct'
      rw [List.length_append]
      exact ⟨last, by omega⟩
  obtain ⟨distinct, count⟩ := kept run (HashTable.distinct_init size)
  have none : (HashTable.init size : HashTable Data).stored = 0 :=
    HashTable.stored_insertAll size []
  rw [none] at count
  exact ⟨distinct, count⟩

/-- **Removal.** A removal does what it is for exactly if another key stands in the array at the
address of the key, the key is not in the table, and no removal before took a node out. -/
theorem removes_iff {size : ℕ} {ops : List (TableOp Data)} {outs : List Data}
    {table : HashTable Data} (run : tables.RunOn Fresh (.init size) ops outs table)
    (key : CString) :
    Removes table key ↔
      (∃ head, (table.bucketAt (hashFunction key)).head = some head ∧ head.1 ≠ key) ∧
        table.search key = none ∧ outs = [] := by
  obtain ⟨distinct, count⟩ := tables_run run
  rw [← HashTable.remove_isSome]
  constructor
  · rintro ⟨table', removes, -, -, right⟩
    have missing := HashTable.stored_remove removes
    obtain ⟨bucket, removed, -, same, -⟩ := HashTable.remove_bucketAt removes
    refine ⟨⟨table', removes⟩, ?_, List.eq_nil_of_length_eq_zero (by omega)⟩
    have none : (table.removed key).toList.length = 0 := by omega
    rw [HashTable.search_eq, ← Bucket.removed_eq_none removed, ← HashTable.removed_eq,
      ← Option.toList_eq_nil_iff]
    exact List.eq_nil_of_length_eq_zero none
  · rintro ⟨⟨table', removes⟩, absent, rfl⟩
    have missing := HashTable.stored_remove removes
    obtain ⟨bucket, removed, -, same, -⟩ := HashTable.remove_bucketAt removes
    rw [HashTable.search_eq, ← Bucket.removed_eq_none removed, ← HashTable.removed_eq] at absent
    rw [absent] at missing
    refine ⟨table', removes, ?_, fun key' other => ?_, ?_⟩
    · rw [HashTable.search_remove distinct removes, if_pos rfl]
    · rw [HashTable.search_remove distinct removes, if_neg other]
    · rw [same, count, ← missing]
      rfl

/-! ### The destruction of topics -/

/-- The bus, and the records of topics that are freed. -/
structure TopicLife where
  bus : Bus
  freed : List ℕ

/-- The calls of the bus and `abus_topic_destroy`. -/
inductive TopicCall
  | bus (op : Op)
  | topicDestroy (topic : Option ℕ)

/-- The topic whose record a call reads. -/
def Op.touches (bus : Bus) : Op → Option ℕ
  | .subcribe topic _ _ => (bus.topicFindByName topic).bind id
  | .unsubcribe topic _ => (bus.topicFindByName topic).bind id
  | .publish topic _ => (bus.topicFindByName topic).bind id
  | .wait subcriber => some subcriber.topic
  | .topicCreate _ _ | .accounterCreate _ => none

namespace TopicLife

/-- `abus_topic_destroy`. It asserts that the pointers are not null, and `HashTableDestroy` reads
the list of the topic's own table. -/
def topicDestroy (life : TopicLife) (topic : Option ℕ) : Option TopicLife := do
  let number ← topic
  let table ← life.bus.topicsTable
  let top ← life.bus.topics[number]?
  if number ∈ life.freed then none
  else
    let table ← table.remove top.name
    let _ ← top.subHashTable
    return ⟨{ life.bus with topicsTable := some table }, number :: life.freed⟩

/-- The topic is freed, and no name finds it any more. -/
def Destroys (life : TopicLife) (topic : ℕ) : Prop :=
  ∃ life', life.topicDestroy (some topic) = some life' ∧
    ∀ name, life'.bus.topicFindByName name ≠ some (some topic)

end TopicLife

/-- The bus with the destruction of topics as a machine. A call that reads a freed record fails. -/
def topicLife : Machine TopicLife TopicCall Event where
  step life
    | .bus op =>
      if (op.touches life.bus).any fun topic => topic ∈ life.freed then none
      else (abus.step life.bus op).map fun next => (⟨next.1, life.freed⟩, next.2)
    | .topicDestroy topic => (life.topicDestroy topic).map fun life => (life, [])

/-- A topic is created only while no topic has its name. -/
def FreshTopic (life : TopicLife) : TopicCall → Prop
  | .bus (.topicCreate name _) => (life.bus.topicFindByName name).bind id = none
  | _ => True

/-- A destruction removes the topic's name from the table, and the topic has a table of its own. -/
theorem topicDestroy_iff {life life' : TopicLife} {topic : ℕ} :
    life.topicDestroy (some topic) = some life' ↔
      ∃ table top table', life.bus.topicsTable = some table ∧ life.bus.topics[topic]? = some top ∧
        topic ∉ life.freed ∧ table.remove top.name = some table' ∧ top.subHashTable.isSome = true ∧
        life' = ⟨{ life.bus with topicsTable := some table' }, topic :: life.freed⟩ := by
  constructor
  · intro destroyed
    obtain ⟨table, here, rest⟩ := Option.bind_eq_some_iff.mp destroyed
    obtain ⟨top, record, rest⟩ := Option.bind_eq_some_iff.mp rest
    split at rest
    · cases rest
    case isFalse live =>
      obtain ⟨table', removes, rest⟩ := Option.bind_eq_some_iff.mp rest
      obtain ⟨own, given, rest⟩ := Option.bind_eq_some_iff.mp rest
      exact ⟨table, top, table', here, record, live, removes, by rw [given]; rfl,
        (Option.some.inj rest).symm⟩
  · rintro ⟨table, top, table', here, record, live, removes, own, rfl⟩
    obtain ⟨sub, given⟩ := Option.isSome_iff_exists.mp own
    simp [TopicLife.topicDestroy, here, record, live, removes, given]

/-- The bus is well-formed, and the keys of its table of topics are distinct. -/
structure Orderly (life : TopicLife) : Prop where
  formed : WellFormed life.bus
  distinct : ∀ table, life.bus.topicsTable = some table → table.Distinct

theorem Orderly.find_destroy {life : TopicLife} (orderly : Orderly life)
    {table table' : HashTable ℕ} (here : life.bus.topicsTable = some table) {name : CString}
    (removes : table.remove name = some table') (name' : CString) :
    ({ life.bus with topicsTable := some table' } : Bus).topicFindByName name' =
      if name' = name then some none else life.bus.topicFindByName name' := by
  show some (table'.search name') = _
  rw [HashTable.search_remove (orderly.distinct table here) removes, Bus.topicFindByName, here]
  split
  · rfl
  · rfl

theorem Orderly.topicCreate {life : TopicLife} (orderly : Orderly life) {name : CString}
    {cfg : TopicCfg} (fresh : (life.bus.topicFindByName name).bind id = none) :
    Orderly ⟨life.bus.topicCreate name cfg, life.freed⟩ where
  formed := orderly.formed.topicCreate name cfg
  distinct table here := by
    obtain rfl := Option.some.inj here
    rw [Bus.topicFindByName, ← search_getD _ Bus.topicTableSize] at fresh
    refine HashTable.Distinct.insert ?_ fresh _
    cases before : life.bus.topicsTable with
    | none => exact HashTable.distinct_init _
    | some table => exact orderly.distinct table before

theorem Orderly.topicDestroy {life life' : TopicLife} {topic : ℕ} (orderly : Orderly life)
    (destroyed : life.topicDestroy (some topic) = some life') : Orderly life' := by
  obtain ⟨table, top, table', here, record, live, removes, own, rfl⟩ :=
    topicDestroy_iff.mp destroyed
  refine ⟨⟨fun found => ?_, orderly.formed.accounts, orderly.formed.subcribers⟩,
    fun last same => ?_⟩
  · rw [orderly.find_destroy here removes] at found
    split at found
    · cases Option.some.inj found
    · exact orderly.formed.topics found
  · obtain rfl := Option.some.inj same
    exact (orderly.distinct table here).remove removes

/-- **Every step** keeps the bus orderly. -/
theorem Orderly.next {life life' : TopicLife} {call : TopicCall} {events : List Event}
    (orderly : Orderly life) (fresh : FreshTopic life call)
    (step : topicLife.step life call = some (life', events)) : Orderly life' := by
  cases call with
  | bus op =>
    obtain ⟨-, stepped⟩ := Option.ite_none_left_eq_some.mp step
    obtain ⟨⟨bus, output⟩, step', same⟩ := Option.map_eq_some_iff.mp stepped
    obtain ⟨rfl, rfl⟩ := Prod.mk.inj same
    cases creates : op.creates with
    | none =>
      refine ⟨orderly.formed.next step', fun table here => ?_⟩
      have kept := (orderly.formed.uncreated creates step').2
      exact orderly.distinct table (kept ▸ here)
    | some name =>
      obtain ⟨cfg, rfl⟩ := creates_eq_some creates
      obtain ⟨rfl, -⟩ := Prod.mk.inj (Option.some.inj step')
      exact orderly.topicCreate fresh
  | topicDestroy topic =>
    obtain ⟨after, destroyed, same⟩ := Option.map_eq_some_iff.mp step
    obtain ⟨rfl, rfl⟩ := Prod.mk.inj same
    cases topic with
    | none => cases destroyed
    | some topic => exact orderly.topicDestroy destroyed

theorem orderly_reachable {sems : Address → ℕ} {calls : List TopicCall} {events : List Event}
    {life : TopicLife} (run : topicLife.RunOn FreshTopic ⟨.initial sems, []⟩ calls events life) :
    Orderly life :=
  run.invariant Orderly (fun _ _ _ _ fresh orderly step => orderly.next fresh step)
    ⟨.initial sems, fun _ none => by cases none⟩

/-- **Destruction.** A topic that is not freed is destroyed, with no name left that finds it,
exactly if another topic stands in the array at the address of its name and it has a table of its
own. -/
theorem destroys_iff {sems : Address → ℕ} {calls : List TopicCall} {events : List Event}
    {life : TopicLife} (run : topicLife.RunOn FreshTopic ⟨.initial sems, []⟩ calls events life)
    {topic : ℕ} {top : Topic} (record : life.bus.topics[topic]? = some top)
    (live : topic ∉ life.freed) :
    life.Destroys topic ↔
      (∃ table head, life.bus.topicsTable = some table ∧
        (table.bucketAt (hashFunction top.name)).head = some head ∧ head.1 ≠ top.name) ∧
      top.subHashTable.isSome = true := by
  have orderly := orderly_reachable run
  constructor
  · rintro ⟨life', destroyed, -⟩
    obtain ⟨table, top', table', here, record', -, removes, own, -⟩ :=
      topicDestroy_iff.mp destroyed
    obtain rfl := Option.some.inj (record.symm.trans record')
    obtain ⟨head, first, other⟩ := HashTable.remove_isSome.mp ⟨table', removes⟩
    exact ⟨⟨table, head, here, first, other⟩, own⟩
  · rintro ⟨⟨table, head, here, first, other⟩, own⟩
    obtain ⟨table', removes⟩ := HashTable.remove_isSome.mpr ⟨head, first, other⟩
    refine ⟨_, topicDestroy_iff.mpr ⟨table, top, table', here, record, live, removes, own, rfl⟩,
      fun name found => ?_⟩
    rw [orderly.find_destroy here removes] at found
    split at found
    · cases Option.some.inj found
    case isFalse apart =>
      obtain ⟨top', record', named⟩ := orderly.formed.topics found
      obtain rfl := Option.some.inj (record.symm.trans record')
      exact apart named.symm

/-- **Removal and destruction.** A removal does what it is for exactly if another key stands in the
array at the address of the key, the key is not in the table, and no removal before took a node out.
A topic is destroyed exactly if another topic stands in the array at the address of its name and it
has a table of its own. -/
theorem remove_destroy_iff {size : ℤ} {ops : List (TableOp Data)} {outs : List Data}
    {table : HashTable Data} (run : tables.RunOn Fresh (.init size.toNat) ops outs table)
    (key : CString) {sems : Address → ℕ} {calls : List TopicCall} {events : List Event}
    {life : TopicLife} (lived : topicLife.RunOn FreshTopic ⟨.initial sems, []⟩ calls events life)
    {topic : ℕ} {top : Topic} (record : life.bus.topics[topic]? = some top)
    (live : topic ∉ life.freed) :
    (Removes table key ↔
      (∃ head, (table.bucketAt (hashFunction key)).head = some head ∧ head.1 ≠ key) ∧
        table.search key = none ∧ outs = []) ∧
    (life.Destroys topic ↔
      (∃ table head, life.bus.topicsTable = some table ∧
        (table.bucketAt (hashFunction top.name)).head = some head ∧ head.1 ≠ top.name) ∧
      top.subHashTable.isSome = true) :=
  ⟨removes_iff run key, destroys_iff lived record live⟩

/-! ### The entry in the array, and the one behind it -/

/-- A table with one key, which stands in the array. -/
def oneKey : HashTable ℕ := (HashTable.init 0).insert firstName 1

theorem oneKey_run : tables.RunOn Fresh (.init (0 : ℤ).toNat) [.insert firstName 1] [] oneKey :=
  .single (HashTable.search_init 0 firstName) rfl

/-- Two topics with tables of their own whose names collide. -/
def twoTopics : TopicLife :=
  ⟨((Bus.initial fun _ => 0).topicCreate firstName ⟨16, 1⟩).topicCreate secondName ⟨16, 1⟩, []⟩

theorem twoTopics_run : topicLife.RunOn FreshTopic ⟨.initial fun _ => 0, []⟩
    [.bus (.topicCreate firstName ⟨16, 1⟩), .bus (.topicCreate secondName ⟨16, 1⟩)] []
    twoTopics := by
  have first : FreshTopic ⟨.initial fun _ => 0, []⟩ (.bus (.topicCreate firstName ⟨16, 1⟩)) := rfl
  have second : FreshTopic ⟨(Bus.initial fun _ => 0).topicCreate firstName ⟨16, 1⟩, []⟩
      (.bus (.topicCreate secondName ⟨16, 1⟩)) := by
    show (Bus.topicFindByName _ secondName).bind id = none
    decide +kernel
  have last : topicLife.step ⟨(Bus.initial fun _ => 0).topicCreate firstName ⟨16, 1⟩, []⟩
      (.bus (.topicCreate secondName ⟨16, 1⟩)) = some (twoTopics, []) := rfl
  exact .cons first rfl (.single second last)

/-- A key that is not in the table is removed behind another one, and a topic behind another one is
destroyed. -/
theorem remove_destroy_iff_behind :
    Removes oneKey secondName ∧ twoTopics.Destroys 1 := by
  have record : twoTopics.bus.topics[1]? = some (.created secondName ⟨16, 1⟩) := rfl
  obtain ⟨removal, destruction⟩ :=
    remove_destroy_iff oneKey_run secondName twoTopics_run record List.not_mem_nil
  refine ⟨removal.mpr ⟨⟨(firstName, 1), by decide +kernel, by decide⟩, by decide +kernel, rfl⟩,
    destruction.mpr ⟨⟨_, (firstName, 0), rfl, by decide +kernel, by decide⟩, rfl⟩⟩

/-- **The first entry of a bucket cannot be removed**: there is no node before it. Nor can a topic
there be destroyed. -/
theorem head_unremovable :
    (∃ ops outs table, tables.RunOn Fresh (.init (0 : ℤ).toNat : HashTable ℕ) ops outs table ∧
      table.remove firstName = none) ∧
    ∃ calls events life, topicLife.RunOn FreshTopic ⟨.initial fun _ => 0, []⟩ calls events life ∧
      (life.topicDestroy (some 0)).isNone = true := by
  refine ⟨⟨_, _, oneKey, oneKey_run, ?_⟩, _, _, twoTopics, twoTopics_run, ?_⟩
  · have failed : (oneKey.remove firstName).isNone = true := by decide +kernel
    exact Option.isNone_iff_eq_none.mp failed
  · decide +kernel

end Robocon.Abus
