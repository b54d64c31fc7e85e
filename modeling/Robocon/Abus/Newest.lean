/-
**Which of two registrations of a name counts.**

`HashTableInsert` puts a key into the array if the place at its address is free, and otherwise at
the front of the chain behind it; `HashTableSearch` looks at the array first. So a key that stands
in the array hides every later insertion of the same key.

* `created` — the names of the topics created so far; `Recorded`: they are the insertions into the
  table of the topics. Every step keeps it (`Recorded.next`).
* `search_newest_iff` — an insertion is found exactly if the oldest key at its address is another
  one, or was inserted with the same data.
* `newest_wins_iff` — so a new topic of an old name is found, and published to, exactly if the first
  topic created at the name's address has another name.
-/

import Robocon.Abus.Delivery
import Robocon.Abus.Map

namespace Robocon.Abus

open Lib

/-! ### Tables -/

section Tables

variable {Data : Type}

/-- The first entry inserted at the address of a key. -/
def oldestAt (entries : List (CString × Data)) (key : CString) : Option (CString × Data) :=
  entries.find? fun entry => hashFunction entry.1 = hashFunction key

theorem HashTable.head_insertAll (size : ℕ) (entries : List (CString × Data)) (key : CString) :
    (((init size).insertAll entries).bucketAt (hashFunction key)).head = oldestAt entries key := by
  rw [bucketAt_insertAll, Bucket.head_built, List.head?_filter, oldestAt]
  congr 1
  funext entry
  exact decide_eq_decide.mpr Fin.val_inj

theorem HashTable.headKey_insertAll (size : ℕ) (entries : List (CString × Data)) (key : CString) :
    ((init size).insertAll entries).headKey key = (oldestAt entries key).map Prod.fst := by
  rw [headKey_eq, Bucket.headKey, head_insertAll]

/-- **The newest registration in a table.** An insertion is found exactly if the oldest key at its
address is another one, or has the same data. -/
theorem search_newest_iff (size : ℕ) (entries : List (CString × Data)) (key : CString)
    (data : Data) :
    (((HashTable.init size).insertAll entries).insert key data).search key = some data ↔
      ∀ oldest, oldestAt entries key = some oldest → oldest.1 = key → oldest.2 = data := by
  rw [HashTable.search_insert, HashTable.headKey_insertAll]
  cases here : oldestAt entries key with
  | none => simp
  | some oldest =>
    by_cases same : oldest.1 = key
    · have found : ((HashTable.init size).insertAll entries).search key = some oldest.2 := by
        have head := (HashTable.head_insertAll size entries key).trans here
        rw [HashTable.search_eq, ← Bucket.search_of_head head, same]
      simp [same, found]
    · simp [same]

end Tables

/-! ### The topics of the bus -/

/-- The names of the topics that some calls create, in their order. -/
def created (ops : List Op) : List CString := ops.filterMap Op.creates

/-- The topics are the ones created, and their names are the insertions into the table. -/
structure Recorded (names : List CString) (bus : Bus) : Prop where
  length : bus.topics.length = names.length
  table : bus.topicsTable.getD (.init Bus.topicTableSize) =
    (HashTable.init Bus.topicTableSize).insertAll names.zipIdx

/-- **Every step** records the topic that it creates. -/
theorem Recorded.next {names : List CString} {bus bus' : Bus} {op : Op} {events : List Event}
    (recorded : Recorded names bus) (formed : WellFormed bus)
    (step : abus.step bus op = some (bus', events)) :
    Recorded (names ++ op.creates.toList) bus' := by
  cases creates : op.creates with
  | none =>
    obtain ⟨length, table⟩ := formed.uncreated creates step
    rw [Option.toList_none, List.append_nil]
    exact ⟨length.trans recorded.length, by rw [table, recorded.table]⟩
  | some name =>
    obtain ⟨cfg, rfl⟩ := creates_eq_some creates
    obtain ⟨rfl, -⟩ := Prod.mk.inj (Option.some.inj step)
    refine ⟨?_, ?_⟩
    · show (bus.topics ++ [_]).length = _
      rw [List.length_append, List.length_append, recorded.length]
      rfl
    · show (bus.topicsTable.getD (.init Bus.topicTableSize)).insert name bus.topics.length = _
      rw [recorded.table, recorded.length, Option.toList_some, List.zipIdx_append,
        HashTable.insertAll_append, Nat.zero_add]
      rfl

/-- **Every run** records the topics that it creates. -/
theorem recorded_reachable {sems : Address → ℕ} {past : List Op} {outs : List Event} {bus : Bus}
    (run : abus.Run (.initial sems) past outs bus) : Recorded (created past) bus := by
  have both := run.history (fun past bus => WellFormed bus ∧ Recorded (created past) bus)
    (fun past bus op next events _ before step => ?_) []
    ⟨WellFormed.initial sems, rfl, rfl⟩
  · exact both.2
  · refine ⟨before.1.next step, ?_⟩
    have recorded := before.2.next before.1 step
    rw [created, List.filterMap_append]
    exact recorded

/-- The name of the first topic created at the address of a name. -/
def firstAt (names : List CString) (name : CString) : Option CString :=
  names.find? fun other => hashFunction other = hashFunction name

theorem oldestAt_zipIdx (names : List CString) (name : CString) :
    (oldestAt names.zipIdx name).map Prod.fst = firstAt names name := by
  conv_rhs => rw [firstAt, ← List.zipIdx_map_fst 0 names, List.find?_map]
  rfl

/-- A new topic is found exactly if the first topic at its address has another name. -/
theorem Recorded.find_topicCreate {names : List CString} {bus : Bus}
    (recorded : Recorded names bus) (formed : WellFormed bus) (name : CString) (cfg : TopicCfg) :
    ∃ topic, (bus.topicCreate name cfg).topicFindByName name = some (some topic) ∧
      (topic = bus.topics.length ↔ firstAt names name ≠ some name) := by
  have head := HashTable.headKey_insertAll Bus.topicTableSize names.zipIdx name
  rw [← recorded.table, oldestAt_zipIdx] at head
  rw [topicFindByName_topicCreate, head]
  by_cases first : firstAt names name = some name
  · have absent : ((bus.topicFindByName name).bind id).isSome = true := by
      rw [Bus.topicFindByName, ← search_getD _ Bus.topicTableSize, Option.isSome_iff_ne_none]
      exact fun absent => Bucket.headKey_ne absent (head.trans first)
    obtain ⟨topic, found⟩ := Option.isSome_iff_exists.mp absent
    have old : ¬ (name = name ∧ firstAt names name ≠ some name) := fun new => new.2 first
    refine ⟨topic, by rw [if_neg old, found], iff_of_false ?_ fun new => new first⟩
    rintro rfl
    obtain ⟨_, here, rfl⟩ := Option.bind_eq_some_iff.mp found
    obtain ⟨top, record, -⟩ := formed.topics here
    exact absurd (List.getElem?_eq_some_iff.mp record).1 (Nat.lt_irrefl _)
  · exact ⟨bus.topics.length, by rw [if_pos ⟨rfl, first⟩], iff_of_true rfl first⟩

/-- **Which registration counts.** In a table the insertion of a key is found exactly if the oldest
key at its address is another one, or has the same data. On the bus a name finds the topic that was
created last under it exactly if the first topic created at the address of the name has another
name, and every publish until the next creation is delivered to the subscribers of the topic that
is found. -/
theorem newest_wins_iff {sems : Address → ℕ} {past : List Op} {outs : List Event} {bus : Bus}
    (reached : abus.Run (.initial sems) past outs bus) {name : CString} {cfg : TopicCfg}
    {ops : List Op} {outs' : List Event} {bus' : Bus}
    (run : abus.RunOn (fun _ op => op.creates ≠ some name) (bus.topicCreate name cfg) ops outs'
      bus')
    {Data : Type} (size : ℤ) (entries : List (CString × Data)) (key : CString) (data : Data) :
    ((((HashTable.init size.toNat).insertAll entries).insert key data).search key = some data ↔
      ∀ oldest, oldestAt entries key = some oldest → oldest.1 = key → oldest.2 = data) ∧
    (bus'.topicFindByName name = some (some bus.topics.length) ↔
      firstAt (created past) name ≠ some name) ∧
    ∀ message bus'' events, bus'.publish name message = some (bus'', events) →
      ∃ topic top, bus'.lookup name = some (topic, top) ∧
        events = deliveries top.cfg.topicDataSize.toNat message topic
          (top.subcribers.map Subcriber.port) ++ [.published 0] ∧
        (topic = bus.topics.length ↔ firstAt (created past) name ≠ some name) := by
  have formed := wellFormed_reachable reached
  obtain ⟨topic, found, newest⟩ := (recorded_reachable reached).find_topicCreate formed name cfg
  have later := run.invariant
    (fun bus' => WellFormed bus' ∧ bus'.topicFindByName name = some (some topic))
    (fun _ _ _ _ other before step =>
      ⟨before.1.next step, before.1.find_step other step before.2⟩)
    ⟨formed.topicCreate name cfg, found⟩
  refine ⟨search_newest_iff size.toNat entries key data, ?_, fun message bus'' events step => ?_⟩
  · rw [later.2, ← newest, Option.some_inj, Option.some_inj]
  · obtain ⟨topic', top, here, -, sent⟩ := later.1.publish_cases step
    have same := (Bus.lookup_eq_some.mp here).1
    rw [later.2] at same
    obtain rfl : topic = topic' := Option.some.inj (Option.some.inj same)
    exact ⟨topic, top, here, sent, newest⟩

/-! ### Two topics of one name -/

/-- A name is created again behind another name of its address, and finds the new topic. -/
theorem newest_wins_iff_chain : ∃ outs bus,
    abus.Run (.initial fun _ => 0)
      [.topicCreate firstName ⟨0, 1⟩, .topicCreate secondName ⟨0, 1⟩] outs bus ∧
    (bus.topicCreate secondName ⟨0, 2⟩).topicFindByName secondName = some (some 2) := by
  obtain ⟨outs, bus, reached, length⟩ := Machine.exists_run abus (fun _ _ => True)
    (.initial fun _ => 0) [.topicCreate firstName ⟨0, 1⟩, .topicCreate secondName ⟨0, 1⟩]
    (fun bus _ => bus.topics.length = 2) (by decide +kernel)
  have chain := newest_wins_iff reached (.nil (bus.topicCreate secondName ⟨0, 2⟩)) 0
    [(firstName, 1)] secondName 2
  rw [of_decide_eq_true length] at chain
  exact ⟨outs, bus, reached, chain.2.1.mpr (by decide)⟩

/-- **A name that stands in the array** is created again, and finds the old topic: the insertion of
a key there is not found. -/
theorem newest_hidden :
    (∃ outs bus, abus.Run (.initial fun _ => 0) [.topicCreate firstName ⟨0, 1⟩] outs bus ∧
      bus.topics.length = 1 ∧
      (bus.topicCreate firstName ⟨0, 2⟩).topicFindByName firstName = some (some 0)) ∧
    (((HashTable.init 16).insertAll [(firstName, 1)]).insert firstName 2).search firstName =
      some 1 := by
  refine ⟨?_, by decide +kernel⟩
  obtain ⟨outs, bus, reached, checked⟩ := Machine.exists_run abus (fun _ _ => True)
    (.initial fun _ => 0) [.topicCreate firstName ⟨0, 1⟩]
    (fun bus _ => bus.topics.length = 1 ∧
      (bus.topicCreate firstName ⟨0, 2⟩).topicFindByName firstName = some (some 0))
    (by decide +kernel)
  exact ⟨outs, bus, reached, of_decide_eq_true checked⟩

end Robocon.Abus
