/-
**Names that are not registered.**

A `Query` is a call with a name that may be missing: the two lookups, a subscription, an
unsubscription, a publish, and `ABUS_SUB_FORCE`.

* `Query.Safe bus` — what is asked of such a call: it returns, a call on a missing topic returns a
  negative code and changes nothing, and `ABUS_SUB_FORCE` leaves an account of the name.
* `Query.Handled bus` — the calls of which this is true: both tables exist as far as the call looks
  into them, an unsubscription finds its topic, and a subscription without an account is not
  asynchronous. A publish on a missing topic is never handled.
* `missing_safe_iff` — in every reachable state, a call with a missing name is safe exactly if it is
  handled.

`abus_subcribe` compares the topic that it found with null; `abus_unsubcribe` and `abus_publish`
compare the name with null, after they have used the topic.
-/

import Robocon.Abus.Accounts
import Robocon.Abus.Delivery

namespace Robocon.Abus

open Lib

/-! ### What is asked -/

namespace Bus

variable (bus : Bus)

/-- The name of a topic that is registered. -/
def HasTopic (name : CString) : Prop := ∃ topic, bus.topicFindByName name = some (some topic)

/-- The name of an account that is registered. -/
def HasAccount (name : CString) : Prop := ∃ acc, bus.accounterFindByName name = some (some acc)

/-- `ABUS_SUB_FORCE`. -/
def subForce (accounter topic : CString) (fifo cb : Option Address) :
    Option (Bus × List Event) := do
  let cfg : SubcribeCfg := ⟨fifo, cb, 0, none⟩
  match ← bus.accounterFindByName accounter with
  | some _ => bus.subcribe topic accounter cfg
  | none => (bus.accounterCreate accounter).subcribe topic accounter cfg

/-- The call returns a negative code and changes nothing. -/
def Refuses (code : ℤ → Event) (result : Option (Bus × List Event)) : Prop :=
  ∃ number < 0, result = some (bus, [code number])

end Bus

/-- A call with a name that may be missing. -/
inductive Query
  | topicFind (name : CString)
  | accounterFind (name : CString)
  | subcribe (topic accounter : CString) (cfg : SubcribeCfg)
  | unsubcribe (topic accounter : CString)
  | publish (topic : CString) (data : List UInt8)
  | subForce (accounter topic : CString) (fifo cb : Option Address)

namespace Query

variable (bus : Bus)

/-- One of the names is not registered. -/
def Missing : Query → Prop
  | .topicFind name => ¬ bus.HasTopic name
  | .accounterFind name => ¬ bus.HasAccount name
  | .subcribe topic accounter _ => ¬ bus.HasTopic topic ∨ ¬ bus.HasAccount accounter
  | .unsubcribe topic accounter => ¬ bus.HasTopic topic ∨ ¬ bus.HasAccount accounter
  | .publish topic _ => ¬ bus.HasTopic topic
  | .subForce accounter topic _ _ => ¬ bus.HasAccount accounter ∨ ¬ bus.HasTopic topic

/-- The call returns; on a missing topic it is refused; a forced subscription leaves an account. -/
def Safe : Query → Prop
  | .topicFind name => bus.topicFindByName name = some none
  | .accounterFind name => bus.accounterFindByName name = some none
  | .subcribe topic accounter cfg => (bus.subcribe topic accounter cfg).isSome ∧
      (¬ bus.HasTopic topic → bus.Refuses .subcribed (bus.subcribe topic accounter cfg))
  | .unsubcribe topic accounter => (bus.unsubcribe topic accounter).isSome ∧
      (¬ bus.HasTopic topic → bus.Refuses .unsubcribed (bus.unsubcribe topic accounter))
  | .publish topic data => bus.Refuses .published (bus.publish topic data)
  | .subForce accounter topic fifo cb =>
      ∃ bus' events, bus.subForce accounter topic fifo cb = some (bus', events) ∧
        bus'.HasAccount accounter

/-- The calls that the code has an error branch for, in time. -/
def Handled : Query → Prop
  | .topicFind _ => bus.topics ≠ []
  | .accounterFind _ => bus.accounts ≠ []
  | .subcribe topic _ cfg =>
      bus.topics ≠ [] ∧ bus.accounts ≠ [] ∧ (bus.HasTopic topic → cfg.isAsync ≠ 1)
  | .unsubcribe topic _ => bus.HasTopic topic
  | .publish _ _ => False
  | .subForce _ _ _ _ => bus.topics ≠ [] ∧ bus.accounts ≠ []

end Query

/-! ### The tables of a reachable state -/

/-- A table exists as soon as it is needed, and a topic that is found has a record. -/
structure Grown (bus : Bus) : Prop where
  topicsTable : bus.topicsTable = none ↔ bus.topics = []
  accountersTable : bus.accountersTable = none ↔ bus.accounts = []
  records : ∀ {name topic}, bus.topicFindByName name = some (some topic) → topic < bus.topics.length

theorem Grown.topicCreate {bus : Bus} (grown : Grown bus) (name : CString) (cfg : TopicCfg) :
    Grown (bus.topicCreate name cfg) where
  topicsTable := by simp [Bus.topicCreate]
  accountersTable := grown.accountersTable
  records {other topic} found := by
    have length : (bus.topicCreate name cfg).topics.length = bus.topics.length + 1 := by
      simp [Bus.topicCreate]
    rw [topicFindByName_topicCreate] at found
    have found := Option.some.inj found
    split at found
    case isTrue =>
      obtain rfl := Option.some.inj found
      omega
    case isFalse =>
      obtain ⟨_, here, rfl⟩ := Option.bind_eq_some_iff.mp found
      have := grown.records here
      omega

theorem Grown.accounterCreate {bus : Bus} (grown : Grown bus) (name : CString) :
    Grown (bus.accounterCreate name) where
  topicsTable := grown.topicsTable
  accountersTable := by simp [Bus.accounterCreate]
  records := grown.records

theorem Grown.setTopic {bus : Bus} (grown : Grown bus) (topic : ℕ) (top : Topic)
    (sems : Address → ℕ) : Grown { bus.setTopic topic top with sems := sems } where
  topicsTable := by
    rw [← List.length_eq_zero_iff]
    show bus.topicsTable = none ↔ (bus.topics.set topic top).length = 0
    rw [List.length_set, List.length_eq_zero_iff]
    exact grown.topicsTable
  accountersTable := grown.accountersTable
  records {name number} found := by
    show number < (bus.topics.set topic top).length
    rw [List.length_set]
    exact grown.records found

theorem Grown.next {bus bus' : Bus} {op : Op} {events : List Event} (grown : Grown bus)
    (step : abus.step bus op = some (bus', events)) : Grown bus' := by
  cases op with
  | topicCreate name cfg =>
    obtain ⟨rfl, -⟩ := Prod.mk.inj (Option.some.inj step)
    exact grown.topicCreate name cfg
  | accounterCreate name =>
    obtain ⟨rfl, -⟩ := Prod.mk.inj (Option.some.inj step)
    exact grown.accounterCreate name
  | subcribe name accounter cfg =>
    obtain ⟨-, rfl, -⟩ | ⟨topic, top, acc, -, -, -, rfl⟩ := subcribe_cases step
    · exact grown
    · exact grown.setTopic topic _ _
  | unsubcribe name subcribe =>
    obtain ⟨rfl, -⟩ := unsubcribe_cases step
    exact grown
  | publish name data =>
    obtain ⟨topic, top, subs, sems, called, -, -, rfl, -⟩ := publish_cases step
    exact grown.setTopic topic _ _
  | wait pointer =>
    obtain ⟨top, sub, -, -, ⟨-, rfl, -⟩ | ⟨sem, -, ⟨-, rfl, -⟩ | ⟨-, -, rfl⟩⟩⟩ :=
      subcriberWait_cases step
    · exact grown
    · exact grown
    · exact ⟨grown.topicsTable, grown.accountersTable, grown.records⟩

theorem grown_reachable {sems : Address → ℕ} {ops : List RegistryOp} {outs : List Event}
    {r : Registry} (run : registry.Run (.initial sems) ops outs r) : Grown r.bus := by
  refine run.invariant (fun r => Grown r.bus) (fun r op r' events _ grown step => ?_)
    ⟨by simp [Registry.initial, Bus.initial], by simp [Registry.initial, Bus.initial],
      fun found => by cases found⟩
  cases op with
  | bus op => exact grown.next (registry_bus step).1
  | accounterDestroy accounter =>
    obtain ⟨number, acc, table, table', -, record, here, -, rfl, -⟩ := registry_destroy step
    have some : r.bus.accounts ≠ [] := by
      intro none
      rw [none] at record
      cases record
    exact ⟨grown.topicsTable, iff_of_false (Option.some_ne_none _) some, grown.records⟩

/-! ### The calls -/

/-- A lookup that finds nothing returns if there is a table. -/
theorem search_missing {table : Option (HashTable ℕ)} {name : CString}
    (missing : ¬ ∃ data, (table.map fun table => table.search name) = some (some data)) :
    (table.map fun table => table.search name) = some none ↔ table ≠ none := by
  cases table with
  | none => simp
  | some table =>
    rcases found : table.search name with _ | data
    · simp [found]
    · exact absurd ⟨data, congrArg some found⟩ missing

section Calls

variable {bus : Bus} (grown : Grown bus) {topic accounter : CString}
include grown

/-- A lookup returns once a topic has been created. -/
theorem topicFind_iff (missing : ¬ bus.HasTopic topic) :
    bus.topicFindByName topic = some none ↔ bus.topics ≠ [] := by
  rw [Ne, ← grown.topicsTable]
  exact search_missing missing

theorem accounterFind_iff (missing : ¬ bus.HasAccount accounter) :
    bus.accounterFindByName accounter = some none ↔ bus.accounts ≠ [] := by
  rw [Ne, ← grown.accountersTable]
  exact search_missing missing

/-- The lookup of an account returns once an account has been created. -/
theorem accounterFind_isSome (accounter : CString) :
    (∃ found, bus.accounterFindByName accounter = some found) ↔ bus.accounts ≠ [] := by
  rw [Ne, ← grown.accountersTable]
  unfold Bus.accounterFindByName
  cases bus.accountersTable <;> simp

/-- A subscription to a missing topic is refused once both tables exist. -/
theorem subcribe_missing (missing : ¬ bus.HasTopic topic) (accounter : CString) (cfg : SubcribeCfg)
    (topics : bus.topics ≠ []) (accounts : bus.accounts ≠ []) :
    bus.subcribe topic accounter cfg = some (bus, [.subcribed (-3)]) := by
  obtain ⟨found, account⟩ := (accounterFind_isSome grown accounter).mpr accounts
  refine Option.bind_eq_some_iff.mpr ⟨none, (topicFind_iff grown missing).mpr topics, ?_⟩
  exact Option.bind_eq_some_iff.mpr ⟨found, account, rfl⟩

/-- A subscription that is not asynchronous is stored, with or without an account. -/
theorem subcribe_stored (found : bus.HasTopic topic) {cfg : SubcribeCfg} (sync : cfg.isAsync ≠ 1)
    (accounts : bus.accounts ≠ []) :
    ∃ bus', bus.subcribe topic accounter cfg = some (bus', [.subcribed 0]) ∧
      bus'.accountersTable = bus.accountersTable := by
  obtain ⟨number, here⟩ := found
  obtain ⟨acc, account⟩ := (accounterFind_isSome grown accounter).mpr accounts
  have record := List.getElem?_eq_getElem (grown.records here)
  have computed : ∃ last, bus.subcribe topic accounter cfg = some last := by
    unfold Bus.subcribe Bus.notify
    simp only [here, account, record, sync, if_false, Option.bind_eq_bind, Option.bind_some]
    exact ⟨_, rfl⟩
  obtain ⟨⟨bus', events⟩, step⟩ := computed
  obtain ⟨none, -⟩ | ⟨number', top, acc', -, -, rfl, rfl⟩ := subcribe_cases step
  · rw [here] at none
    cases none
  · exact ⟨_, step, rfl⟩

/-- A subscription that returns has found both tables. -/
theorem subcribe_tables {cfg : SubcribeCfg} {last : Bus × List Event}
    (step : bus.subcribe topic accounter cfg = some last) :
    bus.topics ≠ [] ∧ bus.accounts ≠ [] := by
  obtain ⟨found, here, rest⟩ := Option.bind_eq_some_iff.mp step
  obtain ⟨acc, account, -⟩ := Option.bind_eq_some_iff.mp rest
  refine ⟨?_, (accounterFind_isSome grown accounter).mp ⟨acc, account⟩⟩
  obtain ⟨table, some, -⟩ := Option.map_eq_some_iff.mp here
  rw [Ne, ← grown.topicsTable, some]
  exact Option.some_ne_none _

omit grown in
/-- An asynchronous subscription prints the name of the account that it did not find. -/
theorem subcribe_async (found : bus.HasTopic topic) (missing : ¬ bus.HasAccount accounter)
    {cfg : SubcribeCfg} (async : cfg.isAsync = 1) : bus.subcribe topic accounter cfg = none := by
  obtain ⟨number, here⟩ := found
  refine Option.eq_none_iff_forall_ne_some.mpr fun last step => ?_
  obtain ⟨found, here', rest⟩ := Option.bind_eq_some_iff.mp step
  obtain ⟨acc, account, rest'⟩ := Option.bind_eq_some_iff.mp rest
  obtain rfl := Option.some.inj (here.symm.trans here')
  obtain ⟨top, -, rest''⟩ := Option.bind_eq_some_iff.mp rest'
  obtain ⟨prepared, made, -⟩ := Option.bind_eq_some_iff.mp rest''
  unfold Bus.notify at made
  rw [if_pos async] at made
  obtain ⟨some, given, -⟩ := Option.bind_eq_some_iff.mp made
  obtain rfl : acc = .some some := given
  exact missing ⟨some, account⟩

theorem subcribe_safe_iff (missing : ¬ bus.HasTopic topic ∨ ¬ bus.HasAccount accounter)
    (cfg : SubcribeCfg) :
    (Query.subcribe topic accounter cfg).Safe bus ↔
      (Query.subcribe topic accounter cfg).Handled bus := by
  refine ⟨fun ⟨returns, _⟩ => ?_, fun ⟨topics, accounts, sync⟩ => ?_⟩
  · obtain ⟨last, step⟩ := Option.isSome_iff_exists.mp returns
    obtain ⟨topics, accounts⟩ := subcribe_tables grown step
    refine ⟨topics, accounts, fun found async => ?_⟩
    rw [subcribe_async found (missing.resolve_left (not_not.mpr found)) async] at step
    cases step
  · by_cases found : bus.HasTopic topic
    · obtain ⟨bus', step, -⟩ := subcribe_stored grown found (sync found) accounts
      exact ⟨Option.isSome_iff_exists.mpr ⟨_, step⟩, fun none => absurd found none⟩
    · have step := subcribe_missing grown found accounter cfg topics accounts
      exact ⟨Option.isSome_iff_exists.mpr ⟨_, step⟩, fun _ => ⟨-3, by decide, step⟩⟩

theorem unsubcribe_safe_iff :
    (Query.unsubcribe topic accounter).Safe bus ↔
      (Query.unsubcribe topic accounter).Handled bus := by
  refine ⟨fun ⟨returns, _⟩ => ?_, fun found => ⟨?_, fun none => absurd found none⟩⟩
  · obtain ⟨last, step⟩ := Option.isSome_iff_exists.mp returns
    obtain ⟨found, here, rest⟩ := Option.bind_eq_some_iff.mp step
    obtain ⟨number, rfl, -⟩ := Option.bind_eq_some_iff.mp rest
    exact ⟨number, here⟩
  · obtain ⟨number, here⟩ := found
    have record := List.getElem?_eq_getElem (grown.records here)
    show (bus.unsubcribe topic accounter).isSome
    unfold Bus.unsubcribe
    simp only [here, record, Option.bind_eq_bind, Option.bind_some]
    split
    · rfl
    · rfl

omit grown in
/-- A publish on a missing topic uses the null pointer. -/
theorem publish_missing (missing : ¬ bus.HasTopic topic) (data : List UInt8) :
    bus.publish topic data = none := by
  refine Option.eq_none_iff_forall_ne_some.mpr fun last step => ?_
  obtain ⟨found, here, rest⟩ := Option.bind_eq_some_iff.mp step
  obtain ⟨number, rfl, -⟩ := Option.bind_eq_some_iff.mp rest
  exact missing ⟨number, here⟩

omit grown in
/-- An account that is created under a missing name is found. -/
theorem hasAccount_accounterCreate (missing : bus.accounterFindByName accounter = some none) :
    (bus.accounterCreate accounter).HasAccount accounter := by
  have absent : (bus.accountersTable.getD (.init Bus.accountersTableSize)).search accounter =
      none := by
    rw [search_getD]
    exact congrArg (fun found => found.bind id) missing
  refine ⟨bus.accounts.length, ?_⟩
  show some (HashTable.search (HashTable.insert _ accounter _) accounter) = _
  rw [HashTable.search_insert_absent _ absent, if_pos rfl]

theorem subForce_safe_iff (missing : ¬ bus.HasAccount accounter ∨ ¬ bus.HasTopic topic)
    (fifo cb : Option Address) :
    (Query.subForce accounter topic fifo cb).Safe bus ↔
      (Query.subForce accounter topic fifo cb).Handled bus := by
  have created := grown.accounterCreate accounter
  refine ⟨fun ⟨bus', events, step, _⟩ => ?_, fun ⟨topics, accounts⟩ => ?_⟩
  · obtain ⟨found, here, rest⟩ := Option.bind_eq_some_iff.mp step
    have accounts := (accounterFind_isSome grown accounter).mp ⟨found, here⟩
    cases found with
    | some acc => exact subcribe_tables grown rest
    | none =>
      have tables := subcribe_tables created rest
      exact ⟨tables.1, accounts⟩
  · obtain ⟨found, here⟩ := (accounterFind_isSome grown accounter).mpr accounts
    cases found with
    | some acc =>
      have known : bus.HasAccount accounter := ⟨acc, here⟩
      have step := subcribe_missing grown (missing.resolve_left (not_not.mpr known))
        accounter ⟨fifo, cb, 0, none⟩ topics accounts
      exact ⟨bus, _, Option.bind_eq_some_iff.mpr ⟨some acc, here, step⟩, known⟩
    | none =>
      have known := hasAccount_accounterCreate here
      have nonempty : (bus.accounterCreate accounter).accounts ≠ [] := by
        simp [Bus.accounterCreate]
      by_cases found : bus.HasTopic topic
      · have sync : (⟨fifo, cb, 0, none⟩ : SubcribeCfg).isAsync ≠ 1 := by
          show (0 : UInt8) ≠ 1
          decide
        obtain ⟨bus', step, table⟩ := subcribe_stored created found sync nonempty
        refine ⟨bus', _, Option.bind_eq_some_iff.mpr ⟨none, here, step⟩, ?_⟩
        obtain ⟨acc, account⟩ := known
        refine ⟨acc, ?_⟩
        rw [Bus.accounterFindByName, table]
        exact account
      · have step := subcribe_missing created found accounter ⟨fifo, cb, 0, none⟩ topics nonempty
        exact ⟨_, _, Option.bind_eq_some_iff.mpr ⟨none, here, step⟩, known⟩

end Calls

/-- **Missing names.** In every reachable state, a call with a missing name is safe exactly if it is
handled. -/
theorem missing_safe_iff {sems : Address → ℕ} {ops : List RegistryOp} {outs : List Event}
    {r : Registry} (run : registry.Run (.initial sems) ops outs r) {query : Query}
    (missing : query.Missing r.bus) : query.Safe r.bus ↔ query.Handled r.bus := by
  have grown := grown_reachable run
  cases query with
  | topicFind name => exact topicFind_iff grown missing
  | accounterFind name => exact accounterFind_iff grown missing
  | subcribe topic accounter cfg => exact subcribe_safe_iff grown missing cfg
  | unsubcribe topic accounter => exact unsubcribe_safe_iff grown
  | publish topic data =>
    refine ⟨fun ⟨number, negative, step⟩ => ?_, False.elim⟩
    rw [publish_missing missing data] at step
    cases step
  | subForce accounter topic fifo cb => exact subForce_safe_iff grown missing fifo cb

/-- The bus with one topic. -/
def oneTopic : Registry := ⟨(Bus.initial fun _ => 0).topicCreate firstName ⟨0, 1⟩, []⟩

theorem oneTopic_run :
    registry.Run (.initial fun _ => 0) [.bus (.topicCreate firstName ⟨0, 1⟩)] [] oneTopic :=
  .single trivial rfl

theorem oneTopic_missing : ¬ oneTopic.bus.HasTopic secondName := by
  have none : oneTopic.bus.topicFindByName secondName = some none := by
    decide +kernel
  rintro ⟨topic, found⟩
  rw [none] at found
  cases found

theorem missing_safe_iff_second : (Query.topicFind secondName).Safe oneTopic.bus := by
  have missing : (Query.topicFind secondName).Missing oneTopic.bus := oneTopic_missing
  exact (missing_safe_iff oneTopic_run missing).mpr (List.cons_ne_nil _ _)

/-- **A publish on another topic is not refused**: it uses a null pointer. -/
theorem missing_unsafe :
    registry.Run (.initial fun _ => 0) [.bus (.topicCreate firstName ⟨0, 1⟩)] [] oneTopic ∧
      (Query.publish secondName [1]).Missing oneTopic.bus ∧
      ¬ (Query.publish secondName [1]).Safe oneTopic.bus ∧
      oneTopic.bus.publish secondName [1] = none := by
  have none := publish_missing oneTopic_missing [1]
  refine ⟨oneTopic_run, oneTopic_missing, ?_, none⟩
  rintro ⟨number, negative, step⟩
  rw [none] at step
  cases step

end Robocon.Abus
