/-
**The message bus (`abus_topic.c`, `abus_acc.c`).**

`bus` runs the calls of the bus. Its outputs are the calls out of it, which are the pushes into
fifos and the callbacks, and the return codes.

* Topics and accounts are allocated records. A pointer to one is its index in `topics` or
  `accounts`; a pointer to a subscriber is the topic and the index in its vector.
* Allocations succeed. The vector appends at its end and is visited in index order. Callbacks do not
  call the bus.
* A step fails on a null pointer, on an assertion, which loops, and on data shorter than a push.
* A semaphore is a POSIX semaphore: waiting for one with count `0` blocks.
-/

import Robocon.Abus.Hash
import Robocon.Lib.Run

namespace Robocon.Abus

open Lib

/-! ### State -/

/-- A fifo, a callback of a user or a semaphore, by its address. -/
abbrev Address := ℕ

/-- `abus_subcribe_cb`: a function of the user or `abus_cb_async_notify`. -/
inductive Callback
  | user (cb : Address)
  | asyncNotify
  deriving DecidableEq

/-- `abus_subcriber_t`. `acc` points into `accounts`. -/
structure Subcriber where
  acc : Option ℕ
  fifo : Option Address
  cb : Option Callback
  sem : Option Address
  rxCnt : UInt32
  deriving DecidableEq

/-- `abus_subcribe_cfg_t`. -/
structure SubcribeCfg where
  fifo : Option Address
  cb : Option Address
  isAsync : UInt8
  sem : Option Address
  deriving DecidableEq

/-- `abus_topic_cfg`. -/
structure TopicCfg where
  hashTableSize : UInt16
  topicDataSize : UInt16
  deriving DecidableEq

/-- `abus_topic_t`. The data of `subHashTable` are the ends of the vector at the insertions. -/
structure Topic where
  name : CString
  cfg : TopicCfg
  subcribers : List Subcriber
  subHashTable : Option (HashTable ℕ)

/-- The record of a new topic. -/
def Topic.created (name : CString) (cfg : TopicCfg) : Topic where
  name := name
  cfg := cfg
  subcribers := []
  subHashTable := if cfg.hashTableSize ≠ 0 then some (.init cfg.hashTableSize.toNat) else none

/-- `abus_acc_t`. -/
structure Acc where
  name : CString
  deriving DecidableEq

/-- The globals of the bus, the records it has allocated and the semaphores. -/
structure Bus where
  topicsTable : Option (HashTable ℕ)
  accountersTable : Option (HashTable ℕ)
  topics : List Topic
  accounts : List Acc
  sems : Address → ℕ

/-- Power-on. -/
def Bus.initial (sems : Address → ℕ) : Bus := ⟨none, none, [], [], sems⟩

/-- A pointer to a subscriber. -/
structure Pointer where
  topic : ℕ
  index : ℕ
  deriving DecidableEq

/-- The calls of the bus. -/
inductive Op
  | topicCreate (name : CString) (cfg : TopicCfg)
  | accounterCreate (name : CString)
  | subcribe (topic accounter : CString) (cfg : SubcribeCfg)
  | unsubcribe (topic subcribe : CString)
  | publish (topic : CString) (data : List UInt8)
  | wait (subcriber : Pointer)
  deriving DecidableEq

/-- What leaves the bus: the calls for a subscriber and the return codes. A wait that `blocked` has
not returned. -/
inductive Event
  | afifoIn (subcriber : Pointer) (fifo : Address) (bytes : List UInt8)
  | cb (subcriber : Pointer) (cb : Callback) (data : List UInt8)
  | subcribed (code : ℤ)
  | unsubcribed (code : ℤ)
  | published (code : ℤ)
  | waited (subcriber : Pointer) (code : ℤ)
  | blocked (subcriber : Pointer)
  deriving DecidableEq

/-! ### The calls -/

namespace Bus

def topicTableSize : ℕ := 16

def accountersTableSize : ℕ := 32

/-- `abus_topic_find_by_name`, which fails before the first topic is created. -/
def topicFindByName (bus : Bus) (name : CString) : Option (Option ℕ) :=
  bus.topicsTable.map fun table => table.search name

/-- `abus_accounter_find_by_name`, which fails before the first account is created. -/
def accounterFindByName (bus : Bus) (name : CString) : Option (Option ℕ) :=
  bus.accountersTable.map fun table => table.search name

/-- `abus_topic_create`. -/
def topicCreate (bus : Bus) (name : CString) (cfg : TopicCfg) : Bus :=
  let table := bus.topicsTable.getD (.init topicTableSize)
  { bus with
    topicsTable := some (table.insert name bus.topics.length)
    topics := bus.topics ++ [.created name cfg] }

/-- `abus_accounter_create`. -/
def accounterCreate (bus : Bus) (name : CString) : Bus :=
  let table := bus.accountersTable.getD (.init accountersTableSize)
  { bus with
    accountersTable := some (table.insert name bus.accounts.length)
    accounts := bus.accounts ++ [⟨name⟩] }

/-- The change of a topic's record. -/
def setTopic (bus : Bus) (topic : ℕ) (top : Topic) : Bus :=
  { bus with topics := bus.topics.set topic top }

/-- `abus_sem_init(sem, 0)`. -/
def semInit (bus : Bus) (sem : Address) : Bus :=
  { bus with sems := Function.update bus.sems sem 0 }

/-- The test for `is_async` in `abus_subcribe`. An asynchronous subscription prints the account's
name and initialises the semaphore. -/
def notify (bus : Bus) (cfg : SubcribeCfg) (subcriber : Subcriber) : Option (Bus × Subcriber) :=
  if cfg.isAsync = 1 then
    subcriber.acc.bind fun _ => cfg.sem.map fun sem =>
      (bus.semInit sem, { subcriber with cb := some .asyncNotify })
  else some (bus, subcriber)

/-- `abus_subcribe`. -/
def subcribe (bus : Bus) (topic accounter : CString) (cfg : SubcribeCfg) :
    Option (Bus × List Event) := do
  let found ← bus.topicFindByName topic
  let acc ← bus.accounterFindByName accounter
  match found with
  | none => return (bus, [.subcribed (-3)])
  | some topic =>
    let top ← bus.topics[topic]?
    let subcriber : Subcriber :=
      { acc := acc
        fifo := cfg.fifo
        cb := cfg.cb.map .user
        sem := none
        rxCnt := 0 }
    let (bus, subcriber) ← bus.notify cfg subcriber
    let subcribers := top.subcribers ++ [subcriber]
    return (bus.setTopic topic
      { top with
        subcribers := subcribers
        subHashTable := top.subHashTable.map fun table =>
          table.insert accounter subcribers.length }, [.subcribed 0])

/-- `abus_find_subcriber`. -/
def findSubcriber (top : Topic) (subcriber : CString) : Option ℕ :=
  top.subHashTable.bind fun table => table.search subcriber

/-- `abus_unsubcribe`. -/
def unsubcribe (bus : Bus) (topic subcribe : CString) : Option (Bus × List Event) := do
  let found ← bus.topicFindByName topic
  let topic ← found
  let top ← bus.topics[topic]?
  match findSubcriber top subcribe with
  | none => return (bus, [.unsubcribed (-2)])
  | some _ => return (bus, [.unsubcribed 0])

/-- `abus_cb_async_notify`. -/
def cbAsyncNotify (sub : Subcriber) (sems : Address → ℕ) : Address → ℕ :=
  match sub.sem with
  | some sem => Function.update sems sem (sems sem + 1)
  | none => sems

/-- The push of `abus_publish` into a subscriber's fifo, which reads `size` bytes of the data. -/
def push (size : ℕ) (data : List UInt8) (pointer : Pointer) (sub : Subcriber) :
    Option (List Event) :=
  match sub.fifo with
  | some fifo => if size ≤ data.length then some [.afifoIn pointer fifo (data.take size)] else none
  | none => some []

/-- The callback of `abus_publish`. Without one, the account's name is printed. -/
def call (data : List UInt8) (pointer : Pointer) (sub : Subcriber) (sems : Address → ℕ) :
    Option ((Address → ℕ) × List Event) :=
  match sub.cb with
  | some (.user cb) => some (sems, [.cb pointer (.user cb) data])
  | some .asyncNotify => some (cbAsyncNotify sub sems, [.cb pointer .asyncNotify data])
  | none => sub.acc.map fun _ => (sems, [])

/-- The loop of `abus_publish` over the subscribers from an index on. -/
def publishFrom (size : ℕ) (data : List UInt8) (topic : ℕ) :
    ℕ → List Subcriber → (Address → ℕ) → Option (List Subcriber × (Address → ℕ) × List Event)
  | _, [], sems => some ([], sems, [])
  | index, sub :: subs, sems => do
    let pushed ← push size data ⟨topic, index⟩ sub
    let (sems, called) ← call data ⟨topic, index⟩ sub sems
    let (subs, sems, events) ← publishFrom size data topic (index + 1) subs sems
    return ({ sub with rxCnt := sub.rxCnt + 1 } :: subs, sems, pushed ++ called ++ events)

/-- `abus_publish`. -/
def publish (bus : Bus) (topic : CString) (data : List UInt8) : Option (Bus × List Event) := do
  let found ← bus.topicFindByName topic
  let topic ← found
  let top ← bus.topics[topic]?
  let (subs, sems, events) ←
    publishFrom top.cfg.topicDataSize.toNat data topic 0 top.subcribers bus.sems
  return ({ bus.setTopic topic { top with subcribers := subs } with sems := sems },
    events ++ [.published 0])

/-- `abus_subcriber_wait`. -/
def subcriberWait (bus : Bus) (pointer : Pointer) : Option (Bus × List Event) := do
  let top ← bus.topics[pointer.topic]?
  let sub ← top.subcribers[pointer.index]?
  match sub.sem with
  | none => return (bus, [.waited pointer (-1)])
  | some sem =>
    if bus.sems sem = 0 then return (bus, [.blocked pointer])
    else return ({ bus with sems := Function.update bus.sems sem (bus.sems sem - 1) },
      [.waited pointer 0])

end Bus

/-- The bus as a machine. -/
def abus : Machine Bus Op Event where
  step bus
    | .topicCreate name cfg => some (bus.topicCreate name cfg, [])
    | .accounterCreate name => some (bus.accounterCreate name, [])
    | .subcribe topic accounter cfg => bus.subcribe topic accounter cfg
    | .unsubcribe topic subcribe => bus.unsubcribe topic subcribe
    | .publish topic data => bus.publish topic data
    | .wait subcriber => bus.subcriberWait subcriber

/-! ### What a call can do -/

/-- The topic that a name finds. -/
def Bus.lookup (bus : Bus) (name : CString) : Option (ℕ × Topic) :=
  (bus.topicFindByName name).bind fun found =>
    found.bind fun topic => bus.topics[topic]?.map fun top => (topic, top)

/-- The account that a name finds. -/
def Bus.account (bus : Bus) (name : CString) : Option ℕ := (bus.accounterFindByName name).bind id

theorem Bus.lookup_eq_some {bus : Bus} {name : CString} {topic : ℕ} {top : Topic} :
    bus.lookup name = some (topic, top) ↔
      bus.topicFindByName name = some (some topic) ∧ bus.topics[topic]? = some top := by
  simp only [lookup, Option.bind_eq_some_iff, Option.map_eq_some_iff, Prod.mk.injEq]
  refine ⟨?_, fun ⟨found, record⟩ => ⟨_, found, _, rfl, _, record, rfl, rfl⟩⟩
  rintro ⟨_, found, _, rfl, _, record, rfl, rfl⟩
  exact ⟨found, record⟩

/-- The callback that a subscription gets. -/
def SubcribeCfg.callback (cfg : SubcribeCfg) : Option Callback :=
  if cfg.isAsync = 1 then some .asyncNotify else cfg.cb.map .user

/-- The subscriber that a subscription adds. -/
def SubcribeCfg.subcriber (cfg : SubcribeCfg) (acc : Option ℕ) : Subcriber where
  acc := acc
  fifo := cfg.fifo
  cb := cfg.callback
  sem := none
  rxCnt := 0

/-- The semaphores after a subscription. -/
def SubcribeCfg.sems (cfg : SubcribeCfg) (sems : Address → ℕ) : Address → ℕ :=
  if cfg.isAsync = 1 then cfg.sem.elim sems fun sem => Function.update sems sem 0 else sems

/-- A topic's record with one more subscriber. -/
def Topic.push (top : Topic) (accounter : CString) (sub : Subcriber) : Topic :=
  { top with
    subcribers := top.subcribers ++ [sub]
    subHashTable := top.subHashTable.map fun table =>
      table.insert accounter (top.subcribers.length + 1) }

/-- A subscription is refused, or it adds a subscriber to the topic that is found. -/
theorem subcribe_cases {bus bus' : Bus} {name accounter : CString} {cfg : SubcribeCfg}
    {events : List Event} (step : bus.subcribe name accounter cfg = some (bus', events)) :
    (bus.topicFindByName name = some none ∧ bus' = bus ∧ events = [.subcribed (-3)]) ∨
      ∃ topic top acc, bus.lookup name = some (topic, top) ∧
        bus.accounterFindByName accounter = some acc ∧ events = [.subcribed 0] ∧
        bus' = { bus.setTopic topic (top.push accounter (cfg.subcriber acc)) with
          sems := cfg.sems bus.sems } := by
  obtain ⟨found, here, rest⟩ := Option.bind_eq_some_iff.mp step
  obtain ⟨acc, account, rest⟩ := Option.bind_eq_some_iff.mp rest
  cases found with
  | none =>
    obtain ⟨rfl, rfl⟩ := Prod.mk.inj (Option.some.inj rest)
    exact Or.inl ⟨here, rfl, rfl⟩
  | some topic =>
    obtain ⟨top, record, rest⟩ := Option.bind_eq_some_iff.mp rest
    refine Or.inr ⟨topic, top, acc, Bus.lookup_eq_some.mpr ⟨here, record⟩, account, ?_⟩
    obtain ⟨⟨prepared, sub⟩, made, done⟩ := Option.bind_eq_some_iff.mp rest
    obtain ⟨rfl, rfl⟩ := Prod.mk.inj (Option.some.inj done)
    refine ⟨rfl, ?_⟩
    unfold Bus.notify at made
    by_cases async : cfg.isAsync = 1
    · rw [if_pos async] at made
      obtain ⟨_, -, made⟩ := Option.bind_eq_some_iff.mp made
      obtain ⟨sem, given, made⟩ := Option.map_eq_some_iff.mp made
      obtain ⟨rfl, rfl⟩ := Prod.mk.inj made
      have callback : cfg.callback = some .asyncNotify := if_pos async
      have sems : cfg.sems bus.sems = Function.update bus.sems sem 0 := by
        rw [SubcribeCfg.sems, if_pos async, given]
        rfl
      rw [SubcribeCfg.subcriber, callback, sems, Topic.push, List.length_append]
      rfl
    · rw [if_neg async] at made
      obtain ⟨rfl, rfl⟩ := Prod.mk.inj (Option.some.inj made)
      have callback : cfg.callback = cfg.cb.map .user := if_neg async
      have sems : cfg.sems bus.sems = bus.sems := if_neg async
      rw [SubcribeCfg.subcriber, callback, sems, Topic.push, List.length_append]
      rfl

theorem unsubcribe_cases {bus bus' : Bus} {name subcribe : CString} {events : List Event}
    (step : bus.unsubcribe name subcribe = some (bus', events)) :
    bus' = bus ∧ ∃ code, events = [.unsubcribed code] := by
  obtain ⟨found, _, rest⟩ := Option.bind_eq_some_iff.mp step
  obtain ⟨topic, _, rest⟩ := Option.bind_eq_some_iff.mp rest
  obtain ⟨top, _, rest⟩ := Option.bind_eq_some_iff.mp rest
  split at rest <;>
  · obtain ⟨rfl, rfl⟩ := Prod.mk.inj (Option.some.inj rest)
    exact ⟨rfl, _, rfl⟩

/-- A publish runs the loop over the subscribers of the topic that is found. -/
theorem publish_cases {bus bus' : Bus} {name : CString} {data : List UInt8} {events : List Event}
    (step : bus.publish name data = some (bus', events)) :
    ∃ topic top subs sems called, bus.lookup name = some (topic, top) ∧
      Bus.publishFrom top.cfg.topicDataSize.toNat data topic 0 top.subcribers bus.sems =
        some (subs, sems, called) ∧
      bus' = { bus.setTopic topic { top with subcribers := subs } with sems := sems } ∧
      events = called ++ [.published 0] := by
  obtain ⟨found, here, some⟩ := Option.bind_eq_some_iff.mp step
  obtain ⟨topic, rfl, rest⟩ := Option.bind_eq_some_iff.mp some
  obtain ⟨top, record, rest⟩ := Option.bind_eq_some_iff.mp rest
  obtain ⟨⟨subs, sems, called⟩, loop, done⟩ := Option.bind_eq_some_iff.mp rest
  obtain ⟨rfl, rfl⟩ := Prod.mk.inj (Option.some.inj done)
  exact ⟨topic, top, subs, sems, called, Bus.lookup_eq_some.mpr ⟨here, record⟩, loop, rfl, rfl⟩

theorem subcriberWait_cases {bus bus' : Bus} {pointer : Pointer} {events : List Event}
    (step : bus.subcriberWait pointer = some (bus', events)) :
    ∃ top sub, bus.topics[pointer.topic]? = some top ∧ top.subcribers[pointer.index]? = some sub ∧
      (sub.sem = none ∧ bus' = bus ∧ events = [.waited pointer (-1)] ∨
        ∃ sem, sub.sem = some sem ∧ (bus.sems sem = 0 ∧ bus' = bus ∧ events = [.blocked pointer] ∨
          bus.sems sem ≠ 0 ∧ events = [.waited pointer 0] ∧
            bus' = { bus with sems := Function.update bus.sems sem (bus.sems sem - 1) })) := by
  obtain ⟨top, record, rest⟩ := Option.bind_eq_some_iff.mp step
  obtain ⟨sub, member, rest⟩ := Option.bind_eq_some_iff.mp rest
  refine ⟨top, sub, record, member, ?_⟩
  split at rest
  case h_1 none =>
    obtain ⟨rfl, rfl⟩ := Prod.mk.inj (Option.some.inj rest)
    exact Or.inl ⟨none, rfl, rfl⟩
  case h_2 sem some =>
    refine Or.inr ⟨sem, some, ?_⟩
    split at rest
    case isTrue zero =>
      obtain ⟨rfl, rfl⟩ := Prod.mk.inj (Option.some.inj rest)
      exact Or.inl ⟨zero, rfl, rfl⟩
    case isFalse positive =>
      obtain ⟨rfl, rfl⟩ := Prod.mk.inj (Option.some.inj rest)
      exact Or.inr ⟨positive, rfl, rfl⟩

end Robocon.Abus
