/-
**What holds on every run of the bus.**

* `WellFormed` — a name that is found finds a record of that name, and the subscribers are sound. In
  particular none has a semaphore: `abus_subcribe` never records the one it initialises. Every step
  keeps it (`WellFormed.next`).
* `WellFormed.effect` — what a step does to such a state; the facts about steps go by its cases.
* `publishFrom_eq` — on such subscribers the loop of a publish delivers to each of them once, in
  their order, and posts no semaphore.
* `lookup_topicCreate`, `lookup_setTopic` — the topic that a name finds after a step.
-/

import Robocon.Abus.Bus

namespace Robocon.Abus

open Lib

/-! ### Tables -/

/-- A lookup in a table that is created on demand. -/
theorem search_getD {Data : Type} (table : Option (HashTable Data)) (size : ℕ) (name : CString) :
    (table.getD (.init size)).search name = (table.map fun table => table.search name).bind id := by
  cases table with
  | none => exact HashTable.search_init size name
  | some table => rfl

/-! ### The loop of a publish -/

/-- What a publish delivers to: the fifo and the callback of a subscriber. -/
structure Port where
  fifo : Option Address
  cb : Option Callback
  deriving DecidableEq

def Subcriber.port (sub : Subcriber) : Port := ⟨sub.fifo, sub.cb⟩

/-- The calls for one subscriber. -/
def delivery (size : ℕ) (data : List UInt8) (pointer : Pointer) (port : Port) : List Event :=
  (port.fifo.map fun fifo => .afifoIn pointer fifo (data.take size)).toList ++
    (port.cb.map fun cb => .cb pointer cb data).toList

/-- The calls for the subscribers of a topic from an index on, in their order. -/
def deliveriesFrom (size : ℕ) (data : List UInt8) (topic index : ℕ) (ports : List Port) :
    List Event :=
  (ports.zipIdx index).flatMap fun entry => delivery size data ⟨topic, entry.2⟩ entry.1

/-- The calls for the subscribers of a topic. -/
def deliveries (size : ℕ) (data : List UInt8) (topic : ℕ) (ports : List Port) : List Event :=
  deliveriesFrom size data topic 0 ports

/-- The subscriber that a call is for. -/
def Event.target : Event → Option Pointer
  | .afifoIn subcriber _ _ => some subcriber
  | .cb subcriber _ _ => some subcriber
  | _ => none

/-- A port that something is delivered to. -/
def Port.live (port : Port) : Bool := port.fifo.isSome || port.cb.isSome

/-- The calls for one subscriber are for that subscriber. -/
theorem delivery_target {size : ℕ} {data : List UInt8} {pointer : Pointer} {port : Port}
    {event : Event} (member : event ∈ delivery size data pointer port) :
    event.target = some pointer ∧ port.live = true := by
  rcases List.mem_append.mp member with member | member
  · obtain ⟨fifo, here, rfl⟩ := Option.map_eq_some_iff.mp (Option.mem_toList.mp member)
    exact ⟨rfl, by rw [Port.live, here]; rfl⟩
  · obtain ⟨cb, here, rfl⟩ := Option.map_eq_some_iff.mp (Option.mem_toList.mp member)
    exact ⟨rfl, by rw [Port.live, here]; exact Bool.or_true _⟩

theorem mem_deliveries {size : ℕ} {data : List UInt8} {topic : ℕ} {ports : List Port}
    {event : Event} : event ∈ deliveries size data topic ports ↔
      ∃ index port, ports[index]? = some port ∧
        event ∈ delivery size data ⟨topic, index⟩ port := by
  rw [deliveries, deliveriesFrom, List.mem_flatMap]
  refine ⟨fun ⟨entry, here, member⟩ => ?_, fun ⟨index, port, here, member⟩ => ?_⟩
  · exact ⟨entry.2, entry.1, List.mem_zipIdx_iff_getElem?.mp here, member⟩
  · exact ⟨(port, index), List.mk_mem_zipIdx_iff_getElem?.mpr here, member⟩

/-- A subscriber after a delivery. -/
def Subcriber.received (sub : Subcriber) : Subcriber := { sub with rxCnt := sub.rxCnt + 1 }

section Loop

variable {size : ℕ} {data : List UInt8} {topic : ℕ}

theorem push_eq {pointer : Pointer} {sub : Subcriber} {pushed : List Event}
    (push : Bus.push size data pointer sub = some pushed) :
    pushed = (sub.fifo.map fun fifo => .afifoIn pointer fifo (data.take size)).toList := by
  unfold Bus.push at push
  cases fifo : sub.fifo with
  | none =>
    rw [fifo] at push
    exact (Option.some.inj push).symm
  | some fifo =>
    simp only [fifo] at push
    split at push
    · exact (Option.some.inj push).symm
    · cases push

theorem call_eq {pointer : Pointer} {sub : Subcriber} (unset : sub.sem = none)
    {sems sems' : Address → ℕ} {called : List Event}
    (call : Bus.call data pointer sub sems = some (sems', called)) :
    sems' = sems ∧ called = (sub.cb.map fun cb => .cb pointer cb data).toList := by
  unfold Bus.call Bus.cbAsyncNotify at call
  rw [unset] at call
  split at call
  case h_1 cb user =>
    obtain ⟨rfl, rfl⟩ := Prod.mk.inj (Option.some.inj call)
    rw [user]
    exact ⟨rfl, rfl⟩
  case h_2 async =>
    obtain ⟨rfl, rfl⟩ := Prod.mk.inj (Option.some.inj call)
    rw [async]
    exact ⟨rfl, rfl⟩
  case h_3 none =>
    obtain ⟨_, -, done⟩ := Option.map_eq_some_iff.mp call
    obtain ⟨rfl, rfl⟩ := Prod.mk.inj done
    rw [none]
    exact ⟨rfl, rfl⟩

theorem publishFrom_cons {size : ℕ} {data : List UInt8} {topic index : ℕ} {sub : Subcriber}
    {subs subs' : List Subcriber} {sems sems' : Address → ℕ} {events : List Event}
    (loop : Bus.publishFrom size data topic index (sub :: subs) sems =
      some (subs', sems', events)) :
    ∃ pushed middle called rest late, Bus.push size data ⟨topic, index⟩ sub = some pushed ∧
      Bus.call data ⟨topic, index⟩ sub sems = some (middle, called) ∧
      Bus.publishFrom size data topic (index + 1) subs middle = some (rest, sems', late) ∧
      subs' = sub.received :: rest ∧ events = pushed ++ called ++ late := by
  obtain ⟨pushed, push, rest⟩ := Option.bind_eq_some_iff.mp loop
  obtain ⟨⟨middle, called⟩, call, rest'⟩ := Option.bind_eq_some_iff.mp rest
  obtain ⟨⟨subs'', last, late⟩, loop', done⟩ := Option.bind_eq_some_iff.mp rest'
  obtain ⟨first, done'⟩ := Prod.mk.inj (Option.some.inj done)
  obtain ⟨rfl, third⟩ := Prod.mk.inj done'
  exact ⟨pushed, middle, called, subs'', late, push, call, loop', first.symm, third.symm⟩

/-- The loop of a publish counts, and changes nothing else of the subscribers. -/
theorem publishFrom_received {size : ℕ} {data : List UInt8} {topic : ℕ} {subs : List Subcriber} :
    ∀ {index : ℕ} {sems sems' : Address → ℕ} {subs' : List Subcriber} {events : List Event},
      Bus.publishFrom size data topic index subs sems = some (subs', sems', events) →
      subs' = subs.map Subcriber.received := by
  induction subs with
  | nil =>
    intro index sems sems' subs' events loop
    obtain ⟨rfl, -⟩ := Prod.mk.inj (Option.some.inj loop)
    rfl
  | cons sub subs ih =>
    intro index sems sems' subs' events loop
    obtain ⟨pushed, middle, called, rest, late, -, -, loop', rfl, -⟩ := publishFrom_cons loop
    rw [ih loop', List.map_cons]

/-- **The loop** delivers to each subscriber once, in their order. -/
theorem publishFrom_eq {subs : List Subcriber} (unset : ∀ sub ∈ subs, sub.sem = none) :
    ∀ {index : ℕ} {sems sems' : Address → ℕ} {subs' : List Subcriber} {events : List Event},
      Bus.publishFrom size data topic index subs sems = some (subs', sems', events) →
      subs' = subs.map Subcriber.received ∧ sems' = sems ∧
        events = deliveriesFrom size data topic index (subs.map Subcriber.port) := by
  intro index sems sems' subs' events loop
  refine ⟨publishFrom_received loop, ?_⟩
  induction subs generalizing index sems subs' events with
  | nil =>
    obtain ⟨-, rest⟩ := Prod.mk.inj (Option.some.inj loop)
    obtain ⟨rfl, rfl⟩ := Prod.mk.inj rest
    exact ⟨rfl, rfl⟩
  | cons sub subs ih =>
    obtain ⟨pushed, middle, called, rest, late, push, call, loop', -, rfl⟩ := publishFrom_cons loop
    obtain ⟨kept, later⟩ := ih (fun sub member => unset sub (List.mem_cons_of_mem _ member)) loop'
    obtain ⟨same, head⟩ := call_eq (unset sub List.mem_cons_self) call
    refine ⟨kept.trans same, ?_⟩
    rw [push_eq push, head, later, deliveriesFrom, deliveriesFrom, List.map_cons,
      List.zipIdx_cons, List.flatMap_cons]
    rfl

/-- The loop never fails on data that is long enough, if every subscriber has an account. -/
theorem publishFrom_total (topic : ℕ) (long : size ≤ data.length) {subs : List Subcriber}
    (accounts : ∀ sub ∈ subs, sub.acc.isSome = true) :
    ∀ (index : ℕ) (sems : Address → ℕ),
      ∃ last, Bus.publishFrom size data topic index subs sems = some last := by
  induction subs with
  | nil => exact fun index sems => ⟨_, rfl⟩
  | cons sub subs ih =>
    intro index sems
    have push : ∃ pushed, Bus.push size data ⟨topic, index⟩ sub = some pushed := by
      unfold Bus.push
      split
      · exact ⟨_, if_pos long⟩
      · exact ⟨_, rfl⟩
    have call : ∃ called, Bus.call data ⟨topic, index⟩ sub sems = some called := by
      unfold Bus.call
      obtain ⟨acc, account⟩ := Option.isSome_iff_exists.mp (accounts sub List.mem_cons_self)
      split
      · exact ⟨_, rfl⟩
      · exact ⟨_, rfl⟩
      · exact ⟨_, by rw [account]; rfl⟩
    obtain ⟨pushed, push⟩ := push
    obtain ⟨⟨middle, called⟩, call⟩ := call
    obtain ⟨⟨subs', last, late⟩, rest⟩ :=
      ih (fun sub member => accounts sub (List.mem_cons_of_mem _ member)) (index + 1) middle
    refine ⟨({ sub with rxCnt := sub.rxCnt + 1 } :: subs', last, pushed ++ called ++ late), ?_⟩
    refine Option.bind_eq_some_iff.mpr ⟨pushed, push, ?_⟩
    refine Option.bind_eq_some_iff.mpr ⟨(middle, called), call, ?_⟩
    exact Option.bind_eq_some_iff.mpr ⟨(subs', last, late), rest, rfl⟩

end Loop

/-! ### Well-formed states -/

/-- A subscriber has no semaphore, and its account, if it has one, exists. -/
structure Sound (accounts : List Acc) (sub : Subcriber) : Prop where
  sem : sub.sem = none
  acc : ∀ acc, sub.acc = some acc → acc < accounts.length

/-- A name that is found finds a record of that name, and the subscribers are sound. -/
structure WellFormed (bus : Bus) : Prop where
  topics : ∀ {name topic}, bus.topicFindByName name = some (some topic) →
    ∃ top, bus.topics[topic]? = some top ∧ top.name = name
  accounts : ∀ {name acc}, bus.accounterFindByName name = some (some acc) →
    bus.accounts[acc]? = some ⟨name⟩
  subcribers : ∀ {top : Topic}, top ∈ bus.topics → ∀ sub ∈ top.subcribers, Sound bus.accounts sub

theorem WellFormed.sems {bus : Bus} (formed : WellFormed bus) {top : Topic}
    (member : top ∈ bus.topics) : ∀ sub ∈ top.subcribers, sub.sem = none :=
  fun sub here => (formed.subcribers member sub here).sem

/-- The change of a topic's record, and of the semaphores. -/
theorem WellFormed.setTopic {bus : Bus} (formed : WellFormed bus) {topic : ℕ} {top : Topic}
    (record : bus.topics[topic]? = some top) (top' : Topic) (name : top'.name = top.name)
    (sound : ∀ sub ∈ top'.subcribers, Sound bus.accounts sub) (sems : Address → ℕ) :
    WellFormed { bus.setTopic topic top' with sems := sems } where
  topics {other number} found := by
    obtain ⟨old, here, named⟩ := formed.topics found
    by_cases same : number = topic
    · subst same
      refine ⟨top', ?_, ?_⟩
      · exact List.getElem?_set_self (List.getElem?_eq_some_iff.mp record).1
      · rw [name, ← named]
        exact congrArg Topic.name (Option.some.inj (record.symm.trans here))
    · refine ⟨old, ?_, named⟩
      rw [← here]
      exact List.getElem?_set_ne (Ne.symm same)
  accounts := formed.accounts
  subcribers {other} member := by
    rcases List.mem_or_eq_of_mem_set member with member | rfl
    · exact formed.subcribers member
    · exact sound

theorem topicFindByName_topicCreate (bus : Bus) (name : CString) (cfg : TopicCfg)
    (name' : CString) :
    (bus.topicCreate name cfg).topicFindByName name' =
      some (if name' = name ∧
          (bus.topicsTable.getD (.init Bus.topicTableSize)).headKey name ≠ some name
        then some bus.topics.length else (bus.topicFindByName name').bind id) := by
  rw [Bus.topicFindByName, Bus.topicFindByName, ← search_getD _ Bus.topicTableSize,
    ← HashTable.search_insert]
  rfl

theorem WellFormed.topicCreate {bus : Bus} (formed : WellFormed bus) (name : CString)
    (cfg : TopicCfg) : WellFormed (bus.topicCreate name cfg) where
  topics {other number} found := by
    rw [topicFindByName_topicCreate] at found
    have found := Option.some.inj found
    split at found
    case isTrue new =>
      obtain rfl := Option.some.inj found
      exact ⟨_, List.getElem?_concat_length, new.1.symm⟩
    case isFalse =>
      obtain ⟨_, here, rfl⟩ := Option.bind_eq_some_iff.mp found
      obtain ⟨top, record, named⟩ := formed.topics here
      exact ⟨top, getElem?_append_some record, named⟩
  accounts := formed.accounts
  subcribers {top} member := by
    rcases List.mem_append.mp member with member | member
    · exact formed.subcribers member
    · obtain rfl := List.mem_singleton.mp member
      exact fun sub none => by cases none

theorem WellFormed.accounterCreate {bus : Bus} (formed : WellFormed bus) (name : CString) :
    WellFormed (bus.accounterCreate name) where
  topics := formed.topics
  accounts {other number} found := by
    have found : ((bus.accountersTable.getD (.init Bus.accountersTableSize)).insert name
        bus.accounts.length).search other = some number := Option.some.inj found
    rw [HashTable.search_insert, search_getD] at found
    split at found
    case isTrue new =>
      obtain rfl := Option.some.inj found
      rw [new.1]
      exact List.getElem?_concat_length
    case isFalse =>
      obtain ⟨_, here, rfl⟩ := Option.bind_eq_some_iff.mp found
      exact getElem?_append_some (formed.accounts here)
  subcribers {top} member sub here := by
    obtain ⟨sem, acc⟩ := formed.subcribers member sub here
    refine ⟨sem, fun number same => (acc number same).trans_le ?_⟩
    show bus.accounts.length ≤ (bus.accounts ++ [_]).length
    rw [List.length_append]
    exact Nat.le_add_right _ _

theorem WellFormed.publish_cases {bus bus' : Bus} (formed : WellFormed bus) {name : CString}
    {data : List UInt8} {events : List Event} (step : bus.publish name data = some (bus', events)) :
    ∃ topic top, bus.lookup name = some (topic, top) ∧
      bus' = bus.setTopic topic { top with subcribers := top.subcribers.map Subcriber.received } ∧
      events = deliveries top.cfg.topicDataSize.toNat data topic
        (top.subcribers.map Subcriber.port) ++ [.published 0] := by
  obtain ⟨topic, top, subs, sems, called, found, loop, rfl, rfl⟩ := Abus.publish_cases step
  have member := List.mem_of_getElem? (Bus.lookup_eq_some.mp found).2
  obtain ⟨rfl, rfl, rfl⟩ := publishFrom_eq (formed.sems member) loop
  exact ⟨topic, top, found, rfl, rfl⟩

theorem publish_total {bus : Bus} {name : CString} {data : List UInt8} {topic : ℕ} {top : Topic}
    (found : bus.lookup name = some (topic, top)) (long : top.cfg.topicDataSize.toNat ≤ data.length)
    (accounts : ∀ sub ∈ top.subcribers, sub.acc.isSome = true) :
    ∃ bus' events, bus.publish name data = some (bus', events) := by
  obtain ⟨here, record⟩ := Bus.lookup_eq_some.mp found
  obtain ⟨⟨subs, sems, called⟩, loop⟩ :=
    publishFrom_total topic long accounts 0 bus.sems
  refine ⟨{ bus.setTopic topic { top with subcribers := subs } with sems := sems },
    called ++ [.published 0], ?_⟩
  refine Option.bind_eq_some_iff.mpr ⟨some topic, here, ?_⟩
  refine Option.bind_eq_some_iff.mpr ⟨topic, rfl, ?_⟩
  refine Option.bind_eq_some_iff.mpr ⟨top, record, ?_⟩
  exact Option.bind_eq_some_iff.mpr ⟨(subs, sems, called), loop, rfl⟩

/-- **A wait from a well-formed state** is refused. -/
theorem WellFormed.wait_cases {bus bus' : Bus} (formed : WellFormed bus) {pointer : Pointer}
    {events : List Event} (step : bus.subcriberWait pointer = some (bus', events)) :
    bus' = bus ∧ events = [.waited pointer (-1)] := by
  obtain ⟨top, sub, record, member, ⟨-, rfl, rfl⟩ | ⟨sem, some, -⟩⟩ := subcriberWait_cases step
  · exact ⟨rfl, rfl⟩
  · have none := formed.sems (List.mem_of_getElem? record) sub (List.mem_of_getElem? member)
    rw [none] at some
    cases some

/-- What a call does to a well-formed bus. -/
inductive Effect (bus : Bus) : Op → Bus → Prop
  | topicCreate (name : CString) (cfg : TopicCfg) :
    Effect bus (.topicCreate name cfg) (bus.topicCreate name cfg)
  | accounterCreate (name : CString) :
    Effect bus (.accounterCreate name) (bus.accounterCreate name)
  | subcribe (cfg : SubcribeCfg) {name accounter : CString} {topic : ℕ} {top : Topic}
    {acc : Option ℕ} (found : bus.lookup name = some (topic, top))
    (account : bus.accounterFindByName accounter = some acc) :
    Effect bus (.subcribe name accounter cfg)
      { bus.setTopic topic (top.push accounter (cfg.subcriber acc)) with
        sems := cfg.sems bus.sems }
  | publish (data : List UInt8) {name : CString} {topic : ℕ} {top : Topic}
    (found : bus.lookup name = some (topic, top)) :
    Effect bus (.publish name data)
      (bus.setTopic topic { top with subcribers := top.subcribers.map Subcriber.received })
  | unchanged {op : Op} : Effect bus op bus

/-- **A step from a well-formed state.** A refused subscription, an unsubscription and a wait change
nothing. -/
theorem WellFormed.effect {bus bus' : Bus} {op : Op} {events : List Event} (formed : WellFormed bus)
    (step : abus.step bus op = some (bus', events)) : Effect bus op bus' := by
  cases op with
  | topicCreate name cfg =>
    obtain ⟨rfl, -⟩ := Prod.mk.inj (Option.some.inj step)
    exact .topicCreate name cfg
  | accounterCreate name =>
    obtain ⟨rfl, -⟩ := Prod.mk.inj (Option.some.inj step)
    exact .accounterCreate name
  | subcribe name accounter cfg =>
    obtain ⟨-, rfl, -⟩ | ⟨topic, top, acc, found, account, -, rfl⟩ := subcribe_cases step
    · exact .unchanged
    · exact .subcribe cfg found account
  | unsubcribe name subcribe =>
    obtain ⟨rfl, -⟩ := unsubcribe_cases step
    exact .unchanged
  | publish name data =>
    obtain ⟨topic, top, found, rfl, -⟩ := formed.publish_cases step
    exact .publish data found
  | wait pointer =>
    obtain ⟨rfl, -⟩ := formed.wait_cases step
    exact .unchanged

/-- **Every step** keeps the bus well-formed. -/
theorem WellFormed.next {bus bus' : Bus} {op : Op} {events : List Event} (formed : WellFormed bus)
    (step : abus.step bus op = some (bus', events)) : WellFormed bus' := by
  cases formed.effect step with
  | topicCreate name cfg => exact formed.topicCreate name cfg
  | accounterCreate name => exact formed.accounterCreate name
  | @subcribe cfg name accounter topic top acc found account =>
    have record := (Bus.lookup_eq_some.mp found).2
    refine formed.setTopic record (top.push accounter (cfg.subcriber acc)) rfl
      (fun sub member => ?_) _
    rcases List.mem_append.mp member with member | member
    · exact formed.subcribers (List.mem_of_getElem? record) sub member
    · rw [List.mem_singleton.mp member]
      refine ⟨rfl, fun number same => ?_⟩
      obtain rfl : acc = some number := same
      exact (List.getElem?_eq_some_iff.mp (formed.accounts account)).1
  | @publish data name topic top found =>
    have record := (Bus.lookup_eq_some.mp found).2
    refine formed.setTopic record
      { top with subcribers := top.subcribers.map Subcriber.received } rfl
      (fun sub member => ?_) bus.sems
    obtain ⟨before, here, rfl⟩ := List.mem_map.mp member
    obtain ⟨sem, acc⟩ := formed.subcribers (List.mem_of_getElem? record) before here
    exact ⟨sem, acc⟩
  | unchanged => exact formed

theorem WellFormed.initial (sems : Address → ℕ) : WellFormed (.initial sems) where
  topics found := by cases found
  accounts found := by cases found
  subcribers member := absurd member List.not_mem_nil

/-- **Every reachable state** is well-formed. -/
theorem wellFormed_reachable {sems : Address → ℕ} {past : List Op} {outs : List Event} {bus : Bus}
    {guard : Bus → Op → Prop} (run : abus.RunOn guard (.initial sems) past outs bus) :
    WellFormed bus :=
  run.invariant WellFormed (fun _ _ _ _ _ formed step => formed.next step) (.initial sems)

/-! ### Lookups -/

/-- The name of the topic that a call creates. -/
def Op.creates : Op → Option CString
  | .topicCreate name _ => some name
  | _ => none

theorem creates_eq_some {op : Op} {name : CString} (creates : op.creates = some name) :
    ∃ cfg, op = .topicCreate name cfg := by
  cases op with
  | topicCreate name' cfg => exact ⟨cfg, by rw [Option.some.inj creates]⟩
  | _ => cases creates

/-- A call that creates no topic leaves the topics in their places, and the table alone. -/
theorem WellFormed.uncreated {bus bus' : Bus} (formed : WellFormed bus) {op : Op}
    {events : List Event} (other : op.creates = none)
    (step : abus.step bus op = some (bus', events)) :
    bus'.topics.length = bus.topics.length ∧ bus'.topicsTable = bus.topicsTable := by
  cases formed.effect step with
  | topicCreate name cfg => cases other
  | accounterCreate name => exact ⟨rfl, rfl⟩
  | subcribe cfg found account => exact ⟨List.length_set, rfl⟩
  | publish data found => exact ⟨List.length_set, rfl⟩
  | unchanged => exact ⟨rfl, rfl⟩

/-- What a name finds, it finds until a topic of this name is created. -/
theorem WellFormed.find_step {bus bus' : Bus} (formed : WellFormed bus) {op : Op}
    {events : List Event} {name : CString} (other : op.creates ≠ some name)
    (step : abus.step bus op = some (bus', events)) {found : Option ℕ}
    (here : bus.topicFindByName name = some found) : bus'.topicFindByName name = some found := by
  cases formed.effect step with
  | topicCreate name' cfg =>
    rw [topicFindByName_topicCreate, if_neg fun new => other (congrArg some new.1.symm), here]
    rfl
  | accounterCreate name' => exact here
  | subcribe cfg found account => exact here
  | publish data found => exact here
  | unchanged => exact here

theorem WellFormed.lookup_name {bus : Bus} (formed : WellFormed bus) {name : CString} {topic : ℕ}
    {top : Topic} (found : bus.lookup name = some (topic, top)) : top.name = name := by
  obtain ⟨here, record⟩ := Bus.lookup_eq_some.mp found
  obtain ⟨top', record', named⟩ := formed.topics here
  obtain rfl := Option.some.inj (record.symm.trans record')
  exact named

/-- The topic that a name finds after another name's record has changed, or its own. -/
theorem WellFormed.lookup_setTopic {bus : Bus} (formed : WellFormed bus) {name : CString}
    {topic : ℕ} {top : Topic} (found : bus.lookup name = some (topic, top)) (top' : Topic)
    (sems : Address → ℕ) (name' : CString) :
    ({ bus.setTopic topic top' with sems := sems } : Bus).lookup name' =
      if name' = name then some (topic, top') else bus.lookup name' := by
  obtain ⟨here, record⟩ := Bus.lookup_eq_some.mp found
  by_cases same : name' = name
  · subst same
    rw [if_pos rfl]
    refine Bus.lookup_eq_some.mpr ⟨here, ?_⟩
    exact List.getElem?_set_self (List.getElem?_eq_some_iff.mp record).1
  · rw [if_neg same]
    show (bus.topicFindByName name').bind (fun found => found.bind fun number =>
      (bus.topics.set topic top')[number]?.map fun top => (number, top)) = bus.lookup name'
    unfold Bus.lookup
    rcases other : bus.topicFindByName name' with _ | _ | number
    · rfl
    · rfl
    · have apart : topic ≠ number := by
        rintro rfl
        obtain ⟨_, record₁, name₁⟩ := formed.topics here
        obtain ⟨_, record₂, name₂⟩ := formed.topics other
        obtain rfl := Option.some.inj (record₁.symm.trans record₂)
        exact same (name₂.symm.trans name₁)
      show (bus.topics.set topic top')[number]?.map _ = bus.topics[number]?.map _
      rw [List.getElem?_set_ne apart]

/-- The topic that another name finds after the creation of a topic. -/
theorem WellFormed.lookup_topicCreate_ne {bus : Bus} (formed : WellFormed bus)
    {name name' : CString} (other : name' ≠ name) (cfg : TopicCfg) :
    (bus.topicCreate name cfg).lookup name' = bus.lookup name' := by
  unfold Bus.lookup
  rw [topicFindByName_topicCreate, if_neg fun new => other new.1]
  rcases here : bus.topicFindByName name' with _ | _ | number
  · rfl
  · rfl
  · obtain ⟨top, record, -⟩ := formed.topics here
    show (bus.topics ++ _)[number]?.map _ = bus.topics[number]?.map _
    rw [record, getElem?_append_some record]

/-- The topic that a name finds after the creation of a topic whose name is new. -/
theorem WellFormed.lookup_topicCreate {bus : Bus} (formed : WellFormed bus) {name : CString}
    (fresh : bus.lookup name = none) (cfg : TopicCfg) (name' : CString) :
    (bus.topicCreate name cfg).lookup name' =
      if name' = name then some (bus.topics.length, .created name cfg) else bus.lookup name' := by
  have absent : (bus.topicFindByName name).bind id = none := by
    rcases here : bus.topicFindByName name with _ | _ | number
    · rfl
    · rfl
    · obtain ⟨top, record, -⟩ := formed.topics here
      rw [Bus.lookup_eq_some.mpr ⟨here, record⟩] at fresh
      cases fresh
  rw [Bus.topicFindByName, ← search_getD _ Bus.topicTableSize] at absent
  have head := Bucket.headKey_ne absent
  by_cases same : name' = name
  · rw [if_pos same]
    refine Bus.lookup_eq_some.mpr ⟨?_, List.getElem?_concat_length⟩
    rw [topicFindByName_topicCreate, if_pos ⟨same, head⟩]
  · rw [if_neg same, formed.lookup_topicCreate_ne same]

end Robocon.Abus
