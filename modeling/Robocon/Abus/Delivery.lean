/-
**Delivery: exactly once and in order.**

The calls so far say what a publish on a topic delivers to (`subscriptions`) and what every counter
holds. The `book` of a topic keeps both: its subscriptions, each with the number of publishes since.

* `Proper` — the condition on a step: the name of a new topic is new, and a subscription or a
  publish names a topic, and an account, that exist.
* `Booked` — the vector of every topic is the book of the topic. One step keeps it (`Booked.next`).
* `exactly_once` — what a publish delivers after a run of such steps, and the counters.
-/

import Robocon.Abus.Reachable

namespace Robocon.Abus

open Lib

/-! ### Histories -/

def SubcribeCfg.port (cfg : SubcribeCfg) : Port := ⟨cfg.fifo, cfg.callback⟩

/-- The subscription to a topic that a call makes. -/
def Op.subscription (name : CString) : Op → Option SubcribeCfg
  | .subcribe topic _ cfg => if topic = name then some cfg else none
  | _ => none

/-- The call is a publish on a topic. -/
def Op.publishes (name : CString) : Op → Bool
  | .publish topic _ => topic = name
  | _ => false

/-- The subscriptions to a topic, in their order. -/
def subscriptions (name : CString) (past : List Op) : List SubcribeCfg :=
  past.filterMap (Op.subscription name)

/-- A subscription, and the number of publishes on its topic since. -/
structure Subscription where
  cfg : SubcribeCfg
  published : ℕ

def Subscription.more (entry : Subscription) : Subscription :=
  { entry with published := entry.published + 1 }

/-- The book of a topic after one more call. -/
def Op.book (name : CString) (book : List Subscription) (op : Op) : List Subscription :=
  (if op.publishes name then book.map Subscription.more else book) ++
    ((op.subscription name).map fun cfg => ⟨cfg, 0⟩).toList

/-- The book of a topic. -/
def book (name : CString) (past : List Op) : List Subscription := past.foldl (Op.book name) []

section Books

variable {name : CString}

theorem book_concat (past : List Op) (op : Op) :
    book name (past ++ [op]) = op.book name (book name past) := by
  rw [book, List.foldl_append]
  rfl

theorem book_cfg (past : List Op) :
    (book name past).map Subscription.cfg = subscriptions name past := by
  induction past using List.reverseRecOn with
  | nil => rfl
  | append_singleton past op ih =>
    have kept : (if op.publishes name then (book name past).map Subscription.more
        else book name past).map Subscription.cfg = subscriptions name past := by
      rw [← ih]
      split
      · rw [List.map_map]
        rfl
      · rfl
    rw [book_concat, Op.book, List.map_append, kept, subscriptions, subscriptions,
      List.filterMap_append]
    congr 1
    rcases subscribed : op.subscription name with _ | cfg
    · rw [List.filterMap_cons_none subscribed]
      rfl
    · rw [List.filterMap_cons_some subscribed]
      rfl

theorem book_length (past : List Op) :
    (book name past).length = (subscriptions name past).length := by
  rw [← book_cfg, List.length_map]

/-- The entry of a subscription counts the publishes since. -/
theorem book_entry (before : List Op) (accounter : CString) (cfg : SubcribeCfg) (after : List Op) :
    (book name (before ++ .subcribe name accounter cfg :: after))[
        (subscriptions name before).length]? =
      some ⟨cfg, after.countP (Op.publishes name)⟩ := by
  induction after using List.reverseRecOn with
  | nil =>
    have made : (Op.subcribe name accounter cfg).subscription name = some cfg := if_pos rfl
    rw [book_concat, Op.book, made, ← book_length]
    exact List.getElem?_concat_length
  | append_singleton after op ih =>
    rw [← List.cons_append, ← List.append_assoc, book_concat, Op.book, List.countP_append,
      List.countP_singleton]
    apply getElem?_append_some
    split
    · rw [List.getElem?_map, ih]
      rfl
    · exact ih

end Books

/-! ### Runs -/

/-- **The condition on a step.** The name of a new topic is new, and the topic and the account that
a call names exist. -/
def Proper (bus : Bus) : Op → Prop
  | .topicCreate name _ => (bus.lookup name).isSome = false
  | .subcribe topic accounter _ =>
    (bus.lookup topic).isSome = true ∧ (bus.account accounter).isSome = true
  | .publish topic _ => (bus.lookup topic).isSome = true
  | _ => True

instance (bus : Bus) : (op : Op) → Decidable (Proper bus op)
  | .topicCreate _ _ => inferInstanceAs (Decidable (_ = _))
  | .accounterCreate _ => .isTrue trivial
  | .subcribe _ _ _ => inferInstanceAs (Decidable (_ ∧ _))
  | .unsubcribe _ _ => .isTrue trivial
  | .publish _ _ => inferInstanceAs (Decidable (_ = _))
  | .wait _ => .isTrue trivial

/-- A topic that a name finds, it finds after every proper step. -/
theorem WellFormed.found_step {bus bus' : Bus} (formed : WellFormed bus) {op : Op}
    {events : List Event} (proper : Proper bus op) (step : abus.step bus op = some (bus', events))
    {name : CString} {topic : ℕ} (found : bus.topicFindByName name = some (some topic)) :
    bus'.topicFindByName name = some (some topic) := by
  refine formed.find_step (fun creates => ?_) step found
  cases op with
  | topicCreate other cfg =>
    obtain rfl : other = name := Option.some.inj creates
    obtain ⟨top, record, -⟩ := formed.topics found
    have fresh : (bus.lookup other).isSome = false := proper
    rw [Bus.lookup_eq_some.mpr ⟨found, record⟩] at fresh
    cases fresh
  | _ => cases creates

/-- The change of a record that keeps its configuration and extends its ports, if it had any. -/
theorem record_setTopic {bus : Bus} {topic : ℕ} {top : Topic}
    (record : bus.topics[topic]? = some top) (top' : Topic) (cfg : top'.cfg = top.cfg)
    (ports : top.subcribers.map Subcriber.port <+: top'.subcribers.map Subcriber.port) {number : ℕ}
    {old : Topic} (here : bus.topics[number]? = some old) :
    ∃ new, (bus.setTopic topic top').topics[number]? = some new ∧ new.cfg = old.cfg ∧
      old.subcribers.map Subcriber.port <+: new.subcribers.map Subcriber.port := by
  by_cases same : number = topic
  · subst same
    obtain rfl := Option.some.inj (record.symm.trans here)
    exact ⟨top', List.getElem?_set_self (List.getElem?_eq_some_iff.mp record).1, cfg, ports⟩
  · exact ⟨old, (List.getElem?_set_ne (Ne.symm same)).trans here, rfl, List.prefix_rfl⟩

/-- Every step keeps the configuration of every topic, and its ports, in their places. -/
theorem WellFormed.record_step {bus bus' : Bus} (formed : WellFormed bus) {op : Op}
    {events : List Event} (step : abus.step bus op = some (bus', events)) {topic : ℕ} {top : Topic}
    (record : bus.topics[topic]? = some top) :
    ∃ top', bus'.topics[topic]? = some top' ∧ top'.cfg = top.cfg ∧
      top.subcribers.map Subcriber.port <+: top'.subcribers.map Subcriber.port := by
  cases formed.effect step with
  | topicCreate other cfg => exact ⟨top, getElem?_append_some record, rfl, List.prefix_rfl⟩
  | accounterCreate other => exact ⟨top, record, rfl, List.prefix_rfl⟩
  | @subcribe cfg other accounter number old acc found account =>
    refine record_setTopic (Bus.lookup_eq_some.mp found).2
      (old.push accounter (cfg.subcriber acc)) rfl ?_ record
    show _ <+: (old.subcribers ++ [_]).map Subcriber.port
    rw [List.map_append]
    exact List.prefix_append _ _
  | @publish data other number old found =>
    refine record_setTopic (Bus.lookup_eq_some.mp found).2
      { old with subcribers := old.subcribers.map Subcriber.received } rfl ?_ record
    rw [List.map_map]
    exact List.prefix_rfl
  | unchanged => exact ⟨top, record, rfl, List.prefix_rfl⟩

/-- A topic that a name finds keeps its place, its configuration and its ports. -/
theorem WellFormed.lookup_step {bus bus' : Bus} (formed : WellFormed bus) {op : Op}
    {events : List Event} (proper : Proper bus op) (step : abus.step bus op = some (bus', events))
    {name : CString} {topic : ℕ} {top : Topic} (found : bus.lookup name = some (topic, top)) :
    ∃ top', bus'.lookup name = some (topic, top') ∧ top'.cfg = top.cfg ∧
      top.subcribers.map Subcriber.port <+: top'.subcribers.map Subcriber.port := by
  obtain ⟨here, record⟩ := Bus.lookup_eq_some.mp found
  obtain ⟨top', record', cfg, ports⟩ := formed.record_step step record
  have here' := formed.found_step proper step here
  exact ⟨top', Bus.lookup_eq_some.mpr ⟨here', record'⟩, cfg, ports⟩

/-- The subscriber is the one of a book's entry. -/
structure Holds (entry : Subscription) (sub : Subcriber) : Prop where
  port : sub.port = entry.cfg.port
  rxCnt : sub.rxCnt = UInt32.ofNat entry.published
  account : sub.acc.isSome = true

theorem Holds.received {entry : Subscription} {sub : Subcriber} (holds : Holds entry sub) :
    Holds entry.more sub.received where
  port := holds.port
  rxCnt := by
    show sub.rxCnt + 1 = UInt32.ofNat (entry.published + 1)
    rw [holds.rxCnt, UInt32.ofNat_add]
    rfl
  account := holds.account

section Vectors

variable {book : List Subscription} {subs : List Subcriber}

theorem holds_at (holds : List.Forall₂ Holds book subs) :
    ∀ {index : ℕ} {entry : Subscription}, book[index]? = some entry →
      ∃ sub, subs[index]? = some sub ∧ Holds entry sub := by
  induction holds with
  | nil => exact fun here => by cases here
  | cons head _ ih =>
    intro index entry here
    cases index with
    | zero =>
      obtain rfl := Option.some.inj here
      exact ⟨_, rfl, head⟩
    | succ index => exact ih here

theorem holds_port (holds : List.Forall₂ Holds book subs) :
    subs.map Subcriber.port = (book.map Subscription.cfg).map SubcribeCfg.port := by
  induction holds with
  | nil => rfl
  | cons head _ ih => rw [List.map_cons, ih, head.port, List.map_cons, List.map_cons]

theorem holds_account (holds : List.Forall₂ Holds book subs) :
    ∀ sub ∈ subs, sub.acc.isSome = true := by
  induction holds with
  | nil => exact fun sub member => absurd member List.not_mem_nil
  | cons head _ ih => exact List.forall_mem_cons.mpr ⟨head.account, ih⟩

end Vectors

/-- The vectors of the topics are their books. -/
structure Booked (past : List Op) (bus : Bus) : Prop where
  formed : WellFormed bus
  created : ∀ {name cfg}, .topicCreate name cfg ∈ past →
    ∃ topic top, bus.lookup name = some (topic, top) ∧ top.cfg = cfg
  absent : ∀ {name}, bus.lookup name = none → book name past = []
  books : ∀ {name topic top}, bus.lookup name = some (topic, top) →
    List.Forall₂ Holds (book name past) top.subcribers

/-- A call that is no subscription and no publish on a topic leaves its book alone. -/
theorem book_other {name : CString} {past : List Op} {op : Op}
    (unsubscribed : op.subscription name = none) (unpublished : op.publishes name = false) :
    book name (past ++ [op]) = book name past := by
  rw [book_concat, Op.book, unsubscribed, unpublished]
  exact List.append_nil _

theorem Booked.same {past : List Op} {bus bus' : Bus} {op : Op} (booked : Booked past bus)
    (formed : WellFormed bus') (lookup : ∀ name, bus'.lookup name = bus.lookup name)
    (unbooked : ∀ name, op.subscription name = none ∧ op.publishes name = false)
    (creates : ∀ name cfg, op ≠ .topicCreate name cfg) : Booked (past ++ [op]) bus' where
  formed := formed
  created {name cfg} member := by
    rw [lookup]
    rcases List.mem_append.mp member with member | member
    · exact booked.created member
    · exact absurd (List.mem_singleton.mp member).symm (creates name cfg)
  absent {name} none := by
    rw [lookup] at none
    rw [book_other (unbooked name).1 (unbooked name).2]
    exact booked.absent none
  books {name topic top} found := by
    rw [lookup] at found
    rw [book_other (unbooked name).1 (unbooked name).2]
    exact booked.books found

/-- A call that changes the vector of one topic as it changes the topic's book. -/
theorem Booked.change {past : List Op} {bus bus' : Bus} {op : Op} (booked : Booked past bus)
    (formed : WellFormed bus') {name : CString} {topic : ℕ} {top top' : Topic}
    (found : bus.lookup name = some (topic, top))
    (lookup : ∀ name', bus'.lookup name' =
      if name' = name then some (topic, top') else bus.lookup name')
    (cfg : top'.cfg = top.cfg)
    (unbooked : ∀ name', name' ≠ name → op.subscription name' = none ∧ op.publishes name' = false)
    (creates : ∀ name cfg, op ≠ .topicCreate name cfg)
    (books : List.Forall₂ Holds (op.book name (book name past)) top'.subcribers) :
    Booked (past ++ [op]) bus' where
  formed := formed
  created {name' cfg'} member := by
    rw [lookup]
    rcases List.mem_append.mp member with member | member
    · obtain ⟨topic', old, here, same⟩ := booked.created member
      by_cases own : name' = name
      · subst own
        obtain ⟨rfl, rfl⟩ := Prod.mk.inj (Option.some.inj (found.symm.trans here))
        exact ⟨topic, top', if_pos rfl, cfg.trans same⟩
      · exact ⟨topic', old, by rw [if_neg own, here], same⟩
    · exact absurd (List.mem_singleton.mp member).symm (creates name' cfg')
  absent {name'} none := by
    rw [lookup] at none
    by_cases own : name' = name
    · rw [if_pos own] at none
      cases none
    · rw [if_neg own] at none
      rw [book_other (unbooked name' own).1 (unbooked name' own).2]
      exact booked.absent none
  books {name' topic' record} here := by
    rw [lookup] at here
    by_cases own : name' = name
    · subst own
      rw [if_pos rfl] at here
      obtain ⟨rfl, rfl⟩ := Prod.mk.inj (Option.some.inj here)
      rw [book_concat]
      exact books
    · rw [if_neg own] at here
      rw [book_other (unbooked name' own).1 (unbooked name' own).2]
      exact booked.books here

theorem Booked.topicCreate {past : List Op} {bus : Bus} (booked : Booked past bus)
    {name : CString} (fresh : bus.lookup name = none) (cfg : TopicCfg) :
    Booked (past ++ [.topicCreate name cfg]) (bus.topicCreate name cfg) where
  formed := booked.formed.topicCreate name cfg
  created {name' cfg'} member := by
    rw [booked.formed.lookup_topicCreate fresh]
    rcases List.mem_append.mp member with member | member
    · obtain ⟨topic, top, found, same⟩ := booked.created member
      by_cases own : name' = name
      · rw [own, fresh] at found
        cases found
      · exact ⟨topic, top, by rw [if_neg own, found], same⟩
    · cases List.mem_singleton.mp member
      exact ⟨_, _, if_pos rfl, rfl⟩
  absent {name'} none := by
    rw [booked.formed.lookup_topicCreate fresh] at none
    rw [book_other rfl rfl]
    by_cases own : name' = name
    · rw [if_pos own] at none
      cases none
    · rw [if_neg own] at none
      exact booked.absent none
  books {name' topic top} found := by
    rw [booked.formed.lookup_topicCreate fresh] at found
    rw [book_other rfl rfl]
    by_cases own : name' = name
    · rw [if_pos own] at found
      obtain ⟨-, rfl⟩ := Prod.mk.inj (Option.some.inj found)
      rw [own, booked.absent fresh]
      exact .nil
    · rw [if_neg own] at found
      exact booked.books found

/-- **One step** keeps every vector in line with its book. -/
theorem Booked.next {past : List Op} {bus bus' : Bus} {op : Op} {events : List Event}
    (booked : Booked past bus) (proper : Proper bus op)
    (step : abus.step bus op = some (bus', events)) : Booked (past ++ [op]) bus' := by
  have formed := booked.formed.next step
  cases op with
  | topicCreate name cfg =>
    obtain ⟨rfl, -⟩ := Prod.mk.inj (Option.some.inj step)
    exact booked.topicCreate (Option.isSome_eq_false_iff.mp proper |> Option.isNone_iff_eq_none.mp)
      cfg
  | accounterCreate name =>
    obtain ⟨rfl, -⟩ := Prod.mk.inj (Option.some.inj step)
    exact booked.same formed (fun _ => rfl) (fun _ => ⟨rfl, rfl⟩) fun _ _ other => by cases other
  | subcribe name accounter cfg =>
    obtain ⟨registered, account⟩ := proper
    obtain ⟨none, -, -⟩ | ⟨topic, top, acc, found, here, -, rfl⟩ := subcribe_cases step
    · rw [Bus.lookup, none] at registered
      cases registered
    · refine booked.change formed found
        (booked.formed.lookup_setTopic found (top.push accounter (cfg.subcriber acc)) _) rfl
        (fun name' other => ⟨if_neg (Ne.symm other), rfl⟩) (fun _ _ other => by cases other) ?_
      have made : (Op.subcribe name accounter cfg).subscription name = some cfg := if_pos rfl
      rw [Bus.account, here] at account
      rw [Op.book, made]
      exact List.rel_append (booked.books found) (.cons ⟨rfl, rfl, account⟩ .nil)
  | unsubcribe name subcribe =>
    obtain ⟨rfl, -⟩ := unsubcribe_cases step
    exact booked.same formed (fun _ => rfl) (fun _ => ⟨rfl, rfl⟩) fun _ _ other => by cases other
  | publish name data =>
    obtain ⟨topic, top, found, rfl, -⟩ := booked.formed.publish_cases step
    refine booked.change formed found
      (booked.formed.lookup_setTopic found
        { top with subcribers := top.subcribers.map Subcriber.received } bus.sems) rfl
      (fun name' other => ⟨rfl, decide_eq_false (Ne.symm other)⟩)
      (fun _ _ other => by cases other) ?_
    have publishes : (Op.publish name data).publishes name = true := decide_eq_true rfl
    rw [Op.book, if_pos publishes]
    show List.Forall₂ Holds (_ ++ []) (top.subcribers.map Subcriber.received)
    rw [List.append_nil, List.forall₂_map_left_iff, List.forall₂_map_right_iff]
    exact (booked.books found).imp fun _ _ => Holds.received
  | wait pointer =>
    obtain ⟨rfl, -⟩ := booked.formed.wait_cases step
    exact booked.same formed (fun _ => rfl) (fun _ => ⟨rfl, rfl⟩) fun _ _ other => by cases other

/-- **Every vector is the book of its topic** along every proper run. -/
theorem booked_run {sems : Address → ℕ} {past : List Op} {outs : List Event} {bus : Bus}
    (run : abus.RunOn Proper (.initial sems) past outs bus) : Booked past bus := by
  refine run.history Booked (fun _ _ _ _ _ proper booked step => booked.next proper step) [] ?_
  exact ⟨.initial sems, fun member => absurd member List.not_mem_nil, fun _ => rfl,
    fun found => by cases found⟩

/-- **Exactly once and in order.** After every proper run, a publish on a topic that was created
pushes the topic's data size into the fifo, and calls the callback, of each subscription to it, in
their order; it changes no record of another topic. Every counter is the number of publishes on the
topic since its subscription. -/
theorem exactly_once {sems : Address → ℕ} {past : List Op} {outs : List Event} {bus : Bus}
    (run : abus.RunOn Proper (.initial sems) past outs bus) {name : CString} {cfg : TopicCfg}
    (created : .topicCreate name cfg ∈ past) :
    ∃ topic top, bus.lookup name = some (topic, top) ∧
      (∀ data : List UInt8, cfg.topicDataSize.toNat ≤ data.length →
        ∃ bus', abus.step bus (.publish name data) = some (bus',
            deliveries cfg.topicDataSize.toNat data topic
              ((subscriptions name past).map SubcribeCfg.port) ++ [.published 0]) ∧
          ∀ other, other ≠ topic → bus'.topics[other]? = bus.topics[other]?) ∧
      ∀ before accounter sub after, past = before ++ .subcribe name accounter sub :: after →
        ∃ subcriber, top.subcribers[(subscriptions name before).length]? = some subcriber ∧
          subcriber.rxCnt = UInt32.ofNat (after.countP (Op.publishes name)) := by
  have booked := booked_run run
  obtain ⟨topic, top, found, rfl⟩ := booked.created created
  have holds := booked.books found
  refine ⟨topic, top, found, fun data long => ?_, fun before accounter sub after split => ?_⟩
  · obtain ⟨bus', events, step⟩ := publish_total found long (holds_account holds)
    obtain ⟨topic', top', found', rfl, rfl⟩ := booked.formed.publish_cases step
    obtain ⟨rfl, rfl⟩ := Prod.mk.inj (Option.some.inj (found.symm.trans found'))
    rw [holds_port holds, book_cfg] at step
    exact ⟨_, step, fun other apart => List.getElem?_set_ne (Ne.symm apart)⟩
  · subst split
    obtain ⟨subcriber, here, held⟩ := holds_at holds (book_entry before accounter sub after)
    exact ⟨subcriber, here, held.rxCnt⟩

/-! ### Two topics -/

/-- The string with one character. -/
def letter (char : UInt8) (nonzero : 0 ≠ char) : CString := ⟨[char], by simpa using nonzero⟩

/-- Two names with one hash address. -/
def firstName : CString := letter 0x61 (by decide)

def secondName : CString := letter 0x6B (by decide)

/-- A run with two topics whose names collide, two accounts, a fifo and an asynchronous
subscription. -/
def collision : List Op :=
  [.topicCreate firstName ⟨16, 2⟩, .topicCreate secondName ⟨0, 1⟩, .accounterCreate firstName,
    .accounterCreate secondName, .subcribe firstName firstName ⟨some 7, some 8, 0, none⟩,
    .publish firstName [1, 2], .subcribe firstName secondName ⟨none, none, 1, some 9⟩,
    .subcribe secondName firstName ⟨some 7, none, 0, none⟩, .publish secondName [3],
    .publish firstName [4, 5]]

/-- A publish after that run, and the counter of the first subscription. -/
theorem exactly_once_collision :
    hashFunction firstName = hashFunction secondName ∧
      ∃ outs bus topic top, abus.RunOn Proper (.initial fun _ => 0) collision outs bus ∧
        bus.lookup firstName = some (topic, top) ∧
        (∃ bus', abus.step bus (.publish firstName [6, 7]) = some (bus',
          [.afifoIn ⟨topic, 0⟩ 7 [6, 7], .cb ⟨topic, 0⟩ (.user 8) [6, 7],
            .cb ⟨topic, 1⟩ .asyncNotify [6, 7], .published 0])) ∧
        ∃ subcriber, top.subcribers[0]? = some subcriber ∧ subcriber.rxCnt = 2 := by
  obtain ⟨outs, bus, run, -⟩ := Machine.exists_run abus Proper (.initial fun _ => 0) collision
    (fun _ _ => true) (by decide +kernel)
  have created : .topicCreate firstName ⟨16, 2⟩ ∈ collision := by decide
  obtain ⟨topic, top, found, publish, counters⟩ := exactly_once run created
  obtain ⟨bus', step, -⟩ := publish [6, 7] (by decide)
  obtain ⟨subcriber, here, count⟩ := counters (collision.take 4) firstName _ (collision.drop 5) rfl
  exact ⟨by decide, outs, bus, topic, top, run, found, ⟨bus', step⟩, subcriber, here, count⟩

end Robocon.Abus
