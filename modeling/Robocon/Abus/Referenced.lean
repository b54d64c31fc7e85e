/-
**Which accounts the subscribers refer to.**

* `Accounted r` — every subscriber of every topic points to an account that is registered.
* `Careful r op` — a subscription to a topic that exists names an account that is found and not
  freed, and a destruction frees no record, and takes out no entry, that a subscriber points to.
* `accounted_reachable` — in every run of careful calls, every state is accounted.

`abus_subcribe` tests the name of the account for null but not the account that it found, so a
subscription by a name that is not registered is stored with a null account
(`unaccounted_subcribe`).
-/

import Robocon.Abus.Accounts
import Robocon.Abus.Delivery

namespace Robocon.Abus

open Lib

/-- Every subscriber points to a registered account. -/
def Accounted (r : Registry) : Prop :=
  ∀ top ∈ r.bus.topics, ∀ sub ∈ top.subcribers, ∃ acc, sub.acc = some acc ∧ r.Registered acc

/-- The account whose entry leaves the table when a record is destroyed. -/
def Registry.taken (r : Registry) (number : ℕ) : Option ℕ :=
  r.bus.accountersTable.bind fun table =>
    r.bus.accounts[number]?.bind fun acc => table.removed acc.name

/-- The call refers to a registered account, or destroys one that no subscriber refers to. -/
def Careful (r : Registry) : RegistryOp → Prop
  | .bus (.subcribe topic accounter _) => r.bus.lookup topic = none ∨
      ∃ acc ∈ r.bus.account accounter, acc ∉ r.freed
  | .accounterDestroy accounter => ∀ number ∈ accounter,
      ∀ top ∈ r.bus.topics, ∀ sub ∈ top.subcribers, ∀ acc ∈ sub.acc,
        acc ≠ number ∧ r.taken number ≠ some acc
  | _ => True

instance (r : Registry) (op : RegistryOp) : Decidable (Careful r op) :=
  match op with
  | .bus (.subcribe _ _ _) => inferInstanceAs (Decidable (_ ∨ ∃ _ ∈ _, _))
  | .accounterDestroy _ => inferInstanceAs (Decidable (∀ _ ∈ _, ∀ _ ∈ _, ∀ _ ∈ _, ∀ _ ∈ _, _ ∧ _))
  | .bus (.topicCreate _ _) => .isTrue trivial
  | .bus (.accounterCreate _) => .isTrue trivial
  | .bus (.unsubcribe _ _) => .isTrue trivial
  | .bus (.publish _ _) => .isTrue trivial
  | .bus (.wait _) => .isTrue trivial

/-! ### What a step does to the references -/

/-- A call of the bus keeps the registered accounts registered. -/
theorem registered_bus {r r' : Registry} {op : Op} {events : List Event}
    (step : registry.step r (.bus op) = some (r', events)) {acc : ℕ}
    (registered : r.Registered acc) : r'.Registered acc := by
  obtain ⟨stepped, freed⟩ := registry_bus step
  obtain ⟨alive, table, here, holds⟩ := registered
  have same (kept : r'.bus.accountersTable = r.bus.accountersTable) : r'.Registered acc :=
    ⟨freed ▸ alive, table, kept.trans here, holds⟩
  cases op with
  | topicCreate name cfg =>
    obtain ⟨bus, -⟩ := Prod.mk.inj (Option.some.inj stepped)
    exact same (bus ▸ rfl)
  | accounterCreate name =>
    obtain ⟨bus, -⟩ := Prod.mk.inj (Option.some.inj stepped)
    refine ⟨freed ▸ alive, table.insert name r.bus.accounts.length, ?_, holds.insert _ _⟩
    rw [← bus]
    show some _ = _
    rw [here]
    rfl
  | subcribe name accounter cfg =>
    obtain ⟨-, bus, -⟩ | ⟨topic, top, found, -, -, -, bus⟩ := subcribe_cases stepped
    · exact same (bus ▸ rfl)
    · exact same (bus ▸ rfl)
  | unsubcribe name subcribe => exact same ((unsubcribe_cases stepped).1 ▸ rfl)
  | publish name data =>
    obtain ⟨topic, top, subs, sems, called, -, -, bus, -⟩ := publish_cases stepped
    exact same (bus ▸ rfl)
  | wait pointer =>
    obtain ⟨top, sub, -, -, ⟨-, bus, -⟩ | ⟨sem, -, ⟨-, bus, -⟩ | ⟨-, -, bus⟩⟩⟩ :=
      subcriberWait_cases stepped
    · exact same (bus ▸ rfl)
    · exact same (bus ▸ rfl)
    · exact same (bus ▸ rfl)

/-- The accounts that the subscribers point to. -/
def Bus.references (bus : Bus) : List (Option ℕ) :=
  bus.topics.flatMap fun top => top.subcribers.map Subcriber.acc

theorem accounted_iff {r : Registry} :
    Accounted r ↔
      ∀ reference ∈ r.bus.references, ∃ acc, reference = some acc ∧ r.Registered acc := by
  simp only [Accounted, Bus.references, List.mem_flatMap, List.mem_map]
  refine ⟨?_, fun all top here sub member => all _ ⟨top, here, sub, member, rfl⟩⟩
  rintro all _ ⟨top, here, sub, member, rfl⟩
  exact all top here sub member

/-- A topic's record that is changed brings in no references but its own. -/
theorem references_setTopic {bus : Bus} {topic : ℕ} {top : Topic} {reference : Option ℕ}
    (member : reference ∈ (bus.setTopic topic top).references) :
    reference ∈ bus.references ∨ reference ∈ top.subcribers.map Subcriber.acc := by
  obtain ⟨other, here, inside⟩ := List.mem_flatMap.mp member
  rcases List.mem_or_eq_of_mem_set here with here | rfl
  · exact Or.inl (List.mem_flatMap.mpr ⟨other, here, inside⟩)
  · exact Or.inr inside

theorem references_lookup {bus : Bus} {name : CString} {topic : ℕ} {top : Topic}
    (found : bus.lookup name = some (topic, top)) {reference : Option ℕ}
    (member : reference ∈ top.subcribers.map Subcriber.acc) : reference ∈ bus.references :=
  List.mem_flatMap.mpr ⟨top, List.mem_of_getElem? (Bus.lookup_eq_some.mp found).2, member⟩

/-- **One call of the bus.** The references after it are those before it, and the account that a
subscription to an existing topic finds. -/
theorem references_next {bus bus' : Bus} {op : Op} {events : List Event}
    (step : abus.step bus op = some (bus', events)) {reference : Option ℕ}
    (member : reference ∈ bus'.references) :
    reference ∈ bus.references ∨ ∃ topic accounter cfg, op = .subcribe topic accounter cfg ∧
      bus.lookup topic ≠ none ∧ bus.accounterFindByName accounter = some reference := by
  cases op with
  | topicCreate name cfg =>
    obtain ⟨rfl, -⟩ := Prod.mk.inj (Option.some.inj step)
    obtain ⟨top, here, inside⟩ := List.mem_flatMap.mp member
    rcases List.mem_append.mp here with here | here
    · exact Or.inl (List.mem_flatMap.mpr ⟨top, here, inside⟩)
    · rw [List.mem_singleton.mp here] at inside
      cases inside
  | accounterCreate name =>
    obtain ⟨rfl, -⟩ := Prod.mk.inj (Option.some.inj step)
    exact Or.inl member
  | subcribe name accounter cfg =>
    obtain ⟨-, rfl, -⟩ | ⟨topic, top, acc, found, account, -, rfl⟩ := subcribe_cases step
    · exact Or.inl member
    · rcases references_setTopic member with member | member
      · exact Or.inl member
      · obtain ⟨sub, inside, rfl⟩ := List.mem_map.mp member
        rcases List.mem_append.mp inside with inside | inside
        · exact Or.inl (references_lookup found (List.mem_map_of_mem inside))
        · rw [List.mem_singleton.mp inside]
          refine Or.inr ⟨name, accounter, cfg, rfl, ?_, account⟩
          rw [found]
          exact Option.some_ne_none _
  | unsubcribe name subcribe =>
    obtain ⟨rfl, -⟩ := unsubcribe_cases step
    exact Or.inl member
  | publish name data =>
    obtain ⟨topic, top, subs, sems, called, found, loop, rfl, -⟩ := publish_cases step
    rcases references_setTopic member with member | member
    · exact Or.inl member
    · have same : subs.map Subcriber.acc = top.subcribers.map Subcriber.acc := by
        rw [publishFrom_received loop, List.map_map]
        rfl
      exact Or.inl (references_lookup found (same ▸ member))
  | wait pointer =>
    obtain ⟨top, sub, -, -, ⟨-, rfl, -⟩ | ⟨sem, -, ⟨-, rfl, -⟩ | ⟨-, -, rfl⟩⟩⟩ :=
      subcriberWait_cases step
    · exact Or.inl member
    · exact Or.inl member
    · exact Or.inl member

/-- **Every careful step** keeps the registry accounted. -/
theorem Accounted.next {r r' : Registry} {op : RegistryOp} {events : List Event}
    (accounted : Accounted r) (careful : Careful r op)
    (step : registry.step r op = some (r', events)) : Accounted r' := by
  rw [accounted_iff] at accounted ⊢
  intro reference member
  cases op with
  | bus op =>
    obtain ⟨stepped, freed⟩ := registry_bus step
    rcases references_next stepped member with member | ⟨topic, accounter, cfg, rfl, some, account⟩
    · obtain ⟨acc, rfl, registered⟩ := accounted reference member
      exact ⟨acc, rfl, registered_bus step registered⟩
    · obtain none | ⟨acc, found, alive⟩ := careful
      · exact absurd none some
      · have found : r.bus.account accounter = .some acc := found
        rw [Bus.account, account] at found
        obtain rfl : reference = .some acc := found
        obtain ⟨table, here, search⟩ := Option.map_eq_some_iff.mp account
        exact ⟨acc, rfl, registered_bus step
          ⟨alive, table, here, HashTable.holds_of_search search⟩⟩
  | accounterDestroy accounter =>
    obtain ⟨number, acc, table, table', rfl, record, here, removes, rfl, -⟩ := registry_destroy step
    obtain ⟨other, rfl, alive, table'', here', holds⟩ := accounted reference member
    obtain rfl := Option.some.inj (here.symm.trans here')
    obtain ⟨top, inside, within⟩ := List.mem_flatMap.mp member
    obtain ⟨sub, own, same⟩ := List.mem_map.mp within
    obtain ⟨apart, kept⟩ := careful number rfl top inside sub own other same
    have taken : r.taken number = table.removed acc.name := by
      rw [Registry.taken, here, record]
      rfl
    refine ⟨other, rfl, ?_, table', rfl, holds.remove removes (taken ▸ kept)⟩
    exact fun freed => (List.mem_cons.mp freed).elim apart alive

/-- **Subscribers refer to registered accounts.** In every run of careful calls, every state that is
reached is accounted. -/
theorem accounted_reachable {sems : Address → ℕ} {ops : List RegistryOp} {outs : List Event}
    {r : Registry} (run : registry.RunOn Careful (.initial sems) ops outs r) : Accounted r :=
  run.invariant Accounted (fun _ _ _ _ careful accounted step => accounted.next careful step)
    fun _ member => absurd member List.not_mem_nil

/-- A topic, and two accounts whose names collide; a subscriber refers to the first, and the second
is destroyed. -/
theorem accounted_reachable_destroy :
    ∃ outs r, registry.RunOn Careful (.initial fun _ => 0)
        [.bus (.topicCreate firstName ⟨0, 1⟩), .bus (.accounterCreate firstName),
          .bus (.accounterCreate secondName),
          .bus (.subcribe firstName firstName ⟨none, none, 0, none⟩),
          .accounterDestroy (some 1)] outs r ∧
      r.bus.references = [some 0] ∧ Accounted r := by
  obtain ⟨outs, r, run, checked⟩ := Machine.exists_run registry Careful (.initial fun _ => 0)
    [.bus (.topicCreate firstName ⟨0, 1⟩), .bus (.accounterCreate firstName),
      .bus (.accounterCreate secondName),
      .bus (.subcribe firstName firstName ⟨none, none, 0, none⟩), .accounterDestroy (some 1)]
    (fun r _ => r.bus.references = [some 0]) (by decide +kernel)
  exact ⟨outs, r, run, of_decide_eq_true checked, accounted_reachable run⟩

/-- **A subscriber without an account.** A name that no account has is subscribed. -/
theorem unaccounted_subcribe :
    ∃ outs r, registry.Run (.initial fun _ => 0)
        [.bus (.topicCreate firstName ⟨0, 1⟩), .bus (.accounterCreate firstName),
          .bus (.subcribe firstName secondName ⟨none, none, 0, none⟩)] outs r ∧
      ¬ Accounted r := by
  obtain ⟨outs, r, run, checked⟩ := Machine.exists_run registry (fun _ _ => True)
    (.initial fun _ => 0) [.bus (.topicCreate firstName ⟨0, 1⟩), .bus (.accounterCreate firstName),
      .bus (.subcribe firstName secondName ⟨none, none, 0, none⟩)]
    (fun r _ => none ∈ r.bus.references) (by decide +kernel)
  refine ⟨outs, r, run, fun accounted => ?_⟩
  obtain ⟨acc, none, -⟩ := accounted_iff.mp accounted none (of_decide_eq_true checked)
  cases none

end Robocon.Abus
