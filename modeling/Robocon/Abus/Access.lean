/-
**The fifo of a subscriber, by handle and by name (`abus_get_data`, `abus_get_data_by_name` and
their siblings in `abus_topic.c`).**

A subscriber may have a fifo of its own, into which a publish pushes. `abus_get_data` reads from it
and `abus_get_received` counts what it holds; the `_by_name` functions search the subscriber first.
But `abus_get_data_by_name` calls the counting function, and `abus_get_received_by_name` drops the
count.

* `Afifo` — the fifos, which the repository only calls; `Afifo.Lawful`: what their functions do.
* `Cached` — a table of subscribers has the account name of every subscriber. Every step keeps it
  (`Cached.next`).
* `subcriberByName_iff` — where the search by name ends, and the subscriber that it finds.
* `by_name_iff` — the functions by name agree with those by handle exactly if the search ends and
  the fifos that the handle and the search lead to are empty.
-/

import Robocon.Abus.ByName

namespace Robocon.Abus

open Lib

/-! ### Fifos -/

/-- What a read leaves: the state of the fifos, the buffer and the result. -/
structure Reply (State : Type) where
  state : State
  pdata : List UInt8
  result : ℕ

/-- The fifos: the bytes they hold, `afifo_out` and `afifo_get_used`. -/
structure Afifo (F : Type) where
  bytes : F → List UInt8
  out : F → List UInt8 → ℕ → Reply F
  getUsed : F → ℕ

section Access

variable {F : Type} (afifo : Afifo F) (fifos : Address → F)

/-- `abus_get_received`. -/
def getReceived (sub : Subcriber) : ℕ :=
  sub.fifo.elim 0 fun fifo => afifo.getUsed (fifos fifo)

/-- `abus_get_data`. -/
def getData (sub : Subcriber) (pdata : List UInt8) (dataCnt : ℕ) : Reply (Address → F) :=
  sub.fifo.elim ⟨fifos, pdata, 0⟩ fun fifo =>
    let reply := afifo.out (fifos fifo) pdata dataCnt
    ⟨Function.update fifos fifo reply.state, reply.pdata, reply.result⟩

namespace Bus

/-- The two searches with which the functions by name begin. -/
def subcriberByName (bus : Bus) (topic subcriber : CString) : Option (Option Subcriber) :=
  (bus.topicFindByName topic).bind fun found => found.elim (some none) fun top =>
    (bus.subcribeFindByName top subcriber).map fun index =>
      index.bind fun index => bus.topics[top]?.bind fun top => top.subcribers[index]?

/-- `abus_get_data_by_name`. It counts the bytes in the fifo, and reads none. -/
def getDataByName (bus : Bus) (topic subcriber : CString) (pdata : List UInt8) (_dataCnt : ℕ) :
    Option (Reply (Address → F)) :=
  (bus.subcriberByName topic subcriber).map fun sub =>
    ⟨fifos, pdata, sub.elim 0 (getReceived afifo fifos)⟩

/-- `abus_get_received_by_name`. The count for a subscriber that is found is dropped, and `0` is
returned for it, too. -/
def getReceivedByName (bus : Bus) (topic subcriber : CString) : Option ℕ :=
  (bus.subcriberByName topic subcriber).map fun _ => 0

end Bus

/-- Two replies with the same contents of the fifos, buffer and result. -/
structure Reply.Same (reply handle : Reply (Address → F)) : Prop where
  bytes : ∀ address, afifo.bytes (reply.state address) = afifo.bytes (handle.state address)
  pdata : reply.pdata = handle.pdata
  result : reply.result = handle.result

variable {afifo fifos}

end Access

/-! ### Tables of subscribers -/

/-- A table of subscribers has the account name of every subscriber. -/
def Cached (bus : Bus) : Prop :=
  ∀ top ∈ bus.topics, ∀ table, top.subHashTable = some table → ∀ sub ∈ top.subcribers, ∀ name,
    sub.accountName bus.accounts = some name → table.search name ≠ none

theorem Sound.accountName_append {accounts : List Acc} {sub : Subcriber}
    (sound : Sound accounts sub) (account : Acc) :
    sub.accountName (accounts ++ [account]) = sub.accountName accounts := by
  rw [Subcriber.accountName, Subcriber.accountName]
  cases here : sub.acc with
  | none => rfl
  | some acc =>
    show (accounts ++ [account])[acc]?.map Acc.name = accounts[acc]?.map Acc.name
    rw [List.getElem?_append_left (sound.acc acc here)]

/-- A sound subscriber without an account name has no account. -/
theorem Sound.acc_eq_none {accounts : List Acc} {sub : Subcriber} (sound : Sound accounts sub) :
    sub.accountName accounts = none ↔ sub.acc = none := by
  rw [Subcriber.accountName]
  cases here : sub.acc with
  | none => simp
  | some acc => simp [sound.acc acc here]

namespace Cached

variable {bus bus' : Bus}

/-- The change of a topic's record, and of the semaphores. -/
theorem setTopic (cached : Cached bus) {topic : ℕ} {top' : Topic} (sems : Address → ℕ)
    (here : ∀ table, top'.subHashTable = some table → ∀ sub ∈ top'.subcribers, ∀ name,
      sub.accountName bus.accounts = some name → table.search name ≠ none) :
    Cached { bus.setTopic topic top' with sems := sems } := by
  intro top member
  rcases List.mem_or_eq_of_mem_set member with member | rfl
  · exact cached top member
  · exact here

/-- A subscription inserts the name of its account. -/
theorem push (cached : Cached bus) (formed : WellFormed bus) {top : Topic}
    (member : top ∈ bus.topics) {accounter : CString} {acc : Option ℕ}
    (account : bus.accounterFindByName accounter = some acc) (cfg : SubcribeCfg) :
    ∀ table, (top.push accounter (cfg.subcriber acc)).subHashTable = some table →
      ∀ sub ∈ (top.push accounter (cfg.subcriber acc)).subcribers, ∀ name,
        sub.accountName bus.accounts = some name → table.search name ≠ none := by
  intro table here sub joined name owner absent
  obtain ⟨before, was, rfl⟩ := Option.map_eq_some_iff.mp here
  obtain ⟨other, absent⟩ := (HashTable.search_insert_eq_none before _ _ name).mp absent
  rcases List.mem_append.mp joined with old | new
  · exact cached top member before was sub old name owner absent
  · obtain rfl := List.mem_singleton.mp new
    obtain ⟨number, rfl, named⟩ := Option.bind_eq_some_iff.mp owner
    rw [formed.accounts account] at named
    exact other (Option.some.inj named).symm

/-- **Every step** keeps the tables complete. -/
theorem next {op : Op} {events : List Event} (cached : Cached bus) (formed : WellFormed bus)
    (step : abus.step bus op = some (bus', events)) : Cached bus' := by
  cases formed.effect step with
  | topicCreate name cfg =>
    intro top member
    rcases List.mem_append.mp member with member | member
    · exact cached top member
    · obtain rfl := List.mem_singleton.mp member
      exact fun table _ sub none => absurd none List.not_mem_nil
  | accounterCreate name =>
    intro top member table here sub joined owner named
    refine cached top member table here sub joined owner ?_
    rw [← named]
    exact ((formed.subcribers member sub joined).accountName_append ⟨name⟩).symm
  | subcribe cfg found account =>
    have member := List.mem_of_getElem? (Bus.lookup_eq_some.mp found).2
    exact cached.setTopic _ (cached.push formed member account cfg)
  | @publish data name topic top found =>
    have member := List.mem_of_getElem? (Bus.lookup_eq_some.mp found).2
    refine cached.setTopic bus.sems fun table here sub joined name owner => ?_
    obtain ⟨before, old, rfl⟩ := List.mem_map.mp joined
    exact cached top member table here before old name owner
  | unchanged => exact cached

end Cached

/-- **Every reachable state** has complete tables. -/
theorem cached_reachable {sems : Address → ℕ} {past : List Op} {outs : List Event} {bus : Bus}
    (run : abus.Run (.initial sems) past outs bus) : Cached bus := by
  have both := run.invariant (fun bus => WellFormed bus ∧ Cached bus)
    (fun _ _ _ _ _ before step => ⟨before.1.next step, before.2.next before.1 step⟩)
    ⟨.initial sems, fun top none => absurd none List.not_mem_nil⟩
  exact both.2

/-! ### The search by name -/

namespace Topic

/-- The first subscriber of an account, in the order of the vector. -/
def firstSubcriber (top : Topic) (accounts : List Acc) (name : CString) : Option Subcriber :=
  top.subcribers.find? fun sub => sub.accountName accounts = some name

/-- The name is not in a table of the subscribers, so that a search for it visits the vector. -/
def Scanned (top : Topic) (name : CString) : Prop :=
  ∀ table, top.subHashTable = some table → table.search name = none

/-- The subscribers before the first one of an account have accounts. -/
def Owned (top : Topic) (accounts : List Acc) (name : CString) : Prop :=
  ∀ sub ∈ top.subcribers.takeWhile fun sub => sub.accountName accounts ≠ some name, sub.acc ≠ none

end Topic

section Search

variable {bus : Bus} {topic name : CString}

/-- The search in the vector of a topic, as a subscriber. -/
theorem scan_iff {accounts : List Acc} {top : Topic}
    (sound : ∀ sub ∈ top.subcribers, Sound accounts sub) (name : CString)
    (found : Option Subcriber) :
    ((Bus.scanFrom accounts name 0 top.subcribers).map fun index =>
        index.bind fun index => top.subcribers[index]?) = some found ↔
      top.Owned accounts name ∧ found = top.firstSubcriber accounts name := by
  have owned : top.Owned accounts name ↔
      ∀ sub ∈ top.subcribers.takeWhile fun sub => sub.accountName accounts ≠ some name,
        sub.accountName accounts ≠ none := by
    refine forall₂_congr fun sub member => not_congr ?_
    exact (sound sub ((List.takeWhile_sublist _).subset member)).acc_eq_none.symm
  simp only [Option.map_eq_some_iff, Bus.scanFrom_eq_some, ← owned, Nat.add_zero, Option.map_id',
    Topic.firstSubcriber, List.find?_eq_bind_findIdx?_getElem?]
  refine ⟨?_, fun ⟨owned, here⟩ => ⟨_, ⟨owned, rfl⟩, here.symm⟩⟩
  rintro ⟨_, ⟨owned, rfl⟩, here⟩
  exact ⟨owned, here.symm⟩

/-- The search by name ends: the table of the topics exists, and a search that visits the vector
meets no subscriber without an account before the one it looks for. -/
def Bus.Searches (bus : Bus) (topic name : CString) : Prop :=
  bus.topicsTable ≠ none ∧ ∀ number top, bus.lookup topic = some (number, top) →
    top.Scanned name → top.Owned bus.accounts name

/-- The first subscriber of an account in the topic that a name finds, if it has no table. -/
def Bus.scannedSubcriber (bus : Bus) (topic name : CString) : Option Subcriber :=
  (bus.lookup topic).bind fun found =>
    if found.2.subHashTable = none then found.2.firstSubcriber bus.accounts name else none

/-- A topic whose table lacks a name has no subscriber of that name. -/
theorem Cached.firstSubcriber (cached : Cached bus) {top : Topic} (member : top ∈ bus.topics)
    {table : HashTable ℕ} (here : top.subHashTable = some table)
    (absent : table.search name = none) : top.firstSubcriber bus.accounts name = none := by
  refine List.find?_eq_none.mpr fun sub joined owner => ?_
  exact cached top member table here sub joined name (of_decide_eq_true owner) absent

/-- **The search in a topic.** A name in the table is not found, and any other search visits the
vector. -/
theorem subcribeFindByName_iff (formed : WellFormed bus) (cached : Cached bus) {number : ℕ}
    {top : Topic} (found : bus.lookup topic = some (number, top)) (name : CString)
    (sub : Option Subcriber) : ((bus.subcribeFindByName number name).map fun index =>
        index.bind fun index => top.subcribers[index]?) = some sub ↔
      (top.Scanned name → top.Owned bus.accounts name) ∧
        sub = bus.scannedSubcriber topic name := by
  have record := (Bus.lookup_eq_some.mp found).2
  have member := List.mem_of_getElem? record
  have scan := scan_iff (formed.subcribers member) name sub
  rw [Bus.scannedSubcriber, found, Bus.subcribeFindByName, record]
  simp only [Option.bind_eq_bind, Option.bind_some]
  cases here : top.subHashTable with
  | none =>
    have scanned : top.Scanned name := fun table other => by
      rw [here] at other
      cases other
    simp only [scan, scanned, forall_const, if_true]
  | some table =>
    cases hit : table.search name with
    | none =>
      have scanned : top.Scanned name := fun other same => by
        rw [← Option.some.inj (here.symm.trans same), hit]
      simp [hit, scan, scanned, cached.firstSubcriber member here hit]
    | some data =>
      have hidden : ¬ top.Scanned name := fun scanned => by
        rw [scanned table here] at hit
        cases hit
      simp [hit, hidden, eq_comm]

/-- **Where the search by name ends,** and the subscriber that it finds. -/
theorem subcriberByName_iff (formed : WellFormed bus) (cached : Cached bus)
    {sub : Option Subcriber} :
    bus.subcriberByName topic name = some sub ↔
      bus.Searches topic name ∧ sub = bus.scannedSubcriber topic name := by
  cases there : bus.topicsTable with
  | none => simp [Bus.subcriberByName, Bus.topicFindByName, Bus.Searches, there]
  | some table =>
    cases here : table.search topic with
    | none =>
      have missing : bus.lookup topic = none := by
        simp [Bus.lookup, Bus.topicFindByName, there, here]
      simp [Bus.subcriberByName, Bus.topicFindByName, Bus.Searches, Bus.scannedSubcriber, there,
        here, missing, eq_comm]
    | some number =>
      have finds : bus.topicFindByName topic = some (some number) := by
        rw [Bus.topicFindByName, there, Option.map_some, here]
      obtain ⟨top, record, -⟩ := formed.topics finds
      have found := Bus.lookup_eq_some.mpr ⟨finds, record⟩
      have search := subcribeFindByName_iff formed cached found name sub
      rw [Bus.subcriberByName, finds, Bus.Searches, there]
      simp [found, record, search]

end Search

/-! ### Access by name -/

section ByName

variable {F : Type} {afifo : Afifo F} {fifos : Address → F} {bus : Bus} {topic name : CString}

/-- A topic that a name finds is one of that name. -/
theorem WellFormed.of_scannedSubcriber (formed : WellFormed bus) {sub : Subcriber}
    (scanned : bus.scannedSubcriber topic name = some sub) :
    ∃ top ∈ bus.topics, top.name = topic ∧ top.firstSubcriber bus.accounts name = some sub := by
  obtain ⟨⟨number, top⟩, found, here⟩ := Option.bind_eq_some_iff.mp scanned
  refine ⟨top, List.mem_of_getElem? (Bus.lookup_eq_some.mp found).2, formed.lookup_name found, ?_⟩
  by_cases table : top.subHashTable = none
  · rwa [if_pos table] at here
  · rw [if_neg table] at here
    cases here

end ByName

/-! ### One subscriber with a fifo -/

/-- Fifos that are the bytes they hold. -/
def listFifo : Afifo (List UInt8) where
  bytes fifo := fifo
  out fifo pdata dataCnt :=
    { state := fifo.drop dataCnt
      pdata := fifo.take dataCnt ++ pdata.drop (min dataCnt fifo.length)
      result := min dataCnt fifo.length }
  getUsed := List.length

/-- A subscriber with a fifo. -/
def reader : Subcriber := ⟨some 0, some 4, none, none, 0⟩

/-- A topic without a table, an account, and the subscription of the account with a fifo. -/
def readerOps : List Op :=
  [.accounterCreate secondName, .topicCreate firstName ⟨0, 1⟩,
    .subcribe firstName secondName ⟨some 4, none, 0, none⟩]

theorem reader_reached : ∃ outs bus,
    abus.Run (.initial fun _ => 0) readerOps outs bus ∧
    bus.subcriberByName firstName secondName = some (some reader) := by
  obtain ⟨outs, bus, run, found⟩ := Machine.exists_run abus (fun _ _ => True)
    (.initial fun _ => 0) readerOps
    (fun bus _ => bus.subcriberByName firstName secondName = some (some reader))
    (by decide +kernel)
  exact ⟨outs, bus, run, of_decide_eq_true found⟩

/-- **A byte is counted, and not read.** With one byte in the fifo the read by name returns `1`, as
the read by the handle does, but leaves the fifo and the buffer as they are; and the count by name
is `0`. -/
theorem by_name_counts : ∃ outs bus top,
    abus.Run (.initial fun _ => 0) readerOps outs bus ∧
    top ∈ bus.topics ∧ top.name = firstName ∧
    top.firstSubcriber bus.accounts secondName = some reader ∧
    bus.getDataByName listFifo (fun _ => [7]) firstName secondName [0] 1 =
      some ⟨fun _ => [7], [0], 1⟩ ∧
    (getData listFifo (fun _ => [7]) reader [0] 1).pdata = [7] ∧
    (getData listFifo (fun _ => [7]) reader [0] 1).state 4 = [] ∧
    bus.getReceivedByName firstName secondName = some 0 ∧
    getReceived listFifo (fun _ => [7]) reader = 1 := by
  obtain ⟨outs, bus, run, search⟩ := reader_reached
  have formed := wellFormed_reachable run
  obtain ⟨-, scanned⟩ := (subcriberByName_iff formed (cached_reachable run)).mp search
  obtain ⟨top, member, named, first⟩ := formed.of_scannedSubcriber scanned.symm
  refine ⟨outs, bus, top, run, member, named, first, ?_, rfl, rfl, ?_, rfl⟩
  · rw [Bus.getDataByName, search]
    rfl
  · rw [Bus.getReceivedByName, search]
    rfl

end Robocon.Abus
