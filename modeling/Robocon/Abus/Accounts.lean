/-
**The life of an account (`abus_acc.c`).**

`registry` runs the bus together with `abus_accounter_destroy`. An account that is destroyed leaves
the account table and its record is freed; the subscribers of the topics are not looked at.

* A removal fails on a bucket whose first entry is free (its name is null), and on the first entry
  itself (there is no node before it). So only accounts whose names collide can be destroyed.
* `Registry.Registered` — a record that is not freed and to which an entry of the account table
  points.
* Destroying prints the name of the record after it is freed. The print is left out, as all are.
-/

import Robocon.Abus.Reachable

namespace Robocon.Abus

open Lib

/-! ### Removal from a table -/

/-- The loop of `HashTableRemove` at one address. -/
def Bucket.remove {Data : Type} (bucket : Bucket Data) (key : CString) : Option (Bucket Data) :=
  match bucket.head with
  | none => none
  | some head =>
    if head.1 = key then none
    else some { bucket with chain := bucket.chain.eraseP fun entry => entry.1 = key }

/-- The entry that the loop of `HashTableRemove` takes out of the chain. -/
def Bucket.removed {Data : Type} (bucket : Bucket Data) (key : CString) : Option Data :=
  (bucket.chain.find? fun entry => entry.1 = key).map Prod.snd

namespace HashTable

variable {Data : Type}

theorem address_lt (table : HashTable Data) (key : CString) :
    (table.address key : ℕ) < table.listSize :=
  (table.address key).isLt

/-- `HashTableRemove`. -/
def remove (table : HashTable Data) (key : CString) : Option (HashTable Data) :=
  ((table.list.get (table.address key)).remove key).map fun bucket =>
    { table with list := table.list.set (table.address key) bucket (table.address_lt key) }

/-- The data of the entry that `HashTableRemove` takes out. -/
def removed (table : HashTable Data) (key : CString) : Option Data :=
  (table.list.get (table.address key)).removed key

/-- An entry of the table has these data. -/
def Holds (table : HashTable Data) (data : Data) : Prop :=
  ∃ (address : Fin table.listSize) (key : CString), (key, data) ∈ (table.list.get address).entries

end HashTable

section Entries

variable {Data : Type} {bucket bucket' : Bucket Data} {key : CString} {data : Data}

theorem Bucket.entries_insert (bucket : Bucket Data) (key : CString) (data : Data)
    {entry : CString × Data} (member : entry ∈ bucket.entries) :
    entry ∈ (bucket.insert key data).entries := by
  obtain ⟨head, chain⟩ := bucket
  cases head with
  | none => exact List.mem_cons_of_mem _ member
  | some head =>
    rcases List.mem_cons.mp member with rfl | member
    · exact List.mem_cons_self
    · exact List.mem_cons_of_mem _ (List.mem_cons_of_mem _ member)

/-- Erasing the first match keeps every entry with other data than the match. -/
theorem mem_eraseP_of_ne {hit : CString × Data → Bool} {chain : List (CString × Data)}
    {entry : CString × Data} (member : entry ∈ chain)
    (kept : (chain.find? hit).map Prod.snd ≠ some entry.2) : entry ∈ chain.eraseP hit := by
  induction chain with
  | nil => cases member
  | cons first chain ih =>
    by_cases same : hit first
    · rw [List.find?_cons_of_pos same] at kept
      rw [List.eraseP_cons_of_pos same]
      rcases List.mem_cons.mp member with rfl | member
      · exact absurd rfl kept
      · exact member
    · rw [List.find?_cons_of_neg same] at kept
      rw [List.eraseP_cons_of_neg same]
      rcases List.mem_cons.mp member with rfl | member
      · exact List.mem_cons_self
      · exact List.mem_cons_of_mem _ (ih member kept)

/-- A removal keeps every entry with other data than the one it takes out. -/
theorem Bucket.entries_remove (removes : bucket.remove key = some bucket')
    {entry : CString × Data} (member : entry ∈ bucket.entries)
    (kept : bucket.removed key ≠ some entry.2) : entry ∈ bucket'.entries := by
  obtain ⟨head, chain⟩ := bucket
  cases head with
  | none => cases removes
  | some head =>
    unfold Bucket.remove at removes
    simp only at removes
    split at removes
    · cases removes
    · obtain rfl := Option.some.inj removes
      rcases List.mem_cons.mp member with rfl | member
      · exact List.mem_cons_self
      · exact List.mem_cons_of_mem _ (mem_eraseP_of_ne member kept)

namespace HashTable

variable {table table' : HashTable Data}

theorem holds_of_search (found : table.search key = some data) : table.Holds data :=
  ⟨table.address key, key, Bucket.mem_of_search found⟩

theorem Holds.insert (holds : table.Holds data) (key : CString) (data' : Data) :
    (table.insert key data').Holds data := by
  obtain ⟨address, name, member⟩ := holds
  refine ⟨address, name, ?_⟩
  show _ ∈ Bucket.entries (table.list.set (table.address key) _)[(address : ℕ)]
  rw [Vector.getElem_set]
  split
  case isTrue here =>
    obtain rfl := Fin.ext here
    exact Bucket.entries_insert _ key data' member
  case isFalse => exact member

theorem Holds.remove (holds : table.Holds data) (removes : table.remove key = some table')
    (kept : table.removed key ≠ some data) : table'.Holds data := by
  obtain ⟨address, name, member⟩ := holds
  obtain ⟨bucket, removed, rfl⟩ := Option.map_eq_some_iff.mp removes
  refine ⟨address, name, ?_⟩
  show _ ∈ Bucket.entries (table.list.set (table.address key) bucket)[(address : ℕ)]
  rw [Vector.getElem_set]
  split
  case isTrue here =>
    obtain rfl := Fin.ext here
    exact Bucket.entries_remove removed member kept
  case isFalse => exact member

end HashTable

end Entries

/-! ### The bus with the destruction of accounts -/

/-- The bus, and the records of accounts that are freed. -/
structure Registry where
  bus : Bus
  freed : List ℕ

/-- Power-on. -/
def Registry.initial (sems : Address → ℕ) : Registry := ⟨.initial sems, []⟩

/-- The calls of the bus and `abus_accounter_destroy`. -/
inductive RegistryOp
  | bus (op : Op)
  | accounterDestroy (accounter : Option ℕ)
  deriving DecidableEq

namespace Registry

/-- `abus_accounter_destroy`. It asserts that neither pointer is null. -/
def accounterDestroy (r : Registry) (accounter : Option ℕ) : Option Registry := do
  let number ← accounter
  let table ← r.bus.accountersTable
  let acc ← r.bus.accounts[number]?
  if number ∈ r.freed then none
  else
    (table.remove acc.name).map fun table =>
      ⟨{ r.bus with accountersTable := some table }, number :: r.freed⟩

/-- The record is not freed, and an entry of the account table points to it. -/
def Registered (r : Registry) (acc : ℕ) : Prop :=
  acc ∉ r.freed ∧ ∃ table, r.bus.accountersTable = some table ∧ table.Holds acc

end Registry

/-- The bus with the destruction of accounts as a machine. -/
def registry : Machine Registry RegistryOp Event where
  step r
    | .bus op => (abus.step r.bus op).map fun next => (⟨next.1, r.freed⟩, next.2)
    | .accounterDestroy accounter => (r.accounterDestroy accounter).map fun r => (r, [])

/-- A call of the bus is a step of the bus and frees nothing. -/
theorem registry_bus {r r' : Registry} {op : Op} {events : List Event}
    (step : registry.step r (.bus op) = some (r', events)) :
    abus.step r.bus op = some (r'.bus, events) ∧ r'.freed = r.freed := by
  obtain ⟨⟨bus, output⟩, stepped, done⟩ := Option.map_eq_some_iff.mp step
  obtain ⟨rfl, rfl⟩ := Prod.mk.inj done
  exact ⟨stepped, rfl⟩

/-- A destruction takes an entry with the account's name out of the table and frees the record. -/
theorem registry_destroy {r r' : Registry} {accounter : Option ℕ} {events : List Event}
    (step : registry.step r (.accounterDestroy accounter) = some (r', events)) :
    ∃ number acc table table', accounter = some number ∧ r.bus.accounts[number]? = some acc ∧
      r.bus.accountersTable = some table ∧ table.remove acc.name = some table' ∧
      r' = ⟨{ r.bus with accountersTable := some table' }, number :: r.freed⟩ ∧ events = [] := by
  obtain ⟨last, destroyed, done⟩ := Option.map_eq_some_iff.mp step
  obtain ⟨rfl, rfl⟩ := Prod.mk.inj done
  obtain ⟨number, given, rest⟩ := Option.bind_eq_some_iff.mp destroyed
  obtain ⟨table, here, rest'⟩ := Option.bind_eq_some_iff.mp rest
  obtain ⟨acc, record, rest''⟩ := Option.bind_eq_some_iff.mp rest'
  split at rest''
  · cases rest''
  · obtain ⟨table', removes, rfl⟩ := Option.map_eq_some_iff.mp rest''
    exact ⟨number, acc, table, table', given, record, here, removes, rfl, rfl⟩

end Robocon.Abus
