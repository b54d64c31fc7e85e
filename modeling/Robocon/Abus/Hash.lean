/-
**The hash tables of the bus (`abus_hash.c`).**

A table is an array of buckets. The first entry of a bucket stands in the array itself and the
others in a chain behind it, the newest first. Keys whose hashes collide share a bucket, and a
lookup compares the strings.

* `HashTable.search_insert` — what is found after an insertion: the new data, unless the same key
  stands in the array itself, and every other lookup is as before.
* Allocations succeed.
-/

import Mathlib

namespace Robocon.Abus

/-- A string: the bytes before its terminator. -/
structure CString where
  bytes : List UInt8
  terminated : 0 ∉ bytes
  deriving DecidableEq

def maxSize : ℕ := 10

/-- `hashFunction`. The compiler is told that `char` is unsigned. -/
def hashFunction (str : CString) : Fin maxSize :=
  let hash : UInt32 := str.bytes.foldl (fun hash char => hash + char.toUInt32) 0
  ⟨hash.toNat % maxSize, Nat.mod_lt _ (by decide)⟩

/-! ### Buckets -/

/-- An entry of the array of a table, `none` while its name is `NullKey`, and the chain behind
it. -/
structure Bucket (Data : Type) where
  head : Option (CString × Data)
  chain : List (CString × Data)
  deriving DecidableEq

namespace Bucket

variable {Data : Type}

/-- An initialised entry. -/
def empty : Bucket Data := ⟨none, []⟩

/-- The entries in the order in which a lookup meets them. -/
def entries (bucket : Bucket Data) : List (CString × Data) := bucket.head.toList ++ bucket.chain

/-- The insertion at one address. -/
def insert (bucket : Bucket Data) (key : CString) (data : Data) : Bucket Data :=
  match bucket.head with
  | none => { bucket with head := some (key, data) }
  | some _ => { bucket with chain := (key, data) :: bucket.chain }

/-- The lookup at one address. -/
def search (bucket : Bucket Data) (key : CString) : Option Data :=
  (bucket.entries.find? fun entry => entry.1 = key).map Prod.snd

/-- The key of the entry in the array itself. -/
def headKey (bucket : Bucket Data) : Option CString := bucket.head.map Prod.fst

theorem search_cons (head : CString × Data) (chain : List (CString × Data)) (key : CString) :
    (⟨some head, chain⟩ : Bucket Data).search key =
      if head.1 = key then some head.2 else (⟨none, chain⟩ : Bucket Data).search key := by
  show ((head :: chain).find? fun entry => entry.1 = key).map Prod.snd = _
  rw [List.find?_cons]
  by_cases same : head.1 = key
  · rw [if_pos same, decide_eq_true same]
    rfl
  · rw [if_neg same, decide_eq_false same]
    rfl

/-- **A lookup after an insertion** finds the new data, unless the same key stands in the array
itself. -/
theorem search_insert (bucket : Bucket Data) (key : CString) (data : Data) (key' : CString) :
    (bucket.insert key data).search key' =
      if key' = key ∧ bucket.headKey ≠ some key then some data else bucket.search key' := by
  obtain ⟨head, chain⟩ := bucket
  cases head with
  | none =>
    have absent : (⟨none, chain⟩ : Bucket Data).headKey ≠ some key := fun none => by cases none
    rw [insert, search_cons]
    simp only [absent, ne_eq, not_false_eq_true, and_true, eq_comm]
  | some head =>
    have inserted : (⟨none, (key, data) :: chain⟩ : Bucket Data).search key' =
        if key = key' then some data else (⟨none, chain⟩ : Bucket Data).search key' :=
      search_cons (key, data) chain key'
    have headKey : (⟨some head, chain⟩ : Bucket Data).headKey = some head.1 := rfl
    rw [insert, search_cons, search_cons, inserted, headKey]
    by_cases first : head.1 = key'
    · rw [if_pos first, if_pos first, if_neg fun new => new.2 (congrArg some (first.trans new.1))]
    · rw [if_neg first, if_neg first]
      by_cases same : key' = key
      · subst same
        rw [if_pos rfl, if_pos ⟨rfl, fun equal => first (Option.some.inj equal)⟩]
      · rw [if_neg fun equal => same equal.symm, if_neg fun new => same new.1]

theorem mem_of_search {bucket : Bucket Data} {key : CString} {data : Data}
    (found : bucket.search key = some data) : (key, data) ∈ bucket.entries := by
  obtain ⟨⟨name, value⟩, here, rfl⟩ := Option.map_eq_some_iff.mp found
  obtain rfl : name = key := by simpa using List.find?_some here
  exact List.mem_of_find?_eq_some here

/-- A key that is not found does not stand in the array itself. -/
theorem headKey_ne {bucket : Bucket Data} {key : CString} (absent : bucket.search key = none) :
    bucket.headKey ≠ some key := by
  obtain ⟨head, chain⟩ := bucket
  cases head with
  | none => exact fun none => by cases none
  | some head =>
    intro same
    rw [search_cons, if_pos (Option.some.inj same)] at absent
    cases absent

end Bucket

/-! ### Tables -/

/-- `hashTable`, with at least `MaxSize` entries. -/
structure HashTable (Data : Type) where
  listSize : ℕ
  list : Vector (Bucket Data) listSize
  count : ℕ
  large : maxSize ≤ listSize

namespace HashTable

variable {Data : Type}

/-- `HashTableInit`. -/
def init (size : ℕ) : HashTable Data where
  listSize := max maxSize size
  list := Vector.replicate _ Bucket.empty
  count := 0
  large := le_max_left maxSize size

/-- The hash address of a key. -/
def address (table : HashTable Data) (key : CString) : Fin table.listSize :=
  Fin.castLE table.large (hashFunction key)

/-- `HashTableInsert`. -/
def insert (table : HashTable Data) (key : CString) (data : Data) : HashTable Data :=
  { table with
    list := table.list.set (table.address key)
      ((table.list.get (table.address key)).insert key data)
    count := table.count + 1 }

/-- `HashTableSearch`. -/
def search (table : HashTable Data) (key : CString) : Option Data :=
  (table.list.get (table.address key)).search key

theorem search_init (size : ℕ) (key : CString) :
    (init size : HashTable Data).search key = none := by
  rw [search, init]
  show ((Vector.replicate _ Bucket.empty)[(address _ key : ℕ)]).search key = none
  rw [Vector.getElem_replicate]
  rfl

/-- The key of the entry in the array itself at the address of a key. -/
def headKey (table : HashTable Data) (key : CString) : Option CString :=
  (table.list.get (table.address key)).headKey

/-- **A lookup after an insertion**, whether or not the keys collide. -/
theorem search_insert (table : HashTable Data) (key : CString) (data : Data) (key' : CString) :
    (table.insert key data).search key' =
      if key' = key ∧ table.headKey key ≠ some key then some data else table.search key' := by
  show (table.list.set (table.address key) _)[(table.address key' : ℕ)].search key' = _
  by_cases same : table.address key = table.address key'
  · rw [Vector.getElem_set, if_pos (congrArg Fin.val same), Bucket.search_insert, search, ← same]
    rfl
  · have apart : key' ≠ key := fun equal => same (congrArg table.address equal.symm)
    rw [Vector.getElem_set, if_neg fun equal => same (Fin.ext equal), if_neg fun new => apart new.1]
    rfl

/-- A key that was absent is bound to the new data, and no other lookup changes. -/
theorem search_insert_absent {table : HashTable Data} {key : CString} (data : Data)
    (absent : table.search key = none) (key' : CString) :
    (table.insert key data).search key' = if key' = key then some data else table.search key' := by
  rw [search_insert]
  simp only [headKey, Bucket.headKey_ne absent, ne_eq, not_false_eq_true, and_true]

end HashTable

end Robocon.Abus
