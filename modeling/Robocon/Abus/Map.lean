/-
**A hash table as a map, and its iteration (`abus_hash.c`).**

* `HashTable.bucketAt` — a table, address by address; the insertions at one address make
  `Bucket.built`: the oldest entry in the array, the others behind it with the newest first.
* `hash_map` — a table of insertions is a map: a key is bound to a value inserted under it, and an
  insertion changes no other lookup. Its count is the number of its entries.
* `HashTable.iterate` — `HashTableIterate`. It leaves a bucket at a free first entry or at the name
  `heap`, and never looks for the end of a chain.
* `iterate_iff` — so it visits every entry once exactly if there is none.
-/

import Robocon.Abus.Hash
import Robocon.Lib.Buckets

namespace Robocon.Abus

open Lib

variable {Data : Type}

/-! ### Buckets of insertions -/

/-- The bucket that some insertions have made. -/
def Bucket.built (entries : List (CString × Data)) : Bucket Data :=
  entries.foldl (fun bucket entry => bucket.insert entry.1 entry.2) .empty

namespace Bucket

theorem foldl_insert (head : CString × Data) (entries : List (CString × Data)) :
    ∀ chain, entries.foldl (fun bucket entry => bucket.insert entry.1 entry.2)
      (⟨some head, chain⟩ : Bucket Data) = ⟨some head, entries.reverse ++ chain⟩ := by
  induction entries with
  | nil => exact fun chain => rfl
  | cons entry entries ih =>
    intro chain
    rw [List.foldl_cons, List.reverse_cons, List.append_assoc]
    exact ih (entry :: chain)

/-- The oldest entry stands in the array, the newest at the front of the chain. -/
theorem built_cons (entry : CString × Data) (entries : List (CString × Data)) :
    built (entry :: entries) = ⟨some entry, entries.reverse⟩ := by
  rw [← List.append_nil entries.reverse, ← foldl_insert]
  rfl

theorem entries_built (entries : List (CString × Data)) :
    (built entries).entries.Perm entries := by
  cases entries with
  | nil => exact .nil
  | cons entry entries =>
    rw [built_cons]
    exact (List.reverse_perm entries).cons entry

/-- The first entry of a bucket is the oldest one. -/
theorem head_built (entries : List (CString × Data)) : (built entries).head = entries.head? := by
  cases entries with
  | nil => rfl
  | cons entry entries => rw [built_cons]; rfl

theorem search_of_head {bucket : Bucket Data} {entry : CString × Data}
    (here : bucket.head = some entry) : bucket.search entry.1 = some entry.2 := by
  obtain ⟨head, chain⟩ := bucket
  obtain rfl : head = some entry := here
  rw [search_cons, if_pos rfl]

/-- A lookup finds nothing exactly if no entry has the key. -/
theorem search_eq_none {bucket : Bucket Data} {key : CString} :
    bucket.search key = none ↔ ∀ data, (key, data) ∉ bucket.entries := by
  rw [search, Option.map_eq_none_iff, List.find?_eq_none]
  constructor
  · intro absent data member
    exact absent _ member (decide_eq_true rfl)
  · rintro absent ⟨name, data⟩ member same
    obtain rfl : name = key := of_decide_eq_true same
    exact absent data member

end Bucket

/-! ### Tables, address by address -/

namespace HashTable

/-- The bucket at an address. -/
def bucketAt (table : HashTable Data) (address : ℕ) : Bucket Data :=
  table.list[address]?.getD .empty

/-- The insertions of some entries, one after the other. -/
def insertAll (table : HashTable Data) (entries : List (CString × Data)) : HashTable Data :=
  entries.foldl (fun table entry => table.insert entry.1 entry.2) table

/-- The number of stored nodes. -/
def stored (table : HashTable Data) : ℕ :=
  ∑ address ∈ Finset.range table.listSize, (table.bucketAt address).entries.length

theorem hash_lt (table : HashTable Data) (key : CString) :
    (hashFunction key : ℕ) < table.listSize :=
  (hashFunction key).isLt.trans_le table.large

theorem bucketAt_address (table : HashTable Data) (key : CString) :
    table.bucketAt (hashFunction key) = table.list.get (table.address key) := by
  rw [bucketAt, Vector.getElem?_eq_getElem (table.hash_lt key)]
  rfl

theorem search_eq (table : HashTable Data) (key : CString) :
    table.search key = (table.bucketAt (hashFunction key)).search key := by
  rw [bucketAt_address]
  rfl

theorem headKey_eq (table : HashTable Data) (key : CString) :
    table.headKey key = (table.bucketAt (hashFunction key)).headKey := by
  rw [bucketAt_address]
  rfl

/-- A write to the bucket of a key, at one address. -/
theorem getD_set (table : HashTable Data) (key : CString) (bucket : Bucket Data) (address : ℕ) :
    (table.list.set (table.address key) bucket (table.address key).isLt)[address]?.getD .empty =
      if hashFunction key = address then bucket else table.bucketAt address := by
  rw [Vector.getElem?_set]
  by_cases here : (hashFunction key : ℕ) = address
  · rw [if_pos here, if_pos (show (table.address key : ℕ) = address from here)]
    rfl
  · rw [if_neg here, if_neg (show (table.address key : ℕ) ≠ address from here)]
    rfl

theorem bucketAt_insert (table : HashTable Data) (key : CString) (data : Data) (address : ℕ) :
    (table.insert key data).bucketAt address =
      if hashFunction key = address then (table.bucketAt address).insert key data
      else table.bucketAt address := by
  refine (table.getD_set key _ address).trans ?_
  by_cases here : (hashFunction key : ℕ) = address
  · rw [if_pos here, if_pos here, ← here, bucketAt_address]
  · rw [if_neg here, if_neg here]

theorem bucketAt_init (size address : ℕ) :
    (init size : HashTable Data).bucketAt address = .empty := by
  rw [bucketAt, init, Vector.getElem?_replicate]
  split
  · rfl
  · rfl

/-- **A table of insertions**, at one address. -/
theorem bucketAt_insertAll (size : ℕ) (entries : List (CString × Data)) (address : ℕ) :
    ((init size).insertAll entries).bucketAt address =
      .built (entries.filter fun entry => (hashFunction entry.1 : ℕ) = address) := by
  rw [insertAll, foldl_at (fun entry => (hashFunction entry.1 : ℕ))
    (fun bucket entry => bucket.insert entry.1 entry.2) bucketAt _
    (fun table entry address => table.bucketAt_insert entry.1 entry.2 address), bucketAt_init]
  rfl

theorem insertAll_append (table : HashTable Data) (early late : List (CString × Data)) :
    table.insertAll (early ++ late) = (table.insertAll early).insertAll late :=
  List.foldl_append

/-- The size of the array, and the count, after some insertions. -/
theorem insertAll_sizes (entries : List (CString × Data)) : ∀ table : HashTable Data,
    (table.insertAll entries).listSize = table.listSize ∧
      (table.insertAll entries).count = table.count + entries.length := by
  induction entries with
  | nil => exact fun table => ⟨rfl, rfl⟩
  | cons entry entries ih =>
    intro table
    obtain ⟨size, count⟩ := ih (table.insert entry.1 entry.2)
    refine ⟨size, count.trans ?_⟩
    show table.count + 1 + entries.length = _
    rw [List.length_cons, Nat.add_assoc, Nat.add_comm 1]

theorem insertAll_listSize (table : HashTable Data) (entries : List (CString × Data)) :
    (table.insertAll entries).listSize = table.listSize :=
  (insertAll_sizes entries table).1

theorem stored_insertAll (size : ℕ) (entries : List (CString × Data)) :
    ((init size).insertAll entries).stored = entries.length := by
  have lengths : ∀ address, (((init size).insertAll entries).bucketAt address).entries.length =
      (entries.filter fun entry => (hashFunction entry.1 : ℕ) = address).length := by
    intro address
    rw [bucketAt_insertAll, (Bucket.entries_built _).length_eq]
  have inside : ∀ entry ∈ entries,
      (hashFunction entry.1 : ℕ) < (init size : HashTable Data).listSize :=
    fun entry _ => hash_lt _ entry.1
  rw [stored, insertAll_listSize, Finset.sum_congr rfl fun address _ => lengths address,
    sum_filter _ _ entries inside]

/-- An entry of the bucket of a key is an insertion. -/
theorem mem_insertAll (size : ℕ) {entries : List (CString × Data)} (entry : CString × Data) :
    entry ∈ (((init size).insertAll entries).bucketAt (hashFunction entry.1)).entries ↔
      entry ∈ entries := by
  rw [bucketAt_insertAll, (Bucket.entries_built _).mem_iff, List.mem_filter]
  simp only [decide_true, and_true]

theorem search_insertAll_eq_none {size : ℕ} {entries : List (CString × Data)} {key : CString} :
    ((init size).insertAll entries).search key = none ↔ ∀ data, (key, data) ∉ entries := by
  rw [search_eq, Bucket.search_eq_none]
  exact forall_congr' fun data => not_congr (mem_insertAll size (key, data))

/-- **A hash table is a map.** After any insertions, the insertion of a key changes no other lookup,
a key is found exactly if it was inserted, with a value inserted under it, the address of every key
is inside the array, and the count is the number of stored nodes. -/
theorem hash_map (size : ℤ) (entries : List (CString × Data)) :
    (∀ key data key', key' ≠ key →
      (((init size.toNat).insertAll entries).insert key data).search key' =
        ((init size.toNat).insertAll entries).search key') ∧
    (∀ key, ((init size.toNat).insertAll entries).search key = none ↔
      ∀ data, (key, data) ∉ entries) ∧
    (∀ key data, ((init size.toNat).insertAll entries).search key = some data →
      (key, data) ∈ entries) ∧
    (∀ key, (hashFunction key : ℕ) < ((init size.toNat).insertAll entries).listSize) ∧
    ((init size.toNat).insertAll entries).stored =
      ((init size.toNat).insertAll entries).count := by
  refine ⟨fun key data key' other => ?_, fun key => search_insertAll_eq_none,
    fun key data found => ?_, fun key => hash_lt _ key, ?_⟩
  · rw [search_insert, if_neg fun new => other new.1]
  · rw [search_eq] at found
    exact (mem_insertAll size.toNat (key, data)).mp (Bucket.mem_of_search found)
  · rw [stored_insertAll, (insertAll_sizes entries _).2]
    exact (Nat.zero_add _).symm

/-! ### Iteration -/

/-- The name at which `HashTableIterate` leaves a bucket. -/
def heap : CString := ⟨[0x68, 0x65, 0x61, 0x70], by decide⟩

/-- The loop of `HashTableIterate` over the nodes of a bucket, with the entries that the callback
gets. It fails on the null pointer behind the last node. -/
def visitFrom : List (CString × Data) → Option (List (CString × Data))
  | [] => none
  | node :: rest => if node.1 = heap then some [] else (visitFrom rest).map (node :: ·)

/-- The calls of `HashTableIterate` for a bucket, whose first entry may be free. -/
def visitBucket (bucket : Bucket Data) : Option (List (CString × Data)) :=
  match bucket.head with
  | none => some []
  | some head => visitFrom (head :: bucket.chain)

/-- The loop of `HashTableIterate` over some addresses. -/
def visitAll (table : HashTable Data) : List ℕ → Option (List (CString × Data))
  | [] => some []
  | address :: rest => do
    let early ← visitBucket (table.bucketAt address)
    let late ← visitAll table rest
    return early ++ late

/-- `HashTableIterate`, with the calls of the callback. -/
def iterate (table : HashTable Data) : Option (List (CString × Data)) :=
  visitAll table (List.range table.listSize)

/-- A chain is left before its last node was visited. -/
theorem visitFrom_length {nodes : List (CString × Data)} :
    ∀ {visits}, visitFrom nodes = some visits → visits.length < nodes.length := by
  induction nodes with
  | nil => exact fun visited => by cases visited
  | cons node nodes ih =>
    intro visits visited
    rw [visitFrom] at visited
    split at visited
    · obtain rfl := Option.some.inj visited
      exact Nat.zero_lt_succ _
    · obtain ⟨later, visited', rfl⟩ := Option.map_eq_some_iff.mp visited
      exact Nat.succ_lt_succ (ih visited')

/-- A bucket that is left is free, or not all of it was visited. -/
theorem visitBucket_length {bucket : Bucket Data} {visits : List (CString × Data)}
    (visited : visitBucket bucket = some visits) :
    visits.length ≤ bucket.entries.length ∧
      (visits.length = bucket.entries.length → bucket.entries = []) := by
  obtain ⟨head, chain⟩ := bucket
  cases head with
  | none =>
    obtain rfl := Option.some.inj visited
    exact ⟨Nat.zero_le _, fun same => List.length_eq_zero_iff.mp same.symm⟩
  | some head =>
    have fewer := visitFrom_length visited
    exact ⟨fewer.le, fun same => absurd same fewer.ne⟩

theorem visitAll_length {table : HashTable Data} {addresses : List ℕ} :
    ∀ {visits}, visitAll table addresses = some visits →
      visits.length ≤ (addresses.map fun address => (table.bucketAt address).entries.length).sum ∧
        (visits.length =
            (addresses.map fun address => (table.bucketAt address).entries.length).sum →
          ∀ address ∈ addresses, (table.bucketAt address).entries = []) := by
  induction addresses with
  | nil =>
    intro visits visited
    obtain rfl := Option.some.inj visited
    exact ⟨le_rfl, fun _ address none => absurd none List.not_mem_nil⟩
  | cons address addresses ih =>
    intro visits visited
    obtain ⟨early, first, rest⟩ := Option.bind_eq_some_iff.mp visited
    obtain ⟨late, later, done⟩ := Option.bind_eq_some_iff.mp rest
    obtain rfl := Option.some.inj done
    obtain ⟨few, all⟩ := visitBucket_length first
    obtain ⟨few', all'⟩ := ih later
    rw [List.length_append, List.map_cons, List.sum_cons]
    refine ⟨Nat.add_le_add few few', fun same => List.forall_mem_cons.mpr ⟨?_, ?_⟩⟩
    · exact all (by omega)
    · exact all' (by omega)

/-- **Iteration.** Whatever was inserted into a table, `HashTableIterate` ends without a null
pointer and visits every entry once exactly if nothing was inserted. -/
theorem iterate_iff (size : ℤ) (entries : List (CString × Data)) :
    (∃ visits, ((init size.toNat).insertAll entries).iterate = some visits ∧
      visits.Perm entries) ↔ entries = [] := by
  constructor
  · rintro ⟨visits, visited, every⟩
    obtain ⟨-, all⟩ := visitAll_length visited
    have total : visits.length =
        ((List.range ((init size.toNat).insertAll entries).listSize).map fun address =>
          (((init size.toNat).insertAll entries).bucketAt address).entries.length).sum := by
      rw [every.length_eq, ← stored_insertAll size.toNat entries]
      rfl
    rw [List.eq_nil_iff_forall_not_mem]
    intro entry member
    have here := (mem_insertAll size.toNat entry).mpr member
    rw [all total _ (List.mem_range.mpr (hash_lt _ _))] at here
    exact absurd here List.not_mem_nil
  · rintro rfl
    refine ⟨[], ?_, .nil⟩
    have free : ∀ addresses, visitAll (init size.toNat : HashTable Data) addresses = some [] := by
      intro addresses
      induction addresses with
      | nil => rfl
      | cons address addresses ih =>
        rw [visitAll, bucketAt_init, ih]
        rfl
    exact free _

/-- **One entry is too many**: the node behind it is the null pointer. -/
theorem iterate_null :
    ((init 0 : HashTable ℕ).insertAll [(⟨[0x61], by decide⟩, 1)]).iterate = none := by
  decide +kernel

end HashTable

end Robocon.Abus
