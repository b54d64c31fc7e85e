/-
**Subscribers by name (`abus_subcribe_find_by_name` in `abus_topic.c`).**

A topic that is created with a hash table keeps the names of its subscribers there, so that a search
by name need not scan the vector. The search uses the table only to find out that the name is
absent: a hit is dropped, and null is returned.

* `Tracks` — the record of a topic after calls of the bus: its subscribers carry the account names
  of the subscriptions so far, in their order, and its table finds exactly these names. Every step
  keeps it (`Tracked.next`).
* `Tracked.find_eq` — what the search finds: the first subscriber of the name without a table, and
  nothing with one.
* `find_agrees_iff` — the same calls on the topic with and without a table leave the two searches
  in agreement exactly on the names of which no account has subscribed.
-/

import Robocon.Abus.Missing

namespace Robocon.Abus

open Lib

/-! ### The search -/

/-- The account name of a subscriber. -/
def Subcriber.accountName (accounts : List Acc) (sub : Subcriber) : Option CString :=
  sub.acc.bind fun acc => accounts[acc]?.map Acc.name

namespace Bus

/-- The loop of `abus_subcribe_find_by_name` over the subscribers from an index on. It fails on a
subscriber without an account. -/
def scanFrom (accounts : List Acc) (subcriber : CString) :
    ℕ → List Subcriber → Option (Option ℕ)
  | _, [] => some none
  | index, sub :: subs => do
    let name ← sub.accountName accounts
    if name = subcriber then return some index else scanFrom accounts subcriber (index + 1) subs

/-- **The scan** ends exactly if every subscriber before the first one of the name has an account
name, and finds that one. -/
theorem scanFrom_eq_some {accounts : List Acc} {name : CString} {subs : List Subcriber} {index : ℕ}
    {found : Option ℕ} :
    scanFrom accounts name index subs = some found ↔
      (∀ sub ∈ subs.takeWhile fun sub => sub.accountName accounts ≠ some name,
        sub.accountName accounts ≠ none) ∧
        found = (subs.findIdx? fun sub => sub.accountName accounts = some name).map
          (· + index) := by
  induction subs generalizing index found with
  | nil => simp [scanFrom, eq_comm]
  | cons sub subs ih =>
    cases owner : sub.accountName accounts with
    | none => simp [scanFrom, owner]
    | some first =>
      by_cases same : first = name
      · simp [scanFrom, List.findIdx?_cons, owner, same, eq_comm]
      · have shift : ((subs.findIdx? fun sub => sub.accountName accounts = some name).map
            (· + 1)).map (· + index) =
            (subs.findIdx? fun sub => sub.accountName accounts = some name).map
              (· + (index + 1)) := by
          rw [Option.map_map]
          refine Option.map_congr fun position _ => ?_
          exact Nat.add_right_comm position 1 index
        simp [scanFrom, List.findIdx?_cons, owner, same, ih, shift]

/-- `abus_subcribe_find_by_name`. -/
def subcribeFindByName (bus : Bus) (topic : ℕ) (subcriber : CString) : Option (Option ℕ) := do
  let top ← bus.topics[topic]?
  match top.subHashTable with
  | some table =>
    match table.search subcriber with
    | none => scanFrom bus.accounts subcriber 0 top.subcribers
    | some _ => return none
  | none => scanFrom bus.accounts subcriber 0 top.subcribers

/-- The account names of the subscribers of a topic, in the order of the vector. -/
def accountNames (bus : Bus) (topic : ℕ) : List (Option CString) :=
  (bus.topics[topic]?.map fun top =>
    top.subcribers.map (Subcriber.accountName bus.accounts)).getD []

/-- The first subscriber in the vector whose account name is the given one. -/
def firstNamed (bus : Bus) (topic : ℕ) (name : CString) : Option ℕ :=
  (bus.accountNames topic).findIdx? fun owner => owner = some name

end Bus

/-- The account name with which a call subscribes to a topic. -/
def Op.caller (topic : CString) : Op → Option CString
  | .subcribe name accounter _ => if name = topic then some accounter else none
  | _ => none

/-- The account names of the subscriptions to a topic, in their order. -/
def callers (topic : CString) (ops : List Op) : List CString := ops.filterMap (Op.caller topic)

/-- Subscriptions to the topic are made by registered accounts, and its name is not reused. -/
def Registered (topic : CString) (bus : Bus) : Op → Prop
  | .topicCreate name _ => name ≠ topic
  | .subcribe name accounter _ => name = topic → bus.HasAccount accounter
  | _ => True

/-! ### The record of the topic -/

/-- A topic, created with a table of this size, whose subscribers have these account names. -/
structure Tracks (size : UInt16) (accounts : List Acc) (names : List CString) (top : Topic) :
    Prop where
  owners : top.subcribers.map (Subcriber.accountName accounts) = names.map some
  sized : top.subHashTable.isSome = true ↔ size ≠ 0
  caches : ∀ table, top.subHashTable = some table →
    ∀ name, table.search name = none ↔ name ∉ names

/-- A key is absent after an insertion if it was absent and is not the new one. -/
theorem HashTable.search_insert_eq_none {Data : Type} (table : HashTable Data) (key : CString)
    (data : Data) (name : CString) :
    (table.insert key data).search name = none ↔ name ≠ key ∧ table.search name = none := by
  rw [HashTable.search_insert]
  by_cases same : name = key
  · subst same
    simp only [true_and, ne_eq, not_true_eq_false, false_and, iff_false]
    intro absent
    split at absent
    case isTrue => cases absent
    case isFalse head => exact head (Bucket.headKey_ne absent)
  · simp [same]

namespace Tracks

variable {size : UInt16} {accounts : List Acc} {names : List CString} {top : Topic}

theorem created (name : CString) (cfg : TopicCfg) (accounts : List Acc) :
    Tracks cfg.hashTableSize accounts [] (.created name cfg) := by
  refine ⟨rfl, ?_, fun table here name' => ?_⟩
  · by_cases zero : cfg.hashTableSize = 0 <;> simp [Topic.created, zero]
  · by_cases zero : cfg.hashTableSize = 0
    · simp [Topic.created, zero] at here
    · simp only [Topic.created, ne_eq, zero, not_false_eq_true, if_true, Option.some.injEq] at here
      simp [← here, HashTable.search_init]

theorem account (tracks : Tracks size accounts names top) (account : Acc) :
    Tracks size (accounts ++ [account]) names top := by
  refine ⟨?_, tracks.sized, tracks.caches⟩
  rw [← tracks.owners]
  refine List.map_congr_left fun sub member => ?_
  have owned : sub.accountName accounts ∈ names.map some := by
    rw [← tracks.owners]
    exact List.mem_map_of_mem member
  obtain ⟨name, -, owner⟩ := List.mem_map.mp owned
  obtain ⟨acc, here, record⟩ := Option.bind_eq_some_iff.mp owner.symm
  obtain ⟨data, there, named⟩ := Option.map_eq_some_iff.mp record
  rw [← owner, Subcriber.accountName, here]
  show (accounts ++ [account])[acc]?.map Acc.name = some name
  rw [getElem?_append_some there, ← named]
  rfl

theorem received (tracks : Tracks size accounts names top) :
    Tracks size accounts names
      { top with subcribers := top.subcribers.map Subcriber.received } where
  owners := by
    rw [← tracks.owners]
    exact List.map_map
  sized := tracks.sized
  caches := tracks.caches

/-- A subscription appends its account name, and inserts it into the table. -/
theorem push (tracks : Tracks size accounts names top) {name : CString} {sub : Subcriber}
    (owner : sub.accountName accounts = some name) :
    Tracks size accounts (names ++ [name]) (top.push name sub) where
  owners := by
    show (top.subcribers ++ [sub]).map _ = (names ++ [name]).map some
    rw [List.map_append, List.map_append, tracks.owners]
    exact congrArg _ (congrArg (fun name => [name]) owner)
  sized := by
    rw [← tracks.sized]
    exact Iff.of_eq (congrArg (· = true) Option.isSome_map)
  caches table here other := by
    obtain ⟨before, was, rfl⟩ := Option.map_eq_some_iff.mp here
    rw [HashTable.search_insert_eq_none, tracks.caches before was other, List.mem_append,
      List.mem_singleton]
    tauto

/-- The scan finds the first subscriber of the name. -/
theorem scanFrom_eq (accounts : List Acc) (name : CString) {subs : List Subcriber}
    {names : List CString} (index : ℕ)
    (owners : subs.map (Subcriber.accountName accounts) = names.map some) :
    Bus.scanFrom accounts name index subs =
      some ((names.findIdx? fun owner => owner = name).map (· + index)) := by
  refine Bus.scanFrom_eq_some.mpr ⟨fun sub member unnamed => ?_, ?_⟩
  · have listed := List.mem_map_of_mem (f := Subcriber.accountName accounts)
      ((List.takeWhile_sublist _).subset member)
    rw [owners, unnamed] at listed
    obtain ⟨_, -, named⟩ := List.mem_map.mp listed
    cases named
  · have first : (names.map some).findIdx? (fun owner => owner = some name) =
        subs.findIdx? fun sub => sub.accountName accounts = some name := by
      rw [← owners, List.findIdx?_map]
      rfl
    rw [← first, List.findIdx?_map]
    congr
    funext owner
    simp

end Tracks

/-! ### Runs -/

/-- A state of the bus in which the name of the topic finds the tracked record. -/
structure Tracked (size : UInt16) (topic : CString) (number : ℕ) (names : List CString)
    (bus : Bus) : Prop where
  formed : WellFormed bus
  record : ∃ top, bus.lookup topic = some (number, top) ∧ Tracks size bus.accounts names top

namespace Tracked

variable {size : UInt16} {topic : CString} {number : ℕ} {names : List CString} {bus : Bus}

/-- A topic whose name finds it is tracked from its creation on. -/
theorem topicCreate (formed : WellFormed bus) {cfg : TopicCfg}
    (found : (bus.topicCreate topic cfg).topicFindByName topic = some (some bus.topics.length)) :
    Tracked cfg.hashTableSize topic bus.topics.length [] (bus.topicCreate topic cfg) where
  formed := formed.topicCreate topic cfg
  record := ⟨_, Bus.lookup_eq_some.mpr ⟨found, List.getElem?_concat_length⟩, .created topic cfg _⟩

theorem setTopic (tracked : Tracked size topic number names bus) {name : CString} {other : ℕ}
    {top : Topic} (found : bus.lookup name = some (other, top)) (top' : Topic)
    (sems : Address → ℕ) {names' : List CString}
    (formed : WellFormed { bus.setTopic other top' with sems := sems })
    (here : name = topic → Tracks size bus.accounts names top →
      Tracks size bus.accounts names' top') (elsewhere : name ≠ topic → names' = names) :
    Tracked size topic number names' { bus.setTopic other top' with sems := sems } := by
  obtain ⟨own, record, tracks⟩ := tracked.record
  refine ⟨formed, ?_⟩
  rw [tracked.formed.lookup_setTopic found top' sems topic]
  by_cases same : name = topic
  · subst same
    obtain ⟨rfl, rfl⟩ := Prod.mk.inj (Option.some.inj (found.symm.trans record))
    rw [if_pos rfl]
    exact ⟨top', rfl, here rfl tracks⟩
  · rw [if_neg (Ne.symm same), elsewhere same]
    exact ⟨own, record, tracks⟩

/-- **Every step** keeps the topic tracked. -/
theorem next (tracked : Tracked size topic number names bus) {op : Op} {bus' : Bus}
    {events : List Event} (meets : Registered topic bus op)
    (step : abus.step bus op = some (bus', events)) :
    Tracked size topic number (names ++ (op.caller topic).toList) bus' := by
  have formed := tracked.formed.next step
  have silent (other : op.caller topic = none) :
      names ++ (op.caller topic).toList = names := by
    rw [other, Option.toList_none, List.append_nil]
  obtain ⟨top, record, tracks⟩ := tracked.record
  cases op with
  | topicCreate name cfg =>
    obtain ⟨rfl, -⟩ := Prod.mk.inj (Option.some.inj step)
    rw [silent rfl]
    refine ⟨formed, top, ?_, tracks⟩
    rw [tracked.formed.lookup_topicCreate_ne (Ne.symm meets), record]
  | accounterCreate name =>
    obtain ⟨rfl, -⟩ := Prod.mk.inj (Option.some.inj step)
    rw [silent rfl]
    exact ⟨formed, top, record, tracks.account ⟨name⟩⟩
  | subcribe name accounter cfg =>
    obtain ⟨missing, rfl, -⟩ | ⟨other, found, acc, here, account, -, rfl⟩ := subcribe_cases step
    · have apart : name ≠ topic := by
        rintro rfl
        rw [(Bus.lookup_eq_some.mp record).1] at missing
        cases missing
      rw [silent (if_neg apart)]
      exact tracked
    · refine tracked.setTopic here _ _ formed (fun same tracks => ?_) fun apart => ?_
      · obtain ⟨number, registered⟩ := meets same
        obtain rfl : acc = some number := Option.some.inj (account.symm.trans registered)
        have caller : (Op.subcribe name accounter cfg).caller topic = some accounter :=
          if_pos same
        rw [caller]
        refine tracks.push ?_
        show bus.accounts[number]?.map Acc.name = some accounter
        rw [tracked.formed.accounts registered]
        rfl
      · exact silent (if_neg apart)
  | unsubcribe name subcribe =>
    obtain ⟨rfl, -⟩ := unsubcribe_cases step
    rw [silent rfl]
    exact tracked
  | publish name data =>
    obtain ⟨other, found, here, rfl, -⟩ := tracked.formed.publish_cases step
    rw [silent rfl]
    exact tracked.setTopic here _ bus.sems formed (fun _ tracks => tracks.received) fun _ => rfl
  | wait pointer =>
    obtain ⟨rfl, -⟩ := tracked.formed.wait_cases step
    rw [silent rfl]
    exact tracked

/-- **Every run** keeps the topic tracked. -/
theorem run (tracked : Tracked size topic number [] bus) {ops : List Op} {outs : List Event}
    {final : Bus} (run : abus.RunOn (Registered topic) bus ops outs final) :
    Tracked size topic number (callers topic ops) final := by
  refine run.history (fun past bus => Tracked size topic number (callers topic past) bus)
    (fun past bus op next events meets tracked step => ?_) [] tracked
  rw [callers, List.filterMap_append]
  exact tracked.next meets step

theorem find_eq (tracked : Tracked size topic number names bus) (name : CString) :
    bus.subcribeFindByName number name =
      some (if size ≠ 0 ∧ name ∈ names then none
        else names.findIdx? fun owner => owner = name) := by
  obtain ⟨top, record, tracks⟩ := tracked.record
  have scan := Tracks.scanFrom_eq bus.accounts name 0 tracks.owners
  rw [Bus.subcribeFindByName, (Bus.lookup_eq_some.mp record).2]
  cases table : top.subHashTable with
  | none =>
    have plain : ¬ size ≠ 0 := by
      rw [← tracks.sized, table]
      exact Bool.false_ne_true
    simp [table, scan, plain]
  | some cache =>
    have sized : size ≠ 0 := by
      rw [← tracks.sized, table]
      rfl
    have absent := tracks.caches cache table name
    cases hit : cache.search name with
    | none =>
      have fresh := absent.mp hit
      simp [table, hit, scan, fresh]
    | some data =>
      rw [hit] at absent
      have known : name ∈ names := by
        by_contra fresh
        cases absent.mpr fresh
      simp [table, hit, sized, known]

/-- The first subscriber of the name is the first subscription of the name. -/
theorem firstNamed_eq (tracked : Tracked size topic number names bus) (name : CString) :
    bus.firstNamed number name = names.findIdx? fun owner => owner = name := by
  obtain ⟨top, record, tracks⟩ := tracked.record
  rw [Bus.firstNamed, Bus.accountNames, (Bus.lookup_eq_some.mp record).2]
  show (top.subcribers.map _).findIdx? _ = _
  rw [tracks.owners, List.findIdx?_map]
  congr
  funext owner
  simp

end Tracked

/-- The name of a new topic finds it with every configuration, or with none. -/
theorem topicFindByName_cfg {bus : Bus} {topic : CString} (cfg cfg' : TopicCfg) :
    (bus.topicCreate topic cfg).topicFindByName topic =
      (bus.topicCreate topic cfg').topicFindByName topic := by
  rw [topicFindByName_topicCreate, topicFindByName_topicCreate]

/-- **The search with the table agrees with the plain scan** exactly on the names of which no
account has subscribed. -/
theorem find_agrees_iff {sems : Address → ℕ} {past : List Op} {outs : List Event} {bus : Bus}
    (reached : abus.Run (.initial sems) past outs bus) {topic : CString} {size dataSize : UInt16}
    (sized : size ≠ 0)
    (found : (bus.topicCreate topic ⟨size, dataSize⟩).topicFindByName topic =
      some (some bus.topics.length)) {ops : List Op} {outs₁ outs₂ : List Event} {cached plain : Bus}
    (run₁ : abus.RunOn (Registered topic) (bus.topicCreate topic ⟨size, dataSize⟩) ops outs₁ cached)
    (run₂ : abus.RunOn (Registered topic) (bus.topicCreate topic ⟨0, dataSize⟩) ops outs₂ plain)
    (name : CString) :
    (cached.subcribeFindByName bus.topics.length name =
        plain.subcribeFindByName bus.topics.length name ∧
      plain.subcribeFindByName bus.topics.length name =
        some (plain.firstNamed bus.topics.length name)) ↔
      name ∉ callers topic ops := by
  have formed := wellFormed_reachable reached
  have left := (Tracked.topicCreate formed found).run run₁
  rw [topicFindByName_cfg _ ⟨0, dataSize⟩] at found
  have right := (Tracked.topicCreate formed found).run run₂
  rw [left.find_eq, right.find_eq, right.firstNamed_eq]
  by_cases known : name ∈ callers topic ops
  · have hit : (callers topic ops).findIdx? (fun owner => owner = name) ≠ none := by
      rw [ne_eq, List.findIdx?_eq_none_iff]
      exact fun none => of_decide_eq_false (none name known) rfl
    simp [sized, known, hit.symm]
  · simp [known]

/-! ### One subscription -/

/-- A bus with one account. -/
def oneAccount : Bus := (Bus.initial fun _ => 0).accounterCreate secondName

theorem oneAccount_reached :
    abus.Run (.initial fun _ => 0) [.accounterCreate secondName] [] oneAccount :=
  .single trivial rfl

/-- The subscription of the account to a topic. -/
def oneSubcribe : Op := .subcribe firstName secondName ⟨none, some 8, 0, none⟩

/-- The subscription to a new topic with a table of this size, and what the bus is checked for after
it. -/
theorem oneSubcribe_run (size : UInt16) (check : Bus → Bool)
    (checked : ((abus.step (oneAccount.topicCreate firstName ⟨size, 1⟩) oneSubcribe).any
      fun next => check next.1) = true) : ∃ outs final,
      abus.RunOn (Registered firstName) (oneAccount.topicCreate firstName ⟨size, 1⟩) [oneSubcribe]
        outs final ∧ check final = true := by
  obtain ⟨⟨final, outs⟩, step, checked⟩ := (Option.any_eq_true _ _).mp checked
  have account : oneAccount.accounterFindByName secondName = some (some 0) := by decide +kernel
  exact ⟨outs, final, .single (fun _ => ⟨0, account⟩) step, checked⟩

/-- The two searches agree on the name of the topic, of which no account has subscribed. -/
theorem find_agrees_absent : ∃ outs₁ outs₂ cached plain,
    abus.RunOn (Registered firstName) (oneAccount.topicCreate firstName ⟨16, 1⟩) [oneSubcribe]
      outs₁ cached ∧
    abus.RunOn (Registered firstName) (oneAccount.topicCreate firstName ⟨0, 1⟩) [oneSubcribe]
      outs₂ plain ∧
    cached.subcribeFindByName 0 firstName = plain.subcribeFindByName 0 firstName ∧
    plain.subcribeFindByName 0 firstName = some (plain.firstNamed 0 firstName) := by
  obtain ⟨outs₁, cached, run₁, -⟩ := oneSubcribe_run 16 (fun _ => true) (by decide +kernel)
  obtain ⟨outs₂, plain, run₂, -⟩ := oneSubcribe_run 0 (fun _ => true) (by decide +kernel)
  have found : (oneAccount.topicCreate firstName ⟨16, 1⟩).topicFindByName firstName =
      some (some oneAccount.topics.length) := by decide +kernel
  exact ⟨outs₁, outs₂, cached, plain, run₁, run₂,
    (find_agrees_iff oneAccount_reached (by decide) found run₁ run₂ firstName).mpr
      (by decide +kernel)⟩

/-- **A hit is dropped.** After one subscription the search by its name finds the subscriber without
a table, and null with one. -/
theorem find_disagrees : ∃ outs₁ outs₂ cached plain,
    abus.RunOn (Registered firstName) (oneAccount.topicCreate firstName ⟨16, 1⟩) [oneSubcribe]
      outs₁ cached ∧
    abus.RunOn (Registered firstName) (oneAccount.topicCreate firstName ⟨0, 1⟩) [oneSubcribe]
      outs₂ plain ∧
    cached.subcribeFindByName 0 secondName = some none ∧
    plain.subcribeFindByName 0 secondName = some (some 0) ∧
    plain.firstNamed 0 secondName = some 0 := by
  obtain ⟨outs₁, cached, run₁, null⟩ := oneSubcribe_run 16
    (fun bus => bus.subcribeFindByName 0 secondName = some none) (by decide +kernel)
  obtain ⟨outs₂, plain, run₂, found⟩ := oneSubcribe_run 0
    (fun bus => bus.subcribeFindByName 0 secondName = some (some 0) ∧
      bus.firstNamed 0 secondName = some 0) (by decide +kernel)
  exact ⟨outs₁, outs₂, cached, plain, run₁, run₂, of_decide_eq_true null, of_decide_eq_true found⟩

end Robocon.Abus
