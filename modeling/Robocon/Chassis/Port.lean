/-
**The chassis on the bus (`chassis_port.c`).**

`port` is the bus with the fifos of its subscribers, under the calls of `chassis_port_handle`, the
calls of others, and readers that take a `chassis_state_t` at a time.

* `Kept` — the topic keeps its data size, and its subscriber its place, in every step.
* `pushed_deliveries` — what a publish puts into the fifo of a subscriber.
* `balance` — the bytes read and the bytes left are those pushed, sixteen for each publish.
* `whole_iff` — a subscriber gets what was published exactly if nothing was.

`chassis_port_init` sets up a configuration of its own for the topic `chassis_state`, and creates
the topic with that of `chassis_ctrl`, whose data are shorter (`state_cut`).

The fifos lose nothing, and each belongs to one subscriber.
-/

import Robocon.Abus.Delivery
import Robocon.Chassis.Layer
import Robocon.Lib.Buffer

namespace Robocon.Chassis

open Lib Abus

/-! ### Records and names -/

/-- The bytes of a name. -/
def ascii (text : String) : List UInt8 := text.toList.map fun char => UInt8.ofNat char.toNat

/-- `"chassis_ctrl"`. -/
def ctrlName : CString := ⟨ascii "chassis_ctrl", by decide⟩

/-- `"chassis_state"`. -/
def stateName : CString := ⟨ascii "chassis_state", by decide⟩

/-- `"accx"`. -/
def accxName : CString := ⟨ascii "accx", by decide⟩

/-- `chassis_state_t`. -/
structure ChassisState where
  posX : FloatBytes
  posY : FloatBytes
  posW : FloatBytes
  speedX : FloatBytes
  speedY : FloatBytes
  speedW : FloatBytes

/-- The bytes of the packed record. -/
def ChassisState.bytes (state : ChassisState) : List UInt8 :=
  state.posX.toList ++ state.posY.toList ++ state.posW.toList ++ state.speedX.toList ++
    state.speedY.toList ++ state.speedW.toList

/-- `sizeof(chassis_state_t)`. -/
def chassisStateSize : ℕ := 24

/-- `sizeof(chassis_ctrl_t)`: an `int` and three floats. -/
def chassisCtrlSize : ℕ := 16

theorem ChassisState.bytes_length (state : ChassisState) :
    state.bytes.length = chassisStateSize := by
  simp [bytes, chassisStateSize]

/-- `chassis_state`, as a turn of `chassis_port_handle` sets it. -/
def ChassisState.ofPresent (present : Data FloatBytes) : ChassisState where
  posW := present.pos.zRad
  posX := present.pos.xM
  posY := present.pos.yM
  speedW := present.speed.zRadS
  speedX := present.speed.xMS
  speedY := present.speed.yMS

def cfg : TopicCfg := ⟨4, UInt16.ofNat chassisCtrlSize⟩

/-- `cfg_subx`, with the address of `abus_subcribe_cb22`. -/
def cfgSubx (cb22 : Address) : SubcribeCfg := ⟨none, some cb22, 0, none⟩

/-- The calls of `chassis_port_init`. -/
def chassisPortInit (cb22 : Address) : List Op :=
  [.topicCreate ctrlName cfg, .topicCreate stateName cfg, .accounterCreate accxName,
    .subcribe ctrlName accxName (cfgSubx cb22)]

/-! ### The bus and its fifos -/

/-- The bus, and what is in the fifo of each subscriber. -/
structure Port where
  bus : Bus
  fifos : Pointer → List UInt8

/-- What happens at the bus. -/
inductive Input
  | op (call : Op)
  | handle (present : Data FloatBytes)
  | read (subcriber : Pointer)

/-- The bytes that one event puts into the fifo of a subscriber. -/
def pushedBy (p : Pointer) : Event → List UInt8
  | .afifoIn q _ bytes => if q = p then bytes else []
  | _ => []

/-- The bytes that events put into the fifo of a subscriber. -/
def pushed (p : Pointer) (events : List Event) : List UInt8 := events.flatMap (pushedBy p)

namespace Port

/-- A call of the bus. -/
def call (s : Port) (op : Op) : Option Port :=
  (abus.step s.bus op).map fun next =>
    ⟨next.1, fun p => s.fifos p ++ pushed p next.2⟩

/-- A turn of `chassis_port_handle`. -/
def handle (s : Port) (present : Data FloatBytes) : Option Port :=
  s.call (.publish stateName (ChassisState.ofPresent present).bytes)

/-- `abus_get_data`. -/
def getData (s : Port) (p : Pointer) (count : ℕ) : Option (Port × List UInt8) := do
  let top ← s.bus.topics[p.topic]?
  let sub ← top.subcribers[p.index]?
  match sub.fifo with
  | some _ =>
    return ({ s with fifos := Function.update s.fifos p ((s.fifos p).drop count) },
      (s.fifos p).take count)
  | none => return (s, [])

end Port

/-- The bus under its calls; its outputs are what the readers get. -/
def port : Machine Port Input (Pointer × List UInt8) where
  step s
    | .op call => (s.call call).map fun s => (s, [])
    | .handle present => (s.handle present).map fun s => (s, [])
    | .read p => (s.getData p chassisStateSize).map fun next => (next.1, [(p, next.2)])

/-- Power-on. -/
def Port.initial (sems : Address → ℕ) : Port := ⟨.initial sems, fun _ => []⟩

/-- Names of new topics are new, calls name what exists, and only `chassis_port_handle` publishes
the state of the chassis. -/
def Allowed (s : Port) : Input → Prop
  | .op call => Proper s.bus call ∧ call.publishes stateName = false
  | _ => True

instance (s : Port) : (input : Input) → Decidable (Allowed s input)
  | .op _ => inferInstanceAs (Decidable (_ ∧ _))
  | .handle _ => .isTrue trivial
  | .read _ => .isTrue trivial

/-- The records that are published. -/
def published (inputs : List Input) : List ChassisState :=
  inputs.filterMap fun
    | .handle present => some (.ofPresent present)
    | _ => none

/-- What the reads from a fifo that was not empty have given. -/
def reads (p : Pointer) (outs : List (Pointer × List UInt8)) : List (List UInt8) :=
  (outs.filter fun out => out.1 = p ∧ out.2 ≠ []).map Prod.snd

/-- The reads gave the first published records, in order, and the fifo holds the others. -/
structure Whole (p : Pointer) (records : List ChassisState) (outs : List (Pointer × List UInt8))
    (s : Port) : Prop where
  reads : reads p outs = (records.take (reads p outs).length).map ChassisState.bytes
  left : s.fifos p = (records.drop (Chassis.reads p outs).length).flatMap ChassisState.bytes

/-! ### What a publish pushes -/

theorem pushed_append (p : Pointer) (first second : List Event) :
    pushed p (first ++ second) = pushed p first ++ pushed p second :=
  List.flatMap_append

/-- A fifo gets nothing from the calls for others. -/
theorem pushed_eq_nil {p : Pointer} {events : List Event}
    (others : ∀ event ∈ events, event.target ≠ some p) : pushed p events = [] := by
  refine List.flatMap_eq_nil_iff.mpr fun event member => ?_
  have other := others event member
  cases event with
  | afifoIn q fifo bytes => exact if_neg fun same => other (congrArg some same)
  | _ => rfl

section Deliveries

variable {size : ℕ} {data : List UInt8} {topic : ℕ}

/-- The calls for the subscribers from an index on are for none before it, and for none of another
topic. -/
theorem pushed_before {p : Pointer} {start : ℕ} {ports : List Abus.Port}
    (before : p.topic = topic → p.index < start) :
    pushed p (deliveriesFrom size data topic start ports) = [] := by
  refine pushed_eq_nil fun event member same => ?_
  obtain ⟨⟨port, index⟩, here, called⟩ := List.mem_flatMap.mp member
  have target := (delivery_target called).1
  obtain rfl : p = ⟨topic, index⟩ := Option.some.inj (same.symm.trans target)
  exact absurd (List.le_snd_of_mem_zipIdx here) (Nat.not_le.mpr (before rfl))

theorem pushed_delivery (p : Pointer) {port : Abus.Port} (fifo : port.fifo.isSome = true) :
    pushed p (delivery size data p port) = data.take size := by
  obtain ⟨address, here⟩ := Option.isSome_iff_exists.mp fifo
  have called : pushed p (port.cb.map fun cb => Event.cb p cb data).toList = [] := by
    cases port.cb <;> rfl
  rw [delivery, pushed_append, called, here, List.append_nil]
  show (if p = p then data.take size else []) ++ [] = _
  rw [if_pos rfl, List.append_nil]

/-- **A publish** pushes the data size of the topic into the fifo of a subscriber. -/
theorem pushed_deliveries {ports : List Abus.Port} : ∀ {start index : ℕ} {port : Abus.Port},
    ports[index]? = some port → port.fifo.isSome = true →
      pushed ⟨topic, start + index⟩ (deliveriesFrom size data topic start ports) =
        data.take size := by
  induction ports with
  | nil => exact fun here => by cases here
  | cons head rest ih =>
    intro start index port here fifo
    have unfolded : deliveriesFrom size data topic start (head :: rest) =
        delivery size data ⟨topic, start⟩ head ++
          deliveriesFrom size data topic (start + 1) rest := by
      rw [deliveriesFrom, List.zipIdx_cons, List.flatMap_cons]
      rfl
    rw [unfolded, pushed_append]
    cases index with
    | zero =>
      obtain rfl : head = port := Option.some.inj here
      rw [Nat.add_zero, pushed_delivery _ fifo, pushed_before fun _ => Nat.lt_succ_self start,
        List.append_nil]
    | succ index =>
      have skipped : pushed ⟨topic, start + (index + 1)⟩
          (delivery size data ⟨topic, start⟩ head) = [] := by
        refine pushed_eq_nil fun event member same => ?_
        have target := (delivery_target member).1
        have equal : start + (index + 1) = start :=
          congrArg Pointer.index (Option.some.inj (same.symm.trans target))
        omega
      rw [skipped, List.nil_append, Nat.add_comm index, ← Nat.add_assoc]
      exact ih here fifo

end Deliveries

theorem pushed_other {bus bus' : Bus} {op : Op} {events : List Event}
    (formed : WellFormed bus) (step : abus.step bus op = some (bus', events))
    (quiet : ∀ topic data, op ≠ .publish topic data) (p : Pointer) : pushed p events = [] := by
  cases op with
  | topicCreate name cfg =>
    obtain ⟨-, rfl⟩ := Prod.mk.inj (Option.some.inj step)
    rfl
  | accounterCreate name =>
    obtain ⟨-, rfl⟩ := Prod.mk.inj (Option.some.inj step)
    rfl
  | subcribe name accounter cfg =>
    obtain ⟨-, -, rfl⟩ | ⟨_, _, _, -, -, rfl, -⟩ := subcribe_cases step
    · rfl
    · rfl
  | unsubcribe name subcribe =>
    obtain ⟨-, _, rfl⟩ := unsubcribe_cases step
    rfl
  | publish name data => exact absurd rfl (quiet name data)
  | wait pointer =>
    obtain ⟨-, rfl⟩ := formed.wait_cases step
    rfl

/-! ### The fifo of a subscriber -/

theorem call_cases {s s' : Port} {op : Op} (step : s.call op = some s') :
    ∃ events, abus.step s.bus op = some (s'.bus, events) ∧
      ∀ p, s'.fifos p = s.fifos p ++ pushed p events := by
  obtain ⟨⟨bus, events⟩, stepped, rfl⟩ := Option.map_eq_some_iff.mp step
  exact ⟨events, stepped, fun _ => rfl⟩

theorem getData_cases {s s' : Port} {p : Pointer} {count : ℕ} {bytes : List UInt8}
    (step : s.getData p count = some (s', bytes)) :
    (s' = s ∧ bytes = [] ∧ ∃ top sub, s.bus.topics[p.topic]? = some top ∧
      top.subcribers[p.index]? = some sub ∧ sub.fifo = none) ∨
    (s' = { s with fifos := Function.update s.fifos p ((s.fifos p).drop count) } ∧
      bytes = (s.fifos p).take count) := by
  obtain ⟨top, record, rest⟩ := Option.bind_eq_some_iff.mp step
  obtain ⟨sub, member, rest⟩ := Option.bind_eq_some_iff.mp rest
  split at rest
  case h_1 =>
    obtain ⟨rfl, rfl⟩ := Prod.mk.inj (Option.some.inj rest)
    exact Or.inr ⟨rfl, rfl⟩
  case h_2 none =>
    obtain ⟨rfl, rfl⟩ := Prod.mk.inj (Option.some.inj rest)
    exact Or.inl ⟨rfl, rfl, top, sub, record, member, none⟩

/-- A step is a proper call of the bus that does not publish the state, a publish of the state, or a
read. -/
theorem port_cases {s s' : Port} {input : Input} {outs : List (Pointer × List UInt8)}
    (allowed : Allowed s input) (step : port.step s input = some (s', outs)) :
    (∃ op, Proper s.bus op ∧ s.call op = some s' ∧ outs = [] ∧
      ((op.publishes stateName = false ∧ published [input] = []) ∨
        ∃ present, op = .publish stateName (ChassisState.ofPresent present).bytes ∧
          published [input] = [.ofPresent present])) ∨
    ∃ q bytes, s.getData q chassisStateSize = some (s', bytes) ∧ outs = [(q, bytes)] ∧
      published [input] = [] := by
  cases input with
  | op call =>
    obtain ⟨last, called, done⟩ := Option.map_eq_some_iff.mp step
    obtain ⟨rfl, rfl⟩ := Prod.mk.inj done
    exact Or.inl ⟨call, allowed.1, called, rfl, Or.inl ⟨allowed.2, rfl⟩⟩
  | handle present =>
    obtain ⟨last, called, done⟩ := Option.map_eq_some_iff.mp step
    obtain ⟨rfl, rfl⟩ := Prod.mk.inj done
    refine Or.inl ⟨_, ?_, called, rfl, Or.inr ⟨present, rfl, rfl⟩⟩
    obtain ⟨events, stepped, -⟩ := call_cases called
    obtain ⟨topic, top, _, _, _, found, -⟩ := publish_cases stepped
    exact Option.isSome_iff_exists.mpr ⟨_, found⟩
  | read q =>
    obtain ⟨⟨last, bytes⟩, got, done⟩ := Option.map_eq_some_iff.mp step
    obtain ⟨rfl, rfl⟩ := Prod.mk.inj done
    exact Or.inr ⟨q, bytes, got, rfl, rfl⟩

/-- Only fifos of subscribers hold anything. -/
structure Inside (s : Port) : Prop where
  formed : WellFormed s.bus
  owned : ∀ p, s.fifos p ≠ [] →
    ∃ top, s.bus.topics[p.topic]? = some top ∧ p.index < top.subcribers.length

/-- A publish pushes into fifos of subscribers only. -/
theorem pushed_inside {bus bus' : Bus} {op : Op} {events : List Event} (formed : WellFormed bus)
    (step : abus.step bus op = some (bus', events)) {p : Pointer} (held : pushed p events ≠ []) :
    ∃ top, bus.topics[p.topic]? = some top ∧ p.index < top.subcribers.length := by
  by_cases quiet : ∀ topic data, op ≠ .publish topic data
  · exact absurd (pushed_other formed step quiet p) held
  · push Not at quiet
    obtain ⟨name, data, rfl⟩ := quiet
    obtain ⟨topic, top, found, rfl, rfl⟩ := formed.publish_cases step
    by_contra outside
    refine held ?_
    rw [pushed_append]
    have none : pushed p (deliveries top.cfg.topicDataSize.toNat data topic
        (top.subcribers.map Subcriber.port)) = [] := by
      refine pushed_eq_nil fun event member same => outside ?_
      obtain ⟨index, port, here, called⟩ := mem_deliveries.mp member
      obtain rfl := Option.some.inj (same.symm.trans (delivery_target called).1)
      refine ⟨top, (Bus.lookup_eq_some.mp found).2, ?_⟩
      simpa using (List.getElem?_eq_some_iff.mp here).1
    rw [none]
    rfl

theorem Inside.next {s s' : Port} {input : Input} {outs : List (Pointer × List UInt8)}
    (inside : Inside s) (allowed : Allowed s input)
    (step : port.step s input = some (s', outs)) : Inside s' := by
  obtain ⟨op, -, called, -, -⟩ | ⟨q, bytes, got, -, -⟩ := port_cases allowed step
  · obtain ⟨events, stepped, fifos⟩ := call_cases called
    refine ⟨inside.formed.next stepped, fun p held => ?_⟩
    have owner : ∃ top, s.bus.topics[p.topic]? = some top ∧ p.index < top.subcribers.length := by
      by_cases before : s.fifos p = []
      · rw [fifos, before, List.nil_append] at held
        exact pushed_inside inside.formed stepped held
      · exact inside.owned p before
    obtain ⟨top, record, within⟩ := owner
    obtain ⟨top', record', -, ports⟩ := inside.formed.record_step stepped record
    refine ⟨top', record', within.trans_le ?_⟩
    simpa using ports.length_le
  · obtain ⟨rfl, -⟩ | ⟨rfl, -⟩ := getData_cases got
    · exact inside
    · refine ⟨inside.formed, fun p held => inside.owned p fun empty => held ?_⟩
      show Function.update s.fifos q _ p = []
      by_cases own : p = q
      · subst own
        rw [Function.update_self, empty, List.drop_nil]
      · rw [Function.update_of_ne own]
        exact empty

theorem Inside.initial (sems : Address → ℕ) : Inside (.initial sems) :=
  ⟨.initial sems, fun _ held => absurd rfl held⟩

/-- The subscriber has a fifo, and its topic was set up with the configuration of `chassis_ctrl`. -/
structure Kept (p : Pointer) (s : Port) : Prop where
  formed : WellFormed s.bus
  record : ∃ top sub, s.bus.lookup stateName = some (p.topic, top) ∧ top.cfg = cfg ∧
    (top.subcribers.map Subcriber.port)[p.index]? = some sub ∧ sub.fifo.isSome = true

/-- The topic keeps its configuration, and the subscriber its place. -/
theorem Kept.call {p : Pointer} {s s' : Port} {op : Op} {events : List Event} (kept : Kept p s)
    (proper : Proper s.bus op) (step : abus.step s.bus op = some (s'.bus, events)) : Kept p s' := by
  refine ⟨kept.formed.next step, ?_⟩
  obtain ⟨top, sub, found, same, here, fifo⟩ := kept.record
  obtain ⟨top', found', cfg', more, ports⟩ := kept.formed.lookup_step proper step found
  exact ⟨top', sub, found', cfg'.trans same, ports ▸ getElem?_append_some here, fifo⟩

/-- A publish on another topic pushes nothing into the fifo. -/
theorem Kept.pushed_elsewhere {p : Pointer} {s : Port} {bus' : Bus} {op : Op}
    {events : List Event} (kept : Kept p s) (step : abus.step s.bus op = some (bus', events))
    (elsewhere : op.publishes stateName = false) : pushed p events = [] := by
  by_cases quiet : ∀ topic data, op ≠ .publish topic data
  · exact pushed_other kept.formed step quiet p
  · push Not at quiet
    obtain ⟨name, data, rfl⟩ := quiet
    obtain ⟨topic, top, found, -, rfl⟩ := kept.formed.publish_cases step
    have other : name ≠ stateName := of_decide_eq_false elsewhere
    obtain ⟨own, sub, lookup, -⟩ := kept.record
    have apart : p.topic ≠ topic := by
      rintro rfl
      have record := (Bus.lookup_eq_some.mp lookup).2
      obtain rfl := Option.some.inj ((Bus.lookup_eq_some.mp found).2.symm.trans record)
      exact other ((kept.formed.lookup_name found).symm.trans (kept.formed.lookup_name lookup))
    have none : pushed p (deliveries top.cfg.topicDataSize.toNat data topic
        (top.subcribers.map Subcriber.port)) = [] := pushed_before fun same => absurd same apart
    rw [pushed_append, none]
    rfl

/-- A publish of the state pushes the data size of the topic. -/
theorem Kept.pushed_state {p : Pointer} {s : Port} {bus' : Bus} {data : List UInt8}
    {events : List Event} (kept : Kept p s)
    (step : abus.step s.bus (.publish stateName data) = some (bus', events)) :
    pushed p events = data.take chassisCtrlSize := by
  obtain ⟨topic, top, found, -, rfl⟩ := kept.formed.publish_cases step
  obtain ⟨own, sub, lookup, same, here, fifo⟩ := kept.record
  obtain ⟨rfl, rfl⟩ := Prod.mk.inj (Option.some.inj (lookup.symm.trans found))
  have size : own.cfg.topicDataSize.toNat = chassisCtrlSize := by
    rw [same]
    rfl
  have taken : pushed ⟨p.topic, 0 + p.index⟩ (deliveries own.cfg.topicDataSize.toNat data p.topic
      (own.subcribers.map Subcriber.port)) = data.take own.cfg.topicDataSize.toNat :=
    pushed_deliveries here fifo
  rw [Nat.zero_add] at taken
  rw [pushed_append, taken, size]
  exact List.append_nil _

theorem reads_append (p : Pointer) (first second : List (Pointer × List UInt8)) :
    reads p (first ++ second) = reads p first ++ reads p second := by
  rw [reads, List.filter_append, List.map_append]
  rfl

theorem reads_single (p q : Pointer) (bytes : List UInt8) :
    (reads p [(q, bytes)]).flatten = if q = p then bytes else [] := by
  by_cases own : q = p
  · by_cases empty : bytes = []
    · simp [reads, own, empty]
    · simp [reads, own, empty]
  · simp [reads, own]

/-- **One step.** What is read from the fifo and what stays in it are what was in it and the first
bytes of what is published. -/
theorem Kept.next {p : Pointer} {s s' : Port} {input : Input} {outs : List (Pointer × List UInt8)}
    (kept : Kept p s) (allowed : Allowed s input) (step : port.step s input = some (s', outs)) :
    Kept p s' ∧ (reads p outs).flatten ++ s'.fifos p =
      s.fifos p ++ (published [input]).flatMap fun record => record.bytes.take chassisCtrlSize := by
  obtain ⟨op, proper, called, rfl, sort⟩ | ⟨q, bytes, got, rfl, none⟩ := port_cases allowed step
  · obtain ⟨events, stepped, fifos⟩ := call_cases called
    refine ⟨kept.call proper stepped, ?_⟩
    show s'.fifos p = _
    rw [fifos]
    congr 1
    obtain ⟨elsewhere, none⟩ | ⟨present, rfl, one⟩ := sort
    · rw [none, kept.pushed_elsewhere stepped elsewhere]
      rfl
    · rw [one, kept.pushed_state stepped]
      simp
  · rw [none, reads_single]
    obtain ⟨rfl, rfl, top, sub, record, member, bare⟩ | ⟨rfl, rfl⟩ := getData_cases got
    · refine ⟨kept, ?_⟩
      rw [ite_self]
      simp
    · refine ⟨⟨kept.formed, kept.record⟩, ?_⟩
      show _ ++ Function.update s.fifos q _ p = _
      by_cases own : q = p
      · subst own
        rw [if_pos rfl, Function.update_self, List.take_append_drop]
        simp
      · rw [if_neg own, Function.update_of_ne (Ne.symm own)]
        simp

theorem published_cons (input : Input) (inputs : List Input) :
    published (input :: inputs) = published [input] ++ published inputs := by
  rw [published, published, published, ← List.filterMap_append]
  rfl

/-- **Every run.** What is read from the fifo and what stays in it are what was in it and the first
bytes of each record that is published. -/
theorem balance {p : Pointer} {inputs : List Input} :
    ∀ {s s' : Port} {outs : List (Pointer × List UInt8)}, Kept p s →
      port.RunOn Allowed s inputs outs s' →
      (reads p outs).flatten ++ s'.fifos p = s.fifos p ++
        (published inputs).flatMap fun record => record.bytes.take chassisCtrlSize := by
  induction inputs with
  | nil =>
    intro s s' outs kept run
    cases run
    simp [reads, published]
  | cons input inputs ih =>
    intro s s' outs kept run
    obtain ⟨middle, output, outputs, rfl, allowed, step, rest⟩ := run.uncons
    obtain ⟨kept', head⟩ := kept.next allowed step
    rw [reads_append, List.flatten_append, List.append_assoc, ih kept' rest, ← List.append_assoc,
      head, published_cons input inputs, List.flatMap_append, List.append_assoc]

theorem bytes_length (records : List ChassisState) :
    (records.flatMap ChassisState.bytes).length = chassisStateSize * records.length := by
  induction records with
  | nil => rfl
  | cons record records ih =>
    rw [List.flatMap_cons, List.length_append, ih, ChassisState.bytes_length, List.length_cons,
      Nat.mul_succ, Nat.add_comm]

theorem taken_length (records : List ChassisState) :
    (records.flatMap fun record => record.bytes.take chassisCtrlSize).length =
      chassisCtrlSize * records.length := by
  induction records with
  | nil => rfl
  | cons record records ih =>
    rw [List.flatMap_cons, List.length_append, ih, List.length_take, ChassisState.bytes_length,
      List.length_cons, Nat.mul_succ, Nat.add_comm]
    rfl

theorem Whole.length {p : Pointer} {records : List ChassisState}
    {outs : List (Pointer × List UInt8)} {s : Port} (whole : Whole p records outs s) :
    ((Chassis.reads p outs).flatten ++ s.fifos p).length = chassisStateSize * records.length := by
  have gone : (Chassis.reads p outs).flatten =
      (records.take (Chassis.reads p outs).length).flatMap ChassisState.bytes := by
    rw [List.flatMap_def, ← whole.reads]
  rw [gone, whole.left, ← List.flatMap_append, List.take_append_drop, bytes_length]

/-! ### The records -/

/-- A topic `chassis_state` that was created as `chassis_port_init` does it. -/
structure Created (past : List Input) (s : Port) : Prop where
  inside : Inside s
  state : .op (.topicCreate stateName cfg) ∈ past →
    ∃ topic top, s.bus.lookup stateName = some (topic, top) ∧ top.cfg = cfg

theorem Created.next {past : List Input} {s s' : Port} {input : Input}
    {outs : List (Pointer × List UInt8)} (created : Created past s) (allowed : Allowed s input)
    (step : port.step s input = some (s', outs)) : Created (past ++ [input]) s' := by
  refine ⟨created.inside.next allowed step, fun member => ?_⟩
  rcases List.mem_append.mp member with member | member
  · obtain ⟨topic, top, found, same⟩ := created.state member
    obtain ⟨op, proper, called, -, -⟩ | ⟨q, bytes, got, -, -⟩ := port_cases allowed step
    · obtain ⟨events, stepped, -⟩ := call_cases called
      obtain ⟨top', found', cfg', -⟩ := created.inside.formed.lookup_step proper stepped found
      exact ⟨topic, top', found', cfg'.trans same⟩
    · obtain ⟨rfl, -⟩ | ⟨rfl, -⟩ := getData_cases got
      · exact ⟨topic, top, found, same⟩
      · exact ⟨topic, top, found, same⟩
  · obtain rfl := List.mem_singleton.mp member
    have call : (s.call (.topicCreate stateName cfg)).map
        (fun s => (s, ([] : List (Pointer × List UInt8)))) = some (s', outs) := step
    obtain ⟨last, called, done⟩ := Option.map_eq_some_iff.mp call
    obtain ⟨rfl, -⟩ := Prod.mk.inj done
    obtain ⟨events, stepped, -⟩ := call_cases called
    have fresh : s.bus.lookup stateName = none :=
      Option.isNone_iff_eq_none.mp (Option.isSome_eq_false_iff.mp allowed.1)
    have bus : s.bus.topicCreate stateName cfg = last.bus :=
      (Prod.mk.inj (Option.some.inj stepped)).1
    refine ⟨s.bus.topics.length, .created stateName cfg, ?_, rfl⟩
    rw [← bus, created.inside.formed.lookup_topicCreate fresh, if_pos rfl]

/-- The fifo of a new subscriber is empty, and its topic has the configuration of `chassis_ctrl`. -/
theorem Created.subcribe {past : List Input} {s s' : Port} (created : Created past s)
    (member : .op (.topicCreate stateName cfg) ∈ past) {accounter : CString} {sub : SubcribeCfg}
    (fifo : sub.fifo.isSome = true) {topic : ℕ} {top : Topic}
    (found : s.bus.lookup stateName = some (topic, top))
    (subcribed : s.call (.subcribe stateName accounter sub) = some s') :
    Kept ⟨topic, top.subcribers.length⟩ s' ∧ s'.fifos ⟨topic, top.subcribers.length⟩ = [] := by
  obtain ⟨events, stepped, fifos⟩ := call_cases subcribed
  obtain ⟨here, record⟩ := Bus.lookup_eq_some.mp found
  have formed := created.inside.formed
  refine ⟨⟨formed.next stepped, ?_⟩, ?_⟩
  · obtain ⟨topic', top', found', same⟩ := created.state member
    obtain ⟨rfl, rfl⟩ := Prod.mk.inj (Option.some.inj (found.symm.trans found'))
    obtain ⟨none, -, -⟩ | ⟨number, own, acc, lookup, -, -, bus⟩ := subcribe_cases stepped
    · rw [here] at none
      cases none
    · obtain ⟨rfl, rfl⟩ := Prod.mk.inj (Option.some.inj (found.symm.trans lookup))
      refine ⟨top.push accounter (sub.subcriber acc), sub.port, ?_, same, ?_, fifo⟩
      · rw [bus, formed.lookup_setTopic found, if_pos rfl]
      · show ((top.subcribers ++ [_]).map Subcriber.port)[top.subcribers.length]? = _
        rw [List.getElem?_map, List.getElem?_concat_length]
        rfl
  · have empty : s.fifos ⟨topic, top.subcribers.length⟩ = [] := by
      by_contra held
      obtain ⟨own, record', within⟩ := created.inside.owned _ held
      obtain rfl := Option.some.inj (record.symm.trans record')
      exact absurd within (lt_irrefl _)
    rw [fifos, empty, pushed_other formed stepped (fun _ _ other => by cases other)]
    rfl

/-- **The records arrive whole exactly if there are none.** -/
theorem whole_iff {sems : Address → ℕ} {before : List Op} {cb22 : Address}
    {early late : List Input} {s s₁ s₂ : Port} {outs outs' : List (Pointer × List UInt8)}
    (setup : port.RunOn Allowed (.initial sems)
      ((before ++ chassisPortInit cb22).map .op ++ early) outs s)
    {accounter : CString} {sub : SubcribeCfg} (fifo : sub.fifo.isSome = true) {topic : ℕ}
    {top : Topic} (found : s.bus.lookup stateName = some (topic, top))
    (subcribed : s.call (.subcribe stateName accounter sub) = some s₁)
    (run : port.RunOn Allowed s₁ late outs' s₂) :
    Whole ⟨topic, top.subcribers.length⟩ (published late) outs' s₂ ↔ published late = [] := by
  have created : Created ((before ++ chassisPortInit cb22).map .op ++ early) s :=
    setup.history Created (fun _ _ _ _ _ allowed created step => created.next allowed step) []
      ⟨.initial sems, fun member => absurd member List.not_mem_nil⟩
  have member : .op (.topicCreate stateName cfg) ∈
      (before ++ chassisPortInit cb22).map Input.op ++ early :=
    List.mem_append_left _
      (List.mem_map_of_mem (List.mem_append_right _ (by simp [chassisPortInit])))
  obtain ⟨kept, empty⟩ := created.subcribe member fifo found subcribed
  have balanced := balance kept run
  rw [empty, List.nil_append] at balanced
  refine ⟨fun whole => ?_, fun none => ?_⟩
  · have length := congrArg List.length balanced
    rw [whole.length, taken_length] at length
    refine List.length_eq_zero_iff.mp ?_
    unfold chassisStateSize chassisCtrlSize at length
    omega
  · rw [none] at balanced ⊢
    obtain ⟨gone, left⟩ := List.append_eq_nil_iff.mp balanced
    refine ⟨?_, by rw [left]; simp⟩
    rw [List.take_nil]
    refine List.eq_nil_iff_forall_not_mem.mpr fun bytes given => ?_
    have blank : bytes = [] := List.flatten_eq_nil_iff.mp gone bytes given
    obtain ⟨out, kept, rfl⟩ := List.mem_map.mp given
    exact (of_decide_eq_true (List.mem_filter.mp kept).2).2 blank

/-! ### One record -/

/-- A chassis that has not moved. -/
def standing : Data FloatBytes :=
  let zero : FloatBytes := Vector.replicate 4 0
  ⟨⟨zero, zero, zero⟩, ⟨zero, zero, zero⟩⟩

/-- A subscription with a fifo and no callback. -/
def stateCfg : SubcribeCfg := ⟨some 7, none, 0, none⟩

/-- After the set-up, a subscriber reads after one publish. -/
theorem standing_run : ∃ outs s topic top s₁ outs' s₂,
    port.RunOn Allowed (.initial fun _ => 0) (([] ++ chassisPortInit 22).map .op ++ []) outs s ∧
      s.bus.lookup stateName = some (topic, top) ∧
      s.call (.subcribe stateName accxName stateCfg) = some s₁ ∧
      port.RunOn Allowed s₁ [.handle standing, .read ⟨topic, top.subcribers.length⟩] outs' s₂ ∧
      reads ⟨topic, top.subcribers.length⟩ outs' =
        [(ChassisState.ofPresent standing).bytes.take chassisCtrlSize] := by
  obtain ⟨outs, s, setup, checked⟩ := Machine.exists_run port Allowed (.initial fun _ => 0)
    (([] ++ chassisPortInit 22).map .op ++ [])
    (fun s _ => (s.bus.lookup stateName).any fun found =>
      (s.call (.subcribe stateName accxName stateCfg)).any fun s₁ =>
        (port.exec Allowed s₁
          [.handle standing, .read ⟨found.1, found.2.subcribers.length⟩]).any fun last =>
            decide (reads ⟨found.1, found.2.subcribers.length⟩ last.2 =
              [(ChassisState.ofPresent standing).bytes.take chassisCtrlSize])) (by decide +kernel)
  obtain ⟨⟨topic, top⟩, found, checked⟩ := (Option.any_eq_true _ _).mp checked
  obtain ⟨s₁, subcribed, checked⟩ := (Option.any_eq_true _ _).mp checked
  obtain ⟨⟨s₂, outs'⟩, run, checked⟩ := (Option.any_eq_true _ _).mp checked
  exact ⟨outs, s, topic, top, s₁, outs', s₂, setup, found, subcribed,
    Machine.runOn_iff_exec.mpr run, of_decide_eq_true checked⟩

/-- The condition of the exact statement, at that run. -/
theorem whole_iff_standing : ∃ (topic : ℕ) (top : Topic)
    (outs' : List (Pointer × List UInt8)) (s₂ : Port),
    (Whole ⟨topic, top.subcribers.length⟩ [.ofPresent standing] outs' s₂ ↔
      [ChassisState.ofPresent standing] = []) ∧
    reads ⟨topic, top.subcribers.length⟩ outs' ≠ [] := by
  obtain ⟨outs, s, topic, top, s₁, outs', s₂, setup, found, subcribed, run, got⟩ := standing_run
  refine ⟨topic, top, outs', s₂, whole_iff setup rfl found subcribed run, ?_⟩
  rw [got]
  exact List.cons_ne_nil _ _

/-- **One record that is cut.** The subscriber reads sixteen bytes of the twenty-four. -/
theorem state_cut : ∃ outs s topic top s₁ outs' s₂,
    port.RunOn Allowed (.initial fun _ => 0) (([] ++ chassisPortInit 22).map .op ++ []) outs s ∧
      s.bus.lookup stateName = some (topic, top) ∧
      s.call (.subcribe stateName accxName stateCfg) = some s₁ ∧
      port.RunOn Allowed s₁ [.handle standing, .read ⟨topic, top.subcribers.length⟩] outs' s₂ ∧
      ¬ Whole ⟨topic, top.subcribers.length⟩ [.ofPresent standing] outs' s₂ := by
  obtain ⟨outs, s, topic, top, s₁, outs', s₂, setup, found, subcribed, run, got⟩ := standing_run
  refine ⟨outs, s, topic, top, s₁, outs', s₂, setup, found, subcribed, run, fun whole => ?_⟩
  have same := whole.reads
  rw [got] at same
  exact absurd same (by decide +kernel)

end Robocon.Chassis
