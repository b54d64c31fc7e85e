/-
**Interference between motors.**

Two runs are compared whose inputs differ only in the values passed for a motor `A`
(`SameBut`). Every frame goes to `can1`, and a slot of a frame is chosen by the CAN id alone, so
the values for `A` travel in the slot of CAN1 with `A`'s number: the wrong one if `A` is on CAN2.

* `Related` — the relation between the two runs: equal records, and equal slots but for `A`'s.
* `run_related` — the two-run rule, applied to it.
* `independent_iff` — the runs differ only where they may if and only if `A` is on CAN1 and does
  not share its record, or no run opens the gate of `A`'s group. Which gates can open is decided by
  the search for the CAN id alone (`gate_calibrated`).
-/

import Robocon.Dji.Slots
import Robocon.Dji.TotalAngle

namespace Robocon.Dji

open Lib

/-! ### Which gates can open -/

section Gates

variable {K : Type} [Field K] [LinearOrder K] [FloorRing K] {cfg : Config}

/-- The record is the one found for its CAN id, so that it receives frames. -/
def Config.found (cfg : Config) (slot : Slot) : Bool :=
  cfg.motorGetByCanid slot.canId = some (some slot)

/-- A record after a calibration at rest and one more frame. -/
def Measure.ready : Measure := ⟨0, 0xff, 0, 0, 0, 0⟩

/-- The driver after a calibration of some records. -/
def State.calibrated (records : Finset Slot) : State where
  djMotors slot := if slot ∈ records then Measure.ready else Measure.initial
  iq1Low := State.initial.iq1Low
  iq1High := State.initial.iq1High

theorem State.calibrated_djMotors (records : Finset Slot) (slot : Slot) :
    (State.calibrated records).djMotors slot =
      if slot ∈ records then Measure.ready else Measure.initial := rfl

/-- The driver after a calibration of every record that receives frames. -/
def State.warm (cfg : Config) : State := State.calibrated {slot | cfg.found slot = true}

theorem gate_congr {s s' : State} (same : s.djMotors = s'.djMotors) (num : Fin 8) :
    cfg.gate s num = cfg.gate s' num := by
  unfold Config.gate Config.highGate Config.lowGate Config.fresh
  rw [same]

/-- A gate is open whenever more records are fresh. -/
theorem gate_mono {s s' : State}
    (fresher : ∀ slot, (s.djMotors slot).msgCnt = 0xff → (s'.djMotors slot).msgCnt = 0xff)
    {num : Fin 8} (gate : cfg.gate s num = true) : cfg.gate s' num = true := by
  have fresh (motor : Macro) (before : cfg.fresh s motor = true) : cfg.fresh s' motor = true := by
    rw [Config.fresh, Bool.or_eq_true, beq_iff_eq] at before ⊢
    exact before.imp_right (fresher motor.slot)
  have all {motors : List Macro} (before : motors.all (cfg.fresh s) = true) :
      motors.all (cfg.fresh s') = true := by
    rw [List.all_eq_true] at before ⊢
    exact fun motor member => fresh motor (before motor member)
  unfold Config.gate at gate ⊢
  split at gate
  case isTrue high =>
    rw [if_pos high]
    exact all gate
  case isFalse low =>
    rw [if_neg low]
    rw [Config.lowGate, Bool.or_eq_true, Bool.and_eq_true, beq_iff_eq] at gate ⊢
    exact gate.imp (And.imp_right (fresher ⟨.can1, 0⟩)) all

/-- Only records that receive frames are fresh. -/
def FreshFound (cfg : Config) (s : State) : Prop :=
  ∀ slot, (s.djMotors slot).msgCnt = 0xff → cfg.found slot = true

/-- A gate that is open with such records can be opened by a calibration. -/
theorem FreshFound.gate {s : State} (fresh : FreshFound cfg s) {num : Fin 8}
    (gate : cfg.gate s num = true) : cfg.gate (State.warm cfg) num = true := by
  refine gate_mono (fun slot ready => ?_) gate
  have member : slot ∈ ({slot | cfg.found slot = true} : Finset Slot) :=
    Finset.mem_filter.mpr ⟨Finset.mem_univ slot, fresh slot ready⟩
  rw [State.warm, State.calibrated_djMotors, if_pos member]
  rfl

/-- A step keeps records that receive no frames from being fresh. -/
theorem FreshFound.next {s s' : State} {input : Input K} {events : List Event}
    (fresh : FreshFound cfg s) (step : (driver cfg).step s input = some (s', events)) :
    FreshFound cfg s' := by
  intro slot ready
  cases input with
  | frame msg =>
    obtain ⟨slot', measure, found, -, rfl, -⟩ := callback_cases step
    by_cases same : slot = slot'
    · rw [same, Config.found, decide_eq_true_eq, motorGetByCanid_canId found, found]
    · rw [s.setRecord_of_ne measure same] at ready
      exact fresh slot ready
  | drive motor mode value written =>
    obtain ⟨tmpout, -, ⟨-, drives⟩ | ⟨-, rfl, -⟩⟩ := drive_cases step
    · rw [drives_djMotors drives] at ready
      split at ready
      · exact absurd ready (show (50 : UInt8) ≠ 0xff by decide)
      · exact fresh slot ready
    · exact fresh slot ready

/-! ### The calibration -/

/-- A frame for a record, of a motor at rest. -/
def restFrame (slot : Slot) : Input K := .frame ⟨slot.canId, Vector.replicate 8 0⟩

/-- A record after some frames of a motor at rest. -/
def Measure.rest : ℕ → Measure → Option Measure
  | 0, m => some m
  | count + 1, m => (m.receive 0).bind (rest count)

theorem rest_ready : Measure.rest 51 Measure.initial = some Measure.ready := by decide +kernel

/-- A frame of a motor at rest updates the record that receives it. -/
theorem rest_step {slot : Slot} (found : cfg.found slot = true) {s : State} {m : Measure}
    (received : (s.djMotors slot).receive 0 = some m) :
    ∃ events,
      (driver (K := K) cfg).step s (restFrame slot) = some (s.setRecord slot m, events) := by
  have canId : slot.canId % 2 ^ 16 = slot.canId :=
    Nat.mod_eq_of_lt (by unfold Slot.canId canMotor1Id; omega)
  have found : cfg.motorGetByCanid (slot.canId % 2 ^ 16) = some (some slot) := by
    rw [canId]
    exact of_decide_eq_true found
  have angle : word 0 0 = 0 := by decide
  rw [← angle] at received
  exact callback_received found received

/-- Frames for a record that receives them change that record only. -/
theorem rest_run {slot : Slot} (found : cfg.found slot = true) (count : ℕ) :
    ∀ {s : State} {m : Measure}, Measure.rest count (s.djMotors slot) = some m →
      ∃ outs, (driver (K := K) cfg).Run s (List.replicate count (restFrame slot)) outs
        (s.setRecord slot m) := by
  induction count with
  | zero =>
    intro s m rest
    obtain rfl := Option.some.inj rest
    rw [State.setRecord, Function.update_eq_self]
    exact ⟨[], .nil s⟩
  | succ count ih =>
    intro s m rest
    obtain ⟨first, received, rest⟩ := Option.bind_eq_some_iff.mp rest
    obtain ⟨events, step⟩ := rest_step (K := K) found received
    obtain ⟨outs, run⟩ := ih (s := s.setRecord slot first) (by rwa [s.setRecord_self])
    rw [State.setRecord, State.setRecord, Function.update_idem] at run
    exact ⟨events ++ outs, .cons trivial step run⟩

/-- **A calibration** makes every record fresh that receives frames. -/
theorem calibrated_run (records : Finset Slot) (found : ∀ slot ∈ records, cfg.found slot = true) :
    ∃ inputs outs, (driver (K := K) cfg).Run State.initial inputs outs
      (State.calibrated records) := by
  induction records using Finset.induction_on with
  | empty => exact ⟨[], [], .nil _⟩
  | insert slot records new ih =>
    obtain ⟨inputs, outs, run⟩ := ih fun slot' member =>
      found slot' (Finset.mem_insert_of_mem member)
    have rest :
        Measure.rest 51 ((State.calibrated records).djMotors slot) = some Measure.ready := by
      rw [State.calibrated_djMotors, if_neg new, rest_ready]
    obtain ⟨outs', run'⟩ :=
      rest_run (K := K) (found slot (Finset.mem_insert_self slot records)) 51 rest
    have last : (State.calibrated records).setRecord slot Measure.ready =
        State.calibrated (insert slot records) := by
      unfold State.setRecord State.calibrated
      congr 1
      funext slot'
      rw [Function.update_apply]
      by_cases same : slot' = slot
      · rw [if_pos same, if_pos (same ▸ Finset.mem_insert_self slot records)]
      · rw [if_neg same]
        simp only [Finset.mem_insert, same, false_or]
    rw [last] at run'
    exact ⟨_, _, run.append run'⟩

end Gates

/-! ### Two runs -/

/-- The two bytes that the event sends to a record: those of its number in the frame of its group,
if the frame goes to its bus. -/
def Event.sent (slot : Slot) : Event → Option (UInt8 × UInt8)
  | .write device msg =>
    if device = slot.bus ∧ msg.id = groupId slot.num then some (msg.bytes (place slot.num))
    else none
  | _ => none

/-- The event without the bytes of its frame. -/
def Event.blank : Event → Event
  | .write device msg => .write device { msg with data := Vector.replicate 8 0 }
  | event => event

/-- The events differ at most in the bytes for the record of `A`, and not in those for the record of
`B`. -/
def Unaffected (A B : Macro) (event event' : Event) : Prop :=
  event.blank = event'.blank ∧ (∀ slot, slot ≠ A.slot → event.sent slot = event'.sent slot) ∧
    event.sent B.slot = event'.sent B.slot

section TwoRuns

variable {K : Type} [Field K] [LinearOrder K] [FloorRing K] {cfg : Config} {A B : Macro}

/-- The inputs are the same, up to the value passed for `A`. -/
inductive SameBut (A : Macro) : Input K → Input K → Prop
  | same (input : Input K) : SameBut A input input
  | value (mode : Mode) (value value' : K) (written : Bool) :
      SameBut A (.drive A mode value written) (.drive A mode value' written)

variable (K) in
/-- `A` does not interfere with `B`: the values passed for `A` change only the bytes for `A`. -/
def Independent (cfg : Config) (A B : Macro) : Prop :=
  ∀ (inputs inputs' : List (Input K)) (outs outs' : List Event) (s s' : State),
    List.Forall₂ (SameBut A) inputs inputs' →
    (driver cfg).Run State.initial inputs outs s →
    (driver cfg).Run State.initial inputs' outs' s' → List.Forall₂ (Unaffected A B) outs outs'

/-- Two states that only the values passed for `A` tell apart. -/
structure Related (cfg : Config) (A : Macro) (left right : State) : Prop where
  fresh : FreshFound cfg left
  djMotors : left.djMotors = right.djMotors
  slots : ∀ num, num ≠ A.slot.num → left.slotValue num = right.slotValue num

/-- **The condition.** `A` is on CAN1 and has a record that is not `B`'s, or no calibration opens
the gate of its group. -/
def Separated (cfg : Config) (A B : Macro) : Prop :=
  A.slot.bus = .can1 ∧ A.slot ≠ B.slot ∨ cfg.gate (State.warm cfg) A.slot.num = false

omit [Field K] [LinearOrder K] [FloorRing K] in
theorem sent_groupWrite (s : State) (num : Fin 8) (slot : Slot) :
    (s.groupWrite num).sent slot = if canDev = slot.bus ∧ groupId num = groupId slot.num then
      some (highByte (s.slotValue slot.num), lowByte (s.slotValue slot.num)) else none := by
  rw [State.groupWrite, Event.sent, s.groupMsg_id]
  split
  case isTrue addressed => rw [s.groupMsg_bytes (groupId_eq_iff.mp addressed.2.symm)]
  case isFalse => rfl

theorem blank_groupWrite (s : State) (num : Fin 8) :
    (s.groupWrite num).blank = .write canDev ⟨groupId num, Vector.replicate 8 0⟩ := by
  rw [← s.groupMsg_id]
  rfl

theorem gate_group {s : State} {num num' : Fin 8} (group : groupId num = groupId num') :
    cfg.gate s num = cfg.gate s num' := by
  unfold Config.gate
  simp only [groupId_eq_iff.mp group]

/-- Frames behind an open gate, of slots that only the values for `A` tell apart. -/
theorem unaffected_groupWrite (separated : Separated cfg A B) {next next' : State}
    (slots : ∀ num, num ≠ A.slot.num → next.slotValue num = next'.slotValue num) {num : Fin 8}
    (gate : cfg.gate (State.warm cfg) num = true) :
    Unaffected A B (next.groupWrite num) (next'.groupWrite num) := by
  have sent (slot : Slot) (other : slot ≠ A.slot ∨ slot = B.slot) :
      (next.groupWrite num).sent slot = (next'.groupWrite num).sent slot := by
    rw [sent_groupWrite, sent_groupWrite]
    by_cases addressed : canDev = slot.bus ∧ groupId num = groupId slot.num
    · rw [if_pos addressed, if_pos addressed]
      by_cases same : slot.num = A.slot.num
      · rcases separated with ⟨bus, apart⟩ | closed
        · have own : slot = A.slot := by
            cases slot
            exact congrArg₂ Slot.mk (addressed.1.symm.trans bus.symm) same
          rcases other with other | other
          · exact absurd own other
          · exact absurd (own.symm.trans other) apart
        · rw [gate_group (same ▸ addressed.2), closed] at gate
          cases gate
      · rw [slots slot.num same]
    · rw [if_neg addressed, if_neg addressed]
  refine ⟨?_, fun slot other => sent slot (Or.inl other), sent B.slot (Or.inr rfl)⟩
  rw [blank_groupWrite, blank_groupWrite]

/-- **One torque call, in two states.** -/
theorem Related.drives (separated : Separated cfg A B) {left right next next' : State}
    (related : Related cfg A left right) {motor : Macro} {tmpout tmpout' : Int16} {written : Bool}
    {events events' : List Event} (passed : motor = A ∨ tmpout = tmpout')
    (drives : Drives cfg left motor tmpout written next events)
    (drives' : Drives cfg right motor tmpout' written next' events') (fresh : FreshFound cfg next) :
    Related cfg A next next' ∧ List.Forall₂ (Unaffected A B) events events' := by
  have gates : cfg.gate left = cfg.gate right := funext (gate_congr related.djMotors)
  have low : cfg.lowGate left = cfg.lowGate right := congrFun gates 0
  have slots (num : Fin 8) (other : num ≠ A.slot.num) :
      next.slotValue num = next'.slotValue num := by
    rw [drives_slotValue drives, drives_slotValue drives', related.slots num other]
    unfold Config.stores
    rw [low]
    rcases passed with rfl | same
    · rw [if_neg other, if_neg other]
    · rw [same]
  refine ⟨⟨fresh, ?_, slots⟩, ?_⟩
  · rw [drives_djMotors drives, drives_djMotors drives', low, State.outdate, State.outdate,
      related.djMotors]
  · rw [drives_events drives, drives_events drives', ← gates]
    by_cases gate : cfg.gate left motor.slot.num = true
    · rw [if_pos gate, if_pos gate]
      exact .cons (unaffected_groupWrite separated slots (related.fresh.gate gate)) .nil
    · rw [if_neg gate, if_neg gate]
      exact .nil

theorem Related.drive (separated : Separated cfg A B) {left right next next' : State}
    (related : Related cfg A left right) {motor : Macro} {mode : Mode} {value value' : K}
    {written : Bool} {events events' : List Event} (passed : motor = A ∨ value = value')
    (step : motorDjDriver cfg left motor mode value written = some (next, events))
    (step' : motorDjDriver cfg right motor mode value' written = some (next', events'))
    (fresh : FreshFound cfg next) :
    Related cfg A next next' ∧ List.Forall₂ (Unaffected A B) events events' := by
  obtain ⟨tmpout, converted, called⟩ := drive_cases step
  obtain ⟨tmpout', converted', called'⟩ := drive_cases step'
  have modes : Mode.torque ≠ Mode.invalid := by decide
  rcases called with ⟨torque, drives⟩ | ⟨invalid, rfl, rfl⟩
  · rcases called' with ⟨-, drives'⟩ | ⟨invalid, -⟩
    · refine related.drives separated (passed.imp_right fun same => ?_) drives drives' fresh
      rw [same] at converted
      exact Option.some.inj (converted.symm.trans converted')
    · exact absurd (torque.symm.trans invalid) modes
  · rcases called' with ⟨torque, -⟩ | ⟨-, rfl, rfl⟩
    · exact absurd (torque.symm.trans invalid) modes
    · exact ⟨related, .nil⟩

/-- **One input, in two states.** -/
theorem Related.next (separated : Separated cfg A B) {left right next next' : State}
    {input input' : Input K} {events events' : List Event} (related : Related cfg A left right)
    (same : SameBut A input input') (step : (driver cfg).step left input = some (next, events))
    (step' : (driver cfg).step right input' = some (next', events')) :
    Related cfg A next next' ∧ List.Forall₂ (Unaffected A B) events events' := by
  have fresh := related.fresh.next step
  cases same with
  | value => exact related.drive separated (Or.inl rfl) step step' fresh
  | same =>
    cases input with
    | drive => exact related.drive separated (Or.inr rfl) step step' fresh
    | frame msg =>
      obtain ⟨slot, measure, found, received, rfl, rfl⟩ := callback_cases step
      obtain ⟨slot', measure', found', received', rfl, rfl⟩ := callback_cases step'
      obtain rfl := Option.some.inj (Option.some.inj (found.symm.trans found'))
      rw [related.djMotors, received'] at received
      obtain rfl := Option.some.inj received
      refine ⟨⟨fresh, ?_, related.slots⟩, ?_⟩
      · rw [State.setRecord, State.setRecord, related.djMotors]
      · have unaffected (event : Event) : Unaffected A B event event := ⟨rfl, fun _ _ => rfl, rfl⟩
        exact .cons (unaffected _) (.cons (unaffected _) .nil)

/-- **Two runs** differ only where they may. -/
theorem run_related (separated : Separated cfg A B) : Independent K cfg A B := by
  intro inputs inputs' outs outs' s s' same run run'
  have start : Related cfg A State.initial State.initial :=
    ⟨fun _ ready => absurd ready (show (0 : UInt8) ≠ 0xff by decide), rfl, fun _ _ => rfl⟩
  exact (run.lockstep (Related cfg A) (SameBut A) (Unaffected A B)
    (fun _ _ _ _ _ _ _ _ related same step step' => related.next separated same step step')
    same run' start).2

/-! ### Interference -/

/-- A call that finds its gate open writes its value. -/
theorem drive_open {s : State} {motor : Macro} {value : K} {tmpout : Int16}
    (enabled : cfg.enabled motor = true) (converted : toInt16 value = some tmpout)
    (gate : cfg.gate s motor.slot.num = true) :
    ∃ s', (driver cfg).step s (.drive motor .torque value true) =
        some (s', [s'.groupWrite motor.slot.num]) ∧ s'.slotValue motor.slot.num = tmpout := by
  obtain ⟨s', events, step⟩ : ∃ s' events,
      motorDjDriver cfg s motor .torque value true = some (s', events) := by
    rw [motorDjDriver, if_pos enabled, converted]
    exact ⟨_, _, rfl⟩
  obtain ⟨tmpout', converted', ⟨-, drives⟩ | ⟨other, -⟩⟩ := drive_cases step
  · obtain rfl := Option.some.inj (converted.symm.trans converted')
    have stores : cfg.stores s motor.slot.num = true := by
      unfold Config.gate at gate
      unfold Config.stores
      split at gate
      case isTrue high => rw [decide_eq_true high, Bool.true_or]
      case isFalse => rw [gate, Bool.or_true]
    obtain rfl := (drives_events drives).trans (if_pos gate)
    exact ⟨s', step, by rw [drives_slotValue drives, if_pos stores, if_pos rfl]⟩
  · cases other

/-- **The motors that do not interfere.** -/
theorem independent_iff [IsStrictOrderedRing K] (enabled : cfg.enabled A = true) :
    Independent K cfg A B ↔ Separated cfg A B := by
  refine ⟨fun independent => ?_, run_related⟩
  by_contra interfering
  obtain ⟨shared, gate⟩ := not_or.mp interfering
  have gate : cfg.gate (State.warm cfg) A.slot.num = true := Bool.of_not_eq_false gate
  have found : ∀ slot ∈ ({slot | cfg.found slot = true} : Finset Slot), cfg.found slot = true :=
    fun slot member => (Finset.mem_filter.mp member).2
  obtain ⟨inputs, outs, run⟩ := calibrated_run (K := K) _ found
  have zero : toInt16 (0 : K) = some 0 := by
    unfold toInt16 trunc
    rw [if_pos le_rfl, Int.floor_zero]
    decide
  have one : toInt16 (1 : K) = some 1 := by
    unfold toInt16 trunc
    rw [if_pos zero_le_one, Int.floor_one]
    decide
  obtain ⟨s, step, stored⟩ := drive_open enabled zero gate
  obtain ⟨s', step', stored'⟩ := drive_open enabled one gate
  have same : List.Forall₂ (SameBut A) (inputs ++ [.drive A .torque 0 true])
      (inputs ++ [.drive A .torque 1 true]) :=
    List.rel_append (List.forall₂_same.mpr fun input _ => .same input)
      (.cons (.value .torque 0 1 true) .nil)
  have unaffected := independent _ _ _ _ _ _ same (run.append (.single trivial step))
    (run.append (.single trivial step'))
  have last := List.forall₂_drop_append _ _ _ unaffected
  rw [List.drop_left] at last
  obtain ⟨-, others, own⟩ : Unaffected A B _ _ := (List.forall₂_cons.mp last).1
  have sent : (s.groupWrite A.slot.num).sent ⟨canDev, A.slot.num⟩ =
      (s'.groupWrite A.slot.num).sent ⟨canDev, A.slot.num⟩ := by
    by_cases apart : (⟨canDev, A.slot.num⟩ : Slot) = A.slot
    · have bus : A.slot.bus = .can1 := (congrArg Slot.bus apart).symm
      have both : A.slot = B.slot := not_not.mp fun differ => shared ⟨bus, differ⟩
      rwa [apart.trans both]
    · exact others _ apart
  rw [sent_groupWrite, sent_groupWrite, if_pos ⟨rfl, rfl⟩, if_pos ⟨rfl, rfl⟩, stored,
    stored'] at sent
  have bytes : (highByte 0, lowByte 0) ≠ (highByte 1, lowByte 1) := by decide
  exact bytes (Option.some.inj sent)

end TwoRuns

/-! ### Two buses -/

/-- The configuration with the motors `M3508_ID1_CAN1`, `M2006_ID1_CAN1` and `M3508_ID1_CAN2`. -/
def crossed : Config where
  enabled motor :=
    motor = ⟨.m3508, .can1, 0⟩ ∨ motor = ⟨.m2006, .can1, 0⟩ ∨ motor = ⟨.m3508, .can2, 0⟩

/-- A calibration, and then a call for the motor on CAN2. -/
def crossedInputs (value : ℚ) : List (Input ℚ) :=
  List.replicate 51 (.frame ⟨0x201, Vector.replicate 8 0⟩) ++
    [.drive ⟨.m3508, .can2, 0⟩ .torque value true]

/-- The motor on CAN1 does not interfere with the one on CAN2. -/
theorem independent_crossed :
    Independent ℚ crossed ⟨.m3508, .can1, 0⟩ ⟨.m3508, .can2, 0⟩ ↔
      Separated crossed ⟨.m3508, .can1, 0⟩ ⟨.m3508, .can2, 0⟩ :=
  independent_iff rfl

/-- **The motor on CAN2 drives the one on CAN1.** The frame that carries the value for
`M3508_ID1_CAN2` is `M3508_ID1_CAN1`'s. -/
theorem crossed_interferes :
    crossed.Compiles ∧
      List.Forall₂ (SameBut ⟨.m3508, .can2, 0⟩) (crossedInputs 0) (crossedInputs 100) ∧
      ∃ outs outs' s s', (driver crossed).Run State.initial (crossedInputs 0) outs s ∧
        (driver crossed).Run State.initial (crossedInputs 100) outs' s' ∧
        outs.filterMap (Event.sent ⟨.can1, 0⟩) = [(0, 0)] ∧
        outs'.filterMap (Event.sent ⟨.can1, 0⟩) = [(0, 100)] ∧
        ¬ List.Forall₂ (Unaffected ⟨.m3508, .can2, 0⟩ ⟨.m3508, .can1, 0⟩) outs outs' := by
  obtain ⟨outs, s, run, sent⟩ := Machine.exists_run (driver crossed) (fun _ _ => True)
    State.initial (crossedInputs 0)
    (fun _ outs => outs.filterMap (Event.sent ⟨.can1, 0⟩) = [(0, 0)]) (by decide +kernel)
  obtain ⟨outs', s', run', sent'⟩ := Machine.exists_run (driver crossed) (fun _ _ => True)
    State.initial (crossedInputs 100)
    (fun _ outs => outs.filterMap (Event.sent ⟨.can1, 0⟩) = [(0, 100)]) (by decide +kernel)
  have sent := of_decide_eq_true sent
  have sent' := of_decide_eq_true sent'
  refine ⟨by decide, ?_, outs, outs', s, s', run, run', sent, sent', fun unaffected => ?_⟩
  · exact List.rel_append (List.forall₂_same.mpr fun input _ => .same input)
      (.cons (.value .torque 0 100 true) .nil)
  · have equal := unaffected.imp fun _ _ unaffected => unaffected.2.2
    have equal : outs.map (Event.sent ⟨.can1, 0⟩) = outs'.map (Event.sent ⟨.can1, 0⟩) := by
      rwa [← List.forall₂_eq_eq_eq, List.forall₂_map_left_iff, List.forall₂_map_right_iff]
    have equal := congrArg (List.filterMap id) equal
    rw [List.filterMap_map, List.filterMap_map] at equal
    exact absurd (sent.symm.trans (equal.trans sent')) (by decide)

end Robocon.Dji
