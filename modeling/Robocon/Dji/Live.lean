/-
**When the group frames are written.**

A motor is live while the counter of its record is `0xff`. The two copies of the gate are lists of
conditions, one for each macro.

* `highGate_iff`, `lowGate_iff` — what the lists say: the first is the conjunction over the enabled
  motors of the group, the second joins its first condition by `||`.
* `Agrees` — the condition on a step: on a torque call in the low group, `M2006_ID1_CAN1` is live
  exactly if the other enabled motors of the group are.
* `written_live_iff` — exactly in the runs of such steps, every group frame is written while all
  enabled motors of the group are live.
-/

import Robocon.Dji.GroupFrames

namespace Robocon.Dji

open Lib

/-! ### The gates -/

section Gates

variable {cfg : Config} {s : State}

/-- The motor is not enabled, or it is live. -/
def Live (cfg : Config) (s : State) (motor : Macro) : Prop :=
  cfg.enabled motor → (s.djMotors motor.slot).msgCnt = 0xff

instance (cfg : Config) (s : State) (motor : Macro) : Decidable (Live cfg s motor) :=
  inferInstanceAs (Decidable (_ → _))

theorem fresh_iff (motor : Macro) : cfg.fresh s motor = true ↔ Live cfg s motor := by
  rw [Config.fresh, Bool.or_eq_true, beq_iff_eq, Bool.not_eq_true', ← Bool.not_eq_true,
    ← imp_iff_not_or]
  rfl

/-- `M2006_ID1_CAN1`, whose condition stands first in the low group. -/
def firstLow : Macro := ⟨.m2006, .can1, 0⟩

theorem mem_highGroup (motor : Macro) :
    motor ∈ group .m2006 .can1 4 ++ group .m2006 .can2 4 ++ group .m3508 .can1 4 ++
      group .m3508 .can2 4 ↔ 4 ≤ motor.slot.num := by
  revert motor
  decide

theorem mem_lowGroup (motor : Macro) :
    motor ∈ (group .m2006 .can1 0).tail ++ group .m2006 .can2 0 ++ group .m3508 .can1 0 ++
      group .m3508 .can2 0 ↔ motor ≠ firstLow ∧ ¬ 4 ≤ motor.slot.num := by
  revert motor
  decide

/-- The gate of the high group is the conjunction. -/
theorem highGate_iff :
    cfg.highGate s = true ↔ ∀ motor : Macro, 4 ≤ motor.slot.num → Live cfg s motor := by
  rw [Config.highGate, List.all_eq_true]
  refine forall_congr' fun motor => ?_
  rw [mem_highGroup, fresh_iff]

/-- The other motors of the low group are live. -/
def OthersLive (cfg : Config) (s : State) : Prop :=
  ∀ motor : Macro, motor ≠ firstLow → ¬ 4 ≤ motor.slot.num → Live cfg s motor

instance (cfg : Config) (s : State) : Decidable (OthersLive cfg s) :=
  inferInstanceAs (Decidable (∀ motor : Macro, motor ≠ firstLow → ¬ 4 ≤ motor.slot.num → _))

/-- The gate of the low group opens for its first motor alone. -/
theorem lowGate_iff :
    cfg.lowGate s = true ↔
      cfg.enabled firstLow ∧ (s.djMotors firstLow.slot).msgCnt = 0xff ∨ OthersLive cfg s := by
  have others : ((group .m2006 .can1 0).tail ++ group .m2006 .can2 0 ++ group .m3508 .can1 0 ++
      group .m3508 .can2 0).all (cfg.fresh s) = true ↔ OthersLive cfg s := by
    rw [List.all_eq_true]
    refine forall_congr' fun motor => ?_
    rw [mem_lowGroup, fresh_iff, and_imp]
  rw [Config.lowGate, Bool.or_eq_true, Bool.and_eq_true, beq_iff_eq, others]
  rfl

/-- All enabled motors with a CAN id in the range are live. -/
def AllLive (cfg : Config) (s : State) (first last : ℕ) : Prop :=
  ∀ motor, cfg.enabled motor → first ≤ motor.slot.canId → motor.slot.canId ≤ last →
    (s.djMotors motor.slot).msgCnt = 0xff

theorem allLive_high :
    AllLive cfg s 0x205 0x208 ↔ ∀ motor : Macro, 4 ≤ motor.slot.num → Live cfg s motor := by
  refine forall_congr' fun motor => ?_
  have numbered : 0x205 ≤ motor.slot.canId ↔ 4 ≤ motor.slot.num := by
    unfold Slot.canId canMotor1Id
    rw [Fin.le_def]
    show 0x205 ≤ 0x201 + motor.slot.num.val ↔ 4 ≤ motor.slot.num.val
    omega
  have bound : motor.slot.canId ≤ 0x208 := by
    unfold Slot.canId canMotor1Id
    omega
  rw [numbered]
  exact ⟨fun live high enabled => live enabled high bound,
    fun live enabled high _ => live high enabled⟩

theorem allLive_low :
    AllLive cfg s 0x201 0x204 ↔ Live cfg s firstLow ∧ OthersLive cfg s := by
  have numbered (motor : Macro) : motor.slot.canId ≤ 0x204 ↔ ¬ 4 ≤ motor.slot.num := by
    unfold Slot.canId canMotor1Id
    rw [Fin.le_def]
    show 0x201 + motor.slot.num.val ≤ 0x204 ↔ ¬ 4 ≤ motor.slot.num.val
    omega
  have bound (motor : Macro) : 0x201 ≤ motor.slot.canId := Nat.le_add_right _ _
  refine ⟨fun live => ⟨fun enabled => ?_, fun motor _ low enabled => ?_⟩, ?_⟩
  · exact live firstLow enabled (bound firstLow) ((numbered firstLow).mpr (by decide))
  · exact live motor enabled (bound motor) ((numbered motor).mpr low)
  · rintro ⟨first, others⟩ motor enabled - low
    by_cases same : motor = firstLow
    · rw [same]
      rw [same] at enabled
      exact first enabled
    · exact others motor same ((numbered motor).mp low) enabled

end Gates

/-! ### Runs of the driver -/

section Run

variable {K : Type} [Field K] [LinearOrder K] [FloorRing K] {cfg : Config}

/-- What the step writes is a frame of a group whose enabled motors are live. -/
def WritesLive (cfg : Config) (s : State) (input : Input K) : Prop :=
  ∀ s' events, (driver cfg).step s input = some (s', events) →
    ∀ device msg, .write device msg ∈ events →
      (msg.id = 0x200 → AllLive cfg s 0x201 0x204) ∧ (msg.id = 0x1FF → AllLive cfg s 0x205 0x208)

/-- **The condition on a step.** On a torque call in the low group, an enabled `M2006_ID1_CAN1` is
live exactly if the other enabled motors of the group are. -/
def Agrees (cfg : Config) (s : State) : Input K → Prop
  | .drive motor .torque _ _ => ¬ 4 ≤ motor.slot.num → cfg.enabled firstLow →
      ((s.djMotors firstLow.slot).msgCnt = 0xff ↔ OthersLive cfg s)
  | _ => True

instance (cfg : Config) (s : State) : (input : Input K) → Decidable (Agrees cfg s input)
  | .drive _ .torque _ _ => inferInstanceAs (Decidable (_ → _ → _))
  | .drive _ .invalid _ _ => .isTrue trivial
  | .frame _ => .isTrue trivial

omit [Field K] [LinearOrder K] [FloorRing K] in
/-- The gate of the low group is the conjunction exactly if its first motor agrees with the
others. -/
theorem lowGate_allLive_iff {s : State} :
    (cfg.lowGate s = true → AllLive cfg s 0x201 0x204) ↔
      (cfg.enabled firstLow → ((s.djMotors firstLow.slot).msgCnt = 0xff ↔ OthersLive cfg s)) := by
  rw [lowGate_iff, allLive_low]
  unfold Live
  tauto

/-- **One step** writes live exactly if it agrees. -/
theorem writesLive_iff {s s' : State} {input : Input K} {events : List Event}
    (step : (driver cfg).step s input = some (s', events)) :
    WritesLive cfg s input ↔ Agrees cfg s input := by
  have fixed : WritesLive cfg s input ↔ ∀ device msg, .write device msg ∈ events →
      (msg.id = 0x200 → AllLive cfg s 0x201 0x204) ∧
        (msg.id = 0x1FF → AllLive cfg s 0x205 0x208) := Machine.forall_step_iff step
  rw [fixed]
  cases input with
  | frame msg =>
    obtain ⟨_, _, -, -, -, rfl⟩ := callback_cases step
    refine iff_of_true (fun device other member => ?_) trivial
    rcases List.mem_pair.mp member with no | no <;> cases no
  | drive motor mode value written =>
    obtain ⟨tmpout, -, ⟨rfl, drives⟩ | ⟨rfl, -, rfl⟩⟩ := drive_cases step
    · rw [drives_events drives]
      have one : (0x200 : ℕ) ≠ 0x1FF := by decide
      by_cases high : 4 ≤ motor.slot.num
      · refine iff_of_true (fun device msg member => ?_) fun low => absurd high low
        split at member
        case isTrue gate =>
          obtain ⟨-, rfl⟩ := Event.write.inj (List.mem_singleton.mp member)
          rw [State.groupMsg_id, groupId, if_pos high]
          rw [Config.gate, if_pos high, highGate_iff] at gate
          exact ⟨fun id => absurd id.symm one, fun _ => allLive_high.mpr gate⟩
        case isFalse => cases member
      · have reduced : Agrees cfg s (.drive motor .torque value written) ↔
            (cfg.enabled firstLow →
              ((s.djMotors firstLow.slot).msgCnt = 0xff ↔ OthersLive cfg s)) :=
          ⟨fun agrees => agrees high, fun agrees _ => agrees⟩
        rw [reduced, ← lowGate_allLive_iff, Config.gate, if_neg high]
        refine ⟨fun live gate => ?_, fun live device msg member => ?_⟩
        · rw [if_pos gate] at live
          refine (live _ _ (List.mem_singleton_self _)).1 ?_
          rw [State.groupMsg_id, groupId, if_neg high]
          rfl
        · split at member
          case isTrue gate =>
            obtain ⟨-, rfl⟩ := Event.write.inj (List.mem_singleton.mp member)
            rw [State.groupMsg_id, groupId, if_neg high]
            exact ⟨fun _ => live gate, fun id => absurd id one⟩
          case isFalse => cases member
    · exact iff_of_true (fun device msg member => by cases member) trivial

/-- **No torque before the group is live**: exactly in the runs whose steps all agree. -/
theorem written_live_iff {inputs : List (Input K)} {outs : List Event} {s : State} :
    (driver cfg).RunOn (WritesLive cfg) State.initial inputs outs s ↔
      (driver cfg).RunOn (Agrees cfg) State.initial inputs outs s :=
  Machine.RunOn.guard_iff fun _ _ _ _ step => writesLive_iff step

end Run

/-! ### Three motors -/

/-- The configuration with the motors `M3508_ID1_CAN1`, `M2006_ID1_CAN1` and `M2006_ID2_CAN1`. -/
def twins : Config where
  enabled motor :=
    motor = ⟨.m3508, .can1, 0⟩ ∨ motor = ⟨.m2006, .can1, 0⟩ ∨ motor = ⟨.m2006, .can1, 1⟩

/-- A torque call for the first motor. -/
def earlyCall : Input ℚ := .drive ⟨.m2006, .can1, 0⟩ .torque 100 true

/-- **A torque without feedback.** The first motor is live and the second has sent no frame when the
frame of their group is written. -/
theorem written_early :
    twins.Compiles ∧ (∀ motor, twins.enabled motor → motor.slot.bus = .can1) ∧
      ∃ outs s, (driver twins).Run State.initial (warmUp 0x201) outs s ∧
        ¬ WritesLive twins s earlyCall := by
  refine ⟨by decide, by decide, ?_⟩
  obtain ⟨outs, s, run, checked⟩ := Machine.exists_run (driver twins) (fun _ _ => True)
    State.initial (warmUp 0x201) (fun s _ => (s.djMotors ⟨.can1, 1⟩).msgCnt = 0 ∧
      ((driver twins).step s earlyCall).any
        (fun next => next.2 = [.write canDev (groupMsg canMotorAllId #v[100, 0, 0, 0])]))
    (by decide +kernel)
  obtain ⟨silent, sent⟩ := of_decide_eq_true checked
  obtain ⟨⟨s', events⟩, step, frame⟩ := (Option.any_eq_true _ _).mp sent
  obtain rfl : events = [.write canDev (groupMsg canMotorAllId #v[100, 0, 0, 0])] :=
    of_decide_eq_true frame
  refine ⟨outs, s, run, fun live => ?_⟩
  have all := (live s' _ step _ _ (List.mem_singleton_self _)).1 rfl
  have fresh := all ⟨.m2006, .can1, 1⟩ rfl (by decide) (by decide)
  exact absurd (silent.symm.trans fresh) (by decide)

end Robocon.Dji
