/-
**The calibration of the records.**

After power-on a record counts fifty frames and takes the angle of the last of them as its offset.

* `Calibrated` — a record whose counter has reached fifty has the offset of its fiftieth frame.
* `Calm` — the condition on a step: a write of the low group fails only when no record is still
  counting, since the loop after the failed write sets the counter of every record to fifty.
* `calibrated_reachable` — in every run of calm steps, every state is calibrated. A step that is not
  calm skips the calibration of a record that is found (`skipped_calibration`).
-/

import Robocon.Dji.GroupFrames
import Robocon.Dji.NonInterference

namespace Robocon.Dji

open Lib

/-! ### One record -/

section Record

variable {m m' : Measure} {angle : UInt16}

/-- What a record knows of the angles of its frames; only one that is found counts them. -/
inductive Counts (found : Prop) (angles : List UInt16) (m : Measure) : Prop
  | counting (short : m.msgCnt < 50) (counted : found → angles.length = m.msgCnt.toNat)
  | calibrated (long : ¬ m.msgCnt < 50) (fixed : angles[49]? = some m.offsetAngle)

theorem Counts.receive {found : Prop} {angles : List UInt16} (counts : Counts found angles m)
    (here : found) (received : m.receive angle = some m') :
    Counts found (angles ++ [angle]) m' := by
  cases counts with
  | counting short counted =>
    have length : angles.length = m.msgCnt.toNat := counted here
    have bound : m.msgCnt.toNat < 50 := UInt8.lt_iff_toNat_lt.mp short
    have next : (m.msgCnt + 1).toNat = m.msgCnt.toNat + 1 := by
      rw [UInt8.toNat_add]
      exact Nat.mod_eq_of_lt (lt_of_le_of_lt bound (by decide))
    rw [receive_counting short received]
    by_cases more : m.msgCnt + 1 < 50
    · refine .counting more fun _ => ?_
      show (angles ++ [angle]).length = (m.msgCnt + 1).toNat
      rw [List.length_append, List.length_singleton, length, next]
    · have last : angles.length = 49 := by
        rw [UInt8.lt_iff_toNat_lt, next] at more
        have fifty : (50 : UInt8).toNat = 50 := rfl
        omega
      refine .calibrated more ?_
      rw [← last]
      exact List.getElem?_concat_length
  | calibrated long fixed =>
    obtain ⟨roundCnt, -, rfl⟩ := receive_counted long received
    refine .calibrated ?_ ?_
    · show ¬ (0xff : UInt8) < 50
      decide
    · exact getElem?_append_some fixed

theorem Counts.skip {found : Prop} {angles : List UInt16} (counts : Counts found angles m)
    {others : List UInt16} (none : found → others = []) : Counts found (angles ++ others) m := by
  cases counts with
  | counting short counted =>
    refine .counting short fun here => ?_
    rw [none here, List.append_nil]
    exact counted here
  | calibrated long fixed => exact .calibrated long (getElem?_append_some fixed)

end Record

/-! ### Runs of the driver -/

section Run

variable {K : Type} [Field K] [LinearOrder K] [FloorRing K] {cfg : Config}

/-- A record whose counter has reached fifty has received fifty frames, and its offset is the angle
of the fiftieth. -/
def Calibrated (cfg : Config) (past : List (Input K)) (s : State) : Prop :=
  ∀ slot ∈ cfg.djSlots, 50 ≤ (s.djMotors slot).msgCnt →
    (past.flatMap (Input.angles slot.canId))[49]? = some (s.djMotors slot).offsetAngle

/-- **The condition on a step.** A frame of the low group fails to be written only when no record is
still counting. -/
def Calm (cfg : Config) (s : State) : Input K → Prop
  | .drive motor .torque _ false => ¬ 4 ≤ motor.slot.num → cfg.lowGate s →
      ∀ slot ∈ cfg.djSlots, 50 ≤ (s.djMotors slot).msgCnt
  | _ => True

instance (cfg : Config) (s : State) : (input : Input K) → Decidable (Calm cfg s input)
  | .drive _ .torque _ false => inferInstanceAs (Decidable (_ → _ → _))
  | .drive _ .torque _ true => .isTrue trivial
  | .drive _ .invalid _ _ => .isTrue trivial
  | .frame _ => .isTrue trivial

/-- Every record counts its frames. -/
def Counting (cfg : Config) (past : List (Input K)) (s : State) : Prop :=
  ∀ slot ∈ cfg.djSlots,
    Counts (cfg.found slot) (past.flatMap (Input.angles slot.canId)) (s.djMotors slot)

omit [Field K] [LinearOrder K] [FloorRing K] in
theorem Counting.calibrated {past : List (Input K)} {s : State} (counting : Counting cfg past s) :
    Calibrated cfg past s := by
  intro slot member reached
  cases counting slot member with
  | counting short => exact absurd short (UInt8.not_lt.mpr reached)
  | calibrated _ fixed => exact fixed

omit [Field K] [LinearOrder K] [FloorRing K] in
/-- **One frame, seen from a record.** It is received if the record is found for its CAN id, and
changes nothing otherwise. -/
theorem frame_record {s s' : State} {msg : CanMsg} {events : List Event}
    (step : callback cfg s msg = some (s', events)) (slot : Slot) :
    cfg.found slot ∧ (Input.frame msg : Input K).angles slot.canId = [msg.angle] ∧
        (s.djMotors slot).receive msg.angle = some (s'.djMotors slot) ∨
      (cfg.found slot → (Input.frame msg : Input K).angles slot.canId = []) ∧
        s'.djMotors slot = s.djMotors slot := by
  obtain ⟨slot', measure, found, received, rfl, -⟩ := callback_cases step
  have canId := motorGetByCanid_canId found
  by_cases same : slot = slot'
  · subst same
    refine Or.inl ⟨?_, if_pos canId.symm, ?_⟩
    · rw [Config.found, canId]
      exact decide_eq_true found
    · rw [received, s.setRecord_self]
  · refine Or.inr ⟨fun here => if_neg fun id => same ?_, s.setRecord_of_ne measure same⟩
    have here : cfg.motorGetByCanid slot.canId = some (some slot) := of_decide_eq_true here
    rw [← id, found] at here
    exact (Option.some.inj (Option.some.inj here)).symm

/-- **One step.** Every record goes on counting. -/
theorem Counting.next {past : List (Input K)} {s s' : State} {input : Input K}
    {events : List Event} (counting : Counting cfg past s) (calm : Calm cfg s input)
    (step : (driver cfg).step s input = some (s', events)) :
    Counting cfg (past ++ [input]) s' := by
  intro slot member
  have counts := counting slot member
  rw [List.flatMap_append, List.flatMap_singleton]
  cases input with
  | frame msg =>
    rcases frame_record (K := K) step slot with ⟨found, angles, received⟩ | ⟨none, same⟩
    · rw [angles]
      exact counts.receive found received
    · rw [same]
      exact counts.skip none
  | drive motor mode value written =>
    rw [Input.angles, List.append_nil]
    obtain ⟨tmpout, -, ⟨rfl, drives⟩ | ⟨-, rfl, -⟩⟩ := drive_cases step
    · rw [drives_djMotors drives]
      by_cases failed : ¬ 4 ≤ motor.slot.num ∧ cfg.lowGate s ∧ written = false
      · obtain ⟨low, gate, rfl⟩ := failed
        rw [if_pos ⟨low, gate, rfl⟩]
        have reached := calm low gate slot member
        cases counts with
        | counting short => exact absurd short (UInt8.not_lt.mpr reached)
        | calibrated _ fixed =>
          have fifty : ¬ (50 : UInt8) < 50 := by decide
          exact .calibrated fifty fixed
      · rw [if_neg failed]
        exact counts
    · exact counts

theorem counting_reachable {inputs : List (Input K)} {outs : List Event} {s : State}
    (run : (driver cfg).RunOn (Calm cfg) State.initial inputs outs s) :
    Counting cfg inputs s :=
  run.history (Counting cfg) (fun _ _ _ _ _ calm counting step => counting.next calm step) []
    fun _ _ => .counting (show (0 : UInt8) < 50 by decide) fun _ => rfl

/-- **The calibration is never skipped** in a run of calm steps. -/
theorem calibrated_reachable {inputs : List (Input K)} {outs : List Event} {s : State}
    (run : (driver cfg).RunOn (Calm cfg) State.initial inputs outs s) :
    Calibrated cfg inputs s :=
  (counting_reachable run).calibrated

/-- **A step that is not calm** skips the calibration of every record that is found and still
counting. -/
theorem skipped_calibration {inputs : List (Input K)} {outs : List Event} {s s' : State}
    (run : (driver cfg).RunOn (Calm cfg) State.initial inputs outs s) {motor : Macro} {value : K}
    {events : List Event} (low : ¬ 4 ≤ motor.slot.num) (gate : cfg.lowGate s)
    (step : motorDjDriver cfg s motor .torque value false = some (s', events))
    {slot : Slot} (member : slot ∈ cfg.djSlots) (found : cfg.found slot)
    (short : (s.djMotors slot).msgCnt < 50) :
    ¬ Calibrated cfg (inputs ++ [.drive motor .torque value false]) s' := by
  obtain ⟨tmpout, -, ⟨-, drives⟩ | ⟨other, -⟩⟩ := drive_cases step
  · have records : s'.djMotors = s.outdate.djMotors := by
      rw [drives_djMotors drives, if_pos ⟨low, gate, rfl⟩]
    intro calibrated
    have reached : 50 ≤ (s'.djMotors slot).msgCnt := by
      rw [records]
      exact UInt8.le_refl 50
    have fixed := calibrated slot member reached
    rw [List.flatMap_append, List.flatMap_singleton, Input.angles, List.append_nil] at fixed
    obtain ⟨long, -⟩ := List.getElem?_eq_some_iff.mp fixed
    cases counting_reachable run slot member with
    | counting _ counted =>
      have few : (s.djMotors slot).msgCnt.toNat < 50 := UInt8.lt_iff_toNat_lt.mp short
      rw [counted found] at long
      omega
    | calibrated long => exact long short
  · cases other

end Run

/-! ### Two motors -/

/-- A frame of the low group that is not written. -/
def failedCall : Input ℚ := .drive ⟨.m3508, .can1, 0⟩ .torque 0 false

/-- The write fails after both motors are calibrated. -/
theorem calibrated_reachable_late :
    ∃ outs s, (driver apart).RunOn (Calm apart) State.initial
        (warmUp 0x201 ++ warmUp 0x205 ++ [failedCall]) outs s ∧
      Calibrated apart (warmUp 0x201 ++ warmUp 0x205 ++ [failedCall]) s := by
  obtain ⟨outs, s, run, -⟩ := Machine.exists_run (driver apart) (Calm apart) State.initial
    (warmUp 0x201 ++ warmUp 0x205 ++ [failedCall]) (fun _ _ => true) (by decide +kernel)
  exact ⟨outs, s, run, calibrated_reachable run⟩

/-- **A calibration is skipped.** The write fails for the first motor before the second has sent a
frame; the counter of the second is then fifty. -/
theorem calibration_skipped :
    ∃ outs s, (driver apart).Run State.initial (warmUp 0x201 ++ [failedCall]) outs s ∧
      ¬ Calibrated apart (warmUp 0x201 ++ [failedCall]) s := by
  obtain ⟨outs, s, run, checked⟩ := Machine.exists_run (driver apart) (fun _ _ => True)
    State.initial (warmUp 0x201 ++ [failedCall])
    (fun s _ => (s.djMotors ⟨.can1, 4⟩).msgCnt = 50) (by decide +kernel)
  have counter : (s.djMotors ⟨.can1, 4⟩).msgCnt = 50 := of_decide_eq_true checked
  refine ⟨outs, s, run, fun calibrated => ?_⟩
  have member : ⟨.can1, 4⟩ ∈ apart.djSlots := by decide
  have fixed := calibrated ⟨.can1, 4⟩ member (UInt8.le_of_eq counter.symm)
  have silent : (warmUp 0x201 ++ [failedCall]).flatMap
      (Input.angles (Slot.canId ⟨.can1, 4⟩)) = [] := by
    decide +kernel
  rw [silent] at fixed
  cases fixed

end Robocon.Dji
