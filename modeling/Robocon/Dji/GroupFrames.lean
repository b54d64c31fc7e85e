/-
**The group frames and the latest commands.**

A frame is right about a motor exactly if the slot of the motor holds its latest value.

* `Stored` — the condition on a step. A call in the high group stores its value at once; one in the
  low group stores it only behind its gate, so a closed gate drops the value. Two motors of one
  number share a slot.
* `slots_latest` — along a run of such steps every slot holds the latest value of its motors, and
  `written_latest` reads the frames off from that.
* `written_stale` — a value that is dropped, and the frame that then tells the motor an older one.
-/

import Robocon.Dji.Slots
import Robocon.Dji.TotalAngle

namespace Robocon.Dji

open Lib

/-! ### The latest values -/

section Latest

variable {K : Type} [Field K] [LinearOrder K] [FloorRing K] {cfg : Config}

/-- The value of a motor after one more input, given the value before it. -/
def Input.passed (motor : Macro) (before : Int16) : Input K → Int16
  | .drive called .torque value _ => if called = motor then (toInt16 value).getD before else before
  | _ => before

/-- The value most recently passed for a motor, `0` if there is none. -/
def latest (motor : Macro) (inputs : List (Input K)) : Int16 :=
  inputs.foldl (fun before input => input.passed motor before) 0

theorem latest_append (motor : Macro) (past : List (Input K)) (input : Input K) :
    latest motor (past ++ [input]) = input.passed motor (latest motor past) := by
  rw [latest, List.foldl_append]
  rfl

/-- The event, if it is a group frame, holds the latest value of every enabled motor that the frame
is for. -/
def CarriesLatest (cfg : Config) (inputs : List (Input K)) : Event → Prop
  | .write _ msg => ∀ motor, cfg.enabled motor →
    msg.id = groupId motor.slot.num → msg.current (place motor.slot.num) = latest motor inputs
  | _ => True

/-! ### Runs -/

/-- **The condition on a step.** A value that is not stored is already in its slot, and so is a
value for a motor that shares its slot with another. -/
def Stored (cfg : Config) (s : State) : Input K → Prop
  | .drive motor .torque value _ =>
    (cfg.stores s motor.slot.num = false ∨
        ∃ other, cfg.enabled other ∧ other ≠ motor ∧ other.slot.num = motor.slot.num) →
      toInt16 value = some (s.slotValue motor.slot.num)
  | _ => True

instance (cfg : Config) (s : State) : (input : Input K) → Decidable (Stored cfg s input)
  | .drive _ .torque _ _ => inferInstanceAs (Decidable (_ → _))
  | .drive _ .invalid _ _ => .isTrue trivial
  | .frame _ => .isTrue trivial

/-- The slots hold the latest values. -/
def Latest (cfg : Config) (past : List (Input K)) (s : State) : Prop :=
  ∀ motor, cfg.enabled motor → s.slotValue motor.slot.num = latest motor past

/-- A group frame of slots that hold the latest values carries them. -/
theorem Latest.carries {past : List (Input K)} {s : State} (held : Latest cfg past s)
    (num : Fin 8) : CarriesLatest cfg past (s.groupWrite num) := by
  intro motor enabled addressed
  rw [s.groupMsg_id num] at addressed
  rw [CanMsg.current, s.groupMsg_bytes (groupId_eq_iff.mp addressed.symm), word_bytes,
    held motor enabled]

/-- **One step.** The slots keep up with the latest values. -/
theorem Latest.next {past : List (Input K)} {s s' : State} {input : Input K}
    {events : List Event} (held : Latest cfg past s) (stored : Stored cfg s input)
    (step : (driver cfg).step s input = some (s', events)) : Latest cfg (past ++ [input]) s' := by
  intro other enabled
  rw [latest_append]
  cases input with
  | frame msg =>
    obtain ⟨_, _, -, -, rfl, -⟩ := callback_cases step
    exact held other enabled
  | drive motor mode value written =>
    obtain ⟨tmpout, converted, ⟨rfl, drives⟩ | ⟨rfl, rfl, -⟩⟩ := drive_cases step
    · have kept (unchanged : cfg.stores s motor.slot.num = false ∨
          ∃ other, cfg.enabled other ∧ other ≠ motor ∧ other.slot.num = motor.slot.num) :
          tmpout = s.slotValue motor.slot.num :=
        Option.some.inj (converted.symm.trans (stored unchanged))
      rw [drives_slotValue drives, Input.passed, converted, Option.getD_some, ← held other enabled]
      by_cases same : motor = other
      · subst same
        rw [if_pos rfl, if_pos rfl]
        split
        case isTrue => rfl
        case isFalse closed => exact (kept (Or.inl (Bool.eq_false_iff.mpr closed))).symm
      · rw [if_neg same]
        by_cases shared : other.slot.num = motor.slot.num
        · rw [shared, if_pos rfl, kept (Or.inr ⟨other, enabled, Ne.symm same, shared⟩), ite_self]
        · rw [if_neg shared, ite_self]
    · exact held other enabled

/-- **The slots hold the latest values** along every run of such steps. -/
theorem slots_latest {past : List (Input K)} {outs : List Event} {s : State}
    (run : (driver cfg).RunOn (Stored cfg) State.initial past outs s) : Latest cfg past s :=
  run.history (Latest cfg) (fun _ _ _ _ _ stored held step => held.next stored step) []
    fun motor _ => State.slotValue_initial motor.slot.num

/-- What a step writes is the frame of a group, with the slots as they are after the step. -/
theorem step_writes {s s' : State} {input : Input K} {events : List Event}
    (step : (driver cfg).step s input = some (s', events)) {device : Bus} {msg : CanMsg}
    (member : .write device msg ∈ events) :
    ∃ num, Event.write device msg = s'.groupWrite num := by
  cases input with
  | frame msg =>
    obtain ⟨_, _, -, -, -, rfl⟩ := callback_cases step
    rcases List.mem_pair.mp member with other | other <;> cases other
  | drive motor mode value written =>
    obtain ⟨tmpout, -, ⟨-, drives⟩ | ⟨-, -, rfl⟩⟩ := drive_cases step
    · rw [drives_events drives] at member
      split at member
      · exact ⟨_, List.mem_singleton.mp member⟩
      · cases member
    · cases member

/-- **The group frames carry the latest commands** in every run none of whose values is dropped. -/
theorem written_latest {past : List (Input K)} {outs : List Event} {s s' : State}
    (run : (driver cfg).RunOn (Stored cfg) State.initial past outs s) {input : Input K}
    (stored : Stored cfg s input) {events : List Event}
    (step : (driver cfg).step s input = some (s', events)) {device : Bus} {msg : CanMsg}
    (member : .write device msg ∈ events) :
    CarriesLatest cfg (past ++ [input]) (.write device msg) := by
  obtain ⟨num, frame⟩ := step_writes step member
  rw [frame]
  exact ((slots_latest run).next stored step).carries num

end Latest

/-! ### Two motors -/

/-- The configuration with the motors `M3508_ID1_CAN1` and `M3508_ID2_CAN1`. -/
def pair : Config where
  enabled motor := motor = ⟨.m3508, .can1, 0⟩ ∨ motor = ⟨.m3508, .can1, 1⟩

/-- The frames after which a motor is fresh. -/
def warmUp (canId : ℕ) : List (Input ℚ) :=
  List.replicate 51 (.frame ⟨canId, Vector.replicate 8 0⟩)

/-- A call for a motor of the low group, whose frame is written. -/
def torqueCall (num : Fin 8) (value : ℚ) : Input ℚ :=
  .drive ⟨.m3508, .can1, num⟩ .torque value true

/-- The first motor is fresh and the second is not when the first is called. -/
def dropped : List (Input ℚ) := warmUp 0x201 ++ [torqueCall 0 100] ++ warmUp 0x202

/-- The frame that the second motor's call writes. -/
def staleMsg : CanMsg := groupMsg canMotorAllId #v[0, 7, 0, 0]

theorem written_latest_single :
    ∃ outs s s' msg, (driver shipped).RunOn (Stored shipped) State.initial (warmUp 0x201) outs s ∧
      (driver shipped).step s (torqueCall 0 100) = some (s', [.write canDev msg]) ∧
      CarriesLatest shipped (warmUp 0x201 ++ [torqueCall 0 100]) (.write canDev msg) := by
  obtain ⟨outs, s, run, checked⟩ := Machine.exists_run (driver shipped) (Stored shipped)
    State.initial (warmUp 0x201) (fun s _ => Stored shipped s (torqueCall 0 100) ∧
      ((driver shipped).step s (torqueCall 0 100)).any
        (fun next => next.2 = [.write canDev (groupMsg canMotorAllId #v[100, 0, 0, 0])]))
    (by decide +kernel)
  obtain ⟨stored, sent⟩ := of_decide_eq_true checked
  obtain ⟨⟨s', events⟩, step, frame⟩ := (Option.any_eq_true _ _).mp sent
  obtain rfl : events = [.write canDev (groupMsg canMotorAllId #v[100, 0, 0, 0])] :=
    of_decide_eq_true frame
  exact ⟨outs, s, s', _, run, step, written_latest run stored step (List.mem_singleton_self _)⟩

/-- **A dropped value.** The closed gate drops the first motor's `100`, and when the second motor's
call opens it the frame tells the first motor `0`. -/
theorem written_stale :
    (∀ motor, pair.enabled motor → motor.slot.bus = .can1) ∧
      ∃ outs s s', (driver pair).Run State.initial dropped outs s ∧
        (driver pair).step s (torqueCall 1 7) = some (s', [.write canDev staleMsg]) ∧
        ¬ CarriesLatest pair (dropped ++ [torqueCall 1 7]) (.write canDev staleMsg) := by
  refine ⟨by decide, ?_⟩
  obtain ⟨outs, s, run, checked⟩ := Machine.exists_run (driver pair) (fun _ _ => True)
    State.initial dropped (fun s _ => ((driver pair).step s (torqueCall 1 7)).any
      (fun next => next.2 = [.write canDev staleMsg])) (by decide +kernel)
  obtain ⟨⟨s', events⟩, step, sent⟩ := (Option.any_eq_true _ _).mp checked
  obtain rfl : events = [.write canDev staleMsg] := of_decide_eq_true sent
  refine ⟨outs, s, s', run, step, fun carries => ?_⟩
  have told := carries ⟨.m3508, .can1, 0⟩ rfl rfl
  exact absurd told (by decide +kernel)

end Robocon.Dji
