/-
**The driver of the DJI motors (`motor_dj_rm_driver.c`).**

`driver cfg` runs the calls of `motor_dj_driver` and the frames that `ind_dj_can_motor_callback`
reads. Its outputs are the frames written to the CAN device, with the device they are written to,
and what the callback hands to the motor layer.

* The array `dj_motors` is a function of the record names; `djSlots` gives the order in which it is
  searched.
* `int32_t` arithmetic fails on overflow, and so does the conversion of a `float` that no `int16_t`
  holds: both are undefined behaviour.
* Whether `rt_device_write` writes the whole frame is part of the input of the call.
-/

import Robocon.Dji.Config
import Robocon.Lib.Run
import Robocon.Lib.Trunc

namespace Robocon.Dji

open Lib

/-! ### State, inputs and outputs -/

/-- `motor_measure_t`, less `id` and `can_id`, which the initialiser fixes. -/
structure Measure where
  angle : UInt16
  msgCnt : UInt8
  lastAngle : UInt16
  offsetAngle : UInt16
  roundCnt : ℤ
  totalAngle : ℤ
  deriving DecidableEq

/-- A zero-initialised record. -/
def Measure.initial : Measure := ⟨0, 0, 0, 0, 0, 0⟩

/-- The globals of the driver. `iq1_uhigh` and the three arrays `iq2_*` for CAN2 are read and
written by no function. -/
structure State where
  djMotors : Slot → Measure
  iq1Low : Vector Int16 4
  iq1High : Vector Int16 4

/-- Power-on. -/
def State.initial : State where
  djMotors := fun _ => Measure.initial
  iq1Low := Vector.replicate 4 0
  iq1High := Vector.replicate 4 0

/-- The fields of `rt_can_msg` that vary. -/
structure CanMsg where
  id : ℕ
  data : Vector UInt8 8
  deriving DecidableEq

/-- The modes of `motor_dj_driver`: torque, and those that it only reports as invalid. -/
inductive Mode
  | torque
  | invalid
  deriving DecidableEq

/-- A call of `motor_dj_driver` for the motor of a macro, or a frame from the CAN device. -/
inductive Input (K : Type)
  | drive (motor : Macro) (mode : Mode) (value : K) (written : Bool)
  | frame (msg : CanMsg)

/-- What leaves the driver. `feedback` is the three feedback calls: the speed, the torque, and the
total angle of which the position is a multiple. -/
inductive Event
  | write (device : Bus) (msg : CanMsg)
  | feedback (id : ℕ) (speed torque : Int16) (totalAngle : ℤ)
  | putchar (id : ℕ)
  deriving DecidableEq

/-- `CAN_DEV_NAME`: every frame is written to `can1`. -/
def canDev : Bus := .can1

def canMotorAllId : ℕ := 0x200

def canMotorAllId2 : ℕ := 0x1FF

/-! ### The callback -/

/-- An `int32_t` result, unless it overflows. -/
def int32 (x : ℤ) : Option ℤ := if -2 ^ 31 ≤ x ∧ x < 2 ^ 31 then some x else none

/-- `(uint16_t)(high << 8 | low)`. -/
def word (high low : UInt8) : UInt16 := high.toUInt16 <<< 8 ||| low.toUInt16

/-- The angle that a frame carries. -/
def CanMsg.angle (msg : CanMsg) : UInt16 := word msg.data[0] msg.data[1]

/-- The update of a record by an angle. -/
def Measure.receive (m : Measure) (angle : UInt16) : Option Measure := do
  if m.msgCnt < 50 then
    return { m with msgCnt := m.msgCnt + 1, offsetAngle := angle, angle := angle }
  else
    let m := { m with lastAngle := m.angle, angle := angle }
    let difference : ℤ := (m.angle.toNat : ℤ) - m.lastAngle.toNat
    let roundCnt ← int32
      (if difference > 4096 then m.roundCnt - 1
      else if difference < -4096 then m.roundCnt + 1
      else m.roundCnt)
    let rounds ← int32 (roundCnt * 8191)
    let absolute ← int32 (rounds + m.angle.toNat)
    let totalAngle ← int32 (absolute - m.offsetAngle.toNat)
    return { m with roundCnt := roundCnt, msgCnt := 0xff, totalAngle := totalAngle }

/-- The state with another record. -/
def State.setRecord (s : State) (slot : Slot) (m : Measure) : State :=
  { s with djMotors := Function.update s.djMotors slot m }

theorem State.setRecord_self (s : State) (slot : Slot) (m : Measure) :
    (s.setRecord slot m).djMotors slot = m := Function.update_self _ _ _

theorem State.setRecord_of_ne (s : State) {slot other : Slot} (m : Measure)
    (apart : other ≠ slot) : (s.setRecord slot m).djMotors other = s.djMotors other :=
  Function.update_of_ne apart _ _

/-- `ind_dj_can_motor_callback`. The CAN id is passed on as a `uint16_t`; one that is not found is a
null pointer. -/
def callback (cfg : Config) (s : State) (msg : CanMsg) : Option (State × List Event) := do
  let slot ← (cfg.motorGetByCanid (msg.id % 2 ^ 16)).bind id
  let measure ← (s.djMotors slot).receive (word msg.data[0] msg.data[1])
  let id := cfg.recordId slot
  return (s.setRecord slot measure,
    [.feedback id (word msg.data[2] msg.data[3]).toInt16 (word msg.data[4] msg.data[5]).toInt16
      measure.totalAngle, .putchar id])

/-! ### The driver -/

/-- A condition `#ifdef <macro> dj_motors[..].msg_cnt == 0xff #endif`. -/
def Config.fresh (cfg : Config) (s : State) (motor : Macro) : Bool :=
  !cfg.enabled motor || (s.djMotors motor.slot).msgCnt == 0xff

/-- The macros of one kind and bus with the numbers `from + 1 … from + 4`. -/
def group (kind : Kind) (bus : Bus) (first : Fin 8) : List Macro :=
  (List.finRange 4).map fun index => ⟨kind, ⟨bus, first + Fin.castLE (by decide) index⟩⟩

/-- The condition on the frame `0x1FF`. -/
def Config.highGate (cfg : Config) (s : State) : Bool :=
  (group .m2006 .can1 4 ++ group .m2006 .can2 4 ++ group .m3508 .can1 4 ++
    group .m3508 .can2 4).all (cfg.fresh s)

/-- The condition on the frame `0x200`. Its first condition is joined by `||`, and `&&` binds
stronger. -/
def Config.lowGate (cfg : Config) (s : State) : Bool :=
  (cfg.enabled ⟨.m2006, .can1, 0⟩ && (s.djMotors ⟨.can1, 0⟩).msgCnt == 0xff) ||
    ((group .m2006 .can1 0).tail ++ group .m2006 .can2 0 ++ group .m3508 .can1 0 ++
      group .m3508 .can2 0).all (cfg.fresh s)

/-- `int16_t tmpout = *value`. -/
def toInt16 {K : Type} [Field K] [LinearOrder K] [FloorRing K] (value : K) : Option Int16 :=
  if -2 ^ 15 ≤ trunc value ∧ trunc value < 2 ^ 15 then some (Int16.ofInt (trunc value)) else none

/-- `msg.data[..] = iq >> 8` and `msg.data[..] = iq`. -/
def highByte (iq : Int16) : UInt8 := (iq.toUInt16 >>> 8).toUInt8

def lowByte (iq : Int16) : UInt8 := iq.toUInt16.toUInt8

/-- The frame of a group. -/
def groupMsg (id : ℕ) (iq : Vector Int16 4) : CanMsg where
  id := id
  data := #v[highByte iq[0], lowByte iq[0], highByte iq[1], lowByte iq[1],
    highByte iq[2], lowByte iq[2], highByte iq[3], lowByte iq[3]]

/-- The index `tt` of a motor in its group. -/
def place (num : Fin 8) : Fin 4 := ⟨num % 4, Nat.mod_lt _ (by decide)⟩

namespace State

/-- `iq1_high[tt] = tmpout`. -/
def storeHigh (s : State) (motor : Macro) (tmpout : Int16) : State :=
  { s with iq1High := s.iq1High.set (place motor.slot.num) tmpout }

/-- `iq1_low[tt] = tmpout`. -/
def storeLow (s : State) (motor : Macro) (tmpout : Int16) : State :=
  { s with iq1Low := s.iq1Low.set (place motor.slot.num) tmpout }

/-- The loop after a failed write. -/
def outdate (s : State) : State :=
  { s with djMotors := fun slot => { s.djMotors slot with msgCnt := 50 } }

/-- The frame `0x1FF`. -/
def highMsg (s : State) : Event := .write canDev (groupMsg canMotorAllId2 s.iq1High)

/-- The frame `0x200`. -/
def lowMsg (s : State) : Event := .write canDev (groupMsg canMotorAllId s.iq1Low)

end State

section Driver

variable {K : Type} [Field K] [LinearOrder K] [FloorRing K] (cfg : Config)

/-- `motor_dj_driver` for a motor with one of the numbers `5 … 8`. -/
def driveHigh (s : State) (motor : Macro) (tmpout : Int16) : State × List Event :=
  let s := s.storeHigh motor tmpout
  if cfg.highGate s then (s, [s.highMsg]) else (s, [])

/-- `motor_dj_driver` for a motor with one of the numbers `1 … 4`. -/
def driveLow (s : State) (motor : Macro) (tmpout : Int16) (written : Bool) : State × List Event :=
  if cfg.lowGate s then
    let s := s.storeLow motor tmpout
    if written then (s, [s.lowMsg]) else (s.outdate, [s.lowMsg])
  else (s, [])

def motorDjDriver (s : State) (motor : Macro) (mode : Mode) (value : K) (written : Bool) :
    Option (State × List Event) :=
  if cfg.enabled motor then
    (toInt16 value).map fun tmpout =>
      match mode with
      | .torque =>
        if 4 ≤ motor.slot.num then driveHigh cfg s motor tmpout
        else driveLow cfg s motor tmpout written
      | .invalid => (s, [])
  else none

/-- The driver as a machine. -/
def driver : Machine State (Input K) Event where
  step s
    | .drive motor mode value written => motorDjDriver cfg s motor mode value written
    | .frame msg => callback cfg s msg

/-! ### What a step can do -/

omit [Field K] [LinearOrder K] [FloorRing K] in
/-- A frame updates the record that is found for its CAN id. -/
theorem callback_cases {cfg : Config} {s s' : State} {msg : CanMsg} {events : List Event}
    (step : callback cfg s msg = some (s', events)) :
    ∃ slot measure, cfg.motorGetByCanid (msg.id % 2 ^ 16) = some (some slot) ∧
      (s.djMotors slot).receive msg.angle = some measure ∧
      s' = s.setRecord slot measure ∧
      events = [.feedback (cfg.recordId slot) (word msg.data[2] msg.data[3]).toInt16
        (word msg.data[4] msg.data[5]).toInt16 measure.totalAngle,
        .putchar (cfg.recordId slot)] := by
  obtain ⟨slot, found, rest⟩ := Option.bind_eq_some_iff.mp step
  obtain ⟨measure, received, done⟩ := Option.bind_eq_some_iff.mp rest
  obtain ⟨rfl, rfl⟩ := Prod.mk.inj (Option.some.inj done)
  have found : cfg.motorGetByCanid (msg.id % 2 ^ 16) = some (some slot) := by
    simpa [Option.bind_eq_some_iff] using found
  exact ⟨slot, measure, found, received, rfl, rfl⟩

/-- What a torque call with the value `tmpout` does: a motor of the high group stores the value and
then waits for its gate, a motor of the low group waits first. -/
inductive Drives (s : State) (motor : Macro) (tmpout : Int16) :
    Bool → State → List Event → Prop
  | high (written : Bool) (numbered : 4 ≤ motor.slot.num) (gate : cfg.highGate s) :
      Drives s motor tmpout written (s.storeHigh motor tmpout)
        [(s.storeHigh motor tmpout).highMsg]
  | highWaits (written : Bool) (numbered : 4 ≤ motor.slot.num) (gate : ¬ cfg.highGate s) :
      Drives s motor tmpout written (s.storeHigh motor tmpout) []
  | low (numbered : ¬ 4 ≤ motor.slot.num) (gate : cfg.lowGate s) :
      Drives s motor tmpout true (s.storeLow motor tmpout) [(s.storeLow motor tmpout).lowMsg]
  | lowFails (numbered : ¬ 4 ≤ motor.slot.num) (gate : cfg.lowGate s) :
      Drives s motor tmpout false (s.storeLow motor tmpout).outdate
        [(s.storeLow motor tmpout).lowMsg]
  | lowWaits (written : Bool) (numbered : ¬ 4 ≤ motor.slot.num) (gate : ¬ cfg.lowGate s) :
      Drives s motor tmpout written s []

variable {cfg}

theorem drive_cases {s s' : State} {motor : Macro} {mode : Mode} {value : K} {written : Bool}
    {events : List Event}
    (step : motorDjDriver cfg s motor mode value written = some (s', events)) :
    ∃ tmpout, toInt16 value = some tmpout ∧
      (mode = .torque ∧ Drives cfg s motor tmpout written s' events ∨
        mode = .invalid ∧ s' = s ∧ events = []) := by
  unfold motorDjDriver at step
  split at step
  case isFalse => cases step
  case isTrue =>
    obtain ⟨tmpout, converted, done⟩ := Option.map_eq_some_iff.mp step
    refine ⟨tmpout, converted, ?_⟩
    cases mode with
    | invalid =>
      obtain ⟨rfl, rfl⟩ := Prod.mk.inj done
      exact Or.inr ⟨rfl, rfl, rfl⟩
    | torque =>
      refine Or.inl ⟨rfl, ?_⟩
      simp only [driveHigh, driveLow] at done
      by_cases numbered : 4 ≤ motor.slot.num
      · rw [if_pos numbered] at done
        by_cases gate : cfg.highGate (s.storeHigh motor tmpout) = true
        · rw [if_pos gate] at done
          obtain ⟨rfl, rfl⟩ := Prod.mk.inj done
          exact .high written numbered gate
        · rw [if_neg gate] at done
          obtain ⟨rfl, rfl⟩ := Prod.mk.inj done
          exact .highWaits written numbered gate
      · rw [if_neg numbered] at done
        by_cases gate : cfg.lowGate s = true
        · rw [if_pos gate] at done
          cases written with
          | true =>
            obtain ⟨rfl, rfl⟩ := Prod.mk.inj done
            exact .low numbered gate
          | false =>
            obtain ⟨rfl, rfl⟩ := Prod.mk.inj done
            exact .lowFails numbered gate
        · rw [if_neg gate] at done
          obtain ⟨rfl, rfl⟩ := Prod.mk.inj done
          exact .lowWaits written numbered gate

omit [Field K] [LinearOrder K] [FloorRing K] in
theorem callback_received {s : State} {msg : CanMsg} {slot : Slot} {measure : Measure}
    (found : cfg.motorGetByCanid (msg.id % 2 ^ 16) = some (some slot))
    (received : (s.djMotors slot).receive msg.angle = some measure) :
    ∃ events, callback cfg s msg = some (s.setRecord slot measure, events) := by
  rw [callback, found]
  show ∃ events, ((s.djMotors slot).receive msg.angle).bind _ = some _
  rw [received]
  exact ⟨_, rfl⟩

end Driver

end Robocon.Dji
