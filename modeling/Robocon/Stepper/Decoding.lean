/-
**What a stepper's reply means.**

A reply gives speed and position as a sign byte and a magnitude, the high byte first.

* `Motor.cmdAna` — `emm_cmd_ana` on the whole `stepper_motor_t`, for any rounding of floats; with
  the one of the single precision, it does to the motor what the events of `emmCmdAna` do
  (`cmdAna_record`).
* `Decodes` — the field is the signed quantity, and the other fields are kept.
* `decodes_iff` — in exact arithmetic, a reply is decoded so unless it is a negative speed.

`stepper_motor_speed` is unsigned, so a negative speed wraps (`speed_wraps`).
-/

import Robocon.Lib.Words
import Robocon.Stepper.Line

namespace Robocon.Stepper

open Lib

/-! ### Motors -/

/-- `stepper_motor_t`. -/
structure Motor (K : Type*) extends StepperMotor K where
  serial : Pointer
  motor : Pointer
  targetDir : UInt8
  targetAngle : UInt32
  targetSpeed : UInt16
  err : K
  reachflag : UInt8
  stallflag : UInt8
  enflag : UInt8
  encokflag : UInt8
  calibrationflag : UInt8
  returnzeroingflag : UInt8
  returnzeroFailflag : UInt8
  current : UInt16

section Decode

variable {K : Type*} [Field K]

/-- The magnitude of a position in an answer. -/
def positionOf (buf : ℕ → UInt8) : UInt32 :=
  (buf 3).toUInt32 <<< 24 ||| (buf 4).toUInt32 <<< 16 ||| (buf 5).toUInt32 <<< 8 |||
    (buf 6).toUInt32 <<< 0

/-- `emm_cmd_ana`, with a rounding of floats. -/
def Motor.cmdAna (round : K → K) (motor : Motor K) (cmd : UInt8) (buf : ℕ → UInt8) : Motor K :=
  if cmd = 0x35 then
    if buf 1 = 0x35 then
      let vel := (buf 3).toUInt16 <<< 8 ||| (buf 4).toUInt16 <<< 0
      let motor := { motor with stepperMotorSpeed := vel }
      if buf 2 ≠ 0 then { motor with stepperMotorSpeed := -motor.stepperMotorSpeed } else motor
    else motor
  else if cmd = 0x36 then
    if buf 1 = 0x36 then
      let pos := round (positionOf buf).toNat
      let motor := { motor with stepperMotorAngle := round (round (pos * (360 : ℕ)) / (65536 : ℕ)) }
      if buf 2 ≠ 0 then { motor with stepperMotorAngle := -motor.stepperMotorAngle } else motor
    else motor
  else motor

/-- **With the rounding of the single precision**, the fields are those of the events. -/
theorem cmdAna_record [LinearOrder K] [FloorRing K] (motors : Pointer → StepperMotor K)
    (pointer : Pointer) (motor : Motor K) (same : motors pointer = motor.toStepperMotor)
    (cmd : UInt8) (buf : ℕ → UInt8) :
    (emmCmdAna pointer cmd buf).foldl record motors =
      Function.update motors pointer (motor.cmdAna binary32 cmd buf).toStepperMotor := by
  unfold emmCmdAna Motor.cmdAna
  split_ifs <;> simp [record, speedOf, angleOf, positionOf, *]

/-! ### Replies -/

/-- A speed or a position as a motor tells it. -/
inductive Quantity
  | speed (sign : UInt8) (magnitude : UInt16)
  | position (sign : UInt8) (magnitude : UInt32)

/-- The function code of a reply. -/
def Quantity.code : Quantity → UInt8
  | speed _ _ => 0x35
  | position _ _ => 0x36

/-- The reply of a motor. -/
def Quantity.bytes (address : UInt8) : Quantity → List UInt8
  | speed sign magnitude => [address, 0x35, sign] ++ bytesOf16 magnitude ++ [0x6B]
  | position sign magnitude => [address, 0x36, sign] ++ bytesOf32 magnitude ++ [0x6B]

/-- The motor after a reply has the signed quantity in its field, and is otherwise the motor
before it. -/
def Decodes (before after : Motor K) : Quantity → Prop
  | .speed sign magnitude =>
    (after.stepperMotorSpeed.toNat : ℤ) =
      (if sign = 0 then (magnitude.toNat : ℤ) else -magnitude.toNat) ∧
    after = { before with stepperMotorSpeed := after.stepperMotorSpeed }
  | .position sign magnitude =>
    after.stepperMotorAngle =
      (if sign = 0 then (magnitude.toNat : K) * (360 : ℕ) / (65536 : ℕ)
        else -((magnitude.toNat : K) * (360 : ℕ) / (65536 : ℕ))) ∧
    after = { before with stepperMotorAngle := after.stepperMotorAngle }

/-- The quantity is no negative speed. -/
def Quantity.Unsigned : Quantity → Prop
  | speed sign magnitude => sign = 0 ∨ magnitude = 0
  | position _ _ => True

theorem reply_stored (old : Vector UInt8 64) (address : UInt8) (q : Quantity) :
    ∃ buf, storeAll old 0 (q.bytes address) = some buf ∧
      ∀ i < (q.bytes address).length, cell buf i = (q.bytes address).getD i 0 := by
  have length : (q.bytes address).length ≤ 64 := by
    cases q <;> simp [Quantity.bytes, bytesOf16, bytesOf32]
  obtain ⟨buf, stored, front⟩ := storeAll_front old length
  refine ⟨buf, stored, fun i inside => ?_⟩
  rw [cell_filled buf inside, front]

theorem cmdAna_speed {round : K → K} {motor : Motor K} {buf : ℕ → UInt8} {sign : UInt8}
    {magnitude : UInt16} (code : buf 1 = 0x35) (signed : buf 2 = sign)
    (high : buf 3 = (magnitude >>> 8).toUInt8) (low : buf 4 = magnitude.toUInt8) :
    motor.cmdAna round 0x35 buf =
      { motor with stepperMotorSpeed := if sign ≠ 0 then -magnitude else magnitude } := by
  have joined : (buf 3).toUInt16 <<< 8 ||| (buf 4).toUInt16 <<< 0 = magnitude := by
    rw [high, low, UInt16.shiftLeft_zero]
    exact join16 magnitude
  simp only [Motor.cmdAna, if_true, code, joined, signed]
  split_ifs <;> rfl

theorem cmdAna_position {round : K → K} {motor : Motor K} {buf : ℕ → UInt8} {sign : UInt8}
    {magnitude : UInt32} (code : buf 1 = 0x36) (signed : buf 2 = sign)
    (first : buf 3 = (magnitude >>> 24).toUInt8) (second : buf 4 = (magnitude >>> 16).toUInt8)
    (third : buf 5 = (magnitude >>> 8).toUInt8) (fourth : buf 6 = magnitude.toUInt8) :
    motor.cmdAna round 0x36 buf =
      { motor with stepperMotorAngle :=
          if sign ≠ 0 then -(round (round (round magnitude.toNat * (360 : ℕ)) / (65536 : ℕ)))
          else round (round (round magnitude.toNat * (360 : ℕ)) / (65536 : ℕ)) } := by
  have joined : positionOf buf = magnitude := by
    rw [positionOf, first, second, third, fourth, UInt32.shiftLeft_zero]
    exact join32 magnitude
  have other : (0x36 : UInt8) ≠ 0x35 := by decide
  simp only [Motor.cmdAna, if_neg other, if_true, code, joined, signed]
  split_ifs <;> rfl

/-- An unsigned field holds the signed magnitude exactly if there is no minus before it. -/
theorem speed_iff (sign : UInt8) (magnitude : UInt16) :
    ((if sign ≠ 0 then -magnitude else magnitude).toNat : ℤ) =
      (if sign = 0 then (magnitude.toNat : ℤ) else -magnitude.toNat) ↔
      sign = 0 ∨ magnitude = 0 := by
  by_cases plus : sign = 0
  · simp [plus]
  · simp only [plus, ne_eq, not_false_iff, if_true, if_false, false_or]
    constructor
    · intro same
      apply UInt16.toNat_inj.mp
      show magnitude.toNat = 0
      omega
    · rintro rfl
      rfl

/-- A speed reply is decoded exactly if there is no minus before it. -/
theorem decodes_speed_iff (motor : Motor K) (old : Vector UInt8 64) (address sign : UInt8)
    (magnitude : UInt16) :
    (∃ buf, storeAll old 0 ((Quantity.speed sign magnitude).bytes address) = some buf ∧
      Decodes motor (motor.cmdAna id 0x35 (cell buf)) (.speed sign magnitude)) ↔
      sign = 0 ∨ magnitude = 0 := by
  obtain ⟨buf, stored, cells⟩ := reply_stored old address (.speed sign magnitude)
  have here : ∀ i < 6, cell buf i = ((Quantity.speed sign magnitude).bytes address).getD i 0 :=
    cells
  have read : motor.cmdAna id 0x35 (cell buf) =
      { motor with stepperMotorSpeed := if sign ≠ 0 then -magnitude else magnitude } :=
    cmdAna_speed (here 1 (by decide)) (here 2 (by decide)) (here 3 (by decide))
      (here 4 (by decide))
  simp only [stored, Option.some.injEq, exists_eq_left', read]
  exact (and_iff_left rfl).trans (speed_iff sign magnitude)

theorem decodes_position (motor : Motor K) (old : Vector UInt8 64) (address sign : UInt8)
    (magnitude : UInt32) :
    ∃ buf, storeAll old 0 ((Quantity.position sign magnitude).bytes address) = some buf ∧
      Decodes motor (motor.cmdAna id 0x36 (cell buf)) (.position sign magnitude) := by
  obtain ⟨buf, stored, cells⟩ := reply_stored old address (.position sign magnitude)
  have here : ∀ i < 8, cell buf i = ((Quantity.position sign magnitude).bytes address).getD i 0 :=
    cells
  have signed : cell buf 2 = sign := here 2 (by decide)
  refine ⟨buf, stored, ?_⟩
  rw [cmdAna_position (here 1 (by decide)) signed (here 3 (by decide)) (here 4 (by decide))
    (here 5 (by decide)) (here 6 (by decide))]
  refine ⟨?_, rfl⟩
  by_cases plus : sign = 0
  · simp [plus]
  · simp [plus]

/-- **A reply is decoded** to the signed quantity exactly if it is no negative speed. -/
theorem decodes_iff (motor : Motor K) (old : Vector UInt8 64) (address : UInt8) (q : Quantity) :
    (∃ buf, storeAll old 0 (q.bytes address) = some buf ∧
      Decodes motor (motor.cmdAna id q.code (cell buf)) q) ↔ q.Unsigned := by
  cases q with
  | speed sign magnitude => exact decodes_speed_iff motor old address sign magnitude
  | position sign magnitude =>
    exact iff_of_true (decodes_position motor old address sign magnitude) trivial

end Decode

/-! ### A negative speed -/

/-- A motor that stands. -/
def idle : Motor ℚ := ⟨⟨1, 0, 0⟩, 0, 0, 0, 0, 0, 0, 0, 0, 0, 0, 0, 0, 0, 0⟩

/-- **A motor that turns backwards** at one revolution per minute. -/
theorem speed_wraps : ¬ ∃ buf,
    storeAll (Vector.replicate 64 0) 0 ((Quantity.speed 1 1).bytes 1) = some buf ∧
      Decodes idle (idle.cmdAna id 0x35 (cell buf)) (.speed 1 1) := by
  rw [decodes_speed_iff]
  decide

end Robocon.Stepper
