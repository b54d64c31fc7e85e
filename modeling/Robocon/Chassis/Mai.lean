/-
**The mecanum chassis (`chassis_module_mai.c`).**

`moduleMai` converts a speed or a position of the chassis into those of the four wheels
(`output`) and back (`input`); `driverMai` hands them to the motors.

* `speed_feedback` — what these wheel speeds are read back as: with `k` revolutions a minute for a
  metre a second, `(k² y, k² (y - x), k² (z + y / h))`.
* `speed_feedback_iff` — this is the target only if the target turns in place, and for a turn only
  if `k² = 1`. The position branch of the same function divides by the factor it multiplied by.
-/

import Robocon.Chassis.Layer

namespace Robocon.Chassis

/-- The constants of the chassis: the wheel radius, the numbers for `π` and `2π`, and half the sum
of the two axle distances. -/
structure Geometry (K : Type) [Field K] where
  wheelR : K
  pi : K
  twoPi : K
  halfAB : K
  wheelR_ne : wheelR ≠ 0
  pi_ne : pi ≠ 0
  twoPi_ne : twoPi ≠ 0
  halfAB_ne : halfAB ≠ 0

/-- `chassis_mai_data_t`. -/
structure MaiData (K : Type) where
  type : Status
  motor1 : K
  motor2 : K
  motor3 : K
  motor4 : K
  deriving DecidableEq

/-- What the motor layer reports of the motors `MOTOR_MAI_ID_1 … MOTOR_MAI_ID_4`. -/
structure MaiReading (K : Type) where
  speed : Fin 4 → K
  pos : Fin 4 → K

/-- The calls `motor_set_speed` and `motor_set_pos`, with the number of the motor less one. -/
inductive MaiCommand (K : Type)
  | setSpeed (motor : Fin 4) (value : K)
  | setPos (motor : Fin 4) (value : K)
  deriving DecidableEq

section Module

variable {K : Type} [Field K] (g : Geometry K)

namespace Geometry

/-- `CHASSIS_2PIR`. -/
def twoPiR : K := g.twoPi * g.wheelR

def conversion : K := 180 / g.wheelR / g.pi

theorem twoPiR_ne : g.twoPiR ≠ 0 := mul_ne_zero g.twoPi_ne g.wheelR_ne

end Geometry

/-- The output direction of `module_mai`. -/
def moduleMaiOutput (chassis : State K) (data : MaiData K) (requireCmd : Status) :
    MaiData K :=
  let data := { data with type := requireCmd }
  match requireCmd with
  | .speed =>
    let x := chassis.target.speed.xMS + chassis.offset.speed.xMS
    let y := chassis.target.speed.yMS + chassis.offset.speed.yMS
    let z := chassis.target.speed.zRadS + chassis.offset.speed.zRadS
    { data with
      motor1 := ((x + y) - z * g.halfAB) / g.twoPiR * 60
      motor2 := ((x - y) - z * g.halfAB) / g.twoPiR * 60
      motor3 := ((-x - y) - z * g.halfAB) / g.twoPiR * 60
      motor4 := ((-x + y) - z * g.halfAB) / g.twoPiR * 60 }
  | .pos =>
    let x := chassis.target.pos.xM + chassis.offset.pos.xM
    let y := chassis.target.pos.yM + chassis.offset.pos.yM
    let z := chassis.target.pos.zRad + chassis.offset.pos.zRad
    { data with
      motor1 := ((x + y) - z * g.halfAB) * g.conversion
      motor2 := ((x - y) - z * g.halfAB) * g.conversion
      motor3 := ((-x - y) - z * g.halfAB) * g.conversion
      motor4 := ((-x + y) - z * g.halfAB) * g.conversion }
  | .idle => data

/-- The input direction of `module_mai`. -/
def moduleMaiInput (chassis : State K) (data : MaiData K) (requireCmd : Status) :
    State K :=
  match requireCmd with
  | .speed =>
    { chassis with present := { chassis.present with speed := {
        xMS := chassis.offset.speed.xMS + ((data.motor1 - data.motor2) / g.twoPiR * 60) / 2
        yMS := chassis.offset.speed.yMS + ((-data.motor2 + data.motor4) / g.twoPiR * 60) / 2
        zRadS := chassis.offset.speed.zRadS +
          (-(data.motor3 + data.motor2) / g.twoPiR * 60) / (2 * g.halfAB) } } }
  | .pos =>
    { chassis with present := { chassis.present with pos := {
        xM := chassis.offset.pos.xM +
          (data.motor1 + data.motor2 - data.motor3 - data.motor4) / 4 / g.conversion
        yM := chassis.offset.pos.yM +
          (data.motor1 - data.motor2 - data.motor3 + data.motor4) / 4 / g.conversion
        zRad := chassis.offset.pos.zRad -
          (data.motor1 + data.motor2 + data.motor3 + data.motor4) /
            g.halfAB / 4 / g.conversion } } }
  | .idle => chassis

def moduleMai (chassis : State K) (data : MaiData K) (output input : Bool)
    (requireCmd : Status) : State K × MaiData K :=
  let data := if output then moduleMaiOutput g chassis data requireCmd else data
  let chassis := if input then moduleMaiInput g chassis data requireCmd else chassis
  (chassis, data)

def driverMai (data : MaiData K) (reading : MaiReading K) (output input : Bool)
    (requireCmd : Status) : MaiData K × List (MaiCommand K) :=
  let data :=
    if input then
      match requireCmd with
      | .speed => { data with
          motor1 := reading.speed 0, motor2 := reading.speed 1, motor3 := reading.speed 2,
          motor4 := reading.speed 3 }
      | .pos => { data with
          motor1 := reading.pos 0, motor2 := reading.pos 1, motor3 := reading.pos 2,
          motor4 := reading.pos 3 }
      | .idle => data
    else data
  let commands :=
    if output then
      match requireCmd with
      | .speed => [.setSpeed 0 data.motor1, .setSpeed 1 data.motor2, .setSpeed 2 data.motor3,
          .setSpeed 3 data.motor4]
      | .pos => [.setPos 0 data.motor1, .setPos 1 data.motor2, .setPos 2 data.motor3,
          .setPos 3 data.motor4]
      | .idle => []
    else []
  (data, commands)

def opsMai : Ops K (MaiData K) (MaiReading K) (MaiCommand K) where
  moduleOp := moduleMai g
  driverOp := driverMai

end Module

/-- The wheels of a record, by number. -/
def MaiData.wheels {K : Type} (data : MaiData K) : Fin 4 → K :=
  ![data.motor1, data.motor2, data.motor3, data.motor4]

theorem neZero_four : NeZero 4 := ⟨four_ne_zero⟩

theorem atLeastTwo_four : Nat.AtLeastTwo 4 := ⟨by decide⟩

/-! ### The speed loop -/

section Speed

variable {K : Type} [Field K] [LinearOrder K] [IsStrictOrderedRing K] (g : Geometry K)
  {chassis : State K}

/-- Revolutions a minute of a wheel for a metre a second. -/
def Geometry.rate : K := 60 / g.twoPiR

/-- What the wheel speeds of the target are read back as. -/
theorem speed_feedback (centred : chassis.offset.speed = ⟨0, 0, 0⟩) (data : MaiData K) :
    (moduleMai g chassis (moduleMai g chassis data true false .speed).2 false true
      .speed).1.present.speed =
      ⟨g.rate ^ 2 * chassis.target.speed.yMS,
        g.rate ^ 2 * (chassis.target.speed.yMS - chassis.target.speed.xMS),
        g.rate ^ 2 * (chassis.target.speed.zRadS + chassis.target.speed.yMS / g.halfAB)⟩ := by
  have round := g.twoPiR_ne
  have half := g.halfAB_ne
  simp only [moduleMai, moduleMaiOutput, moduleMaiInput, centred, Geometry.rate, if_true,
    Bool.false_eq_true, if_false, Speed.mk.injEq]
  refine ⟨?_, ?_, ?_⟩
  · field_simp
    ring
  · field_simp
    ring
  · field_simp
    ring

/-- No factor takes a nonzero number through the exchange of the axes and back. -/
theorem exchange_eq_zero {factor x y : K} (first : factor * y = x) (second : factor * (y - x) = y) :
    x = 0 ∧ y = 0 := by
  have twice : y * (factor ^ 2 - factor + 1) = 0 := by
    rw [← first] at second
    linear_combination -second
  have positive : factor ^ 2 - factor + 1 ≠ 0 := by
    nlinarith [sq_nonneg (2 * factor - 1)]
  have zero : y = 0 := (mul_eq_zero.mp twice).resolve_right positive
  refine ⟨?_, zero⟩
  rw [← first, zero, mul_zero]

theorem Geometry.rate_sq : g.rate ^ 2 = 1 ↔ g.twoPiR ^ 2 = 60 ^ 2 := by
  rw [Geometry.rate, div_pow, div_eq_one_iff_eq (pow_ne_zero 2 g.twoPiR_ne), eq_comm]

/-- **The speed that is read back.** Without an offset, the wheel speeds of a target are read back
as the target exactly if it asks for no motion along the axes, and for no turn unless a metre a
second is one revolution a minute. -/
theorem speed_feedback_iff (centred : chassis.offset.speed = ⟨0, 0, 0⟩) (data : MaiData K) :
    (moduleMai g chassis (moduleMai g chassis data true false .speed).2 false true
        .speed).1.present.speed = chassis.target.speed ↔
      chassis.target.speed.xMS = 0 ∧ chassis.target.speed.yMS = 0 ∧
        (chassis.target.speed.zRadS = 0 ∨ g.twoPiR ^ 2 = 60 ^ 2) := by
  rw [speed_feedback g centred data, ← g.rate_sq]
  obtain ⟨x, y, z⟩ := chassis.target.speed
  simp only [Speed.mk.injEq]
  refine ⟨fun ⟨first, second, third⟩ => ?_, ?_⟩
  · obtain ⟨rfl, rfl⟩ := exchange_eq_zero first second
    refine ⟨rfl, rfl, ?_⟩
    by_cases still : z = 0
    · exact Or.inl still
    · refine Or.inr (mul_right_cancel₀ still ?_)
      rw [one_mul]
      simpa using third
  · rintro ⟨rfl, rfl, rfl | unit⟩
    · simp
    · simp [unit]

end Speed

/-- All constants one. -/
def unitGeometry : Geometry ℚ :=
  ⟨1, 1, 1, 1, one_ne_zero, one_ne_zero, one_ne_zero, one_ne_zero⟩

/-- A chassis at rest in the origin with a speed target. -/
def towards (speed : Speed ℚ) : State ℚ where
  target := ⟨speed, ⟨0, 0, 0⟩⟩
  present := ⟨⟨0, 0, 0⟩, ⟨0, 0, 0⟩⟩
  runStatus := .speed
  offset := ⟨⟨0, 0, 0⟩, ⟨0, 0, 0⟩⟩

/-- A chassis that is told to stand is read back as standing. -/
theorem speed_feedback_iff_still :
    (moduleMai unitGeometry (towards ⟨0, 0, 0⟩)
      (moduleMai unitGeometry (towards ⟨0, 0, 0⟩) ⟨.idle, 0, 0, 0, 0⟩ true false .speed).2
      false true .speed).1.present.speed = (towards ⟨0, 0, 0⟩).target.speed := by
  have centred : (towards ⟨0, 0, 0⟩).offset.speed = ⟨0, 0, 0⟩ := rfl
  exact (speed_feedback_iff unitGeometry centred ⟨.idle, 0, 0, 0, 0⟩).mpr
    ⟨rfl, rfl, Or.inl rfl⟩

/-- **A speed along the x-axis is read back as one along the y-axis.** -/
theorem speed_feedback_sideways :
    (towards ⟨1, 0, 0⟩).offset.speed = ⟨0, 0, 0⟩ ∧
      (moduleMai unitGeometry (towards ⟨1, 0, 0⟩)
        (moduleMai unitGeometry (towards ⟨1, 0, 0⟩) ⟨.idle, 0, 0, 0, 0⟩ true false .speed).2
        false true .speed).1.present.speed = ⟨0, -3600, 0⟩ ∧
      (⟨0, -3600, 0⟩ : Speed ℚ) ≠ (towards ⟨1, 0, 0⟩).target.speed := by
  decide +kernel

end Robocon.Chassis
