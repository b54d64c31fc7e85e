/-
**The mecanum chassis with a positioning system (`chassis_module_mai_ops.c`).**

`moduleMaiOps` is a copy of `moduleMai` whose position is that of a positioning system, and whose
speed equations are other ones: they give `motor1` the speed of `motor4` and `motor2` that of
`motor3`. So four wheels carry two numbers.

* `drvSet_wheelSpeeds` — the speeds that the motors are told.
* `wheels_eq_iff` — which targets get the same wheel speeds.
* `ops_feedback` — what the wheel speeds of a target are read back as.
* `ops_speed_iff` — for no constants of the chassis are the wheel speeds of different targets
  different, and which targets are read back as they were.
-/

import Robocon.Chassis.Mai

namespace Robocon.Chassis

attribute [local instance] neZero_four

/-! ### The module and its driver -/

/-- What the positioning system reports: the globals `pos_x`, `pos_y` and `w_z`. -/
structure Located (K : Type) where
  posX : K
  posY : K
  wZ : K

section Module

variable {K : Type} [Field K] (g : Geometry K)

/-- The output direction of `module_mai_ops`. -/
def moduleMaiOpsOutput (chassis : State K) (data : MaiData K) (requireCmd : Status) :
    MaiData K :=
  let data := { data with type := requireCmd }
  match requireCmd with
  | .speed =>
    let x := chassis.target.speed.xMS + chassis.offset.speed.xMS
    let y := chassis.target.speed.yMS + chassis.offset.speed.yMS
    let z := chassis.target.speed.zRadS + chassis.offset.speed.zRadS
    { data with
      motor1 := -((x - y) - z * g.halfAB) / g.twoPiR * 60
      motor2 := -((x + y) - z * g.halfAB) / g.twoPiR * 60
      motor3 := -((x + y) - z * g.halfAB) / g.twoPiR * 60
      motor4 := -((x - y) - z * g.halfAB) / g.twoPiR * 60 }
  | .pos =>
    let x := chassis.target.pos.xM + chassis.offset.pos.xM
    let y := chassis.target.pos.yM + chassis.offset.pos.yM
    let z := chassis.target.pos.zRad + chassis.offset.pos.zRad
    { data with
      motor1 := ((x + y) - z * g.halfAB) * g.conversion
      motor2 := ((x - y) - z * g.halfAB) * g.conversion
      motor3 := ((-x - y) - z * g.halfAB) * g.conversion
      motor4 := ((-x + y) - z * g.halfAB) * g.conversion }
  | .idle => data

/-- The input direction of `module_mai_ops`. -/
def moduleMaiOpsInput (located : Located K) (chassis : State K) (data : MaiData K)
    (requireCmd : Status) : State K :=
  match requireCmd with
  | .speed =>
    { chassis with present := { chassis.present with speed := {
        xMS := chassis.offset.speed.xMS + ((data.motor1 - data.motor2) / g.twoPiR * 60) / 2
        yMS := chassis.offset.speed.yMS + ((-data.motor2 + data.motor4) / g.twoPiR * 60) / 2
        zRadS := chassis.offset.speed.zRadS +
          (-(data.motor3 + data.motor2) / g.twoPiR * 60) / (2 * g.halfAB) } } }
  | .pos =>
    { chassis with present := { chassis.present with pos :=
        ⟨located.posX, located.posY, located.wZ⟩ } }
  | .idle => chassis

def moduleMaiOps (located : Located K) (chassis : State K) (data : MaiData K)
    (output input : Bool) (requireCmd : Status) : State K × MaiData K :=
  let data := if output then moduleMaiOpsOutput g chassis data requireCmd else data
  let chassis := if input then moduleMaiOpsInput g located chassis data requireCmd else chassis
  (chassis, data)

/-- `driver_mai_ops`. The wheels are not read in the position mode, and their positions are handed
to `motor_set_speed`. -/
def driverMaiOps (data : MaiData K) (reading : MaiReading K) (output input : Bool)
    (requireCmd : Status) : MaiData K × List (MaiCommand K) :=
  let data :=
    if input then
      match requireCmd with
      | .speed => { data with
          motor1 := reading.speed 0, motor2 := reading.speed 1, motor3 := reading.speed 2,
          motor4 := reading.speed 3 }
      | .pos => { data with motor1 := 0, motor2 := 0, motor3 := 0, motor4 := 0 }
      | .idle => data
    else data
  let commands : List (MaiCommand K) :=
    if output then
      match requireCmd with
      | .speed | .pos => [.setSpeed 0 data.motor1, .setSpeed 1 data.motor2,
          .setSpeed 2 data.motor3, .setSpeed 3 data.motor4]
      | .idle => []
    else []
  (data, commands)

def opsMaiOps (located : Located K) : Ops K (MaiData K) (MaiReading K) (MaiCommand K) where
  moduleOp := moduleMaiOps g located
  driverOp := driverMaiOps

end Module

/-! ### The speed mode -/

section Speed

variable {K : Type} [Field K] [LinearOrder K] [IsStrictOrderedRing K] (g : Geometry K)
  (located : Located K) (chassis : State K) (data : MaiData K)

/-- The wheel speeds of a target. -/
def wheelSpeeds (target : Speed K) : Fin 4 → K :=
  (moduleMaiOps g located (setSpeed chassis target) data true false .speed).2.wheels

/-- What the wheel speeds of a target are read back as. -/
def readBack (target : Speed K) : Speed K :=
  (moduleMaiOps g located (setSpeed chassis target)
    (moduleMaiOps g located (setSpeed chassis target) data true false .speed).2 false true
    .speed).1.present.speed

omit [LinearOrder K] [IsStrictOrderedRing K] in
/-- **The commands of `chassis_drv_set_speed`** are these wheel speeds. -/
theorem drvSet_wheelSpeeds (target : Speed K) (before : MaiReading K) :
    (drvSet (opsMaiOps g located) .speed (setSpeed chassis target) data before).2.2 =
      List.ofFn fun wheel =>
        MaiCommand.setSpeed wheel (wheelSpeeds g located chassis data target wheel) := by
  rfl

variable {chassis} (centred : chassis.offset.speed = ⟨0, 0, 0⟩)
include centred

theorem wheelSpeeds_eq (target : Speed K) :
    wheelSpeeds g located chassis data target =
      ![g.rate * (target.yMS - (target.xMS - target.zRadS * g.halfAB)),
        g.rate * (-target.yMS - (target.xMS - target.zRadS * g.halfAB)),
        g.rate * (-target.yMS - (target.xMS - target.zRadS * g.halfAB)),
        g.rate * (target.yMS - (target.xMS - target.zRadS * g.halfAB))] := by
  have round := g.twoPiR_ne
  have outer : -(target.xMS + 0 - (target.yMS + 0) - (target.zRadS + 0) * g.halfAB) / g.twoPiR *
      60 = 60 / g.twoPiR * (target.yMS - (target.xMS - target.zRadS * g.halfAB)) := by
    field_simp
    ring
  have inner : -(target.xMS + 0 + (target.yMS + 0) - (target.zRadS + 0) * g.halfAB) / g.twoPiR *
      60 = 60 / g.twoPiR * (-target.yMS - (target.xMS - target.zRadS * g.halfAB)) := by
    field_simp
    ring
  funext wheel
  simp only [wheelSpeeds, moduleMaiOps, moduleMaiOpsOutput, setSpeed, centred, MaiData.wheels,
    Geometry.rate, if_true]
  fin_cases wheel
  · exact outer
  · exact inner
  · exact inner
  · exact outer

/-- **Targets with the same wheel speeds**: a speed along the x-axis and a turn are told apart by
nothing. -/
theorem wheels_eq_iff (first second : Speed K) :
    wheelSpeeds g located chassis data first = wheelSpeeds g located chassis data second ↔
      first.yMS = second.yMS ∧
        first.xMS - first.zRadS * g.halfAB = second.xMS - second.zRadS * g.halfAB := by
  have rate : g.rate ≠ 0 := div_ne_zero (OfNat.ofNat_ne_zero 60) g.twoPiR_ne
  rw [wheelSpeeds_eq g located data centred, wheelSpeeds_eq g located data centred]
  constructor
  · intro same
    have left := mul_left_cancel₀ rate (congrFun same 0)
    have right := mul_left_cancel₀ rate (congrFun same 1)
    refine ⟨?_, ?_⟩
    · linarith
    · linarith
  · rintro ⟨across, along⟩
    rw [across, along]

/-- What the wheel speeds of a target are read back as. -/
theorem ops_feedback (target : Speed K) :
    readBack g located chassis data target =
      ⟨g.rate ^ 2 * target.yMS, g.rate ^ 2 * target.yMS,
        g.rate ^ 2 * ((target.xMS + target.yMS) / g.halfAB - target.zRadS)⟩ := by
  have round := g.twoPiR_ne
  have half := g.halfAB_ne
  simp only [readBack, moduleMaiOps, moduleMaiOpsOutput, moduleMaiOpsInput, setSpeed, centred,
    Geometry.rate, if_true, Bool.false_eq_true, if_false, Speed.mk.injEq]
  refine ⟨?_, ?_, ?_⟩
  · field_simp
    ring
  · field_simp
    ring
  · field_simp
    ring

theorem readBack_iff (target : Speed K) :
    readBack g located chassis data target = target ↔
      target = ⟨0, 0, 0⟩ ∨ g.twoPiR ^ 2 = 60 ^ 2 ∧ target.xMS = target.yMS ∧
        target.zRadS * g.halfAB = target.xMS := by
  have half := g.halfAB_ne
  rw [ops_feedback g located data centred, ← g.rate_sq]
  obtain ⟨x, y, z⟩ := target
  simp only [Speed.mk.injEq]
  constructor
  · rintro ⟨along, across, turn⟩
    obtain rfl : y = x := across.symm.trans along
    by_cases still : y = 0
    · subst still
      have twice : z * (g.rate ^ 2 + 1) = 0 := by
        rw [add_zero, zero_div, zero_sub] at turn
        linear_combination -turn
      exact Or.inl ⟨rfl, rfl, (mul_eq_zero.mp twice).resolve_right (by positivity)⟩
    · have unit : g.rate ^ 2 = 1 := mul_right_cancel₀ still (across.trans (one_mul y).symm)
      refine Or.inr ⟨unit, rfl, ?_⟩
      rw [unit, one_mul, ← two_mul] at turn
      field_simp at turn
      linarith
  · rintro (⟨rfl, rfl, rfl⟩ | ⟨unit, rfl, turn⟩)
    · simp
    · rw [unit]
      refine ⟨one_mul x, one_mul x, ?_⟩
      rw [← turn]
      field_simp
      ring

/-- **The speed mode.** For no constants of the chassis do different targets get different wheel
speeds: two get the same ones exactly if they differ by a turn and the speed along the x-axis that
goes with it. A target is read back as it was exactly if it is to stand, or the factor of the wheels
is one and the target is among the ones with `x = y` and one turn. -/
theorem ops_speed_iff :
    ¬ Function.Injective (wheelSpeeds g located chassis data) ∧
      (∀ first second,
        wheelSpeeds g located chassis data first = wheelSpeeds g located chassis data second ↔
          first.yMS = second.yMS ∧
            first.xMS - first.zRadS * g.halfAB = second.xMS - second.zRadS * g.halfAB) ∧
      ∀ target, readBack g located chassis data target = target ↔
        target = ⟨0, 0, 0⟩ ∨ g.twoPiR ^ 2 = 60 ^ 2 ∧ target.xMS = target.yMS ∧
          target.zRadS * g.halfAB = target.xMS := by
  refine ⟨fun injective => ?_, wheels_eq_iff g located data centred,
    readBack_iff g located data centred⟩
  have same : wheelSpeeds g located chassis data ⟨g.halfAB, 0, 1⟩ =
      wheelSpeeds g located chassis data ⟨0, 0, 0⟩ := by
    rw [wheels_eq_iff g located data centred]
    exact ⟨rfl, by rw [one_mul, zero_mul, sub_self, sub_self]⟩
  exact g.halfAB_ne (congrArg Speed.xMS (injective same))

end Speed

theorem ops_speed_iff_unit :
    ¬ Function.Injective
      (wheelSpeeds unitGeometry ⟨0, 0, 0⟩ (towards ⟨0, 0, 0⟩) ⟨.idle, 0, 0, 0, 0⟩) := by
  have centred : (towards ⟨0, 0, 0⟩).offset.speed = ⟨0, 0, 0⟩ := rfl
  exact (ops_speed_iff unitGeometry ⟨0, 0, 0⟩ ⟨.idle, 0, 0, 0, 0⟩ centred).1

/-- **A turn and a speed ahead get the same wheel speeds**, and the turn is read back with the wrong
sign. -/
theorem turn_ahead :
    (towards ⟨0, 0, 0⟩).offset.speed = ⟨0, 0, 0⟩ ∧
      wheelSpeeds unitGeometry ⟨0, 0, 0⟩ (towards ⟨0, 0, 0⟩) ⟨.idle, 0, 0, 0, 0⟩ ⟨0, 0, -1⟩ =
        wheelSpeeds unitGeometry ⟨0, 0, 0⟩ (towards ⟨0, 0, 0⟩) ⟨.idle, 0, 0, 0, 0⟩ ⟨1, 0, 0⟩ ∧
      (⟨0, 0, -1⟩ : Speed ℚ) ≠ ⟨1, 0, 0⟩ ∧
      readBack unitGeometry ⟨0, 0, 0⟩ (towards ⟨0, 0, 0⟩) ⟨.idle, 0, 0, 0, 0⟩ ⟨0, 0, -1⟩ =
        ⟨0, 0, 3600⟩ ∧
      (⟨0, 0, 3600⟩ : Speed ℚ) ≠ ⟨0, 0, -1⟩ := by
  decide +kernel

end Robocon.Chassis
