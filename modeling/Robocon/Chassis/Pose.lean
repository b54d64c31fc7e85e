/-
**The pose of the mecanum chassis (`chassis_module_mai.c`, position mode).**

`Geometry.wheelsOf` takes a pose to the positions of the four wheels and `Geometry.poseOf` takes
them back. `moduleMai` is these two maps, with the offset added on both ways.

* `poseOf_wheelsOf`, `wheelsOf_poseOf_iff` — the second map undoes the first; the first undoes the
  second on the wheels that do not slip against each other.
* `pos_projection` — both for `moduleMai` without an offset.
* `handle_pos` — what one call of `chassis_handle` does in the position mode.
* `pose_reported_iff` — around the loop through the wheels the offset is added twice, so the
  reported pose is the target exactly if the offset is zero.
-/

import Robocon.Chassis.Mai
import Robocon.Lib.Run

namespace Robocon.Chassis

open Lib

/-! ### Poses and wheels -/

@[ext] theorem Pos.ext {K : Type} {p q : Pos K} (x : p.xM = q.xM) (y : p.yM = q.yM)
    (z : p.zRad = q.zRad) : p = q := by
  cases p
  cases q
  rw [Pos.mk.injEq]
  exact ⟨x, y, z⟩

instance {K : Type} [Add K] : Add (Pos K) :=
  ⟨fun p q => ⟨p.xM + q.xM, p.yM + q.yM, p.zRad + q.zRad⟩⟩

section Kinematics

variable {K : Type} [Field K]

@[simp] theorem Pos.add_xM (p q : Pos K) : (p + q).xM = p.xM + q.xM := rfl

@[simp] theorem Pos.add_yM (p q : Pos K) : (p + q).yM = p.yM + q.yM := rfl

@[simp] theorem Pos.add_zRad (p q : Pos K) : (p + q).zRad = p.zRad + q.zRad := rfl

/-- A pose that is added to another one without an effect is the origin. -/
theorem Pos.add_eq_self {p q : Pos K} : p + q = p ↔ q = ⟨0, 0, 0⟩ := by
  rw [Pos.ext_iff, Pos.ext_iff]
  exact and_congr add_eq_left (and_congr add_eq_left add_eq_left)

variable (g : Geometry K)

attribute [local instance] neZero_four atLeastTwo_four

namespace Geometry

/-- The wheel positions of a pose. -/
def wheelsOf (pose : Pos K) : Fin 4 → K :=
  ![(pose.xM + pose.yM - pose.zRad * g.halfAB) * g.conversion,
    (pose.xM - pose.yM - pose.zRad * g.halfAB) * g.conversion,
    (-pose.xM - pose.yM - pose.zRad * g.halfAB) * g.conversion,
    (-pose.xM + pose.yM - pose.zRad * g.halfAB) * g.conversion]

/-- The pose of wheel positions. -/
def poseOf (wheels : Fin 4 → K) : Pos K where
  xM := (wheels 0 + wheels 1 - wheels 2 - wheels 3) / 4 / g.conversion
  yM := (wheels 0 - wheels 1 - wheels 2 + wheels 3) / 4 / g.conversion
  zRad := -((wheels 0 + wheels 1 + wheels 2 + wheels 3) / g.halfAB / 4 / g.conversion)

/-- The wheel positions that a pose has are those in which the wheels on the two diagonals agree. -/
theorem diagonals_wheelsOf (pose : Pos K) :
    g.wheelsOf pose 0 + g.wheelsOf pose 2 = g.wheelsOf pose 1 + g.wheelsOf pose 3 := by
  show (pose.xM + pose.yM - pose.zRad * g.halfAB) * g.conversion +
      (-pose.xM - pose.yM - pose.zRad * g.halfAB) * g.conversion =
    (pose.xM - pose.yM - pose.zRad * g.halfAB) * g.conversion +
      (-pose.xM + pose.yM - pose.zRad * g.halfAB) * g.conversion
  ring

variable [CharZero K]

theorem conversion_ne : g.conversion ≠ 0 :=
  div_ne_zero (div_ne_zero (OfNat.ofNat_ne_zero 180) g.wheelR_ne) g.pi_ne

/-- **The pose of the wheel positions of a pose is this pose.** -/
theorem poseOf_wheelsOf (pose : Pos K) : g.poseOf (g.wheelsOf pose) = pose := by
  have factor := g.conversion_ne
  have half := g.halfAB_ne
  apply Pos.ext
  · show ((pose.xM + pose.yM - pose.zRad * g.halfAB) * g.conversion +
      (pose.xM - pose.yM - pose.zRad * g.halfAB) * g.conversion -
      (-pose.xM - pose.yM - pose.zRad * g.halfAB) * g.conversion -
      (-pose.xM + pose.yM - pose.zRad * g.halfAB) * g.conversion) / 4 / g.conversion = pose.xM
    field_simp
    ring
  · show ((pose.xM + pose.yM - pose.zRad * g.halfAB) * g.conversion -
      (pose.xM - pose.yM - pose.zRad * g.halfAB) * g.conversion -
      (-pose.xM - pose.yM - pose.zRad * g.halfAB) * g.conversion +
      (-pose.xM + pose.yM - pose.zRad * g.halfAB) * g.conversion) / 4 / g.conversion = pose.yM
    field_simp
    ring
  · show -(((pose.xM + pose.yM - pose.zRad * g.halfAB) * g.conversion +
      (pose.xM - pose.yM - pose.zRad * g.halfAB) * g.conversion +
      (-pose.xM - pose.yM - pose.zRad * g.halfAB) * g.conversion +
      (-pose.xM + pose.yM - pose.zRad * g.halfAB) * g.conversion) / g.halfAB / 4 /
      g.conversion) = pose.zRad
    field_simp
    ring

/-- **The wheels that do not slip.** The wheel positions of the pose of wheel positions are these
positions exactly if the sums on the two diagonals agree. -/
theorem wheelsOf_poseOf_iff (wheels : Fin 4 → K) :
    g.wheelsOf (g.poseOf wheels) = wheels ↔ wheels 0 + wheels 2 = wheels 1 + wheels 3 := by
  refine ⟨fun same => ?_, fun agree => ?_⟩
  · rw [← same]
    exact g.diagonals_wheelsOf (g.poseOf wheels)
  · have factor := g.conversion_ne
    have along : (g.poseOf wheels).xM * g.conversion =
        (wheels 0 + wheels 1 - wheels 2 - wheels 3) / 4 := div_mul_cancel₀ _ factor
    have across : (g.poseOf wheels).yM * g.conversion =
        (wheels 0 - wheels 1 - wheels 2 + wheels 3) / 4 := div_mul_cancel₀ _ factor
    have turn : (g.poseOf wheels).zRad * g.halfAB * g.conversion =
        -(wheels 0 + wheels 1 + wheels 2 + wheels 3) / 4 := by
      have half := g.halfAB_ne
      simp only [poseOf]
      field_simp
    funext wheel
    fin_cases wheel
    · show ((g.poseOf wheels).xM + (g.poseOf wheels).yM - (g.poseOf wheels).zRad * g.halfAB) *
        g.conversion = wheels 0
      linear_combination along + across - turn - agree / 4
    · show ((g.poseOf wheels).xM - (g.poseOf wheels).yM - (g.poseOf wheels).zRad * g.halfAB) *
        g.conversion = wheels 1
      linear_combination along - across - turn + agree / 4
    · show (-(g.poseOf wheels).xM - (g.poseOf wheels).yM - (g.poseOf wheels).zRad * g.halfAB) *
        g.conversion = wheels 2
      linear_combination -along - across - turn - agree / 4
    · show (-(g.poseOf wheels).xM + (g.poseOf wheels).yM - (g.poseOf wheels).zRad * g.halfAB) *
        g.conversion = wheels 3
      linear_combination -along + across - turn + agree / 4

end Geometry

end Kinematics

/-! ### The position mode of `module_mai` -/

section Module

variable {K : Type} [Field K] (g : Geometry K)

/-- The output direction writes the wheel positions of the target and the offset. -/
theorem moduleMai_wheels (chassis : State K) (data : MaiData K) :
    (moduleMai g chassis data true false .pos).2.wheels =
      g.wheelsOf (chassis.target.pos + chassis.offset.pos) := rfl

/-- The input direction adds the offset to the pose of the wheels. -/
theorem moduleMai_pos (chassis : State K) (data : MaiData K) :
    (moduleMai g chassis data false true .pos).1 =
      { chassis with present := { chassis.present with
          pos := chassis.offset.pos + g.poseOf data.wheels } } := by
  have read : (moduleMai g chassis data false true .pos).1.present.pos =
      chassis.offset.pos + g.poseOf data.wheels :=
    Pos.ext rfl rfl (sub_eq_add_neg _ _)
  rw [← read]
  rfl

theorem Pos.centred_add {origin : Pos K} (centred : origin = ⟨0, 0, 0⟩) (pose : Pos K) :
    origin + pose = pose := by
  rw [centred]
  exact Pos.ext (zero_add _) (zero_add _) (zero_add _)

variable [CharZero K] {chassis : State K}

/-- **The projection.** Without an offset the wheel positions of a target are read back as the
target, and wheel positions are those of the pose they are read as exactly if the sums on the two
diagonals agree. -/
theorem pos_projection (centred : chassis.offset.pos = ⟨0, 0, 0⟩) (data : MaiData K) :
    (moduleMai g chassis (moduleMai g chassis data true false .pos).2 false true
        .pos).1.present.pos = chassis.target.pos ∧
      ((moduleMai g
          (setPos (moduleMai g chassis data false true .pos).1
            (moduleMai g chassis data false true .pos).1.present.pos)
          data true false .pos).2.wheels = data.wheels ↔
        data.motor1 + data.motor3 = data.motor2 + data.motor4) := by
  have commanded : chassis.target.pos + chassis.offset.pos = chassis.target.pos :=
    Pos.add_eq_self.mpr centred
  have corrected : ∀ pose : Pos K, pose + chassis.offset.pos = pose :=
    fun pose => Pos.add_eq_self.mpr centred
  constructor
  · rw [moduleMai_pos, moduleMai_wheels, g.poseOf_wheelsOf, commanded]
    exact Pos.centred_add centred chassis.target.pos
  · rw [moduleMai_wheels, moduleMai_pos]
    show g.wheelsOf (chassis.offset.pos + g.poseOf data.wheels + chassis.offset.pos) = _ ↔ _
    rw [corrected, Pos.centred_add centred]
    exact g.wheelsOf_poseOf_iff data.wheels

end Module

/-- A chassis at rest in the origin with a position target. -/
def bound (pos : Pos ℚ) : State ℚ where
  target := ⟨⟨0, 0, 0⟩, pos⟩
  present := ⟨⟨0, 0, 0⟩, ⟨0, 0, 0⟩⟩
  runStatus := .pos
  offset := ⟨⟨0, 0, 0⟩, ⟨0, 0, 0⟩⟩

theorem pos_projection_slip :
    (moduleMai unitGeometry (bound ⟨1, 2, 3⟩)
        (moduleMai unitGeometry (bound ⟨1, 2, 3⟩) ⟨.idle, 1, 0, 0, 0⟩ true false .pos).2 false true
        .pos).1.present.pos = ⟨1, 2, 3⟩ ∧
      ((moduleMai unitGeometry
          (setPos (moduleMai unitGeometry (bound ⟨1, 2, 3⟩) ⟨.idle, 1, 0, 0, 0⟩ false true .pos).1
            (moduleMai unitGeometry (bound ⟨1, 2, 3⟩) ⟨.idle, 1, 0, 0, 0⟩ false true
              .pos).1.present.pos)
          ⟨.idle, 1, 0, 0, 0⟩ true false .pos).2.wheels = ![1, 0, 0, 0] ↔
        (1 : ℚ) + 0 = 0 + 0) := by
  have centred : (bound ⟨1, 2, 3⟩).offset.pos = ⟨0, 0, 0⟩ := rfl
  exact pos_projection unitGeometry centred ⟨.idle, 1, 0, 0, 0⟩

/-! ### The loop through the wheels -/

/-- An override of `chassis_updata_offset` that writes a pose offset. -/
def writeOffset {K : Type} (offset : Pos K) (chassis : State K) : State K :=
  { chassis with offset := { chassis.offset with pos := offset } }

-- The version in `chassis.c` writes the origin.
example {K : Type} [Zero K] : updataOffset (K := K) = writeOffset ⟨0, 0, 0⟩ := rfl

/-- A command is met if the wheel is where, or as fast as, it was told. -/
def MaiCommand.Met {K : Type} (reading : MaiReading K) : MaiCommand K → Prop
  | .setSpeed motor value => reading.speed motor = value
  | .setPos motor value => reading.pos motor = value

instance {K : Type} [DecidableEq K] (reading : MaiReading K) :
    DecidablePred (MaiCommand.Met reading)
  | .setSpeed motor value => inferInstanceAs (Decidable (reading.speed motor = value))
  | .setPos motor value => inferInstanceAs (Decidable (reading.pos motor = value))

/-- The chassis and its wheel record between two calls of `chassis_handle`, with the commands of the
last one. -/
structure Turn (K : Type) where
  chassis : State K
  date : MaiData K
  commands : List (MaiCommand K)

/-- The wheels reached in one step what they were told. -/
def Reached {K : Type} (turn : Turn K) (reading : MaiReading K) : Prop :=
  ∀ command ∈ turn.commands, command.Met reading

instance {K : Type} [DecidableEq K] (turn : Turn K) (reading : MaiReading K) :
    Decidable (Reached turn reading) :=
  inferInstanceAs (Decidable (∀ command ∈ turn.commands, command.Met reading))

section Loop

variable {K : Type} [Field K] (g : Geometry K) (offset : Pos K)

/-- Calls of `chassis_handle` with `ops_mai` and an override that writes one offset. -/
def loop : Machine (Turn K) (MaiReading K) (MaiCommand K) where
  step turn reading :=
    let (chassis, date, commands) :=
      handle (opsMai g) (writeOffset offset) turn.chassis turn.date reading
    some (⟨chassis, date, commands⟩, commands)

theorem updata_speed (chassis : State K) (date : MaiData K) (reading : MaiReading K) :
    ∃ speed date', updata (opsMai g) .speed chassis date reading =
      ({ chassis with present := ⟨speed, chassis.present.pos⟩ }, date') := ⟨_, _, rfl⟩

/-- The pose of the wheels becomes the present pose, with the offset. -/
theorem updata_pos (chassis : State K) (date : MaiData K) (reading : MaiReading K) :
    ∃ date', updata (opsMai g) .pos chassis date reading =
      ({ chassis with present :=
          ⟨chassis.present.speed, chassis.offset.pos + g.poseOf reading.pos⟩ }, date') := by
  have wheels : (driverMai date reading false true .pos).1.wheels = reading.pos := by
    funext motor
    fin_cases motor
    · rfl
    · rfl
    · rfl
    · rfl
  refine ⟨_, Prod.ext ?_ rfl⟩
  rw [← wheels]
  exact moduleMai_pos g chassis (driverMai date reading false true .pos).1

/-- The wheels are told the pose of the target and the offset. -/
theorem drvSet_pos (chassis : State K) (date : MaiData K) (reading : MaiReading K) :
    ∃ date', drvSet (opsMai g) .pos chassis date reading = (chassis, date',
      (List.finRange 4).map fun motor =>
        .setPos motor (g.wheelsOf (chassis.target.pos + chassis.offset.pos) motor)) := ⟨_, rfl⟩

/-- **A call in the position mode.** The pose of the wheels becomes the present pose with the offset
of the last call, and the wheels are told the pose of the target with the offset of this one. -/
theorem handle_pos {chassis : State K} (mode : chassis.runStatus = .pos) (date : MaiData K)
    (reading : MaiReading K) :
    ∃ speed date', handle (opsMai g) (writeOffset offset) chassis date reading =
      ({ chassis with
          present := ⟨speed, chassis.offset.pos + g.poseOf reading.pos⟩
          offset := { chassis.offset with pos := offset } }, date',
        (List.finRange 4).map fun motor =>
          .setPos motor (g.wheelsOf (chassis.target.pos + offset) motor)) := by
  obtain ⟨target, present, status, correction⟩ := chassis
  obtain rfl : status = .pos := mode
  obtain ⟨speed, early, fast⟩ :=
    updata_speed g ⟨target, present, .pos, correction⟩ date reading
  obtain ⟨late, placed⟩ :=
    updata_pos g ⟨target, ⟨speed, present.pos⟩, .pos, correction⟩ early reading
  obtain ⟨date', told⟩ := drvSet_pos g
    (writeOffset offset
      ⟨target, ⟨speed, correction.pos + g.poseOf reading.pos⟩, .pos, correction⟩) late reading
  refine ⟨speed, date', ?_⟩
  unfold handle
  simp only [fast, placed]
  exact told

variable {g offset} {turn next : Turn K} {reading : MaiReading K} {output : List (MaiCommand K)}

/-- A turn keeps the mode and the target, writes the offset and commands its pose. -/
theorem loop_step (mode : turn.chassis.runStatus = .pos)
    (step : (loop g offset).step turn reading = some (next, output)) :
    next.chassis.runStatus = .pos ∧ next.chassis.target = turn.chassis.target ∧
      next.chassis.offset.pos = offset ∧
      next.chassis.present.pos = turn.chassis.offset.pos + g.poseOf reading.pos ∧
      ∀ motor, .setPos motor (g.wheelsOf (turn.chassis.target.pos + offset) motor) ∈
        next.commands := by
  obtain ⟨speed, date', handled⟩ := handle_pos g offset mode turn.date reading
  simp only [loop, handled] at step
  obtain ⟨rfl, -⟩ := Prod.mk.inj (Option.some.inj step)
  exact ⟨mode, rfl, rfl, rfl, fun motor => List.mem_map.mpr ⟨motor, List.mem_finRange motor, rfl⟩⟩

variable (g offset) in
/-- What holds of the loop after some readings: from the first one on, the wheels are told the pose
of the target with the offset, and from the second one on this pose is reported with the offset
added once more. -/
structure Steered (target : Data K) (past : List (MaiReading K)) (turn : Turn K) : Prop where
  mode : turn.chassis.runStatus = .pos
  aimed : turn.chassis.target = target
  corrected : 1 ≤ past.length → turn.chassis.offset.pos = offset
  commanded : 1 ≤ past.length → ∀ motor,
    .setPos motor (g.wheelsOf (target.pos + offset) motor) ∈ turn.commands
  reported : 2 ≤ past.length → turn.chassis.present.pos = offset + (target.pos + offset)

variable [CharZero K]

/-- A call whose commands were reached keeps the loop steered. -/
theorem Steered.step {target : Data K} {past : List (MaiReading K)}
    (steered : Steered g offset target past turn) (reached : Reached turn reading)
    (step : (loop g offset).step turn reading = some (next, output)) :
    Steered g offset target (past ++ [reading]) next := by
  obtain ⟨mode, kept, written, placed, told⟩ := loop_step steered.mode step
  refine ⟨mode, kept.trans steered.aimed, fun _ => written, fun _ => ?_, fun two => ?_⟩
  · rw [← steered.aimed]
    exact told
  · rw [List.length_append, List.length_singleton] at two
    have turned := Nat.le_of_succ_le_succ two
    have wheels : reading.pos = g.wheelsOf (target.pos + offset) :=
      funext fun motor => reached _ (steered.commanded turned motor)
    rw [placed, steered.corrected turned, wheels, g.poseOf_wheelsOf]

/-- What is added twice without an effect is zero. -/
theorem added_twice {shift value : K} : shift + (value + shift) = value ↔ shift = 0 := by
  constructor
  · intro same
    have twice : 2 * shift = 0 := by linear_combination same
    exact (mul_eq_zero.mp twice).resolve_left two_ne_zero
  · rintro rfl
    rw [add_zero, zero_add]

/-- **The reported pose.** In the position mode, with wheels that reach in one step what they were
told, the present pose after the second call and after every later one is the target exactly if the
offset is zero. -/
theorem pose_reported_iff {chassis : State K} (mode : chassis.runStatus = .pos)
    {date : MaiData K} {readings : List (MaiReading K)} (turns : 2 ≤ readings.length)
    (run : (loop g offset).RunOn Reached ⟨chassis, date, []⟩ readings output next) :
    next.chassis.present.pos = chassis.target.pos ↔ offset = ⟨0, 0, 0⟩ := by
  have before : Steered g offset chassis.target [] ⟨chassis, date, []⟩ :=
    ⟨mode, rfl, fun one => absurd one (by simp), fun one => absurd one (by simp),
      fun two => absurd two (by simp)⟩
  have after := Machine.RunOn.history (Steered g offset chassis.target)
    (fun _ _ _ _ _ reached steered step => steered.step reached step) run [] before
  rw [after.reported turns, Pos.ext_iff, Pos.ext_iff]
  exact and_congr added_twice (and_congr added_twice added_twice)

end Loop

/-! ### A turn with and without an offset -/

/-- Wheels at rest, then wheels that stand where a chassis is `metres` ahead. -/
def ahead (metres : ℚ) : List (MaiReading ℚ) :=
  [⟨fun _ => 0, fun _ => 0⟩, ⟨fun _ => 0, unitGeometry.wheelsOf ⟨metres, 0, 0⟩⟩]

/-- Without an offset, a chassis that was told to go a metre ahead reports this. -/
theorem pose_reported_iff_centred :
    ∃ outs next, (loop unitGeometry ⟨0, 0, 0⟩).RunOn Reached
      ⟨bound ⟨1, 0, 0⟩, ⟨.idle, 0, 0, 0, 0⟩, []⟩ (ahead 1) outs next ∧
      next.chassis.present.pos = ⟨1, 0, 0⟩ := by
  obtain ⟨outs, next, run, -⟩ := Machine.exists_run (loop unitGeometry ⟨0, 0, 0⟩) Reached
    ⟨bound ⟨1, 0, 0⟩, ⟨.idle, 0, 0, 0, 0⟩, []⟩ (ahead 1) (fun _ _ => true) (by decide +kernel)
  have mode : (bound ⟨1, 0, 0⟩).runStatus = .pos := rfl
  have turns : 2 ≤ (ahead 1).length := Nat.le_refl 2
  exact ⟨outs, next, run, (pose_reported_iff mode turns run).mpr rfl⟩

/-- **An offset of a metre is reported as two.** -/
theorem offset_reported :
    ∃ outs next, (loop unitGeometry ⟨1, 0, 0⟩).RunOn Reached
      ⟨bound ⟨1, 0, 0⟩, ⟨.idle, 0, 0, 0, 0⟩, []⟩ (ahead 2) outs next ∧
      next.chassis.present.pos = ⟨3, 0, 0⟩ ∧
      (⟨3, 0, 0⟩ : Pos ℚ) ≠ (bound ⟨1, 0, 0⟩).target.pos := by
  obtain ⟨outs, next, run, reported⟩ := Machine.exists_run (loop unitGeometry ⟨1, 0, 0⟩) Reached
    ⟨bound ⟨1, 0, 0⟩, ⟨.idle, 0, 0, 0, 0⟩, []⟩ (ahead 2)
    (fun next _ => decide (next.chassis.present.pos = ⟨3, 0, 0⟩)) (by decide +kernel)
  exact ⟨outs, next, run, of_decide_eq_true reported, by decide +kernel⟩

end Robocon.Chassis
