/-
**The chassis with three omni wheels (`chassis_module_omni3.c`).**

`moduleOmni3` converts a speed or a position of the chassis into those of the three wheels
(`output`) and back (`input`); `driverOmni3` hands them to the motors.

* `feedback_wired` — what the wheels of a target are read back as, for every assignment of the
  motors: after a turn of the plane or a reflection.
* `rotation_iff`, `reflection_iff` — the motions that a turn and a reflection of the plane, with a
  factor, leave alone.
* `reports_iff` — when the chassis reports what it was told.

The input direction gives the axes in each other's place; `W2M_POS` multiplies by what it should
divide by; and `driver_omni3` commands the motors `MOTOR_MAI_ID_1 … 3` where it reads
`MOTOR_OMNI3_ID_1 … 3`.
-/

import Robocon.Chassis.Layer

namespace Robocon.Chassis

/-! ### Module and driver -/

/-- The constants of the chassis: `GEN3`, `M_PI`, `L` and `R`. -/
structure Omni3Geometry (K : Type) [Field K] where
  gen3 : K
  pi : K
  l : K
  r : K
  gen3_sq : gen3 * gen3 = 3
  pi_ne : pi ≠ 0
  l_ne : l ≠ 0
  r_ne : r ≠ 0

/-- `chassis_omni3_data_t`. -/
structure Omni3Data (K : Type) where
  type : Status
  motora : K
  motorb : K
  motorc : K

/-- The motors `MOTOR_MAI_ID_1 … MOTOR_MAI_ID_3`, and three distinct motors
`MOTOR_OMNI3_ID_1 … MOTOR_OMNI3_ID_3`. -/
structure Motors (Motor : Type) where
  mai : Fin 3 → Motor
  omni3 : Fin 3 → Motor
  distinct : Function.Injective omni3

/-- What the motors report. -/
structure MotorReading (K Motor : Type) where
  speed : Motor → K
  pos : Motor → K

/-- The calls `motor_set_speed` and `motor_set_pos`. -/
inductive MotorCommand (K Motor : Type)
  | setSpeed (motor : Motor) (value : K)
  | setPos (motor : Motor) (value : K)

section Module

variable {K Motor : Type} [Field K] (g : Omni3Geometry K) (ids : Motors Motor)

namespace Omni3Geometry

def m2wSpeed (motorSpeed : K) : K := 2 * g.pi * g.r * motorSpeed / 60

def m2wPos (motorPos : K) : K := g.m2wSpeed motorPos

def w2mSpeed (wheelSpeed : K) : K := wheelSpeed * 60 / (2 * g.pi * g.r)

def w2mPos (wheelPos : K) : K := g.m2wSpeed wheelPos

end Omni3Geometry

/-- The output direction of `module_omni3`. -/
def moduleOmni3Output (chassis : State K) (data : Omni3Data K) (requireCmd : Status) :
    Omni3Data K :=
  let data := { data with type := requireCmd }
  match requireCmd with
  | .speed =>
    let x := chassis.target.speed.xMS + chassis.offset.speed.xMS
    let y := chassis.target.speed.yMS + chassis.offset.speed.yMS
    let z := chassis.target.speed.zRadS + chassis.offset.speed.zRadS
    { data with
      motora := g.w2mSpeed (-(1 / 2) * (x - g.gen3 * y) + g.l * z)
      motorb := g.w2mSpeed (-(1 / 2) * (x + g.gen3 * y) + g.l * z)
      motorc := g.w2mSpeed (x + g.l * z) }
  | .pos =>
    let x := chassis.target.pos.xM + chassis.offset.pos.xM
    let y := chassis.target.pos.yM + chassis.offset.pos.yM
    let z := chassis.target.pos.zRad + chassis.offset.pos.zRad
    { data with
      motora := g.w2mPos (-(1 / 2) * (x - g.gen3 * y) + g.l * z)
      motorb := g.w2mPos (-(1 / 2) * (x + g.gen3 * y) + g.l * z)
      motorc := g.w2mPos (x + g.l * z) }
  | .idle => data

/-- The input direction of `module_omni3`. -/
def moduleOmni3Input (chassis : State K) (data : Omni3Data K) (requireCmd : Status) : State K :=
  match requireCmd with
  | .speed =>
    { chassis with present := { chassis.present with speed := {
        xMS := chassis.offset.speed.xMS + g.gen3 * g.m2wSpeed (data.motora - data.motorb) / 3
        yMS := chassis.offset.speed.yMS +
          g.m2wSpeed (data.motora + data.motorb - 2 * data.motorc) / 3
        zRadS := chassis.offset.speed.zRadS +
          g.m2wSpeed (data.motora + data.motorb + data.motorc) / (3 * g.l) } } }
  | .pos =>
    { chassis with present := { chassis.present with pos := {
        xM := chassis.offset.speed.xMS + g.gen3 * g.m2wPos (data.motora - data.motorb) / 3
        yM := chassis.offset.speed.yMS +
          g.m2wPos (data.motora + data.motorb - 2 * data.motorc) / 3
        zRad := chassis.offset.speed.zRadS +
          g.m2wPos (data.motora + data.motorb + data.motorc) / (3 * g.l) } } }
  | .idle => chassis

def moduleOmni3 (chassis : State K) (data : Omni3Data K) (output input : Bool)
    (requireCmd : Status) : State K × Omni3Data K :=
  let data := if output then moduleOmni3Output g chassis data requireCmd else data
  let chassis := if input then moduleOmni3Input g chassis data requireCmd else chassis
  (chassis, data)

def driverOmni3 (data : Omni3Data K) (reading : MotorReading K Motor) (output input : Bool)
    (requireCmd : Status) : Omni3Data K × List (MotorCommand K Motor) :=
  let data :=
    if input then
      match requireCmd with
      | .speed => { data with
          motora := reading.speed (ids.omni3 0), motorb := reading.speed (ids.omni3 1),
          motorc := reading.speed (ids.omni3 2) }
      | .pos => { data with
          motora := reading.pos (ids.omni3 0), motorb := reading.pos (ids.omni3 1),
          motorc := reading.pos (ids.omni3 2) }
      | .idle => data
    else data
  let commands :=
    if output then
      match requireCmd with
      | .speed => [.setSpeed (ids.mai 0) data.motora, .setSpeed (ids.mai 1) data.motorb,
          .setSpeed (ids.mai 2) data.motorc]
      | .pos => [.setPos (ids.mai 0) data.motora, .setPos (ids.mai 1) data.motorb,
          .setPos (ids.mai 2) data.motorc]
      | .idle => []
    else []
  (data, commands)

def opsOmni3 : Ops K (Omni3Data K) (MotorReading K Motor) (MotorCommand K Motor) where
  moduleOp := moduleOmni3 g
  driverOp := driverOmni3 ids

end Module

/-! ### What is told and what is reported -/

section Report

variable {K Motor : Type}

/-- The motion of a chassis in a mode. -/
def Data.motion (data : Data K) : Status → K × K × K
  | .pos => (data.pos.xM, data.pos.yM, data.pos.zRad)
  | _ => (data.speed.xMS, data.speed.yMS, data.speed.zRadS)

/-- What is measured of a motor in a mode. -/
def MotorReading.measured (reading : MotorReading K Motor) : Status → Motor → K
  | .pos => reading.pos
  | _ => reading.speed

variable [DecidableEq Motor]

/-- What a motor is told in a mode, after one more command. -/
def MotorCommand.apply (cmd : Status) (motor : Motor) (told : Option K) :
    MotorCommand K Motor → Option K
  | .setSpeed m value => if m = motor ∧ cmd = .speed then some value else told
  | .setPos m value => if m = motor ∧ cmd = .pos then some value else told

/-- The value commanded to a motor in a mode. -/
def commanded (cmd : Status) (commands : List (MotorCommand K Motor)) (motor : Motor) : Option K :=
  commands.foldl (MotorCommand.apply cmd motor) none

/-- Each motor's measured value is the value commanded to it. -/
def Follows (cmd : Status) (commands : List (MotorCommand K Motor))
    (reading : MotorReading K Motor) : Prop :=
  ∀ motor value, commanded cmd commands motor = some value → reading.measured cmd motor = value

variable [Field K] (g : Omni3Geometry K) (ids : Motors Motor)

/-- **The chassis reports what it was told**, if the motors follow their commands. -/
def Reports (cmd : Status) (chassis : State K) (date : Omni3Data K)
    (before : MotorReading K Motor) : Prop :=
  let told := drvSet (opsOmni3 g ids) cmd chassis date before
  ∀ after, Follows cmd told.2.2 after →
    (updata (opsOmni3 g ids) cmd told.1 told.2.1 after).1.present.motion cmd =
      chassis.target.motion cmd

end Report

/-! ### The plane -/

section Plane

variable {K : Type} [Field K] [LinearOrder K] [IsStrictOrderedRing K]

/-- A turn of the plane that moves the first axis, with a positive factor, leaves only the origin
alone. -/
theorem rotation_iff {c s factor : K} (turns : s ≠ 0) (positive : 0 < factor) (x y : K) :
    factor * (c * x - s * y) = x ∧ factor * (s * x + c * y) = y ↔ x = 0 ∧ y = 0 := by
  refine ⟨fun ⟨first, second⟩ => ?_, ?_⟩
  · have determinant : (1 - factor * c) ^ 2 + (factor * s) ^ 2 ≠ 0 := by
      have moved : 0 < (factor * s) ^ 2 := by positivity
      positivity
    refine ⟨(mul_eq_zero.mp ?_).resolve_left determinant,
      (mul_eq_zero.mp ?_).resolve_left determinant⟩
    · linear_combination (-(1 - factor * c)) * first + (factor * s) * second
    · linear_combination (-(1 - factor * c)) * second - (factor * s) * first
  · rintro ⟨rfl, rfl⟩
    simp

/-- A reflection of the plane, with a positive factor, leaves the origin alone, and its axis if the
factor is `1`. -/
theorem reflection_iff {c s factor : K} (unit : c ^ 2 + s ^ 2 = 1) (turns : s ≠ 0)
    (positive : 0 < factor) (x y : K) :
    factor * (c * x + s * y) = x ∧ factor * (s * x - c * y) = y ↔
      x = 0 ∧ y = 0 ∨ factor = 1 ∧ (1 - c) * x = s * y := by
  refine ⟨fun ⟨first, second⟩ => ?_, ?_⟩
  · by_cases one : factor = 1
    · subst one
      exact Or.inr ⟨rfl, by linear_combination -first⟩
    · have square : 1 - factor ^ 2 ≠ 0 := by
        intro zero
        have product : (1 - factor) * (1 + factor) = 0 := by linear_combination zero
        rcases mul_eq_zero.mp product with same | negative
        · exact one (by linear_combination -same)
        · linarith
      refine Or.inl ⟨(mul_eq_zero.mp ?_).resolve_left square,
        (mul_eq_zero.mp ?_).resolve_left square⟩
      · linear_combination (-1 - factor * c) * first - factor * s * second + factor ^ 2 * x * unit
      · linear_combination (-1 + factor * c) * second - factor * s * first + factor ^ 2 * y * unit
  · rintro (⟨rfl, rfl⟩ | ⟨rfl, line⟩)
    · simp
    · refine ⟨by linear_combination -line, mul_left_cancel₀ turns ?_⟩
      linear_combination (1 + c) * line + x * unit

theorem scale_iff (factor z : K) : factor * z = z ↔ z = 0 ∨ factor = 1 := by
  refine ⟨fun same => ?_, ?_⟩
  · have product : z * (factor - 1) = 0 := by linear_combination same
    exact (mul_eq_zero.mp product).imp id sub_eq_zero.mp
  · rintro (rfl | rfl)
    · exact mul_zero _
    · exact one_mul _

end Plane

/-! ### Which motors are told -/

section Motors

variable {K Motor : Type} (ids : Motors Motor)

/-- The commands of a mode. -/
def tell (cmd : Status) (value : Fin 3 → K) : List (MotorCommand K Motor) :=
  match cmd with
  | .speed => [.setSpeed (ids.mai 0) (value 0), .setSpeed (ids.mai 1) (value 1),
      .setSpeed (ids.mai 2) (value 2)]
  | .pos => [.setPos (ids.mai 0) (value 0), .setPos (ids.mai 1) (value 1),
      .setPos (ids.mai 2) (value 2)]
  | .idle => []

/-- Every motor is told something only if the motors that are told are those that are read. -/
theorem wired_or :
    (∃ i, ∀ j, ids.mai j ≠ ids.omni3 i) ∨
      ∃ σ : Equiv.Perm (Fin 3), ∀ j, ids.mai j = ids.omni3 (σ j) := by
  by_cases missing : ∃ i, ∀ j, ids.mai j ≠ ids.omni3 i
  · exact Or.inl missing
  · push Not at missing
    choose wheel same using missing
    have injective : Function.Injective wheel := by
      intro i i' equal
      refine ids.distinct ?_
      rw [← same, ← same, equal]
    let τ := Equiv.ofBijective wheel (Finite.injective_iff_bijective.mp injective)
    refine Or.inr ⟨τ.symm, fun j => ?_⟩
    rw [← same]
    exact congrArg ids.mai (τ.apply_symm_apply j).symm

/-- What is read when the motors are assigned by a permutation. -/
theorem read_eq {σ : Equiv.Perm (Fin 3)} {a b c : Fin 3} (first : σ.symm 0 = a)
    (second : σ.symm 1 = b) (third : σ.symm 2 = c) (value : Fin 3 → K) :
    (fun i => value (σ.symm i)) = ![value a, value b, value c] := by
  subst first second third
  funext i
  fin_cases i <;> rfl

variable [DecidableEq Motor] {cmd : Status}

/-- A motor that no command names is told nothing. -/
theorem commanded_none {motor : Motor} (unnamed : ∀ j, ids.mai j ≠ motor) (cmd : Status)
    (value : Fin 3 → K) : commanded cmd (tell ids cmd value) motor = none := by
  cases cmd <;> simp [commanded, tell, MotorCommand.apply, unnamed]

/-- Distinct motors are each told their own value. -/
theorem commanded_mai (apart : Function.Injective ids.mai) (moves : cmd ≠ .idle)
    (value : Fin 3 → K) (j : Fin 3) :
    commanded cmd (tell ids cmd value) (ids.mai j) = some (value j) := by
  cases cmd with
  | idle => exact absurd rfl moves
  | speed =>
    fin_cases j <;> simp [commanded, tell, MotorCommand.apply, apart.eq_iff]
  | pos =>
    fin_cases j <;> simp [commanded, tell, MotorCommand.apply, apart.eq_iff]

end Motors

/-! ### What the wheels are told -/

section Wheels

variable {K Motor : Type} [Field K] (g : Omni3Geometry K) (ids : Motors Motor)

namespace Omni3Geometry

/-- The speed of a wheel for a revolution a minute. -/
def rate : K := 2 * g.pi * g.r / 60

/-- The factor that the output direction puts on a wheel. -/
def told : Status → K
  | .pos => g.rate
  | _ => 1 / g.rate

/-- The factor between what is told and what is read back. -/
def factor : Status → K
  | .pos => g.rate ^ 2
  | _ => 1

end Omni3Geometry

/-- The wheels of a motion. -/
def wheels (cmd : Status) (motion : K × K × K) : Fin 3 → K :=
  ![g.told cmd * (-(1 / 2) * (motion.1 - g.gen3 * motion.2.1) + g.l * motion.2.2),
    g.told cmd * (-(1 / 2) * (motion.1 + g.gen3 * motion.2.1) + g.l * motion.2.2),
    g.told cmd * (motion.1 + g.l * motion.2.2)]

/-- The motion that wheels are read back as. -/
def feedback (read : Fin 3 → K) : K × K × K :=
  (g.gen3 * (g.rate * (read 0 - read 1)) / 3, g.rate * (read 0 + read 1 - 2 * read 2) / 3,
    g.rate * (read 0 + read 1 + read 2) / (3 * g.l))

theorem w2mSpeed_eq (value : K) : g.w2mSpeed value = g.told .speed * value := by
  show value * 60 / (2 * g.pi * g.r) = 1 / (2 * g.pi * g.r / 60) * value
  rw [one_div_div]
  ring

theorem m2wSpeed_eq (value : K) : g.m2wSpeed value = g.rate * value := by
  show 2 * g.pi * g.r * value / 60 = 2 * g.pi * g.r / 60 * value
  ring

variable {chassis : State K}

/-- The output direction tells the motors the wheels of the target. -/
theorem drvSet_tells (centred : chassis.offset = ⟨⟨0, 0, 0⟩, ⟨0, 0, 0⟩⟩) (cmd : Status)
    (date : Omni3Data K) (before : MotorReading K Motor) :
    (drvSet (opsOmni3 g ids) cmd chassis date before).2.2 =
      tell ids cmd (wheels g cmd (chassis.target.motion cmd)) := by
  cases cmd with
  | idle => rfl
  | speed =>
    simp [drvSet, opsOmni3, moduleOmni3, moduleOmni3Output, driverOmni3, tell, wheels, centred,
      w2mSpeed_eq, Data.motion]
  | pos =>
    simp [drvSet, opsOmni3, moduleOmni3, moduleOmni3Output, driverOmni3, tell, wheels, centred,
      Omni3Geometry.w2mPos, m2wSpeed_eq, Data.motion, Omni3Geometry.told]

variable {cmd : Status}

/-- The input direction reports the motion of the wheels. -/
theorem updata_motion (centred : chassis.offset = ⟨⟨0, 0, 0⟩, ⟨0, 0, 0⟩⟩) (moves : cmd ≠ .idle)
    (date : Omni3Data K) (after : MotorReading K Motor) :
    (updata (opsOmni3 g ids) cmd chassis date after).1.present.motion cmd =
      feedback g fun i => after.measured cmd (ids.omni3 i) := by
  cases cmd with
  | idle => exact absurd rfl moves
  | speed =>
    simp [updata, opsOmni3, moduleOmni3, moduleOmni3Input, driverOmni3, feedback, centred,
      m2wSpeed_eq, Data.motion, MotorReading.measured]
  | pos =>
    simp [updata, opsOmni3, moduleOmni3, moduleOmni3Input, driverOmni3, feedback, centred,
      Omni3Geometry.m2wPos, m2wSpeed_eq, Data.motion, MotorReading.measured]

/-! ### The motors follow -/

variable [DecidableEq Motor]

theorem reports_wheels (centred : chassis.offset = ⟨⟨0, 0, 0⟩, ⟨0, 0, 0⟩⟩) (moves : cmd ≠ .idle)
    (date : Omni3Data K) (before : MotorReading K Motor) :
    Reports g ids cmd chassis date before ↔
      ∀ after : MotorReading K Motor,
        Follows cmd (tell ids cmd (wheels g cmd (chassis.target.motion cmd))) after →
          feedback g (fun i => after.measured cmd (ids.omni3 i)) = chassis.target.motion cmd := by
  have same : (drvSet (opsOmni3 g ids) cmd chassis date before).1 = chassis := rfl
  have tells := drvSet_tells g ids centred cmd date before
  show (∀ after, Follows cmd (drvSet (opsOmni3 g ids) cmd chassis date before).2.2 after → _) ↔ _
  rw [tells]
  refine forall₂_congr fun after _ => ?_
  rw [same, updata_motion g ids centred moves]

/-- Each wheel is read as the one that its motor was told to be. -/
theorem reports_wired {σ : Equiv.Perm (Fin 3)} (wired : ∀ j, ids.mai j = ids.omni3 (σ j))
    (moves : cmd ≠ .idle) (value : Fin 3 → K) (target : K × K × K) :
    (∀ after : MotorReading K Motor, Follows cmd (tell ids cmd value) after →
      feedback g (fun i => after.measured cmd (ids.omni3 i)) = target) ↔
        feedback g (fun i => value (σ.symm i)) = target := by
  have apart : Function.Injective ids.mai := by
    intro j j' same
    rw [wired, wired] at same
    exact σ.injective (ids.distinct same)
  have own : ∀ i, ids.omni3 i = ids.mai (σ.symm i) := by
    intro i
    rw [wired, Equiv.apply_symm_apply]
  refine ⟨fun reports => ?_, fun same after follows => ?_⟩
  · let measured : Motor → K := fun motor => (commanded cmd (tell ids cmd value) motor).getD 0
    let after : MotorReading K Motor := ⟨measured, measured⟩
    have reading : ∀ motor, after.measured cmd motor = measured motor := by
      cases cmd <;> exact fun _ => rfl
    have follows : Follows cmd (tell ids cmd value) after := by
      intro motor told here
      rw [reading]
      show (commanded cmd (tell ids cmd value) motor).getD 0 = told
      rw [here]
      rfl
    rw [← reports after follows]
    congr 1
    funext i
    rw [reading, own]
    show _ = (commanded cmd (tell ids cmd value) _).getD 0
    rw [commanded_mai ids apart moves]
    rfl
  · rw [← same]
    congr 1
    funext i
    rw [own]
    exact follows _ _ (commanded_mai ids apart moves value _)

variable [LinearOrder K] [IsStrictOrderedRing K]

omit [DecidableEq Motor] in
theorem Omni3Geometry.rate_ne : g.rate ≠ 0 :=
  div_ne_zero (mul_ne_zero (mul_ne_zero two_ne_zero g.pi_ne) g.r_ne) (by norm_num)

omit [DecidableEq Motor] in
theorem Omni3Geometry.gen3_ne : g.gen3 ≠ 0 := by
  intro zero
  have square := g.gen3_sq
  rw [zero, mul_zero] at square
  norm_num at square

/-- One wheel that is read differently changes the motion. -/
theorem feedback_ne {read read' : Fin 3 → K} {i : Fin 3} (others : ∀ j, j ≠ i → read j = read' j)
    (differs : read i ≠ read' i) : feedback g read ≠ feedback g read' := by
  intro same
  obtain ⟨first, rest⟩ := Prod.mk.inj same
  obtain ⟨second, -⟩ := Prod.mk.inj rest
  have rate := g.rate_ne
  have gen3 := g.gen3_ne
  refine differs ?_
  have each : ∀ i : Fin 3, i = 0 ∨ i = 1 ∨ i = 2 := by decide
  obtain rfl | rfl | rfl := each i
  · have b := others 1 (by decide)
    field_simp at first
    linear_combination first + b
  · have a := others 0 (by decide)
    field_simp at first
    linear_combination a - first
  · have a := others 0 (by decide)
    have b := others 1 (by decide)
    field_simp at second
    linear_combination (a + b - second) / 2

/-- A motor that is told nothing may measure anything. -/
theorem not_reports {i : Fin 3} (unnamed : ∀ j, ids.mai j ≠ ids.omni3 i) (value : Fin 3 → K)
    (target : K × K × K) :
    ¬ ∀ after : MotorReading K Motor, Follows cmd (tell ids cmd value) after →
      feedback g (fun i => after.measured cmd (ids.omni3 i)) = target := by
  intro reports
  let measured (v : K) : Motor → K := fun motor =>
    if motor = ids.omni3 i then v else (commanded cmd (tell ids cmd value) motor).getD 0
  let after (v : K) : MotorReading K Motor := ⟨measured v, measured v⟩
  have reading : ∀ v motor, (after v).measured cmd motor = measured v motor := by
    cases cmd <;> exact fun _ _ => rfl
  have follows : ∀ v, Follows cmd (tell ids cmd value) (after v) := by
    intro v motor told here
    have other : motor ≠ ids.omni3 i := by
      rintro rfl
      rw [commanded_none ids unnamed] at here
      cases here
    rw [reading]
    show (if motor = ids.omni3 i then v else _) = told
    rw [if_neg other, here]
    rfl
  refine feedback_ne g (i := i) (fun j other => ?_) ?_
    ((reports (after 0) (follows 0)).trans (reports (after 1) (follows 1)).symm)
  · rw [reading, reading]
    have apart : ids.omni3 j ≠ ids.omni3 i := ids.distinct.ne other
    show (if _ then _ else _) = if _ then _ else _
    rw [if_neg apart, if_neg apart]
  · rw [reading, reading]
    show (if _ then _ else _) ≠ if _ then _ else _
    rw [if_pos rfl, if_pos rfl]
    exact zero_ne_one

/-! ### The turns and reflections -/

/-- The motors are exchanged so that the chassis reports a reflection of the plane, whose axis the
motion lies on; otherwise it reports a turn, which leaves only the origin alone. -/
def OnAxis (σ : Equiv.Perm (Fin 3)) (x y : K) : Prop :=
  if σ = Equiv.swap 0 1 then x = -y
  else if σ = Equiv.swap 0 2 then y = (2 - g.gen3) * x
  else if σ = Equiv.swap 1 2 then y = (2 + g.gen3) * x
  else x = 0 ∧ y = 0

/-- The motions that are reported as they are told. -/
def Straight (σ : Equiv.Perm (Fin 3)) (factor : K) (motion : K × K × K) : Prop :=
  (motion.1 = 0 ∧ motion.2.1 = 0 ∨ factor = 1 ∧ OnAxis g σ motion.1 motion.2.1) ∧
    (motion.2.2 = 0 ∨ factor = 1)

theorem Omni3Geometry.told_mul (cmd : Status) : g.rate * g.told cmd = g.factor cmd := by
  have rate := g.rate_ne
  cases cmd with
  | pos => exact (sq g.rate).symm
  | speed => exact mul_one_div_cancel rate
  | idle => exact mul_one_div_cancel rate

theorem Omni3Geometry.factor_pos (cmd : Status) : 0 < g.factor cmd := by
  have rate := g.rate_ne
  cases cmd with
  | pos =>
    show 0 < g.rate ^ 2
    positivity
  | speed => exact one_pos
  | idle => exact one_pos

theorem perm_cases : ∀ σ : Equiv.Perm (Fin 3), σ = Equiv.swap 0 1 ∨ σ = Equiv.swap 0 2 ∨
    σ = Equiv.swap 1 2 ∨ σ = 1 ∨ σ = finRotate 3 ∨ σ = (finRotate 3)⁻¹ := by
  decide

/-- The turn after which a motion is read back, or the reflection. -/
theorem feedback_wired (cmd : Status) (x y z : K) :
    let f := g.factor cmd
    let w := wheels g cmd (x, y, z)
    feedback g ![w 0, w 1, w 2] = (f * (0 * x - (-1) * y), f * (-1 * x + 0 * y), f * z) ∧
    feedback g ![w 1, w 2, w 0] = (f * (-g.gen3 / 2 * x - 1 / 2 * y),
      f * (1 / 2 * x + -g.gen3 / 2 * y), f * z) ∧
    feedback g ![w 2, w 0, w 1] = (f * (g.gen3 / 2 * x - 1 / 2 * y),
      f * (1 / 2 * x + g.gen3 / 2 * y), f * z) ∧
    feedback g ![w 1, w 0, w 2] = (f * (0 * x + (-1) * y), f * (-1 * x - 0 * y), f * z) ∧
    feedback g ![w 2, w 1, w 0] = (f * (g.gen3 / 2 * x + 1 / 2 * y),
      f * (1 / 2 * x - g.gen3 / 2 * y), f * z) ∧
    feedback g ![w 0, w 2, w 1] = (f * (-g.gen3 / 2 * x + 1 / 2 * y),
      f * (1 / 2 * x - -g.gen3 / 2 * y), f * z) := by
  have square := g.gen3_sq
  have l := g.l_ne
  rw [← g.told_mul cmd]
  simp only [feedback, wheels, Matrix.cons_val, Prod.mk.injEq]
  refine ⟨⟨?_, by ring, by field_simp; ring⟩, ⟨?_, by ring, by field_simp; ring⟩,
    ⟨?_, by ring, by field_simp; ring⟩, ⟨?_, by ring, by field_simp; ring⟩,
    ⟨?_, by ring, by field_simp; ring⟩, ?_, by ring, by field_simp; ring⟩
  · linear_combination (g.rate * g.told cmd * y / 3) * square
  · linear_combination (-(g.rate * g.told cmd * y / 6)) * square
  · linear_combination (-(g.rate * g.told cmd * y / 6)) * square
  · linear_combination (-(g.rate * g.told cmd * y / 3)) * square
  · linear_combination (g.rate * g.told cmd * y / 6) * square
  · linear_combination (g.rate * g.told cmd * y / 6) * square

/-- **The motions that are read back as they are told.** -/
theorem feedback_iff (σ : Equiv.Perm (Fin 3)) (cmd : Status) (motion : K × K × K) :
    feedback g (fun i => wheels g cmd motion (σ.symm i)) = motion ↔
      Straight g σ (g.factor cmd) motion := by
  obtain ⟨x, y, z⟩ := motion
  have positive := g.factor_pos cmd
  have square := g.gen3_sq
  obtain ⟨same, next, last, first, second, third⟩ := feedback_wired g cmd x y z
  have turn : ∀ {read : Fin 3 → K} {c s : K}, s ≠ 0 →
      feedback g read = (g.factor cmd * (c * x - s * y), g.factor cmd * (s * x + c * y),
        g.factor cmd * z) → (feedback g read = (x, y, z) ↔
          (x = 0 ∧ y = 0) ∧ (z = 0 ∨ g.factor cmd = 1)) := by
    intro read c s turns got
    rw [got, Prod.mk.injEq, Prod.mk.injEq, ← and_assoc, rotation_iff turns positive, scale_iff]
  have mirror : ∀ {read : Fin 3 → K} {c s : K}, c ^ 2 + s ^ 2 = 1 → s ≠ 0 →
      feedback g read = (g.factor cmd * (c * x + s * y), g.factor cmd * (s * x - c * y),
        g.factor cmd * z) → (feedback g read = (x, y, z) ↔
          (x = 0 ∧ y = 0 ∨ g.factor cmd = 1 ∧ (1 - c) * x = s * y) ∧
            (z = 0 ∨ g.factor cmd = 1)) := by
    intro read c s unit turns got
    rw [got, Prod.mk.injEq, Prod.mk.injEq, ← and_assoc, reflection_iff unit turns positive,
      scale_iff]
  have half : (1 / 2 : K) ≠ 0 := by norm_num
  have still : (x = 0 ∧ y = 0 ∨ g.factor cmd = 1 ∧ x = 0 ∧ y = 0) ↔ x = 0 ∧ y = 0 :=
    or_iff_left_of_imp And.right
  unfold Straight OnAxis
  obtain rfl | rfl | rfl | rfl | rfl | rfl := perm_cases σ
  · rw [read_eq (a := 1) (b := 0) (c := 2) (by decide) (by decide) (by decide),
      mirror (by norm_num) (by norm_num) first, if_pos rfl]
    have axis : (1 - 0) * x = -1 * y ↔ x = -y := by
      rw [sub_zero, one_mul, neg_one_mul]
    rw [axis]
  · rw [read_eq (a := 2) (b := 1) (c := 0) (by decide) (by decide) (by decide),
      mirror (by linear_combination square / 4) half second, if_neg (by decide), if_pos rfl]
    have axis : (1 - g.gen3 / 2) * x = 1 / 2 * y ↔ y = (2 - g.gen3) * x :=
      ⟨fun line => by linear_combination -2 * line, fun line => by linear_combination -line / 2⟩
    rw [axis]
  · rw [read_eq (a := 0) (b := 2) (c := 1) (by decide) (by decide) (by decide),
      mirror (by linear_combination square / 4) half third, if_neg (by decide),
      if_neg (by decide), if_pos rfl]
    have axis : (1 - -g.gen3 / 2) * x = 1 / 2 * y ↔ y = (2 + g.gen3) * x :=
      ⟨fun line => by linear_combination -2 * line, fun line => by linear_combination -line / 2⟩
    rw [axis]
  · rw [read_eq (a := 0) (b := 1) (c := 2) (by decide) (by decide) (by decide),
      turn (by norm_num) same, if_neg (by decide), if_neg (by decide), if_neg (by decide), still]
  · rw [read_eq (a := 2) (b := 0) (c := 1) (by decide) (by decide) (by decide),
      turn half last, if_neg (by decide), if_neg (by decide), if_neg (by decide), still]
  · rw [read_eq (a := 1) (b := 2) (c := 0) (by decide) (by decide) (by decide),
      turn half next, if_neg (by decide), if_neg (by decide), if_neg (by decide), still]

/-- **The chassis reports what it was told** exactly if it commands the motors that it reads and, as
these are assigned, the motion is straight. -/
theorem reports_iff (centred : chassis.offset = ⟨⟨0, 0, 0⟩, ⟨0, 0, 0⟩⟩) (moves : cmd ≠ .idle)
    (date : Omni3Data K) (before : MotorReading K Motor) :
    Reports g ids cmd chassis date before ↔
      ∃ σ : Equiv.Perm (Fin 3), (∀ j, ids.mai j = ids.omni3 (σ j)) ∧
        Straight g σ (g.factor cmd) (chassis.target.motion cmd) := by
  rw [reports_wheels g ids centred moves]
  obtain ⟨i, unnamed⟩ | ⟨σ, wired⟩ := wired_or ids
  · refine iff_of_false (not_reports g ids unnamed _ _) ?_
    rintro ⟨σ, wired, -⟩
    exact unnamed (σ.symm i) (by rw [wired, Equiv.apply_symm_apply])
  · rw [reports_wired g ids wired moves, feedback_iff]
    refine ⟨fun straight => ⟨σ, wired, straight⟩, fun ⟨σ', wired', straight⟩ => ?_⟩
    have same : σ' = σ := Equiv.ext fun j => ids.distinct ((wired' j).symm.trans (wired j))
    rwa [same] at straight

end Wheels

/-! ### Two targets -/

/-- The root of three, and all other constants one. -/
noncomputable def rootGeometry : Omni3Geometry ℝ where
  gen3 := √3
  pi := 1
  l := 1
  r := 1
  gen3_sq := Real.mul_self_sqrt (by norm_num)
  pi_ne := one_ne_zero
  l_ne := one_ne_zero
  r_ne := one_ne_zero

/-- Three motors, with those that are told assigned by a permutation. -/
def assigned (σ : Equiv.Perm (Fin 3)) : Motors (Fin 3) := ⟨σ, id, Function.injective_id⟩

/-- A chassis in the origin with a speed target. -/
def heading (speed : Speed ℝ) : State ℝ where
  target := ⟨speed, ⟨0, 0, 0⟩⟩
  present := ⟨⟨0, 0, 0⟩, ⟨0, 0, 0⟩⟩
  runStatus := .speed
  offset := ⟨⟨0, 0, 0⟩, ⟨0, 0, 0⟩⟩

/-- With the first two motors exchanged, a motion along the axis of the reflection is reported. -/
theorem reports_iff_axis :
    Reports rootGeometry (assigned (Equiv.swap 0 1)) .speed (heading ⟨1, -1, 5⟩)
      ⟨.idle, 0, 0, 0⟩ ⟨fun _ => 0, fun _ => 0⟩ := by
  have centred : (heading ⟨1, -1, 5⟩).offset = ⟨⟨0, 0, 0⟩, ⟨0, 0, 0⟩⟩ := rfl
  refine (reports_iff rootGeometry _ centred (by decide) _ _).mpr
    ⟨Equiv.swap 0 1, fun _ => rfl, Or.inr ⟨rfl, ?_⟩, Or.inr rfl⟩
  rw [OnAxis, if_pos rfl]
  exact (neg_neg _).symm

/-- **A metre a second forward is not reported**, with every motor commanded that is read. -/
theorem forward_unreported :
    ¬ Reports rootGeometry (assigned 1) .speed (heading ⟨1, 0, 0⟩) ⟨.idle, 0, 0, 0⟩
      ⟨fun _ => 0, fun _ => 0⟩ := by
  have centred : (heading ⟨1, 0, 0⟩).offset = ⟨⟨0, 0, 0⟩, ⟨0, 0, 0⟩⟩ := rfl
  have wired : ∀ j, (assigned 1).mai j = (assigned 1).omni3 ((1 : Equiv.Perm (Fin 3)) j) :=
    fun _ => rfl
  rw [reports_wheels rootGeometry _ centred (by decide), reports_wired rootGeometry _ wired
    (by decide), feedback_iff]
  rintro ⟨⟨zero, -⟩ | ⟨-, axis⟩, -⟩
  · exact one_ne_zero zero
  · rw [OnAxis, if_neg (by decide), if_neg (by decide), if_neg (by decide)] at axis
    exact one_ne_zero axis.1

end Robocon.Chassis
