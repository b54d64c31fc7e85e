/-
**The position planner (`Trajectory_planning.c`).**

A `Curve` is a `CurveObjectType`; `motorPlanning` is one call of `motor_planning`. Numbers are taken
from an ordered field `K`, so that arithmetic is exact, and `expf` is a parameter. A failed call is
undefined behaviour: the null entry of `pCalCurve`, or a division by a zero `stepPos`.

* `planner` — repeated calls, each returning a setpoint.
* `planning_moves`, `planning_lands` — the two things a call can do.
-/

import Robocon.Lib.Run
import Robocon.Lib.Trunc

namespace Robocon.Trajectory

open Lib

/-- `PosCurveType`. -/
inductive PosCurve
  | none
  | trap
  | spta
  deriving DecidableEq

/-- `CurveObjectType`. -/
structure Curve (K : Type*) where
  startPos : K
  currentPos : K
  targetPos : K
  stepPos : K
  aTimes : ℤ
  maxTimes : ℤ
  curveMode : PosCurve
  flexible : K
  intervel : ℤ
  deriving DecidableEq

section Source

variable {K : Type*} [Field K] [LinearOrder K] [FloorRing K] (expf : K → K)

/-- The argument that `CalCurveSPTA` passes to `expf`. -/
def Curve.power (spta : Curve K) : K :=
  let power := (2 * (spta.aTimes : K) - spta.maxTimes) / spta.maxTimes
  (0 - spta.flexible) * power

def calCurveSPTA (spta : Curve K) : Curve K :=
  let pos := 1 + expf spta.power
  let pos := (spta.targetPos - spta.startPos) / pos
  { spta with currentPos := pos + spta.startPos }

/-- `pCalCurve`; the entry of `CURVE_NONE` is null. -/
def pCalCurve : PosCurve → Option (Curve K → Curve K)
  | .none => Option.none
  | .trap => some (calCurveSPTA expf)
  | .spta => some (calCurveSPTA expf)

/-- The automatic duration is computed when the move has not left its start. -/
def Curve.Near (curve : Curve K) : Prop :=
  |curve.currentPos - curve.startPos| ≤ curve.stepPos ∧ curve.maxTimes = 0

instance (curve : Curve K) : Decidable curve.Near := inferInstanceAs (Decidable (_ ∧ _))

/-- The automatic duration. -/
def Curve.autoTimes (curve : Curve K) : ℤ :=
  trunc (|curve.targetPos - curve.startPos| / curve.stepPos + 1) * curve.intervel

def motorVelocityCurve (curve : Curve K) : Option (Curve K) := do
  let curve ←
    if curve.Near then
      if curve.stepPos = 0 then Option.none
      else some { curve with maxTimes := curve.autoTimes, aTimes := 0 }
    else some curve
  if curve.aTimes < curve.maxTimes then
    let cal ← pCalCurve expf curve.curveMode
    let curve := cal curve
    return { curve with aTimes := curve.aTimes + curve.intervel }
  else
    return { curve with currentPos := curve.targetPos, maxTimes := 0, aTimes := 0 }

/-- The frame of a target that is not positive: `targetPos` and `currentPos` are negated. -/
def Curve.mirror (curve : Curve K) : Curve K :=
  { curve with targetPos := -curve.targetPos, currentPos := -curve.currentPos }

/-- `motor_planning`: the curve afterwards, whose `currentPos` is returned. -/
def motorPlanning (curve : Curve K) : Option (Curve K) :=
  if 0 < curve.targetPos then motorVelocityCurve expf curve
  else (motorVelocityCurve expf curve.mirror).map Curve.mirror

/-- Repeated calls of `motor_planning`, each returning a setpoint. -/
def planner : Machine (Curve K) Unit K where
  step curve _ := (motorPlanning expf curve).map fun next => (next, [next.currentPos])

end Source

/-! ### One call -/

section Call

variable {K : Type*}

/-- The curve with another position and other times. -/
def Curve.moved (curve : Curve K) (currentPos : K) (aTimes maxTimes : ℤ) : Curve K :=
  { curve with currentPos := currentPos, aTimes := aTimes, maxTimes := maxTimes }

theorem pCalCurve_of_ne [Field K] (expf : K → K) {mode : PosCurve} (computes : mode ≠ .none) :
    pCalCurve expf mode = some (calCurveSPTA expf) := by
  cases mode with
  | none => exact absurd rfl computes
  | trap => rfl
  | spta => rfl

namespace Curve

variable (curve : Curve K) (pos pos' : K) (a a' m m' : ℤ)

@[simp] theorem moved_startPos : (curve.moved pos a m).startPos = curve.startPos := rfl
@[simp] theorem moved_currentPos : (curve.moved pos a m).currentPos = pos := rfl
@[simp] theorem moved_targetPos : (curve.moved pos a m).targetPos = curve.targetPos := rfl
@[simp] theorem moved_stepPos : (curve.moved pos a m).stepPos = curve.stepPos := rfl
@[simp] theorem moved_aTimes : (curve.moved pos a m).aTimes = a := rfl
@[simp] theorem moved_maxTimes : (curve.moved pos a m).maxTimes = m := rfl
@[simp] theorem moved_curveMode : (curve.moved pos a m).curveMode = curve.curveMode := rfl
@[simp] theorem moved_intervel : (curve.moved pos a m).intervel = curve.intervel := rfl
@[simp] theorem moved_moved : (curve.moved pos a m).moved pos' a' m' = curve.moved pos' a' m' := rfl
@[simp] theorem moved_self : curve.moved curve.currentPos curve.aTimes curve.maxTimes = curve := rfl

variable [Field K] [LinearOrder K]

/-- The frame in which a call computes. -/
def frame : Curve K := if 0 < curve.targetPos then curve else curve.mirror

/-- Where the interpolation starts. The mirrored frame does not negate `startPos`. -/
def origin : K := if 0 < curve.targetPos then curve.startPos else -curve.startPos

@[simp] theorem moved_origin : (curve.moved pos a m).origin = curve.origin := rfl

/-- A curve on which a call can be computed: a step where one is divided by, an interval and a
curve function. -/
structure Sound : Prop where
  stepPos : curve.frame.Near → curve.stepPos ≠ 0
  intervel : 0 < curve.intervel
  curveMode : curve.curveMode ≠ .none
  aTimes : 0 ≤ curve.aTimes

/-- The call computes a setpoint on the way. -/
def Moves : Prop := curve.frame.Near ∨ curve.aTimes < curve.maxTimes

@[simp] theorem frame_maxTimes : curve.frame.maxTimes = curve.maxTimes := by
  unfold frame
  split <;> rfl

variable {curve}

/-- With a duration set, nothing is divided by the step. -/
theorem sound_of_duration (long : 0 < curve.maxTimes) (intervel : 0 < curve.intervel)
    (curveMode : curve.curveMode ≠ .none) (aTimes : 0 ≤ curve.aTimes) : curve.Sound := by
  refine ⟨fun near => ?_, intervel, curveMode, aTimes⟩
  have zero := near.2
  rw [frame_maxTimes] at zero
  exact absurd zero long.ne'

/-- With a duration set, a call moves only before its end. -/
theorem Moves.before (moves : curve.Moves) (long : 0 < curve.maxTimes) :
    curve.aTimes < curve.maxTimes := by
  refine moves.resolve_left fun near => ?_
  have zero := near.2
  rw [frame_maxTimes] at zero
  exact long.ne' zero

end Curve

variable [Field K] [LinearOrder K]

variable [FloorRing K] {expf : K → K}

theorem planner_step {curve next : Curve K} (computed : motorPlanning expf curve = some next) :
    (planner expf).step curve () = some (next, [next.currentPos]) := by
  show (motorPlanning expf curve).map _ = _
  rw [computed]
  rfl

/-- A call that can be computed does not divide by zero. -/
theorem stepPos_ne_zero {curve next : Curve K} (computed : motorPlanning expf curve = some next)
    (near : curve.frame.Near) : curve.stepPos ≠ 0 := by
  have undefined {curve : Curve K} (near : curve.Near) (zero : curve.stepPos = 0) :
      motorVelocityCurve expf curve = none := by
    simp only [motorVelocityCurve, if_pos near, if_pos zero]
    rfl
  intro zero
  unfold Curve.frame at near
  unfold motorPlanning at computed
  by_cases positive : 0 < curve.targetPos
  · rw [if_pos positive] at near computed
    rw [undefined near zero] at computed
    cases computed
  · rw [if_neg positive] at near computed
    rw [undefined near zero] at computed
    cases computed

/-- A call that lands, in the frame it computes in. -/
theorem velocityCurve_lands {curve : Curve K}
    (lands : ¬ (curve.Near ∨ curve.aTimes < curve.maxTimes)) :
    motorVelocityCurve expf curve = some (curve.moved curve.targetPos 0 0) := by
  obtain ⟨far, after⟩ := not_or.mp lands
  simp only [motorVelocityCurve, if_neg far, Option.bind_eq_bind, Option.bind_some, if_neg after]
  rfl

/-- **A call that lands** returns the target and resets the times. -/
theorem planning_lands {curve : Curve K} (lands : ¬ curve.Moves) :
    motorPlanning expf curve = some (curve.moved curve.targetPos 0 0) := by
  unfold Curve.Moves Curve.frame at lands
  unfold motorPlanning
  by_cases positive : 0 < curve.targetPos
  · rw [if_pos positive] at lands ⊢
    exact velocityCurve_lands lands
  · rw [if_neg positive] at lands ⊢
    rw [velocityCurve_lands lands]
    simp [Curve.mirror, Curve.moved]

variable [IsStrictOrderedRing K]

/-- The automatic duration is at least one interval. -/
theorem Curve.intervel_le_autoTimes {curve : Curve K} (stepPos : 0 < curve.stepPos)
    (intervel : 0 < curve.intervel) : curve.intervel ≤ curve.autoTimes := by
  have large : 1 ≤ |curve.targetPos - curve.startPos| / curve.stepPos + 1 :=
    le_add_of_nonneg_left (div_nonneg (abs_nonneg _) stepPos.le)
  exact le_mul_of_one_le_left intervel.le (one_le_trunc large)

/-- A call on the way, in the frame it computes in. -/
theorem velocityCurve_moves (expf : K → K) {curve : Curve K}
    (steps : curve.Near → curve.stepPos ≠ 0) (intervel : 0 < curve.intervel)
    (curveMode : curve.curveMode ≠ .none) (aTimes : 0 ≤ curve.aTimes)
    (moves : curve.Near ∨ curve.aTimes < curve.maxTimes) :
    ∃ power a m, motorVelocityCurve expf curve = some (curve.moved
        ((curve.targetPos - curve.startPos) / (1 + expf power) + curve.startPos) a m) ∧
      0 < a ∧ 0 < m ∧
        (0 < curve.maxTimes → m = curve.maxTimes ∧ a = curve.aTimes + curve.intervel) := by
  have computes := pCalCurve_of_ne expf curveMode
  by_cases near : curve.Near
  · have nonzero := steps near
    have stepPos : 0 < curve.stepPos := lt_of_le_of_ne ((abs_nonneg _).trans near.1) nonzero.symm
    have auto : 0 < curve.autoTimes :=
      intervel.trans_le (Curve.intervel_le_autoTimes stepPos intervel)
    refine ⟨(curve.moved curve.currentPos 0 curve.autoTimes).power, 0 + curve.intervel,
      curve.autoTimes, ?_, by simpa using intervel, auto, ?_⟩
    · simp only [motorVelocityCurve, if_pos near, if_neg nonzero, Option.bind_eq_bind,
        Option.bind_some, if_pos auto, computes]
      rfl
    · exact fun positive => absurd near.2 positive.ne'
  · have before : curve.aTimes < curve.maxTimes := moves.resolve_left near
    refine ⟨curve.power, curve.aTimes + curve.intervel, curve.maxTimes, ?_,
      add_pos_of_nonneg_of_pos aTimes intervel, aTimes.trans_lt before, fun _ => ⟨rfl, rfl⟩⟩
    simp only [motorVelocityCurve, if_neg near, Option.bind_eq_bind, Option.bind_some,
      if_pos before, computes]
    rfl

/-- **A call on the way** returns a point between the origin and the target. -/
theorem planning_moves (expf : K → K) {curve : Curve K} (sound : curve.Sound)
    (moves : curve.Moves) :
    ∃ power a m, motorPlanning expf curve = some (curve.moved
        (curve.origin + (curve.targetPos - curve.origin) / (1 + expf power)) a m) ∧
      0 < a ∧ 0 < m ∧
        (0 < curve.maxTimes → m = curve.maxTimes ∧ a = curve.aTimes + curve.intervel) := by
  have steps := sound.stepPos
  unfold Curve.Moves at moves
  unfold Curve.frame at moves steps
  unfold motorPlanning Curve.origin
  by_cases positive : 0 < curve.targetPos
  · rw [if_pos positive] at moves steps
    obtain ⟨power, a, m, computed, rest⟩ :=
      velocityCurve_moves expf steps sound.intervel sound.curveMode sound.aTimes moves
    refine ⟨power, a, m, ?_, rest⟩
    rw [if_pos positive, if_pos positive, computed, add_comm]
  · rw [if_neg positive] at moves steps
    obtain ⟨power, a, m, computed, rest⟩ := velocityCurve_moves expf
      steps sound.intervel sound.curveMode sound.aTimes moves
    refine ⟨power, a, m, ?_, rest⟩
    rw [if_neg positive, if_neg positive, computed]
    simp only [Curve.mirror, Curve.moved, Option.map_some, neg_neg, Option.some.injEq,
      Curve.mk.injEq, true_and, and_true]
    ring

end Call

end Robocon.Trajectory
