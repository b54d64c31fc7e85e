/-
**The course of a planned move.**

* `Curve.setpoint` — where a move with a duration is at a time: a logistic curve from the origin to
  the target, and the target from the end of the duration on.
* `planning_setpoint` — a call returns the setpoint of its time.
* `setpoint_between`, `setpoint_closer` — with an increasing positive `expf`, a setpoint lies between
  the origin and the target, and every later one between it and the target.
-/

import Robocon.Trajectory.Bounds

namespace Robocon.Trajectory

open Lib

variable {K : Type*} [Field K] [LinearOrder K]

section Setpoint

variable (expf : K → K) (curve : Curve K)

/-- The share of the way that is behind the move at a time. -/
def Curve.share (time : ℤ) : K :=
  (1 + expf ((0 - curve.flexible) * ((2 * (time : K) - curve.maxTimes) / curve.maxTimes)))⁻¹

/-- Where the move is at a time. -/
def Curve.setpoint (time : ℤ) : K :=
  if time < curve.maxTimes then
    curve.origin + (curve.targetPos - curve.origin) * curve.share expf time
  else curve.targetPos

/-- The setpoints of a move do not depend on how far it has come. -/
@[simp] theorem Curve.moved_setpoint (pos : K) (a : ℤ) (time : ℤ) :
    (curve.moved pos a curve.maxTimes).setpoint expf time = curve.setpoint expf time := rfl

end Setpoint

section Call

variable [FloorRing K] {expf : K → K} {curve : Curve K}

/-- A call before the end, in the frame it computes in. -/
theorem velocityCurve_before (expf : K → K) (curve : Curve K) (long : 0 < curve.maxTimes)
    (before : curve.aTimes < curve.maxTimes)
    (curveMode : curve.curveMode ≠ .none) :
    motorVelocityCurve expf curve = some (curve.moved
      ((curve.targetPos - curve.startPos) / (1 + expf curve.power) + curve.startPos)
      (curve.aTimes + curve.intervel) curve.maxTimes) := by
  have far : ¬ curve.Near := fun near => long.ne' near.2
  simp only [motorVelocityCurve, if_neg far, Option.bind_eq_bind, Option.bind_some,
    if_pos before, pCalCurve_of_ne expf curveMode]
  rfl

/-- **A call before the end** returns the setpoint of its time and takes one interval. -/
theorem planning_setpoint (long : 0 < curve.maxTimes) (before : curve.aTimes < curve.maxTimes)
    (curveMode : curve.curveMode ≠ .none) :
    motorPlanning expf curve = some (curve.moved (curve.setpoint expf curve.aTimes)
      (curve.aTimes + curve.intervel) curve.maxTimes) := by
  have place : curve.setpoint expf curve.aTimes =
      curve.origin + (curve.targetPos - curve.origin) / (1 + expf curve.power) := by
    rw [Curve.setpoint, if_pos before, div_eq_mul_inv]
    rfl
  rw [place]
  unfold motorPlanning Curve.origin
  by_cases positive : 0 < curve.targetPos
  · rw [if_pos positive, if_pos positive, velocityCurve_before expf curve long before curveMode,
      add_comm]
  · rw [if_neg positive, if_neg positive,
      velocityCurve_before expf curve.mirror long before curveMode,
      show curve.mirror.power = curve.power from rfl]
    simp only [Curve.mirror, Curve.moved, Option.map_some, neg_neg, Option.some.injEq,
      Curve.mk.injEq, true_and, and_true]
    ring

end Call

/-! ### Towards the target -/

section Order

variable [IsStrictOrderedRing K] {expf : K → K} {curve : Curve K} {time later : ℤ}

/-- The share of the way is between none and all of it. -/
theorem share_mem (positive : ∀ x, 0 < expf x) (curve : Curve K) (time : ℤ) :
    curve.share expf time ∈ Set.Icc (0 : K) 1 := by
  have one : 1 ≤ 1 + expf ((0 - curve.flexible) *
      ((2 * (time : K) - curve.maxTimes) / curve.maxTimes)) :=
    le_add_of_nonneg_right (positive _).le
  exact ⟨inv_nonneg.mpr (zero_le_one.trans one), inv_le_one_of_one_le₀ one⟩

theorem share_mono (positive : ∀ x, 0 < expf x) (increasing : Monotone expf)
    (flexible : 0 ≤ curve.flexible) (long : 0 < curve.maxTimes) (after : time ≤ later) :
    curve.share expf time ≤ curve.share expf later := by
  have duration : (0 : K) < curve.maxTimes := Int.cast_pos.mpr long
  have times : (time : K) ≤ later := Int.cast_le.mpr after
  have power : (0 - curve.flexible) * ((2 * (later : K) - curve.maxTimes) / curve.maxTimes) ≤
      (0 - curve.flexible) * ((2 * (time : K) - curve.maxTimes) / curve.maxTimes) := by
    refine mul_le_mul_of_nonpos_left ?_ (by linarith)
    gcongr
  have slope : 0 < 1 + expf ((0 - curve.flexible) *
      ((2 * (later : K) - curve.maxTimes) / curve.maxTimes)) :=
    add_pos one_pos (positive _)
  exact inv_anti₀ slope (add_le_add_right (increasing power) 1)

theorem way_mem (first last : K) {share further : K}
    (more : share ≤ further) (less : further ≤ 1) :
    first + (last - first) * further ∈ Set.uIcc (first + (last - first) * share) last := by
  rcases le_total first last with up | down
  · refine Set.mem_uIcc_of_le ?_ ?_
    · gcongr
    · nlinarith
  · refine Set.mem_uIcc_of_ge ?_ ?_
    · nlinarith
    · nlinarith

/-- **A setpoint lies between the origin and the target.** -/
theorem setpoint_between (positive : ∀ x, 0 < expf x) (curve : Curve K) (time : ℤ) :
    curve.setpoint expf time ∈ Set.uIcc curve.origin curve.targetPos := by
  unfold Curve.setpoint
  split
  · obtain ⟨none, all⟩ := share_mem positive curve time
    simpa using way_mem curve.origin curve.targetPos none all
  · exact Set.right_mem_uIcc

/-- **A later setpoint lies between an earlier one and the target.** -/
theorem setpoint_closer (positive : ∀ x, 0 < expf x) (increasing : Monotone expf)
    (flexible : 0 ≤ curve.flexible) (long : 0 < curve.maxTimes) (after : time ≤ later) :
    curve.setpoint expf later ∈ Set.uIcc (curve.setpoint expf time) curve.targetPos := by
  unfold Curve.setpoint
  by_cases before : later < curve.maxTimes
  · rw [if_pos before, if_pos (after.trans_lt before)]
    exact way_mem _ _ (share_mono positive increasing flexible long after)
      (share_mem positive curve later).2
  · rw [if_neg before]
    exact Set.right_mem_uIcc

end Order

end Robocon.Trajectory
