/-
**A planned move, as the motor sees it.**

* `ticker_course` — the abstract motor shows the setpoints of an active plan one after the other, and
  the target from the end of its duration on.
* `planned_move` — the motor layer: after `motor_set_pos_plan` in the position mode, and until the
  next command, the behaviour function sees them, whatever else is called; each lies between the one
  before it and the target.
-/

import Robocon.Trajectory.Course
import Robocon.Motors.LastCommand

namespace Robocon.Motors

open Lib Trajectory

variable {K P : Type} [Field K] [LinearOrder K] [FloorRing K] {expf : K → K}

/-! ### The abstract motor -/

/-- A plan that is active in the position mode. -/
structure Command.Follows (c : Command K) (curve : Curve K) : Prop where
  mode : c.mode = .pos
  attached : c.curve = some curve
  long : 0 < curve.maxTimes
  curveMode : curve.curveMode ≠ .none
  intervel : 0 < curve.intervel

theorem Command.Follows.tick {c : Command K} {curve : Curve K} (follows : c.Follows curve)
    (before : curve.aTimes < curve.maxTimes) :
    c.tick expf = some { c with
      target := curve.setpoint expf curve.aTimes
      curve := some (curve.moved (curve.setpoint expf curve.aTimes)
        (curve.aTimes + curve.intervel) curve.maxTimes) } := by
  unfold Command.tick
  rw [follows.attached]
  dsimp only
  rw [if_pos ⟨follows.long.ne', by rw [follows.mode]; decide⟩,
    planning_setpoint follows.long before follows.curveMode]
  rfl

theorem Command.Follows.land {c : Command K} {curve : Curve K} (follows : c.Follows curve)
    (after : ¬ curve.aTimes < curve.maxTimes) :
    c.tick expf = some { c with
      target := curve.targetPos
      curve := some (curve.moved curve.targetPos 0 0) } := by
  have lands : ¬ curve.Moves := fun moves => after (moves.before follows.long)
  unfold Command.tick
  rw [follows.attached]
  dsimp only
  rw [if_pos ⟨follows.long.ne', by rw [follows.mode]; decide⟩, planning_lands lands]
  rfl

/-- **The course of a plan.** The `k`-th tick shows the setpoint of its time. -/
theorem ticker_course {c c' : Command K} {ticks : List Unit} {outs : List (Mode × K)}
    (run : (ticker expf).Run c ticks outs c') :
    ∀ {curve : Curve K}, c.Follows curve → ∀ k < outs.length,
      outs[k]? = some (.pos, curve.setpoint expf (curve.aTimes + k * curve.intervel)) := by
  induction run with
  | nil => exact fun _ k inside => absurd inside (Nat.not_lt_zero k)
  | @cons c middle last tick ticks output outs _ step rest ih =>
    intro curve follows k inside
    obtain ⟨ticked, rfl⟩ := ticker_step step
    by_cases before : curve.aTimes < curve.maxTimes
    · rw [follows.tick before] at ticked
      obtain rfl := Option.some.inj ticked
      cases k with
      | zero =>
        rw [Nat.cast_zero, zero_mul, add_zero]
        exact congrArg (fun mode => some (mode, _)) follows.mode
      | succ k =>
        have later := @ih (curve.moved (curve.setpoint expf curve.aTimes)
          (curve.aTimes + curve.intervel) curve.maxTimes)
          ⟨follows.mode, rfl, follows.long, follows.curveMode, follows.intervel⟩ k
          (Nat.lt_of_succ_lt_succ inside)
        rw [List.singleton_append, List.getElem?_cons_succ, later]
        simp only [Curve.moved_setpoint, Curve.moved_aTimes, Curve.moved_intervel]
        push_cast
        ring_nf
    · rw [follows.land before] at ticked
      obtain rfl := Option.some.inj ticked
      have idle : Command.Idle { c with
          target := curve.targetPos
          curve := some (curve.moved curve.targetPos 0 0) } := by
        intro landed same
        rw [← Option.some.inj same]
        rfl
      have landed (time : ℤ) (after : curve.aTimes ≤ time) :
          curve.setpoint expf time = curve.targetPos :=
        if_neg fun early => before (after.trans_lt early)
      have steady := (ticker_steady idle rest).2
      have time : curve.aTimes ≤ curve.aTimes + k * curve.intervel :=
        le_add_of_nonneg_right (mul_nonneg (Nat.cast_nonneg k) follows.intervel.le)
      rw [landed _ time]
      cases k with
      | zero => exact congrArg (fun mode => some (mode, _)) follows.mode
      | succ k =>
        have short : k < outs.length := Nat.lt_of_succ_lt_succ inside
        show outs[k]? = _
        rw [List.getElem?_eq_getElem short, steady _ (List.getElem_mem short)]
        exact congrArg (fun mode => some (mode, _)) follows.mode

/-! ### The motor layer -/

/-- The curve that `motor_set_pos_plan` starts. -/
def Motor.plan (m : Motor K P) (targetPos stepPos flexible : K) (maxTimes : ℤ) : Curve K where
  startPos := m.curPos
  currentPos := m.curPos
  targetPos := targetPos * m.ratio
  stepPos := stepPos
  aTimes := 0
  maxTimes := maxTimes
  curveMode := .trap
  flexible := flexible
  intervel := 2

/-- `motor_set_pos_plan` with a duration makes the first call of the planner. -/
theorem setPosPlan_follows {m m' : Motor K P} {targetPos stepPos flexible : K} {maxTimes : ℤ}
    (mode : m.flagRunMode = .pos) (long : 0 < maxTimes)
    (computed : m.setPosPlan expf targetPos stepPos flexible maxTimes = some m') :
    let plan := m.plan targetPos stepPos flexible maxTimes
    m'.command.Follows (plan.moved (plan.setpoint expf 0) 2 plan.maxTimes) := by
  intro plan
  obtain ⟨old, attached, rest⟩ := Option.bind_eq_some_iff.mp computed
  obtain ⟨next, planned, done⟩ := Option.bind_eq_some_iff.mp rest
  obtain rfl := Option.some.inj done
  have first : motorPlanning expf plan = some (plan.moved (plan.setpoint expf 0) (0 + 2)
      plan.maxTimes) :=
    planning_setpoint long long (show PosCurve.trap ≠ .none by decide)
  obtain rfl := Option.some.inj (planned.symm.trans first)
  exact ⟨mode, rfl, long, show PosCurve.trap ≠ .none by decide, show (0 : ℤ) < 2 by decide⟩

variable [IsStrictOrderedRing K] {num : ℕ} {apid : Apid K P}

/-- **A planned move is followed.** After `motor_set_pos_plan` with a duration in the position mode,
and until the motor is commanded again, the `k`-th call of its behaviour function sees the setpoint
of the time `2 * (k + 1)`, whatever is called in between; each setpoint lies between the one before
it and the target, and from the end of the duration on they are the target. -/
theorem planned_move (positive : ∀ x, 0 < expf x) (increasing : Monotone expf) {i : Fin num}
    {motors motors' final : Vector (Motor K P) num} {targetPos stepPos flexible : K}
    {maxTimes : ℤ} {events later : List (Event K)} {inputs : List (Call K)}
    (mode : (motors.get i).flagRunMode = .pos) (long : 0 < maxTimes) (soft : 0 ≤ flexible)
    (step : (layer expf apid).step motors
      (.setPosPlan (i : ℕ) targetPos stepPos flexible maxTimes) = some (motors', events))
    (run : (layer expf apid).RunOn (fun _ input => input.commanded ≠ some (i : ℕ)) motors' inputs
      later final) :
    let plan := (motors.get i).plan targetPos stepPos flexible maxTimes
    let course := later.flatMap (Event.see (i : ℕ))
    (∀ k < course.length, course[k]? = some (.pos, plan.setpoint expf (2 * (k + 1))) ∧
      (maxTimes ≤ 2 * (k + 1) → course[k]? = some (.pos, targetPos * (motors.get i).ratio))) ∧
    course.Pairwise (fun before after => after.2 ∈ Set.uIcc before.2 plan.targetPos) ∧
    ∀ seen ∈ course, seen.2 ∈ Set.uIcc plan.origin plan.targetPos := by
  intro plan course
  have follows : (commandOf i motors').Follows
      (plan.moved (plan.setpoint expf 0) 2 plan.maxTimes) := by
    simp only [layer, call] at step
    obtain ⟨j, m, same, stored, rfl⟩ := withMotor_cases step
    obtain rfl : j = i := Fin.ext (Nat.cast_inj.mp same).symm
    obtain ⟨m', computed, done⟩ := Option.map_eq_some_iff.mp stored
    obtain ⟨rfl, -⟩ := Prod.mk.inj done
    have after : commandOf j (motors.set j m') = m'.command := by
      unfold commandOf
      rw [Vector.getElem_set_self]
    rw [after]
    exact setPosPlan_follows mode long computed
  obtain ⟨ticks, seen⟩ := quiet_run run
  have exactly (k : ℕ) (inside : k < course.length) :
      course[k]? = some (.pos, plan.setpoint expf (2 * (k + 1))) := by
    rw [ticker_course seen follows k inside]
    simp only [Curve.moved_setpoint, Curve.moved_aTimes, Curve.moved_intervel]
    rw [show plan.intervel = 2 from rfl, show (2 : ℤ) * (k + 1) = 2 + k * 2 by ring]
  have place (k : ℕ) (inside : k < course.length) :
      course[k].2 = plan.setpoint expf (2 * (k + 1)) := by
    have here := exactly k inside
    rw [List.getElem?_eq_getElem inside] at here
    rw [Option.some.inj here]
  refine ⟨fun k inside => ⟨exactly k inside, fun ended => ?_⟩, ?_, fun seen member => ?_⟩
  · have landed : plan.setpoint expf (2 * (k + 1)) = plan.targetPos := if_neg (not_lt.mpr ended)
    rw [exactly k inside, landed]
    rfl
  · refine List.pairwise_iff_getElem.mpr fun k l earlier late before => ?_
    rw [place k earlier, place l late]
    exact setpoint_closer positive increasing soft long (by omega)
  · obtain ⟨k, inside, rfl⟩ := List.getElem_of_mem member
    rw [place k inside]
    exact setpoint_between positive plan _

/-- Ten calls of `motor_handle` after `motor_set_pos_plan(0, 10, 1, 0, 10)`, and a speed that is
measured before them. -/
theorem planned_move_ten : ∃ motors' later final,
    (layer (fun _ => 1) still).RunOn (fun _ input => input.commanded ≠ some ((0 : Fin 1) : ℕ))
      motors' (.feedbackSpeed 0 5 :: List.replicate 10 (.handle 0 1 ⟨none, none, none⟩)) later
      final ∧
    (layer (fun _ => 1) still).step #v[{ fresh with flagRunMode := .pos }]
      (.setPosPlan ((0 : Fin 1) : ℕ) 10 1 0 10) = some (motors', []) ∧
    (later.flatMap (Event.see ((0 : Fin 1) : ℕ)))[9]? = some (.pos, 20) := by
  have step : (layer (fun _ => 1) still).step #v[{ fresh with flagRunMode := .pos }]
      (.setPosPlan ((0 : Fin 1) : ℕ) 10 1 0 10) =
        some (#v[{ fresh with
          flagRunMode := .pos
          tarPos := 10
          curve := some ⟨0, 10, 20, 1, 2, 10, .trap, 0, 2⟩ }], []) := by
    decide +kernel
  obtain ⟨later, final, run, long⟩ := Machine.exists_run (layer (fun _ => 1) still)
    (fun _ input => input.commanded ≠ some ((0 : Fin 1) : ℕ)) _
    (.feedbackSpeed 0 5 :: List.replicate 10 (.handle 0 1 ⟨none, none, none⟩))
    (fun _ later => 9 < (later.flatMap (Event.see ((0 : Fin 1) : ℕ))).length)
    (show (Machine.exec _ _ #v[{ fresh with
      flagRunMode := .pos
      tarPos := 10
      curve := some ⟨0, 10, 20, 1, 2, 10, .trap, 0, 2⟩ }] _).any _ = true by decide +kernel)
  have course := (planned_move (fun _ => one_pos) monotone_const rfl (by decide) le_rfl step run).1
    9 (of_decide_eq_true long)
  exact ⟨_, later, final, run, step, (course.2 (by decide)).trans (by decide +kernel)⟩

end Robocon.Motors
