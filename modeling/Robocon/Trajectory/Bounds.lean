/-
**Planned moves: between start and target, and ending on the target.**

A call interpolates from the curve's `origin`, which is `startPos` for a positive target and
`-startPos` otherwise, because the mirrored frame leaves `startPos` as it is.

* `planner_between` — every setpoint lies between the origin and the target.
* `planner_arrives` — after finitely many calls the target is returned and the times are reset.
* `Curve.Straight` — the moves that stay between start and target whatever `expf` is:
  `planner_faithful_iff`.
-/

import Robocon.Trajectory.Planning

namespace Robocon.Trajectory

open Lib

variable {K : Type*} [Field K] [LinearOrder K] [IsStrictOrderedRing K]

/-- A point of the interpolation lies between its ends. -/
theorem interpolation_mem (first last : K) {slope : K} (positive : 0 < slope) :
    first + (last - first) / (1 + slope) ∈ Set.uIcc first last := by
  have one : 1 ≤ 1 + slope := le_add_of_nonneg_right positive.le
  have weight : (1 + slope)⁻¹ ∈ Set.Icc (0 : K) 1 :=
    ⟨inv_nonneg.mpr (zero_le_one.trans one), inv_le_one_of_one_le₀ one⟩
  have convex : Convex K (Set.uIcc first last) := convex_uIcc first last
  have inside := convex.add_smul_sub_mem Set.left_mem_uIcc Set.right_mem_uIcc weight
  rwa [smul_eq_mul, inv_mul_eq_div] at inside

variable [FloorRing K] {expf : K → K}

/-! ### Every call -/

/-- The curve is somewhere on the move that began as `curve`. -/
def Curve.OnMove (curve state : Curve K) : Prop :=
  ∃ pos a m, state = curve.moved pos a m ∧ 0 ≤ a

/-- A curve as the planner is given it: a step, an interval and a curve function. -/
structure Curve.Given (curve : Curve K) : Prop where
  stepPos : 0 < curve.stepPos
  intervel : 0 < curve.intervel
  curveMode : curve.curveMode ≠ .none

omit [IsStrictOrderedRing K] [FloorRing K] in
theorem Curve.Given.sound {curve : Curve K} (given : curve.Given) {pos : K} {a m : ℤ}
    (time : 0 ≤ a) : (curve.moved pos a m).Sound :=
  ⟨fun _ => given.stepPos.ne', given.intervel, given.curveMode, time⟩

/-- A call moves or lands; either way it stays on the move, between the origin and the target. -/
theorem planner_keeps (positive : ∀ x, 0 < expf x) {curve state : Curve K} (given : curve.Given)
    (here : curve.OnMove state) :
    ∃ next, motorPlanning expf state = some next ∧ curve.OnMove next ∧
      next.currentPos ∈ Set.uIcc curve.origin curve.targetPos := by
  obtain ⟨pos, a, m, rfl, time⟩ := here
  by_cases moves : (curve.moved pos a m).Moves
  · obtain ⟨power, a', m', computed, later, -⟩ := planning_moves expf (given.sound time) moves
    exact ⟨_, computed, ⟨_, a', m', rfl, later.le⟩, interpolation_mem _ _ (positive power)⟩
  · exact ⟨_, planning_lands moves, ⟨_, 0, 0, rfl, le_rfl⟩, Set.right_mem_uIcc⟩

/-- **Every setpoint lies between the origin and the target.** -/
theorem planner_between (positive : ∀ x, 0 < expf x) {curve : Curve K} (given : curve.Given)
    (time : 0 ≤ curve.aTimes) (calls : List Unit) :
    ∃ outs final, (planner expf).Run curve calls outs final ∧
      ∀ pos ∈ outs, pos ∈ Set.uIcc curve.origin curve.targetPos := by
  have start : curve.OnMove curve := ⟨_, _, _, curve.moved_self.symm, time⟩
  have steps (state : Curve K) (call : Unit) (here : curve.OnMove state) :
      ∃ next outs, (planner expf).step state call = some (next, outs) ∧ curve.OnMove next := by
    obtain ⟨next, computed, there, -⟩ := planner_keeps positive given here
    exact ⟨next, _, planner_step computed, there⟩
  obtain ⟨outs, final, run, -⟩ := Machine.Run.progress (planner expf) _ steps calls start
  refine ⟨outs, final, run, run.outputs curve.OnMove _ ?_ start⟩
  intro state call next output _ here step
  obtain ⟨next', computed, there, between⟩ := planner_keeps positive given here
  rw [planner_step computed] at step
  obtain ⟨rfl, rfl⟩ := Prod.mk.inj (Option.some.inj step)
  refine ⟨there, fun pos member => ?_⟩
  rwa [List.mem_singleton.mp member]

/-! ### Arriving -/

/-- The planner arrives: some call returns the target and resets the times. -/
def Arrives (expf : K → K) (curve : Curve K) : Prop :=
  ∃ calls outs final, (planner expf).Run curve (List.replicate (calls + 1) ())
      (outs ++ [curve.targetPos]) final ∧ final.maxTimes = 0 ∧ final.aTimes = 0

omit [IsStrictOrderedRing K] in
theorem arrives_of_lands {curve : Curve K} (lands : ¬ curve.Moves) : Arrives expf curve :=
  ⟨0, [], _, .single trivial (planner_step (planning_lands lands)), rfl, rfl⟩

omit [IsStrictOrderedRing K] in
theorem Arrives.before {curve : Curve K} {pos : K} {a m : ℤ}
    (computed : motorPlanning expf curve = some (curve.moved pos a m))
    (arrives : Arrives expf (curve.moved pos a m)) : Arrives expf curve := by
  obtain ⟨calls, outs, final, run, maxTimes, aTimes⟩ := arrives
  refine ⟨calls + 1, pos :: outs, final, ?_, maxTimes, aTimes⟩
  show (planner expf).Run curve (() :: List.replicate (calls + 1) ())
    ([pos] ++ (outs ++ [curve.targetPos])) final
  exact .cons trivial (planner_step computed) run

/-- With a duration set, every call on the way takes one interval off the time left. -/
theorem arrives_of_duration (left : ℕ) : ∀ {curve : Curve K}, curve.Sound → 0 < curve.maxTimes →
    curve.maxTimes - curve.aTimes ≤ left → Arrives expf curve := by
  induction left with
  | zero =>
    intro curve sound long time
    refine arrives_of_lands fun moves => ?_
    have before := moves.before long
    rw [Nat.cast_zero] at time
    exact absurd before (not_lt.mpr (sub_nonpos.mp time))
  | succ left ih =>
    intro curve sound long time
    by_cases moves : curve.Moves
    · obtain ⟨power, a, m, computed, later, long', kept⟩ := planning_moves expf sound moves
      obtain ⟨rfl, rfl⟩ := kept long
      refine .before computed
        (ih (Curve.sound_of_duration long' sound.intervel sound.curveMode later.le) long' ?_)
      have interval := sound.intervel
      push_cast at time
      simp only [Curve.moved_maxTimes, Curve.moved_aTimes]
      omega
    · exact arrives_of_lands moves

/-- **The planner arrives.** -/
theorem planner_arrives {curve : Curve K} (sound : curve.Sound) : Arrives expf curve := by
  by_cases moves : curve.Moves
  · obtain ⟨power, a, m, computed, later, long, -⟩ := planning_moves expf sound moves
    have sound' : (curve.moved (curve.origin + (curve.targetPos - curve.origin) /
        (1 + expf power)) a m).Sound :=
      Curve.sound_of_duration long sound.intervel sound.curveMode later.le
    exact .before computed (arrives_of_duration (m - a).toNat sound' long (Int.self_le_toNat _))
  · exact arrives_of_lands moves

/-! ### Between start and target -/

/-- A curve as a move begins: at its start, at time zero. -/
structure Curve.Fresh (curve : Curve K) : Prop where
  given : curve.Given
  currentPos : curve.currentPos = curve.startPos
  aTimes : curve.aTimes = 0
  maxTimes : 0 ≤ curve.maxTimes

omit [IsStrictOrderedRing K] [FloorRing K] in
theorem Curve.Fresh.sound {curve : Curve K} (fresh : curve.Fresh) : curve.Sound :=
  fresh.given.sound fresh.aTimes.ge

/-- A planned move is faithful: all its setpoints lie between start and target, and it arrives. -/
structure Faithful (expf : K → K) (curve : Curve K) : Prop where
  between : ∀ calls, ∃ outs final, (planner expf).Run curve (List.replicate calls ()) outs final ∧
    ∀ pos ∈ outs, pos ∈ Set.uIcc curve.startPos curve.targetPos
  arrives : Arrives expf curve

/-- An automatic duration is never computed in the mirrored frame: neither at the start nor after
landing is the position within a step of `startPos` there. -/
def Curve.Jumps (curve : Curve K) : Prop :=
  curve.maxTimes = 0 ∧ curve.stepPos < 2 * |curve.startPos| ∧
    curve.stepPos < |curve.startPos + curve.targetPos|

/-- The moves that stay between start and target whatever `expf` is. -/
def Curve.Straight (curve : Curve K) : Prop :=
  0 < curve.targetPos ∨ curve.startPos = 0 ∨
    0 < curve.startPos ∧ curve.targetPos ≤ -curve.startPos ∨ curve.Jumps

omit [IsStrictOrderedRing K] [FloorRing K] in
theorem Curve.origin_of_not_pos {curve : Curve K} (mirrored : ¬ 0 < curve.targetPos) :
    curve.origin = -curve.startPos := if_neg mirrored

omit [IsStrictOrderedRing K] [FloorRing K] in
/-- In the mirrored frame, a curve without duration is near its start when `pos + startPos` is
small. -/
theorem Curve.moved_moves_iff {curve : Curve K} (mirrored : ¬ 0 < curve.targetPos) (pos : K) :
    (curve.moved pos 0 0).Moves ↔ |curve.startPos + pos| ≤ curve.stepPos := by
  have frame : (curve.moved pos 0 0).frame = (curve.moved pos 0 0).mirror := if_neg mirrored
  have flip : |-pos - curve.startPos| = |curve.startPos + pos| := by
    rw [← abs_neg]
    congr 1
    ring
  unfold Curve.Moves Curve.Near
  rw [frame]
  simp [Curve.mirror, Curve.moved, flip]

omit [IsStrictOrderedRing K] [FloorRing K] in
/-- A fresh curve without duration stands at its start. -/
theorem Curve.Fresh.eq_moved {curve : Curve K} (fresh : curve.Fresh) (auto : curve.maxTimes = 0) :
    curve = curve.moved curve.startPos 0 0 := by
  have self := curve.moved_self
  rw [fresh.currentPos, fresh.aTimes, auto] at self
  exact self.symm

/-- The curve stands at an end of the move, without duration. -/
def Curve.AtEnd (curve state : Curve K) : Prop :=
  ∃ pos, (pos = curve.startPos ∨ pos = curve.targetPos) ∧ state = curve.moved pos 0 0

theorem jumps_between (expf : K → K) {curve : Curve K} (fresh : curve.Fresh)
    (mirrored : ¬ 0 < curve.targetPos) (jumps : curve.Jumps) (calls : List Unit) :
    ∃ outs final, (planner expf).Run curve calls outs final ∧
      ∀ pos ∈ outs, pos = curve.targetPos := by
  obtain ⟨auto, start, target⟩ := jumps
  have lands (state : Curve K) (call : Unit) (here : curve.AtEnd state) :
      (planner expf).step state call =
        some (curve.moved curve.targetPos 0 0, [curve.targetPos]) := by
    obtain ⟨pos, ends, rfl⟩ := here
    have stays : ¬ (curve.moved pos 0 0).Moves := by
      rw [Curve.moved_moves_iff mirrored, not_le]
      rcases ends with rfl | rfl
      · rwa [← two_mul, abs_mul, abs_two]
      · exact target
    exact planner_step (planning_lands stays)
  have landed : curve.AtEnd (curve.moved curve.targetPos 0 0) := ⟨_, Or.inr rfl, rfl⟩
  have first : curve.AtEnd curve := ⟨curve.startPos, Or.inl rfl, fresh.eq_moved auto⟩
  obtain ⟨outs, final, run, -⟩ := Machine.Run.progress (planner expf) curve.AtEnd
    (fun state call here => ⟨_, _, lands state call here, landed⟩) calls first
  refine ⟨outs, final, run, run.outputs curve.AtEnd _ ?_ first⟩
  intro state call next output _ here step
  rw [lands state call here] at step
  obtain ⟨rfl, rfl⟩ := Prod.mk.inj (Option.some.inj step)
  exact ⟨landed, fun pos member => List.mem_singleton.mp member⟩

/-- A straight move stays between start and target. -/
theorem straight_between (positive : ∀ x, 0 < expf x) {curve : Curve K} (fresh : curve.Fresh)
    (straight : curve.Straight) (calls : List Unit) :
    ∃ outs final, (planner expf).Run curve calls outs final ∧
      ∀ pos ∈ outs, pos ∈ Set.uIcc curve.startPos curve.targetPos := by
  obtain ⟨outs, final, run, between⟩ := planner_between positive fresh.given
    fresh.aTimes.ge calls
  by_cases mirrored : 0 < curve.targetPos
  · have origin : curve.origin = curve.startPos := if_pos mirrored
    rw [origin] at between
    exact ⟨outs, final, run, between⟩
  · rw [Curve.origin_of_not_pos mirrored] at between
    rcases straight with ahead | zero | ⟨behind, across⟩ | jumps
    · exact absurd ahead mirrored
    · rw [zero, neg_zero] at between
      exact ⟨outs, final, run, zero ▸ between⟩
    · have inside : -curve.startPos ∈ Set.uIcc curve.startPos curve.targetPos :=
        Set.mem_uIcc.mpr (Or.inr ⟨across, (neg_nonpos.mpr behind.le).trans behind.le⟩)
      exact ⟨outs, final, run, fun pos member =>
        Set.uIcc_subset_uIcc inside Set.right_mem_uIcc (between pos member)⟩
    · obtain ⟨outs, final, run, ends⟩ := jumps_between expf fresh mirrored jumps calls
      exact ⟨outs, final, run, fun pos member => ends pos member ▸ Set.right_mem_uIcc⟩

/-! ### The moves that leave the interval -/

omit [FloorRing K] in
/-- Interpolating from `-start` leaves the interval of `start` and `target`, for some slope. -/
theorem exists_outside {start target : K} (mirrored : ¬ 0 < target) (moved : start ≠ 0)
    (short : ¬ (0 < start ∧ target ≤ -start)) :
    ∃ slope, 0 < slope ∧ -start + (target - -start) / (1 + slope) ∉ Set.uIcc start target := by
  have low := not_lt.mp mirrored
  rcases lt_or_gt_of_ne moved with negative | positive
  · have ratio : 0 ≤ target / start := div_nonneg_of_nonpos low negative.le
    have product : start * (1 + (target / start + 1)) = 2 * start + target := by
      rw [mul_add, mul_add, mul_div_cancel₀ _ moved]
      ring
    have below : start < (target - -start) / (1 + (target / start + 1)) := by
      rw [lt_div_iff₀ (by linarith), product]
      linarith
    refine ⟨target / start + 1, by linarith, fun inside => ?_⟩
    rcases Set.mem_uIcc.mp inside with ⟨-, high⟩ | ⟨-, high⟩
    · linarith
    · linarith
  · have across : -start < target := lt_of_not_ge fun across => short ⟨positive, across⟩
    refine ⟨1, one_pos, fun inside => ?_⟩
    have value : -start + (target - -start) / (1 + 1) = (target - start) / 2 := by ring
    rw [value] at inside
    rcases Set.mem_uIcc.mp inside with ⟨high, -⟩ | ⟨high, -⟩
    · linarith
    · linarith

/-- From the start of a mirrored move that does not jump, some call computes a setpoint on the
way. -/
theorem exists_setpoint (expf : K → K) {curve : Curve K} (fresh : curve.Fresh)
    (mirrored : ¬ 0 < curve.targetPos) (slow : ¬ curve.Jumps) :
    ∃ calls outs final power, (planner expf).Run curve (List.replicate calls ())
      (outs ++ [curve.origin + (curve.targetPos - curve.origin) / (1 + expf power)]) final := by
  by_cases moves : curve.Moves
  · obtain ⟨power, a, m, computed, -⟩ := planning_moves expf fresh.sound moves
    exact ⟨1, [], _, power, .single trivial (planner_step computed)⟩
  · have auto : curve.maxTimes = 0 := by
      by_contra long
      have positive := lt_of_le_of_ne fresh.maxTimes (Ne.symm long)
      exact moves (Or.inr (by rwa [fresh.aTimes]))
    have near : |curve.startPos + curve.targetPos| ≤ curve.stepPos := by
      by_contra far
      rw [fresh.eq_moved auto, Curve.moved_moves_iff mirrored, ← two_mul, abs_mul, abs_two,
        not_le] at moves
      exact slow ⟨auto, moves, not_le.mp far⟩
    have sound : (curve.moved curve.targetPos 0 0).Sound := fresh.given.sound le_rfl
    obtain ⟨power, a, m, computed, -⟩ := planning_moves expf sound
      ((Curve.moved_moves_iff mirrored _).mpr near)
    exact ⟨2, [curve.targetPos], _, power, .cons trivial (planner_step (planning_lands moves))
      (.single trivial (planner_step computed))⟩

/-- **Planned moves.** A move stays between start and target and arrives, for every positive
`expf`, exactly when it is straight. -/
theorem planner_faithful_iff {curve : Curve K} (fresh : curve.Fresh) :
    (∀ expf : K → K, (∀ x, 0 < expf x) → Faithful expf curve) ↔ curve.Straight := by
  refine ⟨fun faithful => ?_, fun straight expf positive =>
    ⟨fun calls => straight_between positive fresh straight _, planner_arrives fresh.sound⟩⟩
  by_contra bent
  obtain ⟨mirrored, moved, short, slow⟩ : ¬ 0 < curve.targetPos ∧ curve.startPos ≠ 0 ∧
      ¬ (0 < curve.startPos ∧ curve.targetPos ≤ -curve.startPos) ∧ ¬ curve.Jumps := by
    simpa only [Curve.Straight, not_or] using bent
  obtain ⟨slope, positive, outside⟩ := exists_outside mirrored moved short
  obtain ⟨calls, outs, final, power, run⟩ :=
    exists_setpoint (fun _ => slope) fresh mirrored slow
  obtain ⟨outs', final', run', inside⟩ := (faithful _ fun _ => positive).between calls
  rw [(run.unique run').1] at inside
  have last := inside _ (List.mem_append_right outs (List.mem_singleton_self _))
  rw [Curve.origin_of_not_pos mirrored] at last
  exact outside last

/-- A move from `1` to `10`. -/
def ahead : Curve ℚ where
  startPos := 1
  currentPos := 1
  targetPos := 10
  stepPos := 1
  aTimes := 0
  maxTimes := 0
  curveMode := .trap
  flexible := 1
  intervel := 2

theorem planner_faithful_ahead : Faithful (fun _ => 1) ahead :=
  (planner_faithful_iff ⟨⟨by decide, by decide, by decide⟩, rfl, rfl, by decide⟩).mpr
    (Or.inl (by decide)) (fun _ => 1) fun _ => one_pos

/-- A move from `5` back to `0`, in five calls. -/
def homing : Curve ℚ where
  startPos := 5
  currentPos := 5
  targetPos := 0
  stepPos := 1
  aTimes := 0
  maxTimes := 10
  curveMode := .trap
  flexible := 1
  intervel := 2

/-- **Homing overshoots.** The first setpoint of the move from `5` to `0` is `-5/2`. -/
theorem homing_outside :
    homing.Fresh ∧ ¬ ∀ expf : ℚ → ℚ, (∀ x, 0 < expf x) → Faithful expf homing := by
  refine ⟨⟨⟨by decide, by decide, by decide⟩, rfl, rfl, by decide⟩, fun faithful => ?_⟩
  obtain ⟨outs, final, run, between⟩ := (faithful (fun _ => 1) fun _ => one_pos).between 1
  have first : motorPlanning (fun _ => 1) homing = some (homing.moved (-5 / 2) 2 10) := by
    decide +kernel
  have one : (planner fun _ => (1 : ℚ)).Run homing [()] _ _ := .single trivial (planner_step first)
  rw [(Machine.Run.unique one run).1] at between
  have inside := between _ (List.mem_singleton_self _)
  rcases Set.mem_uIcc.mp inside with ⟨low, -⟩ | ⟨low, -⟩
  · exact absurd low (by decide +kernel)
  · exact absurd low (by decide +kernel)

end Robocon.Trajectory
