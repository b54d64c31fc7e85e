/-
**The last command wins, when it is heeded.**

A setter leaves the curve alone, so a plan that is still active goes on feeding the target of
whatever mode the setter selects; a planned move leaves the run mode alone. `Heeded` is the
condition under which neither matters: a setter finds no active plan, a planned move finds the
motor in the position mode.

* `ticker_steady`, `ticker_lands` — the abstract motor without an active plan, and with one.
* `last_command_wins` — from any state, a heeded command is obeyed in every continuation in which
  nobody commands the motor.
* `plan_overrides_speed` — a setter that is not heeded is not obeyed.
-/

import Robocon.Motors.Command

namespace Robocon.Motors

open Lib Trajectory

variable {K P : Type} [Field K] [LinearOrder K] [FloorRing K] {expf : K → K}

/-! ### The abstract motor -/

/-- No plan is active. -/
def Command.Idle (c : Command K) : Prop := ∀ curve, c.curve = some curve → curve.maxTimes = 0

theorem Command.Idle.tick {c : Command K} (idle : c.Idle) : c.tick expf = some c := by
  unfold Command.tick
  cases attached : c.curve with
  | none => rfl
  | some curve => simp [idle curve attached]

theorem ticker_step {c c' : Command K} {tick : Unit} {outs : List (Mode × K)}
    (step : (ticker expf).step c tick = some (c', outs)) :
    c.tick expf = some c' ∧ outs = [(c'.mode, c'.target)] := by
  obtain ⟨next, ticked, done⟩ := Option.map_eq_some_iff.mp step
  obtain ⟨rfl, rfl⟩ := Prod.mk.inj done
  exact ⟨ticked, rfl⟩

/-- Without an active plan, the command stays and every tick shows it. -/
theorem ticker_steady {c c' : Command K} (idle : c.Idle) {ticks : List Unit}
    {outs : List (Mode × K)} (run : (ticker expf).Run c ticks outs c') :
    c' = c ∧ ∀ seen ∈ outs, seen = (c.mode, c.target) := by
  have stays (state : Command K) (tick : Unit) (next : Command K) (out : List (Mode × K))
      (here : state = c) (step : (ticker expf).step state tick = some (next, out)) :
      next = c ∧ ∀ seen ∈ out, seen = (c.mode, c.target) := by
    subst here
    obtain ⟨ticked, rfl⟩ := ticker_step step
    rw [idle.tick] at ticked
    obtain rfl := Option.some.inj ticked
    exact ⟨rfl, fun seen member => List.mem_singleton.mp member⟩
  exact ⟨run.invariant (· = c) (fun _ _ _ _ _ here step => (stays _ _ _ _ here step).1) rfl,
    run.outputs (· = c) _ (fun _ _ _ _ _ here step => stays _ _ _ _ here step) rfl⟩

theorem Command.tick_mode {c c' : Command K} (ticked : c.tick expf = some c') :
    c'.mode = c.mode := by
  unfold Command.tick at ticked
  split at ticked
  · exact Option.some.inj ticked ▸ rfl
  · split at ticked
    · obtain ⟨next, -, rfl⟩ := Option.map_eq_some_iff.mp ticked
      rfl
    · exact Option.some.inj ticked ▸ rfl

theorem ticker_mode {c c' : Command K} {ticks : List Unit} {outs : List (Mode × K)}
    (run : (ticker expf).Run c ticks outs c') : ∀ seen ∈ outs, seen.1 = c.mode := by
  refine run.outputs (fun state => state.mode = c.mode) _ ?_ rfl
  intro state tick next out _ here step
  obtain ⟨ticked, rfl⟩ := ticker_step step
  have same := (Command.tick_mode ticked).trans here
  refine ⟨same, fun seen member => ?_⟩
  rw [List.mem_singleton.mp member]
  exact same

/-! ### A planned move -/

/-- The curve is on its way to `goal`, with at most `left` of its duration left. -/
structure Underway (curve : Curve K) (goal : K) (left : ℕ) : Prop where
  targetPos : curve.targetPos = goal
  long : 0 < curve.maxTimes
  sound : curve.Sound
  left : curve.maxTimes - curve.aTimes ≤ left

/-- The position mode, at `goal`, without an active plan. -/
structure Command.Landed (c : Command K) (goal : K) : Prop where
  mode : c.mode = .pos
  target : c.target = goal
  idle : c.Idle

/-- The position mode, at `goal` or under way. -/
def Command.Planned (c : Command K) (goal : K) (left : ℕ) : Prop :=
  c.Landed goal ∨ c.mode = .pos ∧ ∃ curve, c.curve = some curve ∧ Underway curve goal left

theorem Command.Landed.stays {c c' : Command K} {goal : K} (landed : c.Landed goal)
    {ticks : List Unit} {outs : List (Mode × K)} (run : (ticker expf).Run c ticks outs c') :
    c'.Landed goal := (ticker_steady landed.idle run).1 ▸ landed

variable [IsStrictOrderedRing K]

/-- A tick of a move under way lands, or takes an interval off what is left. -/
theorem underway_tick {c c' : Command K} {curve : Curve K} {goal : K} {left : ℕ}
    (mode : c.mode = .pos) (attached : c.curve = some curve) (underway : Underway curve goal left)
    (ticked : c.tick expf = some c') :
    c'.Landed goal ∨ 0 < left ∧ c'.mode = .pos ∧
      ∃ curve', c'.curve = some curve' ∧ Underway curve' goal (left - 1) := by
  have fed : c.tick expf = (motorPlanning expf curve).map fun next =>
      { c with curve := some next, target := next.currentPos } := by
    unfold Command.tick
    rw [attached]
    exact if_pos ⟨underway.long.ne', by rw [mode]; decide⟩
  rw [fed] at ticked
  by_cases moves : curve.Moves
  · obtain ⟨power, a, m, computed, later, long, kept⟩ := planning_moves expf underway.sound moves
    obtain ⟨rfl, rfl⟩ := kept underway.long
    have before := moves.before underway.long
    have left := underway.left
    have interval := underway.sound.intervel
    rw [computed] at ticked
    obtain rfl := Option.some.inj ticked
    refine Or.inr ⟨by omega, mode, _, rfl, underway.targetPos, long,
      Curve.sound_of_duration long interval underway.sound.curveMode later.le, ?_⟩
    simp only [Curve.moved_maxTimes, Curve.moved_aTimes]
    omega
  · rw [planning_lands moves] at ticked
    obtain rfl := Option.some.inj ticked
    refine Or.inl ⟨mode, underway.targetPos, fun landed same => ?_⟩
    rw [← Option.some.inj same]
    rfl

/-- **A planned move lands**, once it has been ticked more often than its duration allows. -/
theorem ticker_lands {c c' : Command K} {goal : K} {ticks : List Unit} {outs : List (Mode × K)}
    (run : (ticker expf).Run c ticks outs c') :
    ∀ {left : ℕ}, c.Planned goal left → left < outs.length → c'.Landed goal := by
  induction run with
  | nil => exact fun _ short => absurd short (Nat.not_lt_zero _)
  | cons _ step rest ih =>
    intro left planned short
    obtain ⟨ticked, rfl⟩ := ticker_step step
    rcases planned with landed | ⟨mode, curve, attached, underway⟩
    · rw [landed.idle.tick] at ticked
      obtain rfl := Option.some.inj ticked
      exact landed.stays rest
    · rcases underway_tick mode attached underway ticked with landed | ⟨more, planned⟩
      · exact landed.stays rest
      · refine ih (Or.inr planned) ?_
        rw [List.length_append, List.length_singleton] at short
        omega

/-! ### The motor layer -/

section Layer

variable {num : ℕ} (expf) (apid : Apid K P)

/-- Until the next command, every call of the behaviour function of motor `i` sees `mode` and
`target`. -/
def Steady (i : Fin num) (mode : Mode) (target : K) (motors : Vector (Motor K P) num) : Prop :=
  ∀ inputs events motors', (layer expf apid).RunOn
      (fun _ input => input.commanded ≠ some (i : ℕ)) motors inputs events motors' →
    ∀ seen ∈ events.flatMap (Event.see (i : ℕ)), seen = (mode, target)

/-- Until the next command, motor `i` runs in the position mode, and after finitely many calls of
its behaviour function its target is `goal` and stays so. -/
def Reaches (i : Fin num) (goal : K) (motors : Vector (Motor K P) num) : Prop :=
  ∃ calls, ∀ inputs events motors', (layer expf apid).RunOn
      (fun _ input => input.commanded ≠ some (i : ℕ)) motors inputs events motors' →
    (∀ seen ∈ events.flatMap (Event.see (i : ℕ)), seen.1 = .pos) ∧
      (calls ≤ (events.flatMap (Event.see (i : ℕ))).length →
        (motors'.get i).flagRunMode = .pos ∧ (motors'.get i).tarPos = goal)

/-- What a command asks of everything that follows it, up to the next command. -/
def Obeyed (i : Fin num) (ratio : K) (motors : Vector (Motor K P) num) : Call K → Prop
  | .setSpeed _ value => Steady expf apid i .speed (value * ratio) motors
  | .setPos _ value => Steady expf apid i .pos (value * ratio) motors
  | .setTorque _ value => Steady expf apid i .torque (value * ratio) motors
  | .setPosPlan _ targetPos _ _ _ => Reaches expf apid i (targetPos * ratio) motors
  | _ => True

/-- A setter finds no active plan; a planned move finds the position mode. -/
def Heeded (m : Motor K P) : Call K → Prop
  | .setSpeed .. => m.command.Idle
  | .setPos .. => m.command.Idle
  | .setTorque .. => m.command.Idle
  | .setPosPlan .. => m.flagRunMode = .pos
  | _ => True

variable {expf} {apid} {i : Fin num} {motors : Vector (Motor K P) num}

omit [IsStrictOrderedRing K] in
theorem steady_of_idle (idle : (commandOf i motors).Idle) :
    Steady expf apid i (commandOf i motors).mode (commandOf i motors).target motors := by
  intro inputs events motors' run
  obtain ⟨ticks, seen⟩ := quiet_run run
  exact (ticker_steady idle seen).2

omit [IsStrictOrderedRing K] in
theorem steady_of_setter {mode : Mode} {target : K} {m m' : Motor K P}
    (here : motors.get i = m') (idle : m.command.Idle) (curve : m'.curve = m.curve)
    (runMode : m'.flagRunMode = mode) (value : m'.target mode = target) :
    Steady expf apid i mode target motors := by
  have command : commandOf i motors = ⟨mode, target, m.curve⟩ := by
    show (motors.get i).command = _
    unfold Motor.command
    rw [here, runMode, value, curve]
  have steady : (commandOf i motors).Idle → Steady expf apid i
    (commandOf i motors).mode (commandOf i motors).target motors := steady_of_idle
  rw [command] at steady
  exact steady idle

/-- The first call of a plan leaves it under way, or on its target. -/
theorem planned_of_first {curve next : Curve K} (computed : motorPlanning expf curve = some next)
    (intervel : 0 < curve.intervel) (curveMode : curve.curveMode ≠ .none)
    (aTimes : 0 ≤ curve.aTimes) :
    ∃ left, Command.Planned ⟨.pos, next.currentPos, some next⟩ curve.targetPos left := by
  have sound : curve.Sound := ⟨stepPos_ne_zero computed, intervel, curveMode, aTimes⟩
  by_cases moves : curve.Moves
  · obtain ⟨power, a, m, moved, later, long, -⟩ := planning_moves expf sound moves
    rw [moved] at computed
    obtain rfl := Option.some.inj computed
    exact ⟨(m - a).toNat, Or.inr ⟨rfl, _, rfl, rfl, long,
      Curve.sound_of_duration long intervel curveMode later.le, Int.self_le_toNat _⟩⟩
  · rw [planning_lands moves] at computed
    obtain rfl := Option.some.inj computed
    refine ⟨0, Or.inl ⟨rfl, rfl, fun landed same => ?_⟩⟩
    rw [← Option.some.inj same]
    rfl

/-- The planned move leaves the motor under way to its goal, or on it. -/
theorem setPosPlan_planned {m m' : Motor K P} {targetPos stepPos flexible : K} {maxTimes : ℤ}
    (mode : m.flagRunMode = .pos)
    (computed : m.setPosPlan expf targetPos stepPos flexible maxTimes = some m') :
    ∃ left, m'.command.Planned (targetPos * m.ratio) left := by
  obtain ⟨old, attached, rest⟩ := Option.bind_eq_some_iff.mp computed
  obtain ⟨next, planned, done⟩ := Option.bind_eq_some_iff.mp rest
  obtain rfl := Option.some.inj done
  have command : Motor.command { m with curve := some next, tarPos := next.currentPos } =
      ⟨.pos, next.currentPos, some next⟩ := by
    simp [Motor.command, Motor.target, mode]
  rw [command]
  exact planned_of_first planned (show (0 : ℤ) < 2 by decide)
    (show PosCurve.trap ≠ .none by decide) le_rfl

/-- A planned move in the position mode reaches its goal. -/
theorem reaches_of_planned {goal : K} {left : ℕ}
    (planned : (commandOf i motors).Planned goal left) :
    Reaches expf apid i goal motors := by
  have mode : (commandOf i motors).mode = .pos := planned.elim (·.mode) (·.1)
  refine ⟨left + 1, fun inputs events motors' run => ?_⟩
  obtain ⟨ticks, seen⟩ := quiet_run run
  refine ⟨fun call member => (ticker_mode seen call member).trans mode, fun long => ?_⟩
  have landed := ticker_lands seen planned long
  have runMode : (motors'.get i).flagRunMode = .pos := landed.mode
  refine ⟨runMode, ?_⟩
  have target := landed.target
  change (motors'.get i).target (motors'.get i).flagRunMode = goal at target
  rwa [runMode] at target

/-- **The last command wins.** A heeded command is obeyed in every continuation up to the next
command. -/
theorem last_command_wins {motors' : Vector (Motor K P) num} {input : Call K}
    {events : List (Event K)} (addressed : input.commanded = some (i : ℕ))
    (heeded : Heeded (motors.get i) input)
    (step : (layer expf apid).step motors input = some (motors', events)) :
    Obeyed expf apid i (motors.get i).ratio motors' input := by
  have here {j : Fin num} {id : ℤ} (command : input.commanded = some id) (same : id = (j : ℕ)) :
      j = i := by
    rw [command, same] at addressed
    exact Fin.ext (Nat.cast_inj.mp (Option.some.inj addressed))
  cases input <;> simp only [layer, call] at step
  case setSpeed id value =>
    obtain ⟨j, m, same, stored, rfl⟩ := withMotor_cases step
    obtain rfl := here rfl same
    obtain ⟨rfl, -⟩ := Prod.mk.inj (Option.some.inj stored)
    exact steady_of_setter (Vector.getElem_set_self _) heeded rfl rfl rfl
  case setPos id value =>
    obtain ⟨j, m, same, stored, rfl⟩ := withMotor_cases step
    obtain rfl := here rfl same
    obtain ⟨rfl, -⟩ := Prod.mk.inj (Option.some.inj stored)
    exact steady_of_setter (Vector.getElem_set_self _) heeded rfl rfl rfl
  case setTorque id value =>
    obtain ⟨j, m, same, stored, rfl⟩ := withMotor_cases step
    obtain rfl := here rfl same
    obtain ⟨rfl, -⟩ := Prod.mk.inj (Option.some.inj stored)
    exact steady_of_setter (Vector.getElem_set_self _) heeded rfl rfl rfl
  case setPosPlan id targetPos stepPos flexible maxTimes =>
    obtain ⟨j, m, same, stored, rfl⟩ := withMotor_cases step
    obtain rfl := here rfl same
    obtain ⟨m', computed, done⟩ := Option.map_eq_some_iff.mp stored
    obtain ⟨rfl, -⟩ := Prod.mk.inj done
    obtain ⟨left, planned⟩ := setPosPlan_planned heeded computed
    have after : commandOf j (motors.set j m') = m'.command := by
      unfold commandOf
      rw [Vector.getElem_set_self]
    exact reaches_of_planned (after ▸ planned)
  all_goals trivial

end Layer

/-! ### One motor -/

/-- A controller that does nothing. -/
def still : Apid ℚ Unit := ⟨fun pid _ => pid, fun pid _ => pid, fun pid _ => pid, fun _ => 0⟩

/-- A motor with a curve whose driver takes torques, as `motor_init` leaves it. -/
def fresh : Motor ℚ Unit where
  time := 0
  ratioPos := 1
  ratioSpeed := 1
  pidSpeed := some ()
  pidPos := some ()
  pidTorque := none
  tarSpeed := 0
  tarPos := 0
  tarTorque := 0
  curSpeed := 0
  curPos := 0
  curTorque := 0
  flagRunMode := .idel
  flagOutMode := .torque
  flagPassiveFeedback := true
  flagIsStop := false
  behaver := .two
  accOut := 0
  ratio := 2
  curve := some ⟨0, 0, 0, 0, 0, 0, .none, 0, 0⟩

/-- A speed is obeyed by a motor that has no plan. -/
theorem last_command_wins_fresh :
    Obeyed (fun _ => 1) still (0 : Fin 1) 2
      #v[{ fresh with flagRunMode := .speed, tarSpeed := 6 }] (.setSpeed 0 3) := by
  have heeded : Heeded (Vector.get #v[fresh] (0 : Fin 1)) (.setSpeed 0 3) :=
    fun curve attached => Option.some.inj attached ▸ rfl
  have step : (layer (fun _ => 1) still).step #v[fresh] (.setSpeed 0 3) =
      some (#v[{ fresh with flagRunMode := .speed, tarSpeed := 6 }], []) := by
    decide +kernel
  exact last_command_wins rfl heeded step

/-- The motor after the planned move `motor_set_pos_plan(0, 10, 1, 1, 10)`. -/
def planning : Motor ℚ Unit :=
  { fresh with tarPos := 10, curve := some ⟨0, 10, 20, 1, 2, 10, .trap, 1, 2⟩ }

/-- **A plan overrides a later speed.** After `motor_set_speed(0, 3)` the plan is fed into the
target of the speed mode. -/
theorem plan_overrides_speed :
    (layer (fun _ => 1) still).step #v[fresh] (.setPosPlan 0 10 1 1 10) =
        some (#v[planning], []) ∧
      (layer (fun _ => 1) still).step #v[planning] (.setSpeed 0 3) =
        some (#v[{ planning with flagRunMode := .speed, tarSpeed := 6 }], []) ∧
      ¬ Obeyed (fun _ => 1) still (0 : Fin 1) 2
        #v[{ planning with flagRunMode := .speed, tarSpeed := 6 }] (.setSpeed 0 3) := by
  refine ⟨by decide +kernel, by decide +kernel, fun steady => ?_⟩
  obtain ⟨events, motors', run, fed⟩ := Machine.exists_run (layer (fun _ => 1) still)
    (fun _ input => input.commanded ≠ some ((0 : Fin 1) : ℕ))
    #v[{ planning with flagRunMode := .speed, tarSpeed := 6 }] [.handle 0 1 ⟨none, none, none⟩]
    (fun _ events => (Mode.speed, (10 : ℚ)) ∈ events.flatMap (Event.see 0)) (by decide +kernel)
  have seen := steady _ _ _ run _ (of_decide_eq_true fed)
  exact absurd seen (by decide +kernel)

end Robocon.Motors
