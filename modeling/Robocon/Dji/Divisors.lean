/-
**The divisors of the loops (`set_motor_passive_feedback` in `motor_dj_rm_driver.c`).**

A motor's speed loop and position loop run on every `ratio_speed`-th and `ratio_pos`-th tick of its
clock, and so does the active feedback. Both ratios are four-bit fields, and a static motor starts
with zeros in them.

* `Motor.divisors` — the divisors of the remainders that a call of `motor_handle` takes;
  `handle_isSome_iff` says that the call fails exactly if one of them is zero.
* `setMotorPassiveFeedback` — the configuration of the enabled motors; `configured_loops` says what
  it leaves in the fields: ratios for every M3508 and none for an M2006.
* `divisors_nonzero_iff` — after any further calls, no remainder is taken by zero exactly if the
  last ratios of the motor, cut to four bits, are not zero where they are used.
-/

import Robocon.Dji.Config
import Robocon.Motors.LastCommand
import Robocon.Motors.Levels

namespace Robocon.Dji

open Lib Motors

/-- A `uint8_t` in a field of four bits. -/
def nibble (value : UInt8) : Fin 16 := ⟨value.toNat % 16, Nat.mod_lt _ (by decide)⟩

/-- The fields of a motor that its remainders depend on. -/
structure Loops where
  ratioSpeed : Fin 16
  ratioPos : Fin 16
  passive : Bool
  deriving DecidableEq

/-! ### The divisors of one call -/

section Call

variable {K P : Type}

/-- The fields of a motor that its remainders depend on. -/
def loopsOf (m : Motor K P) : Loops := ⟨m.ratioSpeed, m.ratioPos, m.flagPassiveFeedback⟩

/-- The divisors of `MOTOD_IS_POS_TIME` and `MOTOD_IS_SPEED_TIME` in a call of the behaviour
function. -/
def behaverDivisors (m : Motor K P) : List (Fin 16) :=
  match m.behaver, m.flagRunMode with
  | .one, .pos => [m.ratioPos, m.ratioSpeed]
  | .one, .speed => [m.ratioSpeed]
  | .two, .pos => [m.ratioPos, m.ratioSpeed]
  | .two, .speed => [m.ratioSpeed]
  | .three, .pos => [m.ratioPos]
  | _, _ => []

/-- The divisors of the remainders that a call of `motor_handle` takes, in `__motor_read_feedback`
and in the behaviour function. -/
def divisors (m : Motor K P) : List (Fin 16) :=
  (if m.flagPassiveFeedback then [] else [m.ratioSpeed, m.ratioPos]) ++
    if m.flagIsStop then [] else behaverDivisors m

/-- **The condition on a call** for a motor of the DJI family. -/
def Provided (loops : Loops) (m : Motor K P) : Prop :=
  (loops.passive = false → loops.ratioSpeed ≠ 0 ∧ loops.ratioPos ≠ 0) ∧
    (m.flagIsStop = false → m.flagRunMode = .speed → loops.ratioSpeed ≠ 0) ∧
    (m.flagIsStop = false → m.flagRunMode = .pos → loops.ratioSpeed ≠ 0 ∧ loops.ratioPos ≠ 0)

theorem zero_notMem_divisors {m : Motor K P} (behaver : m.behaver = .two) :
    0 ∉ divisors m ↔ Provided (loopsOf m) m := by
  unfold divisors behaverDivisors Provided loopsOf
  rw [behaver, List.mem_append, not_or]
  cases m.flagPassiveFeedback <;> cases m.flagIsStop <;> cases m.flagRunMode <;>
    simp [eq_comm, and_comm]

variable [Field K] {apid : Apid K P} {m : Motor K P} {cycle : K}

omit [Field K] in
theorem isTime_isSome (time : ℤ) (ratio : Fin 16) :
    (Motor.isTime time ratio).isSome = true ↔ ratio ≠ 0 := by
  unfold Motor.isTime
  by_cases zero : ratio = 0 <;> simp [zero]

omit [Field K] in
theorem takeFeedback_isSome (reading : Reading K) :
    (m.takeFeedback reading).isSome = true ↔
      (m.flagPassiveFeedback = false → m.ratioSpeed ≠ 0 ∧ m.ratioPos ≠ 0) := by
  unfold Motor.takeFeedback
  cases m.flagPassiveFeedback with
  | true => simp
  | false =>
    simp only [Bool.false_eq_true, if_false, forall_const, Motor.readFeedback]
    rw [← isTime_isSome m.time, ← isTime_isSome m.time]
    rcases Motor.isTime m.time m.ratioSpeed with _ | _ | _
    · simp
    · cases pos : Motor.isTime m.time m.ratioPos <;> simp [pos]
    · cases pos : Motor.isTime m.time m.ratioPos <;> simp [pos]

theorem behiverPos_isSome (held : m.pidPos.isSome = true) :
    (Motor.behiverPos apid m cycle).isSome = true ↔ m.ratioPos ≠ 0 := by
  obtain ⟨pid, held⟩ := Option.isSome_iff_exists.mp held
  rw [← isTime_isSome m.time]
  unfold Motor.behiverPos
  rcases Motor.isTime m.time m.ratioPos with _ | _ | _
  · simp
  · simp
  · simp [held]

theorem behiverSpeed_isSome (held : m.pidSpeed.isSome = true) :
    (Motor.behiverSpeed apid m cycle).isSome = true ↔ m.ratioSpeed ≠ 0 := by
  obtain ⟨pid, held⟩ := Option.isSome_iff_exists.mp held
  rw [← isTime_isSome m.time]
  unfold Motor.behiverSpeed
  rcases Motor.isTime m.time m.ratioSpeed with _ | _ | _
  · simp
  · simp
  · simp [held]

/-- The position loop keeps the speed loop's controller and ratio. -/
theorem behiverPos_speed {m' : Motor K P} (computed : Motor.behiverPos apid m cycle = some m') :
    m'.pidSpeed = m.pidSpeed ∧ m'.ratioSpeed = m.ratioSpeed := by
  obtain ⟨_, -, ⟨-, rfl⟩ | ⟨-, _, _, -, -, rfl⟩⟩ := Motor.behiverPos_cases computed
  · exact ⟨rfl, rfl⟩
  · exact ⟨rfl, rfl⟩

theorem behiver2_isSome (speed : m.pidSpeed.isSome = true) (pos : m.pidPos.isSome = true)
    (mode : Motors.Mode) : (Motor.behiver2 apid m mode cycle).isSome = true ↔
      (mode = .speed → m.ratioSpeed ≠ 0) ∧
        (mode = .pos → m.ratioSpeed ≠ 0 ∧ m.ratioPos ≠ 0) := by
  cases mode with
  | idel => simp [Motor.behiver2]
  | torque => simp [Motor.behiver2]
  | speed =>
    have loop : (Motor.behiverSpeed apid m cycle).isSome = true ↔ _ := behiverSpeed_isSome speed
    simp only [reduceCtorEq, false_implies, forall_const, and_true, ← loop, Motor.behiver2]
    cases Motor.behiverSpeed apid m cycle <;> simp
  | pos =>
    have loop : (Motor.behiverPos apid m cycle).isSome = true ↔ _ := behiverPos_isSome pos
    simp only [reduceCtorEq, false_implies, forall_const, true_and, ← loop, Motor.behiver2]
    cases computed : Motor.behiverPos apid m cycle with
    | none => simp
    | some m' =>
      obtain ⟨held, ratio⟩ := behiverPos_speed computed
      have inner : (Motor.behiverSpeed apid m' cycle).isSome = true ↔ _ :=
        behiverSpeed_isSome (held ▸ speed)
      rw [ratio] at inner
      rw [← inner]
      cases after : Motor.behiverSpeed apid m' cycle <;> simp [after]

/-- The same loops, run mode and controllers. -/
structure Alike (m m' : Motor K P) : Prop where
  loops : loopsOf m' = loopsOf m
  runMode : m'.flagRunMode = m.flagRunMode
  isStop : m'.flagIsStop = m.flagIsStop
  behaver : m'.behaver = m.behaver
  pidSpeed : m'.pidSpeed = m.pidSpeed
  pidPos : m'.pidPos = m.pidPos

omit [Field K] in
theorem Alike.trans {m m' m'' : Motor K P} (first : Alike m m') (second : Alike m' m'') :
    Alike m m'' where
  loops := second.loops.trans first.loops
  runMode := second.runMode.trans first.runMode
  isStop := second.isStop.trans first.isStop
  behaver := second.behaver.trans first.behaver
  pidSpeed := second.pidSpeed.trans first.pidSpeed
  pidPos := second.pidPos.trans first.pidPos

omit [Field K] in
theorem takeFeedback_alike {m m' : Motor K P} {reading : Reading K}
    (taken : m.takeFeedback reading = some m') : Alike m m' ∧ m'.curve = m.curve := by
  obtain ⟨_, _, _, rfl⟩ := Motor.takeFeedback_writes taken
  exact ⟨⟨rfl, rfl, rfl, rfl, rfl, rfl⟩, rfl⟩

/-- Whether the behaviour function of accept level 1 can be called. -/
theorem behave_isSome {led : Motor K P} (alike : Alike m led) (behaver : m.behaver = .two)
    (speed : m.pidSpeed.isSome = true) (pos : m.pidPos.isSome = true) :
    (led.behave apid led.flagRunMode cycle).isSome = true ↔
      (m.flagRunMode = .speed → m.ratioSpeed ≠ 0) ∧
        (m.flagRunMode = .pos → m.ratioSpeed ≠ 0 ∧ m.ratioPos ≠ 0) := by
  have speed' : led.pidSpeed.isSome = true := alike.pidSpeed ▸ speed
  have pos' : led.pidPos.isSome = true := alike.pidPos ▸ pos
  have ratioSpeed : led.ratioSpeed = m.ratioSpeed := congrArg Loops.ratioSpeed alike.loops
  have ratioPos : led.ratioPos = m.ratioPos := congrArg Loops.ratioPos alike.loops
  rw [Motor.behave, alike.behaver.trans behaver, alike.runMode, ← ratioSpeed, ← ratioPos]
  exact behiver2_isSome speed' pos' m.flagRunMode

variable [LinearOrder K] [FloorRing K] {expf : K → K}

/-- Whether a curve can be followed depends on the curve and the run mode. -/
theorem followCurve_isSome {m m' : Motor K P} (curve : m'.curve = m.curve)
    (mode : m'.flagRunMode = m.flagRunMode) :
    (m'.followCurve expf).isSome = (m.followCurve expf).isSome := by
  unfold Motor.followCurve
  rw [curve, mode]
  cases m.curve with
  | none => rfl
  | some curve =>
    by_cases active : curve.maxTimes ≠ 0
    · simp only [if_pos active]
      cases m.flagRunMode <;> cases Trajectory.motorPlanning expf curve <;> rfl
    · simp only [if_neg active]
      rfl

theorem followCurve_alike {m m' : Motor K P} (followed : m.followCurve expf = some m') :
    Alike m m' := by
  obtain ⟨_, _, _, _, rfl⟩ := Motor.followCurve_writes followed
  exact ⟨rfl, rfl, rfl, rfl, rfl, rfl⟩

/-- **A call of `motor_handle` fails** exactly if it takes a remainder by zero, for a motor of
accept level 1 with its controllers and a plan that can be followed. -/
theorem handle_isSome_iff (behaver : m.behaver = .two) (speed : m.pidSpeed.isSome = true)
    (pos : m.pidPos.isSome = true) (follows : (m.followCurve expf).isSome = true) (id : ℤ)
    (reading : Reading K) :
    (m.handle expf apid id cycle reading).isSome = true ↔ 0 ∉ divisors m := by
  let timed : Motor K P := { m with time := trunc ((m.time : K) + cycle) }
  have start : Alike m timed := ⟨rfl, rfl, rfl, rfl, rfl, rfl⟩
  have feeds : (timed.takeFeedback reading).isSome = true ↔
      (m.flagPassiveFeedback = false → m.ratioSpeed ≠ 0 ∧ m.ratioPos ≠ 0) :=
    takeFeedback_isSome reading
  rw [zero_notMem_divisors behaver, Motor.handle_eq]
  refine ⟨fun handled => ?_, fun provided => ?_⟩
  · obtain ⟨⟨m', events⟩, handled⟩ := Option.isSome_iff_exists.mp handled
    obtain ⟨fed, taken, cases⟩ := Motor.handleRest_cases handled
    have alike := start.trans (takeFeedback_alike taken).1
    have first := feeds.mp (Option.isSome_iff_exists.mpr ⟨fed, taken⟩)
    rcases cases with ⟨stopped, -⟩ | ⟨-, led, followed, behaved, -⟩
    · have still := alike.isStop.symm.trans stopped
      exact ⟨first, fun going => absurd (still.symm.trans going) Bool.noConfusion,
        fun going => absurd (still.symm.trans going) Bool.noConfusion⟩
    · have loops := (behave_isSome (alike.trans (followCurve_alike followed)) behaver speed
        pos).mp (Option.isSome_iff_exists.mpr ⟨m', behaved⟩)
      exact ⟨first, fun _ => loops.1, fun _ => loops.2⟩
  · obtain ⟨fed, taken⟩ := Option.isSome_iff_exists.mp (feeds.mpr provided.1)
    obtain ⟨fedAlike, curve⟩ := takeFeedback_alike taken
    have alike := start.trans fedAlike
    rw [Motor.handleRest, taken, Option.bind_eq_bind, Option.bind_some, alike.isStop]
    cases stop : m.flagIsStop with
    | true => rfl
    | false =>
      have follows' : (fed.followCurve expf).isSome = true :=
        (followCurve_isSome (m := m) curve alike.runMode).trans follows
      obtain ⟨led, followed⟩ := Option.isSome_iff_exists.mp follows'
      have behaves : (led.behave apid led.flagRunMode cycle).isSome = true :=
        (behave_isSome (alike.trans (followCurve_alike followed)) behaver speed pos).mpr
          ⟨provided.2.1 stop, provided.2.2 stop⟩
      obtain ⟨m', behaved⟩ := Option.isSome_iff_exists.mp behaves
      rw [if_neg Bool.false_ne_true, followed, Option.bind_some, behaved]
      rfl

end Call

/-! ### The configuration -/

/-- The gear ratio of an M3508, and what the calls `APID_Set_…` of the configuration do to the two
controllers of a motor. -/
structure Tuning (K P : Type) where
  gear : K
  speed : Macro → P → P
  pos : Macro → P → P

section Setters

variable {K P : Type}

def motorSetPassiveFeedback (isTrue : Bool) (m : Motor K P) : Motor K P :=
  { m with flagPassiveFeedback := isTrue }

def motorSetRatio (ratio : K) (m : Motor K P) : Motor K P := { m with ratio := ratio }

def motorSetPidSpeedRatio (ratioSpeed ratioPos : UInt8) (m : Motor K P) : Motor K P :=
  { m with ratioSpeed := nibble ratioSpeed, ratioPos := nibble ratioPos }

/-- The calls `APID_Set_…` for a motor. -/
def Tuning.apply (tuning : Tuning K P) (motor : Macro) (m : Motor K P) : Motor K P :=
  { m with
    pidSpeed := m.pidSpeed.map (tuning.speed motor)
    pidPos := m.pidPos.map (tuning.pos motor) }

def djDefaultCfg3508 (tuning : Tuning K P) (motor : Macro) (m : Motor K P) : Motor K P :=
  tuning.apply motor
    (motorSetPidSpeedRatio 1 2 (motorSetRatio tuning.gear (motorSetPassiveFeedback true m)))

end Setters

/-- What the block of an enabled motor does to the motor it names. The first five M2006 motors on
CAN1 are tuned. -/
def Macro.block {K P : Type} (tuning : Tuning K P) (motor : Macro) (m : Motor K P) : Motor K P :=
  match motor.kind, motor.slot.bus with
  | .m3508, _ => djDefaultCfg3508 tuning motor m
  | .m2006, .can1 =>
    if (motor.slot.num : ℕ) < 5 then tuning.apply motor (motorSetPassiveFeedback true m)
    else motorSetPassiveFeedback true m
  | .m2006, .can2 => motorSetPassiveFeedback true m

/-- The fields that the remainders of a motor depend on, after the configuration. -/
def Macro.loops (motor : Macro) : Loops where
  ratioSpeed := if motor.kind = .m3508 then 1 else 0
  ratioPos := if motor.kind = .m3508 then 2 else 0
  passive := motor.passiveTarget = motor

theorem Macro.passiveTarget_idem : ∀ motor : Macro,
    motor.passiveTarget.passiveTarget = motor.passiveTarget := by decide

theorem Macro.passiveTarget_kind : ∀ motor : Macro, motor.passiveTarget.kind = motor.kind := by
  decide

theorem Macro.passiveTarget_m3508 : ∀ motor : Macro, motor.kind = .m3508 →
    motor.passiveTarget = motor := by
  decide

section Configuration

variable {K P : Type} {num : ℕ}

/-- A setter of the motor layer for a motor by its id. -/
def Config.store (cfg : Config) (motors : Vector (Motor K P) num) (motor : Macro)
    (change : Motor K P → Motor K P) : Option (Vector (Motor K P) num) :=
  (withMotor motors (cfg.layerIds.idxOf motor : ℕ) fun m => some (change m, [])).map Prod.fst

/-- `set_motor_passive_feedback`: the blocks of the enabled motors, in the order of their ids. -/
def Config.setMotorPassiveFeedback (cfg : Config) (tuning : Tuning K P)
    (motors : Vector (Motor K P) num) : Option (Vector (Motor K P) num) :=
  cfg.layerIds.foldlM (fun motors motor =>
    cfg.store motors motor.passiveTarget (motor.block tuning)) motors

variable {cfg : Config} {tuning : Tuning K P} {motors motors' : Vector (Motor K P) num}

theorem Config.mem_layerIds {motor : Macro} : motor ∈ cfg.layerIds ↔ cfg.enabled motor = true := by
  have all : ∀ motor : Macro, motor ∈ (Bus.can1.slots ++ Bus.can2.slots).map (Macro.mk .m3508) ++
      (Bus.can1.slots ++ Bus.can2.slots).map (Macro.mk .m2006) := by decide
  rw [layerIds, List.mem_filter, and_iff_right (all motor)]

theorem Config.store_get {motor other : Macro} {change : Motor K P → Motor K P}
    (stored : cfg.store motors motor change = some motors') (enabled : cfg.enabled motor = true)
    {i : Fin num} (here : (i : ℕ) = cfg.layerIds.idxOf other) :
    motors'.get i = if motor = other then change (motors.get i) else motors.get i := by
  obtain ⟨⟨_, events⟩, step, rfl⟩ := Option.map_eq_some_iff.mp stored
  rcases withMotor_get step i with ⟨same, changed⟩ | ⟨differs, same⟩
  · rw [here, Nat.cast_inj, List.idxOf_inj (Config.mem_layerIds.mpr enabled)] at same
    rw [if_pos same]
    exact (Prod.mk.inj (Option.some.inj changed)).1.symm
  · rw [if_neg fun equal => differs (by rw [here, equal])]
    exact same

/-- What a block leaves in the fields of the motor that it names. -/
theorem Macro.block_loops (motor : Macro) (m : Motor K P) :
    loopsOf (motor.block tuning m) =
      if motor.kind = .m3508 then ⟨1, 2, true⟩ else { loopsOf m with passive := true } := by
  obtain ⟨kind, bus, number⟩ := motor
  cases kind with
  | m3508 => rfl
  | m2006 =>
    cases bus with
    | can1 =>
      by_cases first : (number : ℕ) < 5
      · simp [Macro.block, first, loopsOf, Tuning.apply, motorSetPassiveFeedback]
      · simp [Macro.block, first, loopsOf, motorSetPassiveFeedback]
    | can2 => rfl

/-- What the blocks of some motors leave in the fields of a motor. -/
theorem blocks_loops {blocks : List Macro} (compiles : cfg.Compiles)
    (enabled : ∀ motor ∈ blocks, cfg.enabled motor = true) {motor : Macro} {i : Fin num}
    (here : (i : ℕ) = cfg.layerIds.idxOf motor) : ∀ {motors : Vector (Motor K P) num},
      blocks.foldlM (fun motors block =>
        cfg.store motors block.passiveTarget (block.block tuning)) motors = some motors' →
      loopsOf (motors'.get i) =
        if ∃ block ∈ blocks, block.passiveTarget = motor then
          if motor.kind = .m3508 then ⟨1, 2, true⟩
          else { loopsOf (motors.get i) with passive := true }
        else loopsOf (motors.get i) := by
  induction blocks with
  | nil =>
    intro motors done
    obtain rfl := Option.some.inj done
    simp
  | cons block blocks ih =>
    intro motors done
    obtain ⟨middle, stored, rest⟩ := Option.bind_eq_some_iff.mp done
    have target := compiles.targets block (enabled block List.mem_cons_self)
    have first := Config.store_get stored target here
    have later := ih (fun motor member => enabled motor (List.mem_cons_of_mem _ member)) rest
    by_cases named : block.passiveTarget = motor
    · have head : ∃ other ∈ block :: blocks, other.passiveTarget = motor :=
        ⟨block, List.mem_cons_self, named⟩
      have kind : block.kind = motor.kind := by
        rw [← named, Macro.passiveTarget_kind]
      rw [later, first, if_pos named, if_pos head, Macro.block_loops, kind]
      by_cases ratios : motor.kind = .m3508 <;> simp [ratios]
    · have same : (∃ other ∈ block :: blocks, other.passiveTarget = motor) ↔
          ∃ other ∈ blocks, other.passiveTarget = motor := by
        simp [named]
      rw [later, first, if_neg named]
      simp only [same]

theorem Macro.block_behaver (motor : Macro) (m : Motor K P) :
    (motor.block tuning m).behaver = m.behaver := by
  obtain ⟨kind, bus, number⟩ := motor
  cases kind with
  | m3508 => rfl
  | m2006 =>
    cases bus with
    | can1 => by_cases first : (number : ℕ) < 5 <;> simp [Macro.block, first, Tuning.apply,
        motorSetPassiveFeedback]
    | can2 => rfl

theorem blocks_behaver {blocks : List Macro} {i : Fin num} :
    ∀ {motors : Vector (Motor K P) num},
      blocks.foldlM (fun motors block =>
        cfg.store motors block.passiveTarget (block.block tuning)) motors = some motors' →
      (motors'.get i).behaver = (motors.get i).behaver := by
  induction blocks with
  | nil =>
    intro motors done
    obtain rfl := Option.some.inj done
    rfl
  | cons block blocks ih =>
    intro motors done
    obtain ⟨middle, stored, rest⟩ := Option.bind_eq_some_iff.mp done
    obtain ⟨⟨_, events⟩, step, rfl⟩ := Option.map_eq_some_iff.mp stored
    exact (ih rest).trans (setter_kept Motor.behaver step (block.block_behaver) i)

/-- **What the configuration leaves** in the fields of an enabled motor, of the zeros there. -/
theorem configured_loops (compiles : cfg.Compiles)
    (configured : cfg.setMotorPassiveFeedback tuning motors = some motors') {motor : Macro}
    (enabled : cfg.enabled motor = true) {i : Fin num}
    (here : (i : ℕ) = cfg.layerIds.idxOf motor) (zeros : loopsOf (motors.get i) = ⟨0, 0, false⟩) :
    loopsOf (motors'.get i) = motor.loops := by
  rw [blocks_loops compiles (fun _ member => Config.mem_layerIds.mp member) here configured, zeros]
  have named : (∃ block ∈ cfg.layerIds, block.passiveTarget = motor) ↔
      motor.passiveTarget = motor := by
    refine ⟨?_, fun own => ⟨motor, Config.mem_layerIds.mpr enabled, own⟩⟩
    rintro ⟨block, -, rfl⟩
    exact block.passiveTarget_idem
  simp only [named, Macro.loops]
  by_cases own : motor.passiveTarget = motor
  · by_cases kind : motor.kind = .m3508 <;> simp [own, kind]
  · have kind : motor.kind ≠ .m3508 := fun kind => own (motor.passiveTarget_m3508 kind)
    simp [own, kind]

end Configuration

/-! ### Runs -/

/-- The calls of the motor layer and `motor_set_pid_speed_ratio`. -/
inductive DjiCall (K : Type)
  | layer (call : Call K)
  | setPidSpeedRatio (id : ℤ) (ratioSpeed ratioPos : UInt8)

/-- The fields that the remainders of a motor depend on, after the call. -/
def DjiCall.loops {K : Type} (motor : ℤ) (before : Loops) : DjiCall K → Loops
  | .layer _ => before
  | .setPidSpeedRatio id ratioSpeed ratioPos =>
    if id = motor then
      { before with ratioSpeed := nibble ratioSpeed, ratioPos := nibble ratioPos }
    else before

section Runs

variable {K P : Type} [Field K] [LinearOrder K] [FloorRing K] (expf : K → K) (apid : Apid K P)
  {num : ℕ}

/-- The motor layer with `motor_set_pid_speed_ratio` as a machine. -/
def ratioLayer : Machine (Vector (Motor K P) num) (DjiCall K) (Motors.Event K) where
  step motors
    | .layer input => call expf apid motors input
    | .setPidSpeedRatio id ratioSpeed ratioPos => withMotor motors id fun m =>
      some (motorSetPidSpeedRatio ratioSpeed ratioPos m, [])

variable {expf} {apid} {motors motors' : Vector (Motor K P) num} {events : List (Motors.Event K)}

/-- **One call.** Only `motor_set_pid_speed_ratio` changes the fields that the remainders depend
on. -/
theorem loops_step {input : DjiCall K}
    (step : (ratioLayer expf apid).step motors input = some (motors', events)) (i : Fin num) :
    loopsOf (motors'.get i) = input.loops (i : ℕ) (loopsOf (motors.get i)) ∧
      (motors'.get i).behaver = (motors.get i).behaver := by
  cases input with
  | layer input =>
    have called : (layer expf apid).step motors input = some (motors', events) := step
    have setup := call_setup called i
    refine ⟨?_, congrArg Setup.behaver setup⟩
    exact congrArg (fun setup : Setup K =>
      (⟨setup.ratioSpeed, setup.ratioPos, setup.flagPassiveFeedback⟩ : Loops)) setup
  | setPidSpeedRatio id ratioSpeed ratioPos =>
    have stored : withMotor motors id (fun m =>
        some (motorSetPidSpeedRatio ratioSpeed ratioPos m, [])) = some (motors', events) := step
    refine ⟨?_, setter_kept Motor.behaver stored (fun _ => rfl) i⟩
    rcases withMotor_get stored i with ⟨same, changed⟩ | ⟨differs, same⟩
    · rw [DjiCall.loops, if_pos same, ← (Prod.mk.inj (Option.some.inj changed)).1]
      rfl
    · rw [DjiCall.loops, if_neg differs, same]

/-- **The divisors are never zero** exactly as long as the last ratios of the motor, cut to four
bits, are not zero where its feedback and its run mode use them. -/
theorem divisors_nonzero_iff {cfg : Config} (compiles : cfg.Compiles) {init : P → P}
    {levels : Fin num → Fin 4} {static : Vector (Motor K P) num}
    (initialised : Initialised init levels static) {tuning : Tuning K P}
    (configured : cfg.setMotorPassiveFeedback tuning static = some motors) {motor : Macro}
    (enabled : cfg.enabled motor = true) {i : Fin num} (here : (i : ℕ) = cfg.layerIds.idxOf motor)
    (accept : levels i = 1) (zeros : loopsOf (static.get i) = ⟨0, 0, false⟩)
    {inputs : List (DjiCall K)}
    (run : (ratioLayer expf apid).Run motors inputs events motors') :
    0 ∉ divisors (motors'.get i) ↔
      Provided (inputs.foldl (fun loops input => input.loops (i : ℕ) loops) motor.loops)
        (motors'.get i) := by
  obtain ⟨m, allocated, initial⟩ := initialised i
  have level : (static.get i).behaver = .two := by
    rw [(Motor.initialise_setup initial).2.2, accept]
    rfl
  have kept : loopsOf (motors'.get i) =
        inputs.foldl (fun loops input => input.loops (i : ℕ) loops) motor.loops ∧
      (motors'.get i).behaver = .two := by
    refine run.history (fun past state => loopsOf (state.get i) =
        past.foldl (fun loops input => input.loops (i : ℕ) loops) motor.loops ∧
      (state.get i).behaver = .two) (fun past state input next output _ inv step => ?_) []
      ⟨configured_loops compiles configured enabled here zeros,
        (blocks_behaver configured).trans level⟩
    obtain ⟨loops, behaver⟩ := loops_step step i
    rw [loops, inv.1, List.foldl_append]
    exact ⟨rfl, behaver.trans inv.2⟩
  rw [zero_notMem_divisors kept.2, kept.1]

end Runs

/-! ### One motor, and two -/

/-- `MOTOR_DJ_M3508_ID1_CAN1` and `MOTOR_DJ_M2006_ID2_CAN1`. -/
def mixed : Config where
  enabled motor := motor = ⟨.m3508, .can1, 0⟩ ∨ motor = ⟨.m2006, .can1, 1⟩

/-- A motor of accept level 1 with the zeros of its static record, as `motor_init` leaves it. -/
def zeroed : Motor ℚ Unit :=
  { fresh with ratioPos := 0, ratioSpeed := 0, flagPassiveFeedback := false, ratio := 0 }

theorem zeroed_initialised : Initialised id (fun _ => 1) #v[zeroed] :=
  fun i => ⟨zeroed, fun _ => (), by fin_cases i; rfl⟩

def untuned : Tuning ℚ Unit := ⟨19, fun _ => id, fun _ => id⟩

/-- An M3508 in the speed mode takes its remainders by 3. -/
theorem divisors_nonzero_m3508 : ∃ motors outs state,
    shipped.setMotorPassiveFeedback untuned #v[zeroed] = some motors ∧
    (ratioLayer (fun _ => 1) still).Run motors
      [.setPidSpeedRatio 0 3 5, .layer (.setSpeed 0 7)] outs state ∧
    0 ∉ divisors (state.get 0) := by
  have configured : shipped.setMotorPassiveFeedback untuned #v[zeroed] =
      some #v[djDefaultCfg3508 untuned ⟨.m3508, .can1, 0⟩ zeroed] := by decide +kernel
  obtain ⟨outs, state, run, -⟩ := Machine.exists_run (ratioLayer (fun _ => 1) still)
    (fun _ _ => True) #v[djDefaultCfg3508 untuned ⟨.m3508, .can1, 0⟩ zeroed]
    [.setPidSpeedRatio 0 3 5, .layer (.setSpeed 0 7)] (fun _ _ => true) (by decide +kernel)
  refine ⟨_, outs, state, configured, run, ?_⟩
  have enabled : shipped.enabled ⟨.m3508, .can1, 0⟩ = true := by decide
  have first : ((0 : Fin 1) : ℕ) = shipped.layerIds.idxOf ⟨.m3508, .can1, 0⟩ := by decide +kernel
  have compiles : shipped.Compiles := by decide
  exact (divisors_nonzero_iff compiles zeroed_initialised configured enabled first rfl rfl run).mpr
    ⟨fun _ => ⟨by decide, by decide⟩, fun _ _ => by decide, fun _ _ => ⟨by decide, by decide⟩⟩

/-- **An M2006 has no ratios.** After `motor_set_speed` its speed loop takes the remainder by zero,
and the call of `motor_handle` is undefined. -/
theorem divisors_zero_m2006 : mixed.Compiles ∧ ∃ motors outs state,
    mixed.setMotorPassiveFeedback untuned #v[zeroed, zeroed] = some motors ∧
    (ratioLayer (fun _ => 1) still).Run motors [.layer (.setSpeed 1 7)] outs state ∧
    0 ∈ divisors (state.get 1) ∧
    (ratioLayer (fun _ => 1) still).step state (.layer (.handle 1 1 ⟨none, none, none⟩)) =
      none := by
  let motors : Vector (Motor ℚ Unit) 2 := #v[djDefaultCfg3508 untuned ⟨.m3508, .can1, 0⟩ zeroed,
    { zeroed with flagPassiveFeedback := true }]
  have configured : mixed.setMotorPassiveFeedback untuned #v[zeroed, zeroed] = some motors := by
    decide +kernel
  obtain ⟨outs, state, run, checked⟩ := Machine.exists_run (ratioLayer (fun _ => 1) still)
    (fun _ _ => True) motors [.layer (.setSpeed 1 7)]
    (fun state _ => 0 ∈ divisors (state.get 1) ∧ ((ratioLayer (fun _ => 1) still).step state
      (.layer (.handle 1 1 ⟨none, none, none⟩))).isNone = true) (by decide +kernel)
  obtain ⟨zero, fails⟩ := of_decide_eq_true checked
  exact ⟨by decide, motors, outs, state, configured, run, zero,
    Option.isNone_iff_eq_none.mp fails⟩

end Robocon.Dji
