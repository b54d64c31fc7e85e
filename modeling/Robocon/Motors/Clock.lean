/-
**The clock of the cascade.**

`motor_handle` adds its period to a 64-bit clock through single precision, and the loops of the
cascade run when their ratios divide the clock.

* `addTime_one` — a millisecond more, up to `2 ^ 24`; there the clock stops.
* `clock_reachable` — after `n` calls the clock is the smaller of `n` and `2 ^ 24`.
* `cascade_rate_iff` — in the `n`-th call the loops keep their rates exactly if `n` is at most
  `2 ^ 24`, or each ratio divides `n` exactly if it divides `2 ^ 24`.
* `cascade_runs` — the cascade runs for any number of calls.
-/

import Robocon.Lib.Binary32
import Robocon.Motors.Levels
import Robocon.Motors.LastCommand

namespace Robocon.Motors

open Lib Trajectory

/-! ### The clock -/

section Clock

variable {K : Type} [Field K] [LinearOrder K] [IsStrictOrderedRing K] [FloorRing K]

/-- `motor->time += cycle`: the sum is a `float`, which may be too large for a `long long`. -/
def addTime (time : ℤ) (cycle : K) : Option ℤ :=
  let sum := trunc (binary32 (binary32 (time : K) + cycle))
  if -2 ^ 63 ≤ sum ∧ sum < 2 ^ 63 then some sum else none

/-- **One more**, up to `2 ^ 24`. -/
theorem addTime_one {n : ℕ} (small : n ≤ 2 ^ 24) :
    addTime (n : ℤ) (1 : K) = some ((min (n + 1) (2 ^ 24) : ℕ) : ℤ) := by
  have sum : binary32 (binary32 ((n : ℤ) : K) + 1) = (min (n + 1) (2 ^ 24) : ℕ) := by
    rw [Int.cast_natCast, binary32_natCast small]
    by_cases last : n = 2 ^ 24
    · rw [last, min_eq_right (Nat.le_succ _), ← Nat.cast_succ]
      exact binary32_succ
    · have next : n + 1 ≤ 2 ^ 24 := lt_of_le_of_ne small last
      rw [min_eq_left next, ← Nat.cast_succ]
      exact binary32_natCast next
  have bound : min (n + 1) (2 ^ 24) ≤ 2 ^ 24 := min_le_right _ _
  unfold addTime
  rw [sum, trunc_of_nonneg (Nat.cast_nonneg _), Int.floor_natCast]
  exact if_pos ⟨by omega, by omega⟩

/-- A clock that counts up to `2 ^ 24` goes on doing so. -/
theorem addTime_count (n : ℕ) : addTime ((min n (2 ^ 24) : ℕ) : ℤ) (1 : K) =
    some ((min (n + 1) (2 ^ 24) : ℕ) : ℤ) := by
  have bound : min n (2 ^ 24) ≤ 2 ^ 24 := min_le_right _ _
  have counts : min (min n (2 ^ 24) + 1) (2 ^ 24) = min (n + 1) (2 ^ 24) := by
    omega
  rw [addTime_one bound, counts]

/-- The clock of a motor after the call. -/
def Call.clock32 (motor : ℤ) (before : ℤ) : Call K → Option ℤ
  | .handle id cycle _ => if id = motor then addTime before cycle else some before
  | _ => some before

end Clock

section Handle

variable {K P : Type} [Field K] [LinearOrder K] [IsStrictOrderedRing K] [FloorRing K]
  (expf : K → K) (apid : Apid K P)

/-- `motor_handle` with the clock in single precision. -/
def Motor.handle32 (m : Motor K P) (id : ℤ) (cycle : K) (reading : Reading K) :
    Option (Motor K P × List (Event K)) := do
  let time ← addTime m.time cycle
  { m with time := time }.handleRest expf apid id cycle reading

/-- The motor layer with clocks in single precision. -/
def layer32 {num : ℕ} : Machine (Vector (Motor K P) num) (Call K) (Event K) where
  step motors
    | .handle id cycle reading =>
      withMotor motors id fun m => m.handle32 expf apid id cycle reading
    | input => call expf apid motors input

end Handle

/-! ### The loops -/

/-- A controller that counts the calls of `APID_Hander`. -/
def Apid.counted {K P : Type} (apid : Apid K P) : Apid K (P × ℕ) where
  setTarget pid value := (apid.setTarget pid.1 value, pid.2)
  setPresent pid value := (apid.setPresent pid.1 value, pid.2)
  hander pid cycle := (apid.hander pid.1 cycle, pid.2 + 1)
  getOut pid := apid.getOut pid.1

/-- How often the speed loop has run. -/
def Motor.speedLoops {K P : Type} (m : Motor K (P × ℕ)) : ℕ := m.pidSpeed.elim 0 Prod.snd

/-- How often the position loop has run. -/
def Motor.posLoops {K P : Type} (m : Motor K (P × ℕ)) : ℕ := m.pidPos.elim 0 Prod.snd

section Loops

variable {K P : Type} [Field K] {apid : Apid K P} {m m' : Motor K (P × ℕ)} {cycle : K}

theorem isTime_iff {n : ℕ} {ratio : Fin 16} {time : Bool}
    (computed : Motor.isTime (n : ℤ) ratio = some time) : time = true ↔ ratio.val ∣ n := by
  unfold Motor.isTime at computed
  split at computed
  case isTrue => cases computed
  case isFalse =>
    rw [← Option.some.inj computed, decide_eq_true_eq, ← Int.dvd_iff_emod_eq_zero,
      Int.natCast_dvd_natCast]

/-- The position loop runs when its ratio divides the clock, and leaves the speed loop alone. -/
theorem behiverPos_loops {n : ℕ} (clock : m.time = n)
    (computed : Motor.behiverPos apid.counted m cycle = some m') :
    (m'.posLoops = m.posLoops + if m.ratioPos.val ∣ n then 1 else 0) ∧
      m'.pidSpeed = m.pidSpeed := by
  obtain ⟨due, time, ⟨rfl, rfl⟩ | ⟨rfl, pid, next, held, rfl, rfl⟩⟩ :=
    Motor.behiverPos_cases computed
  · have apart : ¬ m'.ratioPos.val ∣ n :=
      fun divides => Bool.noConfusion ((isTime_iff (clock ▸ time)).mpr divides)
    rw [if_neg apart]
    exact ⟨rfl, rfl⟩
  · have divides : m.ratioPos.val ∣ n := (isTime_iff (clock ▸ time)).mp rfl
    rw [if_pos divides, Motor.posLoops, Motor.posLoops, held]
    exact ⟨rfl, rfl⟩

/-- The speed loop runs when its ratio divides the clock, and leaves the position loop alone. -/
theorem behiverSpeed_loops {n : ℕ} (clock : m.time = n)
    (computed : Motor.behiverSpeed apid.counted m cycle = some m') :
    (m'.speedLoops = m.speedLoops + if m.ratioSpeed.val ∣ n then 1 else 0) ∧
      m'.pidPos = m.pidPos := by
  obtain ⟨due, time, ⟨rfl, rfl⟩ | ⟨rfl, pid, next, held, rfl, rfl⟩⟩ :=
    Motor.behiverSpeed_cases computed
  · have apart : ¬ m'.ratioSpeed.val ∣ n :=
      fun divides => Bool.noConfusion ((isTime_iff (clock ▸ time)).mpr divides)
    rw [if_neg apart]
    exact ⟨rfl, rfl⟩
  · have divides : m.ratioSpeed.val ∣ n := (isTime_iff (clock ▸ time)).mp rfl
    rw [if_pos divides, Motor.speedLoops, Motor.speedLoops, held]
    exact ⟨rfl, rfl⟩

/-- **The cascade of accept level 1** runs each loop when its ratio divides the clock. -/
theorem behiver2_loops {n : ℕ} (clock : m.time = n)
    (computed : Motor.behiver2 apid.counted m .pos cycle = some m') :
    (m'.speedLoops = m.speedLoops + if m.ratioSpeed.val ∣ n then 1 else 0) ∧
      (m'.posLoops = m.posLoops + if m.ratioPos.val ∣ n then 1 else 0) := by
  obtain ⟨m₁, pos, rest⟩ := Option.bind_eq_some_iff.mp computed
  obtain ⟨m₂, speed, done⟩ := Option.bind_eq_some_iff.mp rest
  obtain rfl := Option.some.inj done
  obtain ⟨posLoops, pidSpeed⟩ := behiverPos_loops clock pos
  have same : m₁.time = m.time ∧ m₁.ratioSpeed = m.ratioSpeed := by
    obtain ⟨_, _, _, _, _, _, rfl⟩ := Motor.behiverPos_drives pos
    exact ⟨rfl, rfl⟩
  obtain ⟨speedLoops, pidPos⟩ := behiverSpeed_loops (same.1.trans clock) speed
  refine ⟨?_, ?_⟩
  · rw [same.2, Motor.speedLoops, Motor.speedLoops, pidSpeed] at speedLoops
    exact speedLoops
  · rw [← posLoops, Motor.posLoops, Motor.posLoops, pidPos]

end Loops

/-! ### Runs -/

section Run

variable {K P : Type} [Field K] [LinearOrder K] [IsStrictOrderedRing K] [FloorRing K]
  {expf : K → K} {apid : Apid K P} {num : ℕ} {i : Fin num}

/-- The call is one of `motor_handle` for the motor. -/
def Call.isTick {K : Type} (motor : ℤ) : Call K → Bool
  | .handle id _ _ => id = motor
  | _ => false

/-- The number of calls of `motor_handle` for a motor. -/
def ticks {K : Type} (motor : ℤ) (inputs : List (Call K)) : ℕ := inputs.countP (Call.isTick motor)

/-- A call of `motor_handle` for motor `i` has the period one, and finds the motor in the position
mode and not stopped. -/
def Cascade {P : Type} {num : ℕ} (i : Fin num) (motors : Vector (Motor K P) num) : Call K → Prop
  | .handle id cycle _ => id = (i : ℕ) →
      cycle = 1 ∧ (motors.get i).flagRunMode = .pos ∧ (motors.get i).flagIsStop = false
  | _ => True

omit [IsStrictOrderedRing K] in
/-- Every call keeps the setup of a motor, but for its clock and the flag of `motor_stop`. -/
theorem call32_setup {motors motors' : Vector (Motor K P) num} {input : Call K}
    {events : List (Event K)}
    (step : (layer32 expf apid).step motors input = some (motors', events)) (i : Fin num) :
    ∃ time, input.clock32 (i : ℕ) (motors.get i).time = some time ∧
      (motors'.get i).setup = { (motors.get i).setup with
        time := time
        flagIsStop := input.stopFlag (i : ℕ) (motors.get i).flagIsStop } := by
  cases input with
  | handle id cycle reading =>
    have here : withMotor motors id (fun m => m.handle32 expf apid id cycle reading) =
        some (motors', events) := step
    rcases withMotor_get here i with ⟨same, handled⟩ | ⟨differs, same⟩
    · obtain ⟨time, added, handled⟩ := Option.bind_eq_some_iff.mp handled
      refine ⟨time, (if_pos same).trans added, ?_⟩
      rw [handleRest_setup handled]
      rfl
    · exact ⟨_, if_neg differs, by rw [same]; rfl⟩
  | _ =>
    have kept :=
      call_setup (show (layer expf apid).step motors _ = some (motors', events) from step) i
    exact ⟨_, rfl, kept⟩

/-- One call, on a clock that counts the calls up to `2 ^ 24`. -/
theorem clock32_ticks {motors : Vector (Motor K P) num} {input : Call K}
    (cascade : Cascade i motors input) {past : List (Call K)} :
    input.clock32 (i : ℕ) (min (ticks (i : ℕ) past) (2 ^ 24) : ℕ) =
      some ((min (ticks (i : ℕ) (past ++ [input])) (2 ^ 24) : ℕ) : ℤ) := by
  rw [ticks, ticks, List.countP_append, List.countP_singleton]
  cases input with
  | handle id cycle reading =>
    by_cases same : id = (i : ℕ)
    · obtain ⟨rfl, -⟩ := cascade same
      rw [Call.clock32, if_pos same, Call.isTick, decide_eq_true same, if_pos rfl]
      exact addTime_count _
    · rw [Call.clock32, if_neg same, Call.isTick, decide_eq_false same]
      rfl
  | _ => rfl

/-- **The clock after a run** of the cascade. -/
theorem clock_reachable {motors motors' : Vector (Motor K P) num} {inputs : List (Call K)}
    {outs : List (Event K)} (zero : (motors.get i).time = 0)
    (run : (layer32 expf apid).RunOn (Cascade i) motors inputs outs motors') :
    (motors'.get i).setup = { (motors.get i).setup with
      time := (min (ticks (i : ℕ) inputs) (2 ^ 24) : ℕ)
      flagIsStop := (motors'.get i).flagIsStop } := by
  refine run.history (fun past state => (state.get i).setup = { (motors.get i).setup with
    time := (min (ticks (i : ℕ) past) (2 ^ 24) : ℕ)
    flagIsStop := (state.get i).flagIsStop }) ?_ [] ?_
  · intro past state input next output cascade same step
    obtain ⟨time, clock, kept⟩ := call32_setup step i
    have before : (state.get i).time = (min (ticks (i : ℕ) past) (2 ^ 24) : ℕ) :=
      congrArg Setup.time same
    have flag : (next.get i).flagIsStop = input.stopFlag (i : ℕ) (state.get i).flagIsStop :=
      congrArg Setup.flagIsStop kept
    rw [before, clock32_ticks cascade] at clock
    rw [kept, same, flag, ← Option.some.inj clock]
  · rw [ticks, List.countP_nil, Nat.zero_min, Nat.cast_zero, ← zero]
    rfl

/-- The speed loop runs in a call that takes the motor from `m` to `m'`. -/
def SpeedRuns (m m' : Motor K (P × ℕ)) : Prop := m'.speedLoops = m.speedLoops + 1

/-- The position loop runs in the call. -/
def PosRuns (m m' : Motor K (P × ℕ)) : Prop := m'.posLoops = m.posLoops + 1

theorem runs_iff {before after : ℕ} {due : Prop} [Decidable due]
    (counted : after = before + if due then 1 else 0) : after = before + 1 ↔ due := by
  by_cases here : due
  · rw [if_pos here] at counted
    exact iff_of_true counted here
  · rw [if_neg here] at counted
    exact iff_of_false (by omega) here

omit [IsStrictOrderedRing K] in
/-- **One call** runs each loop exactly if its ratio divides the clock. -/
theorem handle32_loops {m m' : Motor K (P × ℕ)} {id : ℤ} {cycle : K} {reading : Reading K}
    {events : List (Event K)} {n : ℕ} (clock : addTime m.time cycle = some (n : ℤ))
    (behaver : m.behaver = .two) (mode : m.flagRunMode = .pos) (going : m.flagIsStop = false)
    (handled : m.handle32 expf apid.counted id cycle reading = some (m', events)) :
    (SpeedRuns m m' ↔ m.ratioSpeed.val ∣ n) ∧ (PosRuns m m' ↔ m.ratioPos.val ∣ n) := by
  obtain ⟨time, added, rest⟩ := Option.bind_eq_some_iff.mp handled
  obtain rfl := Option.some.inj (clock.symm.trans added)
  obtain ⟨fed, taken, cases⟩ := Motor.handleRest_cases rest
  obtain ⟨_, _, _, rfl⟩ := Motor.takeFeedback_writes taken
  rcases cases with ⟨stopped, -⟩ | ⟨-, led, followed, behaved, -⟩
  · exact absurd (stopped.symm.trans going) Bool.noConfusion
  · have kept : led.time = n ∧ led.behaver = m.behaver ∧ led.flagRunMode = m.flagRunMode := by
      obtain ⟨_, _, _, _, rfl⟩ := Motor.followCurve_writes followed
      exact ⟨rfl, rfl, rfl⟩
    have ratios : led.ratioSpeed = m.ratioSpeed ∧ led.ratioPos = m.ratioPos := by
      obtain ⟨_, _, _, _, rfl⟩ := Motor.followCurve_writes followed
      exact ⟨rfl, rfl⟩
    have loops : led.speedLoops = m.speedLoops ∧ led.posLoops = m.posLoops := by
      obtain ⟨_, _, _, _, rfl⟩ := Motor.followCurve_writes followed
      exact ⟨rfl, rfl⟩
    rw [Motor.behave, kept.2.1, behaver, kept.2.2, mode] at behaved
    obtain ⟨speed, pos⟩ := behiver2_loops kept.1 behaved
    rw [loops.1, ratios.1] at speed
    rw [loops.2, ratios.2] at pos
    exact ⟨runs_iff speed, runs_iff pos⟩

/-- **The `n`-th call** runs each loop exactly if its ratio divides the clock. -/
theorem call_loops {init : P × ℕ → P × ℕ} {levels : Fin num → Fin 4}
    {motors middle next : Vector (Motor K (P × ℕ)) num}
    (initialised : Initialised init levels motors) (level : levels i = 1)
    {inputs : List (Call K)} {outs events : List (Event K)}
    (run : (layer32 expf apid.counted).RunOn (Cascade i) motors inputs outs middle)
    {reading : Reading K} (cascade : Cascade i middle (.handle (i : ℕ) 1 reading))
    (step : (layer32 expf apid.counted).step middle (.handle (i : ℕ) 1 reading) =
      some (next, events)) :
    (SpeedRuns (middle.get i) (next.get i) ↔
        (motors.get i).ratioSpeed.val ∣ min (ticks (i : ℕ) inputs + 1) (2 ^ 24)) ∧
      (PosRuns (middle.get i) (next.get i) ↔
        (motors.get i).ratioPos.val ∣ min (ticks (i : ℕ) inputs + 1) (2 ^ 24)) := by
  obtain ⟨m, allocated, initial⟩ := initialised i
  obtain ⟨zero, -, behaver⟩ := Motor.initialise_setup initial
  have setup := clock_reachable zero run
  have time : (middle.get i).time = (min (ticks (i : ℕ) inputs) (2 ^ 24) : ℕ) :=
    congrArg Setup.time setup
  have speed : (middle.get i).ratioSpeed = (motors.get i).ratioSpeed :=
    congrArg Setup.ratioSpeed setup
  have pos : (middle.get i).ratioPos = (motors.get i).ratioPos := congrArg Setup.ratioPos setup
  have two : (middle.get i).behaver = .two := by
    have same : (middle.get i).behaver = (motors.get i).behaver := congrArg Setup.behaver setup
    rw [same, behaver, level]
    rfl
  obtain ⟨-, mode, going⟩ := cascade rfl
  have here : withMotor middle (i : ℕ)
      (fun m => m.handle32 expf apid.counted (i : ℕ) 1 reading) = some (next, events) := step
  obtain ⟨-, handled⟩ | ⟨differs, -⟩ := withMotor_get here i
  · rw [← speed, ← pos]
    refine handle32_loops ?_ two mode going handled
    rw [time, addTime_count]
  · exact absurd rfl differs

/-- **The rate of the cascade.** In the `n`-th call the loops run as often as they should exactly if
`n` is at most `2 ^ 24`, or the ratios do not tell `n` from `2 ^ 24`. -/
theorem cascade_rate_iff {init : P × ℕ → P × ℕ} {levels : Fin num → Fin 4}
    {motors middle next : Vector (Motor K (P × ℕ)) num}
    (initialised : Initialised init levels motors) (level : levels i = 1)
    {inputs : List (Call K)} {outs events : List (Event K)}
    (run : (layer32 expf apid.counted).RunOn (Cascade i) motors inputs outs middle)
    {reading : Reading K} (cascade : Cascade i middle (.handle (i : ℕ) 1 reading))
    (step : (layer32 expf apid.counted).step middle (.handle (i : ℕ) 1 reading) =
      some (next, events)) {n : ℕ} (count : n = ticks (i : ℕ) inputs + 1) :
    ((SpeedRuns (middle.get i) (next.get i) ↔ (motors.get i).ratioSpeed.val ∣ n) ∧
        (PosRuns (middle.get i) (next.get i) ↔ (motors.get i).ratioPos.val ∣ n)) ↔
      n ≤ 2 ^ 24 ∨
        ((motors.get i).ratioSpeed.val ∣ 2 ^ 24 ↔ (motors.get i).ratioSpeed.val ∣ n) ∧
          ((motors.get i).ratioPos.val ∣ 2 ^ 24 ↔ (motors.get i).ratioPos.val ∣ n) := by
  obtain ⟨speed, pos⟩ := call_loops initialised level run cascade step
  rw [speed, pos, ← count]
  by_cases early : n ≤ 2 ^ 24
  · rw [min_eq_left early]
    exact iff_of_true ⟨Iff.rfl, Iff.rfl⟩ (Or.inl early)
  · rw [min_eq_right (le_of_not_ge early), or_iff_right early]

end Run

/-! ### The cascade runs -/

section Progress

variable {K P : Type} [Field K] {apid : Apid K P} {m : Motor K P} {cycle : K}

/-- The motor is in the cascade of accept level 1, with its controllers, its ratios and no active
plan. -/
structure Cascading (m : Motor K P) : Prop where
  behaver : m.behaver = .two
  mode : m.flagRunMode = .pos
  going : m.flagIsStop = false
  pidSpeed : m.pidSpeed.isSome
  pidPos : m.pidPos.isSome
  ratioSpeed : m.ratioSpeed ≠ 0
  ratioPos : m.ratioPos ≠ 0
  idle : ∀ curve, m.curve = some curve → curve.maxTimes = 0

theorem isTime_succeeds (time : ℤ) {ratio : Fin 16} (nonzero : ratio ≠ 0) :
    ∃ due, Motor.isTime time ratio = some due := ⟨_, if_neg nonzero⟩

theorem behiverPos_succeeds (held : m.pidPos.isSome) (nonzero : m.ratioPos ≠ 0) :
    ∃ m', Motor.behiverPos apid m cycle = some m' ∧ m'.pidPos.isSome ∧
      m'.pidSpeed = m.pidSpeed := by
  obtain ⟨pid, held⟩ := Option.isSome_iff_exists.mp held
  obtain ⟨due, time⟩ := isTime_succeeds m.time nonzero
  cases due with
  | false =>
    refine ⟨m, Option.bind_eq_some_iff.mpr ⟨false, time, rfl⟩, ?_, rfl⟩
    rw [held]
    rfl
  | true =>
    let next := apid.hander (apid.setPresent (apid.setTarget pid m.tarPos) m.curPos)
      (cycle * (m.ratioPos : ℕ))
    refine ⟨{ m with pidPos := some next, tarSpeed := apid.getOut next }, ?_, rfl, rfl⟩
    simp [Motor.behiverPos, time, held, next]

theorem behiverSpeed_succeeds (held : m.pidSpeed.isSome) (nonzero : m.ratioSpeed ≠ 0) :
    ∃ m', Motor.behiverSpeed apid m cycle = some m' ∧ m'.pidSpeed.isSome ∧
      m'.pidPos = m.pidPos := by
  obtain ⟨pid, held⟩ := Option.isSome_iff_exists.mp held
  obtain ⟨due, time⟩ := isTime_succeeds m.time nonzero
  cases due with
  | false =>
    refine ⟨m, Option.bind_eq_some_iff.mpr ⟨false, time, rfl⟩, ?_, rfl⟩
    rw [held]
    rfl
  | true =>
    let next := apid.hander (apid.setPresent (apid.setTarget pid m.tarSpeed) m.curSpeed)
      (cycle * (m.ratioSpeed : ℕ))
    refine ⟨{ m with pidSpeed := some next, tarTorque := apid.getOut next }, ?_, rfl, rfl⟩
    simp [Motor.behiverSpeed, time, held, next]

theorem behave_succeeds (ready : Cascading m) :
    ∃ m', m.behave apid m.flagRunMode cycle = some m' ∧ m'.pidSpeed.isSome ∧ m'.pidPos.isSome := by
  obtain ⟨m₁, pos, posHeld, speedKept⟩ : ∃ m₁, Motor.behiverPos apid m cycle = some m₁ ∧
      m₁.pidPos.isSome ∧ m₁.pidSpeed = m.pidSpeed := behiverPos_succeeds ready.pidPos ready.ratioPos
  have ratio : m₁.ratioSpeed ≠ 0 := by
    obtain ⟨_, _, _, _, _, _, rfl⟩ := Motor.behiverPos_drives pos
    exact ready.ratioSpeed
  have held : m₁.pidSpeed.isSome := speedKept ▸ ready.pidSpeed
  obtain ⟨m₂, speed, speedHeld, posKept⟩ : ∃ m₂, Motor.behiverSpeed apid m₁ cycle = some m₂ ∧
      m₂.pidSpeed.isSome ∧ m₂.pidPos = m₁.pidPos := behiverSpeed_succeeds held ratio
  refine ⟨{ m₂ with accOut := m₂.tarTorque }, ?_, speedHeld, posKept ▸ posHeld⟩
  rw [Motor.behave, ready.behaver, ready.mode]
  exact Option.bind_eq_some_iff.mpr ⟨m₁, pos, Option.bind_eq_some_iff.mpr ⟨m₂, speed, rfl⟩⟩

omit [Field K] in
theorem takeFeedback_succeeds (ready : Cascading m) (reading : Reading K) :
    ∃ fed, m.takeFeedback reading = some fed := by
  unfold Motor.takeFeedback
  split
  · exact ⟨m, rfl⟩
  · obtain ⟨speedTime, speed⟩ := isTime_succeeds m.time ready.ratioSpeed
    obtain ⟨posTime, pos⟩ := isTime_succeeds m.time ready.ratioPos
    cases speedTime with
    | false =>
      exact ⟨_, Option.bind_eq_some_iff.mpr
        ⟨false, speed, Option.bind_eq_some_iff.mpr ⟨posTime, pos, rfl⟩⟩⟩
    | true =>
      exact ⟨_, Option.bind_eq_some_iff.mpr
        ⟨true, speed, Option.bind_eq_some_iff.mpr ⟨posTime, pos, rfl⟩⟩⟩

end Progress

section Total

variable {K P : Type} [Field K] [LinearOrder K] [FloorRing K] (expf : K → K) (apid : Apid K P)

/-- **A call for such a motor succeeds**, and leaves it such a motor. -/
theorem handleRest_succeeds {m : Motor K P} (ready : Cascading m) (id : ℤ) (cycle : K)
    (reading : Reading K) :
    ∃ m' events, m.handleRest expf apid id cycle reading = some (m', events) ∧ Cascading m' := by
  obtain ⟨fed, taken⟩ := takeFeedback_succeeds ready reading
  have still : Cascading fed := by
    obtain ⟨_, _, _, rfl⟩ := Motor.takeFeedback_writes taken
    exact ⟨ready.behaver, ready.mode, ready.going, ready.pidSpeed, ready.pidPos, ready.ratioSpeed,
      ready.ratioPos, ready.idle⟩
  have followed : fed.followCurve expf = some fed := by
    unfold Motor.followCurve
    cases attached : fed.curve with
    | none => rfl
    | some curve => exact if_neg (not_not.mpr (still.idle curve attached))
  obtain ⟨m', behaved, speed, pos⟩ : ∃ m', fed.behave apid fed.flagRunMode cycle = some m' ∧
      m'.pidSpeed.isSome ∧ m'.pidPos.isSome := behave_succeeds still
  refine ⟨m', [.behaver id fed.flagRunMode fed.tarTorque fed.tarSpeed fed.tarPos,
    .driver id m'.flagOutMode m'.accOut], Option.bind_eq_some_iff.mpr ⟨fed, taken, ?_⟩, ?_⟩
  · rw [if_neg (Bool.eq_false_iff.mp still.going)]
    exact Option.bind_eq_some_iff.mpr ⟨fed, followed,
      Option.bind_eq_some_iff.mpr ⟨m', behaved, rfl⟩⟩
  · obtain ⟨_, _, _, _, _, _, rfl⟩ := Motor.behave_drives behaved
    exact ⟨still.behaver, still.mode, still.going, speed, pos, still.ratioSpeed, still.ratioPos,
      still.idle⟩

variable [IsStrictOrderedRing K] {num : ℕ} {motors : Vector (Motor K P) num} {i : Fin num}

/-- A call for motor `i` in a table with its clock. -/
theorem tick_succeeds (ready : Cascading (motors.get i)) {n : ℕ}
    (time : (motors.get i).time = (min n (2 ^ 24) : ℕ)) (reading : Reading K) :
    ∃ next events, (layer32 expf apid).step motors (.handle (i : ℕ) 1 reading) =
      some (next, events) ∧ Cascading (next.get i) := by
  have later : Cascading { motors.get i with time := ((min (n + 1) (2 ^ 24) : ℕ) : ℤ) } :=
    ⟨ready.behaver, ready.mode, ready.going, ready.pidSpeed, ready.pidPos, ready.ratioSpeed,
      ready.ratioPos, ready.idle⟩
  obtain ⟨m', events, handled, last⟩ := handleRest_succeeds expf apid later (i : ℕ) 1 reading
  have clock : addTime (motors.get i).time (1 : K) = some ((min (n + 1) (2 ^ 24) : ℕ) : ℤ) := by
    rw [time, addTime_count]
  have called : (motors.get i).handle32 expf apid (i : ℕ) 1 reading = some (m', events) :=
    Option.bind_eq_some_iff.mpr ⟨_, clock, handled⟩
  have step : withMotor motors (i : ℕ) (fun m => m.handle32 expf apid (i : ℕ) 1 reading) =
      some (motors.set i m', events) := withMotor_succeeds called
  refine ⟨motors.set i m', events, step, ?_⟩
  rw [show (motors.set i m').get i = m' from Vector.getElem_set_self _]
  exact last

omit [LinearOrder K] [FloorRing K] [IsStrictOrderedRing K] in
theorem ticks_replicate (motor : ℤ) (n : ℕ) (reading : Reading K) :
    ticks motor (List.replicate n (.handle motor 1 reading)) = n := by
  rw [ticks, List.countP_replicate]
  exact if_pos (decide_eq_true rfl)

/-- **The cascade runs** for any number of calls. -/
theorem cascade_runs (zero : (motors.get i).time = 0) (ready : Cascading (motors.get i))
    (reading : Reading K) (n : ℕ) :
    ∃ outs motors', (layer32 expf apid).RunOn (Cascade i) motors
        (List.replicate n (.handle (i : ℕ) 1 reading)) outs motors' ∧
      Cascading (motors'.get i) ∧ (motors'.get i).time = (min n (2 ^ 24) : ℕ) := by
  induction n with
  | zero => exact ⟨[], motors, .nil _, ready, by rw [zero, Nat.zero_min, Nat.cast_zero]⟩
  | succ n ih =>
    obtain ⟨outs, motors', run, still, time⟩ := ih
    obtain ⟨next, events, step, last⟩ := tick_succeeds expf apid still time reading
    have meets : Cascade i motors' (.handle (i : ℕ) 1 reading) :=
      fun _ => ⟨rfl, still.mode, still.going⟩
    have whole := run.append (.single meets step)
    rw [← List.replicate_succ'] at whole
    have setup := congrArg Setup.time (clock_reachable zero whole)
    rw [ticks_replicate] at setup
    exact ⟨outs ++ events, next, whole, last, setup⟩

end Total

/-! ### One motor -/

/-- A motor of accept level 1 with the ratio 2 for both loops, as `motor_init` leaves it. -/
def geared : Motor ℚ (Unit × ℕ) :=
  { fresh with
    ratioPos := 2
    ratioSpeed := 2
    pidSpeed := some ((), 0)
    pidPos := some ((), 0)
    pidTorque := none }

/-- The motor in the position mode. -/
def sent : Motor ℚ (Unit × ℕ) := { geared with flagRunMode := .pos }

theorem geared_initialised : Initialised id (fun _ => 1) #v[geared] := by
  intro i
  refine ⟨geared, fun _ => ((), 0), ?_⟩
  fin_cases i
  rfl

theorem sent_cascading : Cascading sent where
  behaver := rfl
  mode := rfl
  going := rfl
  pidSpeed := rfl
  pidPos := rfl
  ratioSpeed := by decide
  ratioPos := by decide
  idle curve attached := by
    rw [← Option.some.inj attached]

/-- What `control` leaves alone. -/
def silent : Reading ℚ := ⟨none, none, none⟩

/-- The motor is sent to its position, and then handled any number of times. -/
theorem sent_runs (n : ℕ) :
    ∃ outs middle next events,
      (layer32 (fun _ => 1) still.counted).RunOn (Cascade (0 : Fin 1)) #v[geared]
        (.setPos 0 0 :: List.replicate n (.handle ((0 : Fin 1) : ℕ) 1 silent)) outs middle ∧
      Cascade (0 : Fin 1) middle (.handle ((0 : Fin 1) : ℕ) 1 silent) ∧
      (layer32 (fun _ => 1) still.counted).step middle (.handle ((0 : Fin 1) : ℕ) 1 silent) =
        some (next, events) := by
  have first : (layer32 (fun _ => 1) still.counted).step #v[geared] (.setPos 0 0) =
      some (#v[sent], []) := by
    decide +kernel
  have ready : Cascading (Vector.get #v[sent] (0 : Fin 1)) := sent_cascading
  obtain ⟨outs, middle, run, still', time⟩ :=
    cascade_runs (fun _ => 1) still.counted rfl ready silent n
  obtain ⟨next, events, step, -⟩ := tick_succeeds (fun _ => 1) still.counted still' time silent
  exact ⟨[] ++ outs, middle, next, events, .cons trivial first run,
    fun _ => ⟨rfl, still'.mode, still'.going⟩, step⟩

theorem cascade_rate_first :
    ∃ outs middle next events,
      (layer32 (fun _ => 1) still.counted).RunOn (Cascade (0 : Fin 1)) #v[geared] [.setPos 0 0] outs
        middle ∧
      (layer32 (fun _ => 1) still.counted).step middle (.handle ((0 : Fin 1) : ℕ) 1 silent) =
        some (next, events) ∧
      (SpeedRuns (middle.get 0) (next.get 0) ↔ 2 ∣ 1) ∧
      (PosRuns (middle.get 0) (next.get 0) ↔ 2 ∣ 1) := by
  obtain ⟨outs, middle, next, events, run, cascade, step⟩ := sent_runs 0
  refine ⟨outs, middle, next, events, run, step, ?_⟩
  exact (cascade_rate_iff geared_initialised rfl run cascade step rfl).mpr (Or.inl (by decide))

/-- **The clock has stopped.** The call with the odd number `2 ^ 24 + 1` runs both loops, whose
ratio is two. -/
theorem cascade_slips :
    ∃ outs middle next events,
      (layer32 (fun _ => 1) still.counted).RunOn (Cascade (0 : Fin 1)) #v[geared]
        (.setPos 0 0 :: List.replicate (2 ^ 24) (.handle ((0 : Fin 1) : ℕ) 1 silent)) outs middle ∧
      Cascade (0 : Fin 1) middle (.handle ((0 : Fin 1) : ℕ) 1 silent) ∧
      (layer32 (fun _ => 1) still.counted).step middle (.handle ((0 : Fin 1) : ℕ) 1 silent) =
        some (next, events) ∧
      SpeedRuns (middle.get 0) (next.get 0) ∧ PosRuns (middle.get 0) (next.get 0) ∧
      ¬ 2 ∣ 2 ^ 24 + 1 := by
  obtain ⟨outs, middle, next, events, run, cascade, step⟩ := sent_runs (2 ^ 24)
  obtain ⟨speed, pos⟩ := call_loops geared_initialised rfl run cascade step
  have count : ticks ((0 : Fin 1) : ℕ) (.setPos 0 0 ::
      List.replicate (2 ^ 24) (.handle ((0 : Fin 1) : ℕ) 1 silent)) = 2 ^ 24 :=
    (List.countP_cons_of_neg Bool.false_ne_true).trans (ticks_replicate _ _ silent)
  have even : 2 ∣ min (2 ^ 24 + 1) (2 ^ 24) := by
    rw [min_eq_right (Nat.le_succ _)]
    exact dvd_pow_self 2 (by decide)
  rw [count] at speed pos
  exact ⟨outs, middle, next, events, run, cascade, step, speed.mpr even, pos.mpr even, by decide⟩

end Robocon.Motors
