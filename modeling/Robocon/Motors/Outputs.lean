/-
**What the driver is told it gets.**

`motor_updata_cfg` fixes, with the accept level, the quantity that the driver is told it gets; what
it does get is stored by the behaviour function, by the run mode.

* `behave_out` — of each behaviour function: the value is the target of the quantity it is tagged
  with, unless the run mode is a lower quantity, whose target it then is.
* `Ready` — the states of a motor that is neither stopped nor under a plan. Every call that does not
  stop the motor or plan for it keeps them, and once the motor is commanded it has a run mode.
* `driver_consistent_iff` — after a command, the driver is told the truth in every call exactly if
  in every call the run mode is not below the accept level, or the two targets happen to be equal.
-/

import Robocon.Motors.Levels
import Robocon.Motors.LastCommand

namespace Robocon.Motors

open Lib Trajectory

/-- The value of a mode in `MOTOR_VALUE_TYPE`. -/
def Mode.value : Mode → ℕ
  | .idel => 0
  | .torque => 1
  | .speed => 2
  | .pos => 3

namespace Motor

variable {K P : Type} [Field K]

/-- The run mode is not below the quantity that the driver is told, or the targets coincide. -/
def Agrees (m : Motor K P) : Prop :=
  m.flagRunMode.value < m.flagOutMode.value → m.target m.flagRunMode = m.target m.flagOutMode

variable {apid : Apid K P} {m m' : Motor K P} {mode : Mode} {cycle : K}

/-! ### The behaviour functions -/

theorem behiver2_out (commanded : mode ≠ .idel) (computed : behiver2 apid m mode cycle = some m') :
    m'.accOut = m'.tarTorque := by
  cases mode with
  | idel => exact absurd rfl commanded
  | torque =>
    obtain rfl := Option.some.inj computed
    rfl
  | speed =>
    obtain ⟨m₁, -, done⟩ := Option.bind_eq_some_iff.mp computed
    obtain rfl := Option.some.inj done
    rfl
  | pos =>
    obtain ⟨m₁, -, rest⟩ := Option.bind_eq_some_iff.mp computed
    obtain ⟨m₂, -, done⟩ := Option.bind_eq_some_iff.mp rest
    obtain rfl := Option.some.inj done
    rfl

/-- `motor_behiver_3` stores the torque target in the torque mode. -/
theorem behiver3_out (commanded : mode ≠ .idel) (computed : behiver3 apid m mode cycle = some m') :
    m'.accOut = m'.tarSpeed ↔ (mode = .torque → m.tarTorque = m.tarSpeed) := by
  cases mode with
  | idel => exact absurd rfl commanded
  | torque =>
    obtain rfl := Option.some.inj computed
    simp
  | speed =>
    obtain rfl := Option.some.inj computed
    simp
  | pos =>
    obtain ⟨m₁, -, done⟩ := Option.bind_eq_some_iff.mp computed
    obtain rfl := Option.some.inj done
    simp

/-- `motor_behiver_4` stores the target of the run mode. -/
theorem behiver4_out (commanded : mode ≠ .idel) (computed : behiver4 m mode = some m') :
    m'.accOut = m'.tarPos ↔ m.target mode = m.tarPos := by
  cases mode with
  | idel => exact absurd rfl commanded
  | torque =>
    obtain rfl := Option.some.inj computed
    rfl
  | speed =>
    obtain rfl := Option.some.inj computed
    rfl
  | pos =>
    obtain rfl := Option.some.inj computed
    rfl

/-- **What is stored**, by accept level. -/
theorem behave_out (computed : m.behave apid m.flagRunMode cycle = some m') {level : Fin 4}
    (accept : level ≠ 0) (told : m.flagOutMode = outMode level)
    (behaver : m.behaver = behaverOf level) (commanded : m.flagRunMode ≠ .idel) :
    m'.accOut = m'.target m'.flagOutMode ↔ m.Agrees := by
  have kept : m'.flagOutMode = m.flagOutMode := by
    obtain ⟨_, _, _, _, _, _, rfl⟩ := behave_drives computed
    rfl
  unfold behave at computed
  unfold Agrees
  rw [kept, told]
  rw [behaver] at computed
  fin_cases level
  · exact absurd rfl accept
  · have stored := behiver2_out commanded computed
    refine iff_of_true stored fun below => ?_
    generalize m.flagRunMode = mode at commanded below
    cases mode with
    | idel => exact absurd rfl commanded
    | _ => exact absurd below (by decide)
  · have stored := behiver3_out commanded computed
    show m'.accOut = m'.tarSpeed ↔ (m.flagRunMode.value < 2 → m.target m.flagRunMode = m.tarSpeed)
    rw [stored]
    generalize m.flagRunMode = mode at commanded
    cases mode with
    | idel => exact absurd rfl commanded
    | torque => simp [Mode.value, target]
    | speed => simp [Mode.value]
    | pos => simp [Mode.value]
  · have stored := behiver4_out commanded computed
    show m'.accOut = m'.tarPos ↔ (m.flagRunMode.value < 3 → m.target m.flagRunMode = m.tarPos)
    rw [stored]
    generalize m.flagRunMode = mode at commanded
    cases mode with
    | idel => exact absurd rfl commanded
    | torque => simp [Mode.value]
    | speed => simp [Mode.value]
    | pos => simp [Mode.value, target]

end Motor

section Layer

variable {K P : Type} [Field K] [LinearOrder K] [FloorRing K] {expf : K → K} {apid : Apid K P}
  {num : ℕ} {motors after : Vector (Motor K P) num} {i : Fin num} {input : Call K}
  {events : List (Event K)}

/-- The call neither stops motor `i` nor plans a move for it. -/
def Call.Plain (i : Fin num) : Call K → Prop
  | .stop id => id ≠ (i : ℕ)
  | .setPosPlan id .. => id ≠ (i : ℕ)
  | _ => True

/-- A motor of an accept level that is neither stopped nor under a plan. -/
structure Ready (level : Fin 4) (m : Motor K P) : Prop where
  outMode : m.flagOutMode = outMode level
  behaver : m.behaver = behaverOf level
  going : m.flagIsStop = false
  idle : m.command.Idle

/-- Without an active plan the curve is not followed. -/
theorem followCurve_idle {m : Motor K P} (idle : m.command.Idle) :
    m.followCurve expf = some m := by
  unfold Motor.followCurve
  cases attached : m.curve with
  | none => rfl
  | some curve => simp [idle curve attached]

/-! ### One call -/

/-- **What `motor_handle` does for a ready motor**: it calls the behaviour function on the motor
with its clock and its measured quantities renewed. -/
theorem Ready.handle_cases {level : Fin 4} {m m' : Motor K P} (ready : Ready level m) {id : ℤ}
    {cycle : K} {reading : Reading K}
    (handled : m.handle expf apid id cycle reading = some (m', events)) :
    ∃ time curTorque curSpeed curPos, { m with
        time := time
        curTorque := curTorque
        curSpeed := curSpeed
        curPos := curPos }.behave apid m.flagRunMode cycle = some m' ∧
      events = [.behaver id m.flagRunMode m.tarTorque m.tarSpeed m.tarPos,
        .driver id m'.flagOutMode m'.accOut] := by
  rw [Motor.handle_eq] at handled
  obtain ⟨fed, taken, cases⟩ := Motor.handleRest_cases handled
  obtain ⟨curTorque, curSpeed, curPos, rfl⟩ := Motor.takeFeedback_writes taken
  rcases cases with ⟨stopped, -⟩ | ⟨-, led, followed, behaved, rfl⟩
  · exact absurd (stopped.symm.trans ready.going) Bool.noConfusion
  · have idle : ({ m with
        time := trunc ((m.time : K) + cycle)
        curTorque := curTorque
        curSpeed := curSpeed
        curPos := curPos } : Motor K P).followCurve expf = some _ := followCurve_idle ready.idle
    obtain rfl := Option.some.inj (idle.symm.trans followed)
    exact ⟨_, curTorque, curSpeed, curPos, behaved, rfl⟩

/-- `motor_handle` keeps the run mode and the curve of a ready motor. -/
theorem Ready.handle_keeps {level : Fin 4} {m m' : Motor K P} (ready : Ready level m) {id : ℤ}
    {cycle : K} {reading : Reading K}
    (handled : m.handle expf apid id cycle reading = some (m', events)) :
    m'.flagRunMode = m.flagRunMode ∧ m'.curve = m.curve := by
  obtain ⟨time, _, _, _, behaved, -⟩ := ready.handle_cases handled
  obtain ⟨_, _, _, _, _, _, rfl⟩ := Motor.behave_drives behaved
  exact ⟨rfl, rfl⟩

/-- A plain call keeps the curve of a ready motor. -/
theorem Ready.curve_kept {level : Fin 4} (ready : Ready level (motors.get i))
    (plain : input.Plain i) (step : (layer expf apid).step motors input = some (after, events)) :
    (after.get i).curve = (motors.get i).curve := by
  cases input <;> simp only [layer, call] at step
  case setSpeed id value => exact setter_kept Motor.curve step (fun _ => rfl) i
  case setRelativeSpeed id value => exact setter_kept Motor.curve step (fun _ => rfl) i
  case setPos id value => exact setter_kept Motor.curve step (fun _ => rfl) i
  case setRelativePos id value => exact setter_kept Motor.curve step (fun _ => rfl) i
  case setTorque id value => exact setter_kept Motor.curve step (fun _ => rfl) i
  case setPosPlan id targetPos stepPos flexible maxTimes =>
    rcases withMotor_get step i with ⟨here, -⟩ | ⟨-, same⟩
    · exact absurd here plain
    · rw [same]
  case feedbackTorque id value => exact feedback_kept Motor.curve step (fun _ => rfl) i
  case feedbackSpeed id value => exact feedback_kept Motor.curve step (fun _ => rfl) i
  case feedbackPos id value => exact feedback_kept Motor.curve step (fun _ => rfl) i
  case stop id => exact setter_kept Motor.curve step (fun _ => rfl) i
  case start id => exact setter_kept Motor.curve step (fun _ => rfl) i
  case handle id cycle reading =>
    rcases withMotor_get step i with ⟨-, handled⟩ | ⟨-, same⟩
    · exact (ready.handle_keeps handled).2
    · rw [same]

/-- **A plain call** keeps a motor ready. -/
theorem Ready.next {level : Fin 4} (ready : Ready level (motors.get i)) (plain : input.Plain i)
    (step : (layer expf apid).step motors input = some (after, events)) :
    Ready level (after.get i) := by
  have setup := call_setup step i
  refine ⟨?_, ?_, ?_, fun curve attached => ?_⟩
  · exact (congrArg Setup.flagOutMode setup).trans ready.outMode
  · exact (congrArg Setup.behaver setup).trans ready.behaver
  · refine (congrArg Setup.flagIsStop setup).trans ?_
    show input.stopFlag (i : ℕ) (motors.get i).flagIsStop = false
    rw [ready.going]
    cases input with
    | stop id => exact if_neg plain
    | start id => exact ite_self false
    | _ => rfl
  · refine ready.idle curve ?_
    rw [← attached]
    exact (ready.curve_kept plain step).symm

omit [Field K] [LinearOrder K] [FloorRing K] in
/-- A setter gives its motor a run mode, and takes no other motor's. -/
theorem setter_commands {id : ℤ} {store : Motor K P → Motor K P}
    (step : withMotor motors id (fun m => some (store m, [])) = some (after, events))
    (commands : ∀ m, (store m).flagRunMode ≠ .idel)
    (before : some id = some ((i : ℕ) : ℤ) ∨ (motors.get i).flagRunMode ≠ .idel) :
    (after.get i).flagRunMode ≠ .idel := by
  rcases withMotor_get step i with ⟨-, stored⟩ | ⟨other, same⟩
  · obtain ⟨stored, -⟩ := Prod.mk.inj (Option.some.inj stored)
    rw [← stored]
    exact commands _
  · rw [same]
    exact before.resolve_left fun here => other (Option.some.inj here)

/-- **A motor that has been commanded** has a run mode. -/
theorem Ready.commanded {level : Fin 4} (ready : Ready level (motors.get i))
    (plain : input.Plain i) (step : (layer expf apid).step motors input = some (after, events))
    (before : input.commanded = some ((i : ℕ) : ℤ) ∨ (motors.get i).flagRunMode ≠ .idel) :
    (after.get i).flagRunMode ≠ .idel := by
  have aside (other : input.commanded = none)
      (kept : (after.get i).flagRunMode = (motors.get i).flagRunMode) :
      (after.get i).flagRunMode ≠ .idel := by
    rw [kept]
    refine before.resolve_left fun here => ?_
    rw [other] at here
    cases here
  cases input <;> simp only [layer, call] at step
  case setSpeed id value => exact setter_commands step (fun _ mode => by cases mode) before
  case setRelativeSpeed id value => exact setter_commands step (fun _ mode => by cases mode) before
  case setPos id value => exact setter_commands step (fun _ mode => by cases mode) before
  case setRelativePos id value => exact setter_commands step (fun _ mode => by cases mode) before
  case setTorque id value => exact setter_commands step (fun _ mode => by cases mode) before
  case setPosPlan id targetPos stepPos flexible maxTimes =>
    rcases withMotor_get step i with ⟨here, -⟩ | ⟨other, same⟩
    · exact absurd here plain
    · rw [same]
      exact before.resolve_left fun here => other (Option.some.inj here)
  case feedbackTorque id value =>
    exact aside rfl (feedback_kept Motor.flagRunMode step (fun _ => rfl) i)
  case feedbackSpeed id value =>
    exact aside rfl (feedback_kept Motor.flagRunMode step (fun _ => rfl) i)
  case feedbackPos id value =>
    exact aside rfl (feedback_kept Motor.flagRunMode step (fun _ => rfl) i)
  case stop id => exact aside rfl (setter_kept Motor.flagRunMode step (fun _ => rfl) i)
  case start id => exact aside rfl (setter_kept Motor.flagRunMode step (fun _ => rfl) i)
  case handle id cycle reading =>
    rcases withMotor_get step i with ⟨-, handled⟩ | ⟨-, same⟩
    · exact aside rfl (ready.handle_keeps handled).1
    · exact aside rfl (by rw [same])

/-- Only `motor_handle` calls a driver, and only the motor's own. -/
theorem driver_handles (step : (layer expf apid).step motors input = some (after, events))
    {mode : Mode} {value : K} (member : Event.driver (i : ℕ) mode value ∈ events) :
    ∃ cycle reading, input = .handle (i : ℕ) cycle reading := by
  have setter {id : ℤ} {change : Motor K P → Option (Motor K P × List (Event K))}
      (changed : withMotor motors id change = some (after, events))
      (quiet : ∀ m m' events, change m = some (m', events) → events = []) : False := by
    obtain ⟨_, _, -, stepped, -⟩ := withMotor_cases changed
    rw [quiet _ _ _ stepped] at member
    cases member
  have stores {store : Motor K P → Motor K P} (m m' : Motor K P) (events : List (Event K))
      (stored : some (store m, []) = some (m', events)) : events = [] :=
    (Prod.mk.inj (Option.some.inj stored)).2.symm
  have feeds {id : ℤ} {store : Motor K P → Motor K P}
      (fed : feedback motors id store = some (after, events)) : False := by
    unfold feedback at fed
    split at fed
    · rw [← (Prod.mk.inj (Option.some.inj fed)).2] at member
      cases member
    · exact setter fed stores
  cases input <;> simp only [layer, call] at step
  case setSpeed id value => exact (setter step stores).elim
  case setRelativeSpeed id value => exact (setter step stores).elim
  case setPos id value => exact (setter step stores).elim
  case setRelativePos id value => exact (setter step stores).elim
  case setTorque id value => exact (setter step stores).elim
  case setPosPlan id targetPos stepPos flexible maxTimes =>
    refine (setter step fun m m' events planned => ?_).elim
    obtain ⟨_, -, done⟩ := Option.map_eq_some_iff.mp planned
    exact (Prod.mk.inj done).2.symm
  case feedbackTorque id value => exact (feeds step).elim
  case feedbackSpeed id value => exact (feeds step).elim
  case feedbackPos id value => exact (feeds step).elim
  case stop id => exact (setter step stores).elim
  case start id => exact (setter step stores).elim
  case handle id cycle reading =>
    obtain ⟨_, _, -, handled, -⟩ := withMotor_cases step
    rw [Motor.handle_eq] at handled
    obtain ⟨fed, -, cases⟩ := Motor.handleRest_cases handled
    have same : ((i : ℕ) : ℤ) = id := by
      rcases cases with ⟨-, -, rfl⟩ | ⟨-, led, -, -, rfl⟩
      · simp only [List.mem_singleton, Event.driver.injEq] at member
        exact member.1
      · simp only [List.mem_cons, Event.driver.injEq, List.not_mem_nil, reduceCtorEq, false_or,
          or_false] at member
        exact member.1
    exact ⟨cycle, reading, by rw [same]⟩

/-! ### Runs -/

variable (expf apid) in
/-- **What is asked of a call.** Whatever motor `i`'s driver is told it gets, it gets the target of
that quantity. -/
def Consistent (i : Fin num) (motors : Vector (Motor K P) num) (input : Call K) : Prop :=
  ∀ after events, (layer expf apid).step motors input = some (after, events) →
    ∀ mode value, Event.driver (i : ℕ) mode value ∈ events → value = (after.get i).target mode

/-- **The condition on a call** of `motor_handle` for motor `i`. -/
def Suits (i : Fin num) (motors : Vector (Motor K P) num) : Call K → Prop
  | .handle id _ _ => id = (i : ℕ) → (motors.get i).Agrees
  | _ => True

/-- **One call** is consistent exactly if it suits the accept level. -/
theorem Ready.consistent_iff {level : Fin 4} (accept : level ≠ 0)
    (ready : Ready level (motors.get i)) (commanded : (motors.get i).flagRunMode ≠ .idel)
    (step : (layer expf apid).step motors input = some (after, events)) :
    Consistent expf apid i motors input ↔ Suits i motors input := by
  have exactly : Consistent expf apid i motors input ↔ ∀ mode value,
      Event.driver (i : ℕ) mode value ∈ events → value = (after.get i).target mode :=
    Machine.forall_step_iff step
  rw [exactly]
  by_cases handles : ∃ cycle reading, input = .handle (i : ℕ) cycle reading
  · obtain ⟨cycle, reading, rfl⟩ := handles
    have stepped : withMotor motors (i : ℕ) (fun m => m.handle expf apid (i : ℕ) cycle reading) =
        some (after, events) := step
    obtain ⟨-, handled⟩ | ⟨other, -⟩ := withMotor_get stepped i
    · obtain ⟨time, curTorque, curSpeed, curPos, behaved, rfl⟩ := ready.handle_cases handled
      have stored := Motor.behave_out behaved accept ready.outMode ready.behaver commanded
      refine Iff.trans ⟨fun all => ?_, fun same mode value member => ?_⟩
        (stored.trans ⟨fun agrees _ => agrees, fun suits => suits rfl⟩)
      · exact all _ _ (List.mem_cons_of_mem _ List.mem_cons_self)
      · obtain ⟨rfl, rfl⟩ : mode = _ ∧ value = _ := by simpa using member
        exact same
    · exact absurd rfl other
  · refine iff_of_true (fun mode value member => ?_) ?_
    · exact absurd (driver_handles step member) handles
    · cases input with
      | handle id cycle reading =>
        exact fun here => absurd ⟨cycle, reading, by rw [here]⟩ handles
      | _ => trivial

/-- **The driver gets what it is told it gets** in every call after a command, exactly as long as
the run mode is not below the accept level. -/
theorem driver_consistent_iff {init : P → P} {levels : Fin num → Fin 4}
    (initialised : Initialised init levels motors) (accept : levels i ≠ 0)
    (going : (motors.get i).flagIsStop = false) (idle : (motors.get i).command.Idle)
    {early late : List (Call K)} {outs outs' : List (Event K)}
    {middle final : Vector (Motor K P) num}
    (before : (layer expf apid).RunOn (fun _ input => input.Plain i) motors early outs middle)
    {set : Call K} (called : set ∈ early) (commands : set.commanded = some ((i : ℕ) : ℤ))
    (run : (layer expf apid).RunOn (fun _ input => input.Plain i) middle late outs' final) :
    (layer expf apid).RunOn (Consistent expf apid i) middle late outs' final ↔
      (layer expf apid).RunOn (Suits i) middle late outs' final := by
  obtain ⟨m, allocated, initial⟩ := initialised i
  obtain ⟨-, told, behaver⟩ := Motor.initialise_setup initial
  have start : Ready (levels i) (motors.get i) := ⟨told, behaver, going, idle⟩
  obtain ⟨ready, commanded⟩ := before.history
    (fun past state => Ready (levels i) (state.get i) ∧
      ((∃ set ∈ past, set.commanded = some ((i : ℕ) : ℤ)) → (state.get i).flagRunMode ≠ .idel))
    (fun past state input next output plain inv step => by
      refine ⟨inv.1.next plain step, fun ⟨set, member, commands⟩ => ?_⟩
      refine inv.1.commanded plain step ?_
      rcases List.mem_append.mp member with member | member
      · exact Or.inr (inv.2 ⟨set, member, commands⟩)
      · rw [List.mem_singleton.mp member] at commands
        exact Or.inl commands)
    [] ⟨start, fun ⟨_, member, _⟩ => absurd member List.not_mem_nil⟩
  exact run.agree_iff
    (fun state => Ready (levels i) (state.get i) ∧ (state.get i).flagRunMode ≠ .idel)
    (fun state input next output plain inv step =>
      ⟨⟨inv.1.next plain step, inv.1.commanded plain step (Or.inr inv.2)⟩,
        inv.1.consistent_iff accept inv.2 step⟩)
    ⟨ready, commanded ⟨set, called, commands⟩⟩

end Layer

/-! ### One motor -/

/-- A motor of accept level 2, as `motor_init` leaves it. -/
def speeding : Motor ℚ Unit := { fresh with behaver := .three, flagOutMode := .speed }

theorem speeding_initialised : Initialised id (fun _ => 2) #v[speeding] :=
  fun i => ⟨fresh, fun _ => (), by fin_cases i; rfl⟩

theorem driver_consistent_speed : ∃ outs middle outs' final,
    (layer (fun _ => 1) still).Run #v[speeding] [.setSpeed 0 3] outs middle ∧
    (layer (fun _ => 1) still).RunOn (Consistent (fun _ => 1) still (0 : Fin 1)) middle
      [.handle 0 1 ⟨none, none, none⟩] outs' final := by
  have set : (layer (fun _ => 1) still).step #v[speeding] (.setSpeed 0 3) =
      some (#v[{ speeding with flagRunMode := .speed, tarSpeed := 6 }], []) := by decide +kernel
  obtain ⟨⟨final, outs'⟩, handled⟩ := Option.isSome_iff_exists.mp
    (show ((layer (fun _ => 1) still).step
      #v[{ speeding with flagRunMode := .speed, tarSpeed := 6 }]
      (.handle 0 1 ⟨none, none, none⟩)).isSome by decide +kernel)
  have idle : (Vector.get #v[speeding] (0 : Fin 1)).command.Idle :=
    fun curve attached => Option.some.inj attached ▸ rfl
  have before : (layer (fun _ => 1) still).RunOn (fun _ input => input.Plain (0 : Fin 1))
      #v[speeding] [.setSpeed 0 3] [] #v[{ speeding with flagRunMode := .speed, tarSpeed := 6 }] :=
    .single trivial set
  have run : (layer (fun _ => 1) still).RunOn (fun _ input => input.Plain (0 : Fin 1))
      #v[{ speeding with flagRunMode := .speed, tarSpeed := 6 }] [.handle 0 1 ⟨none, none, none⟩]
      outs' final := .single trivial handled
  refine ⟨_, _, outs', final, .single trivial set, ?_⟩
  exact (driver_consistent_iff speeding_initialised (by decide) rfl idle before
    List.mem_cons_self rfl run).mpr (.single (fun _ below => absurd below (by decide)) handled)

/-- **A torque is taken for a speed.** The driver of accept level 2 is told that the torque target 6
is a speed, while the speed target is 0. -/
theorem torque_told_speed :
    Initialised id (fun _ => 2) #v[speeding] ∧ ∃ outs middle outs' final,
      (layer (fun _ => 1) still).Run #v[speeding] [.setTorque 0 3] outs middle ∧
      (layer (fun _ => 1) still).Run middle [.handle 0 1 ⟨none, none, none⟩] outs' final ∧
      ¬ (layer (fun _ => 1) still).RunOn (Consistent (fun _ => 1) still (0 : Fin 1)) middle
        [.handle 0 1 ⟨none, none, none⟩] outs' final := by
  refine ⟨speeding_initialised, ?_⟩
  obtain ⟨outs, middle, set, checked⟩ := Machine.exists_run (layer (fun _ => 1) still)
    (fun _ _ => True) #v[speeding] [.setTorque 0 3] (fun middle _ =>
      ((layer (fun _ => 1) still).step middle (.handle 0 1 ⟨none, none, none⟩)).any fun last =>
        Event.driver 0 .speed 6 ∈ last.2 ∧ (last.1.get 0).tarSpeed = 0) (by decide +kernel)
  obtain ⟨⟨final, outs'⟩, handled, seen⟩ := (Option.any_eq_true _ _).mp checked
  obtain ⟨told, target⟩ := of_decide_eq_true seen
  refine ⟨outs, middle, outs', final, set, .single trivial handled, fun run => ?_⟩
  obtain ⟨_, _, _, -, consistent, -, -⟩ := run.uncons
  have wrong := consistent final outs' handled _ _ told
  exact absurd (wrong.trans target) (by decide)

end Robocon.Motors
