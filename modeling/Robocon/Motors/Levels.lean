/-
**Accept levels, and what a call leaves alone.**

`motor_init` lets `motor_updata_cfg` choose, by the accept level of a motor, the behaviour function
and the quantity that its driver takes (`outMode`). No call changes this afterwards.

* `handleRest` — `motor_handle` after the update of its clock; `handleRest_cases` says what it does.
* `behave_writes`, `takeFeedback_writes`, `followCurve_writes` — the fields that its parts write.
* `call_setup` — over any call a motor keeps its setup, but for its clock and the flag of
  `motor_stop` and `motor_start`.
-/

import Robocon.Motors.Command

namespace Robocon.Motors

open Lib Trajectory

/-! ### Accept levels -/

/-- The quantity that the driver takes, by accept level. -/
def outMode : Fin 4 → Mode := ![.idel, .torque, .speed, .pos]

/-- The behaviour function, by accept level. -/
def behaverOf : Fin 4 → Behiver := ![.one, .two, .three, .four]

namespace Motor

section Configuration

variable {K P : Type}

/-- `motor_updata_cfg`: `init` is `APID_Init`, with the gains that the controller holds, and
`allocated` the memory for the controllers. A missing controller fails an assertion. -/
def updataCfg (init : P → P) (allocated : Mode → P) (m : Motor K P) : Fin 4 → Option (Motor K P)
  | 0 => some { m with
      behaver := .one
      flagOutMode := .idel
      pidTorque := some (init (allocated .torque))
      pidSpeed := some (init (allocated .speed))
      pidPos := some (init (allocated .pos)) }
  | 1 => do
    let pidSpeed ← m.pidSpeed
    let pidPos ← m.pidPos
    return { m with
      behaver := .two
      flagOutMode := .torque
      pidSpeed := some (init pidSpeed)
      pidPos := some (init pidPos) }
  | 2 => some { m with
      behaver := .three
      flagOutMode := .speed
      pidPos := some (init (allocated .pos)) }
  | 3 => some { m with
      behaver := .four
      flagOutMode := .pos }

/-- A turn of the loop of `motor_init`. -/
def initialise (init : P → P) (allocated : Mode → P) (m : Motor K P) (level : Fin 4) :
    Option (Motor K P) :=
  updataCfg init allocated { m with time := 0, flagRunMode := .idel, flagOutMode := .idel } level

theorem initialise_setup {init : P → P} {allocated : Mode → P} {m m' : Motor K P} {level : Fin 4}
    (initialised : m.initialise init allocated level = some m') :
    m'.time = 0 ∧ m'.flagOutMode = outMode level ∧ m'.behaver = behaverOf level := by
  fin_cases level
  · obtain rfl := Option.some.inj initialised
    exact ⟨rfl, rfl, rfl⟩
  · obtain ⟨pidSpeed, -, rest⟩ := Option.bind_eq_some_iff.mp initialised
    obtain ⟨pidPos, -, done⟩ := Option.bind_eq_some_iff.mp rest
    obtain rfl := Option.some.inj done
    exact ⟨rfl, rfl, rfl⟩
  · obtain rfl := Option.some.inj initialised
    exact ⟨rfl, rfl, rfl⟩
  · obtain rfl := Option.some.inj initialised
    exact ⟨rfl, rfl, rfl⟩

end Configuration

/-! ### The parts of a call of `motor_handle` -/

section Parts

variable {K P : Type} [Field K] {apid : Apid K P} {m m' : Motor K P} {cycle : K}

/-- A behaviour function writes its controllers, the targets below the position and the output. -/
def Drives (m m' : Motor K P) : Prop :=
  ∃ pidTorque pidSpeed pidPos tarSpeed tarTorque accOut, m' = { m with
    pidTorque := pidTorque
    pidSpeed := pidSpeed
    pidPos := pidPos
    tarSpeed := tarSpeed
    tarTorque := tarTorque
    accOut := accOut }

omit [Field K] in
theorem Drives.refl (m : Motor K P) : Drives m m := ⟨_, _, _, _, _, _, rfl⟩

omit [Field K] in
theorem drives_accOut (m : Motor K P) (out : K) : Drives m { m with accOut := out } :=
  ⟨_, _, _, _, _, _, rfl⟩

omit [Field K] in
theorem Drives.trans {m'' : Motor K P} (first : Drives m m') (second : Drives m' m'') :
    Drives m m'' := by
  obtain ⟨_, _, _, _, _, _, rfl⟩ := first
  obtain ⟨_, _, _, _, _, _, rfl⟩ := second
  exact ⟨_, _, _, _, _, _, rfl⟩

theorem behiverPos_drives (computed : behiverPos apid m cycle = some m') : Drives m m' := by
  obtain ⟨due, -, ⟨-, rfl⟩ | ⟨-, pid, next, -, -, rfl⟩⟩ := behiverPos_cases computed
  · exact Drives.refl _
  · exact ⟨_, _, _, _, _, _, rfl⟩

theorem behiverSpeed_drives (computed : behiverSpeed apid m cycle = some m') : Drives m m' := by
  obtain ⟨due, -, ⟨-, rfl⟩ | ⟨-, pid, next, -, -, rfl⟩⟩ := behiverSpeed_cases computed
  · exact Drives.refl _
  · exact ⟨_, _, _, _, _, _, rfl⟩

omit [Field K] in
theorem behiverTorque_drives (computed : behiverTorque apid m cycle = some m') : Drives m m' := by
  obtain ⟨pid, -, done⟩ := Option.bind_eq_some_iff.mp computed
  exact ⟨_, _, _, _, _, _, (Option.some.inj done).symm⟩

theorem behiver1_drives (mode : Mode) (computed : behiver1 apid m mode cycle = some m') :
    Drives m m' := by
  cases mode with
  | idel => exact Option.some.inj computed ▸ Drives.refl m
  | torque => exact behiverTorque_drives computed
  | speed =>
    obtain ⟨m₁, speed, torque⟩ := Option.bind_eq_some_iff.mp computed
    exact (behiverSpeed_drives speed).trans (behiverTorque_drives torque)
  | pos =>
    obtain ⟨m₁, pos, rest⟩ := Option.bind_eq_some_iff.mp computed
    obtain ⟨m₂, speed, torque⟩ := Option.bind_eq_some_iff.mp rest
    exact (behiverPos_drives pos).trans
      ((behiverSpeed_drives speed).trans (behiverTorque_drives torque))

theorem behiver2_drives (mode : Mode) (computed : behiver2 apid m mode cycle = some m') :
    Drives m m' := by
  cases mode with
  | idel => exact Option.some.inj computed ▸ Drives.refl m
  | torque => exact Option.some.inj computed ▸ drives_accOut m _
  | speed =>
    obtain ⟨m₁, speed, done⟩ := Option.bind_eq_some_iff.mp computed
    exact (behiverSpeed_drives speed).trans (Option.some.inj done ▸ drives_accOut m₁ _)
  | pos =>
    obtain ⟨m₁, pos, rest⟩ := Option.bind_eq_some_iff.mp computed
    obtain ⟨m₂, speed, done⟩ := Option.bind_eq_some_iff.mp rest
    exact (behiverPos_drives pos).trans
      ((behiverSpeed_drives speed).trans (Option.some.inj done ▸ drives_accOut m₂ _))

theorem behiver3_drives (mode : Mode) (computed : behiver3 apid m mode cycle = some m') :
    Drives m m' := by
  cases mode with
  | idel => exact Option.some.inj computed ▸ Drives.refl m
  | torque => exact Option.some.inj computed ▸ drives_accOut m _
  | speed => exact Option.some.inj computed ▸ drives_accOut m _
  | pos =>
    obtain ⟨m₁, pos, done⟩ := Option.bind_eq_some_iff.mp computed
    exact (behiverPos_drives pos).trans (Option.some.inj done ▸ drives_accOut m₁ _)

omit [Field K] in
theorem behiver4_drives (mode : Mode) (computed : behiver4 m mode = some m') : Drives m m' := by
  cases mode with
  | idel => exact Option.some.inj computed ▸ Drives.refl m
  | torque => exact Option.some.inj computed ▸ drives_accOut m _
  | speed => exact Option.some.inj computed ▸ drives_accOut m _
  | pos => exact Option.some.inj computed ▸ drives_accOut m _

theorem behave_drives {mode : Mode} (computed : m.behave apid mode cycle = some m') :
    Drives m m' := by
  unfold behave at computed
  cases level : m.behaver with
  | one => exact behiver1_drives mode (by rwa [level] at computed)
  | two => exact behiver2_drives mode (by rwa [level] at computed)
  | three => exact behiver3_drives mode (by rwa [level] at computed)
  | four => exact behiver4_drives mode (by rwa [level] at computed)

omit [Field K] in
theorem takeFeedback_writes {reading : Reading K} (computed : m.takeFeedback reading = some m') :
    ∃ curTorque curSpeed curPos,
      m' = { m with curTorque := curTorque, curSpeed := curSpeed, curPos := curPos } := by
  unfold takeFeedback at computed
  split at computed
  · exact ⟨_, _, _, (Option.some.inj computed).symm⟩
  · obtain ⟨speedTime, -, rest⟩ := Option.bind_eq_some_iff.mp computed
    obtain ⟨posTime, -, done⟩ := Option.bind_eq_some_iff.mp rest
    rw [← Option.some.inj done]
    cases speedTime with
    | false =>
      cases posTime with
      | false => exact ⟨_, _, _, rfl⟩
      | true => exact ⟨_, _, _, rfl⟩
    | true =>
      cases posTime with
      | false => exact ⟨_, _, _, rfl⟩
      | true => exact ⟨_, _, _, rfl⟩

variable [LinearOrder K] [FloorRing K] {expf : K → K}

theorem followCurve_writes (computed : m.followCurve expf = some m') :
    ∃ curve tarTorque tarSpeed tarPos, m' = { m with
      curve := curve
      tarTorque := tarTorque
      tarSpeed := tarSpeed
      tarPos := tarPos } := by
  unfold followCurve at computed
  split at computed
  · exact ⟨_, _, _, _, (Option.some.inj computed).symm⟩
  · split at computed
    · split at computed
      · obtain ⟨next, -, done⟩ := Option.bind_eq_some_iff.mp computed
        exact ⟨_, _, _, _, (Option.some.inj done).symm⟩
      · obtain ⟨next, -, done⟩ := Option.bind_eq_some_iff.mp computed
        exact ⟨_, _, _, _, (Option.some.inj done).symm⟩
      · obtain ⟨next, -, done⟩ := Option.bind_eq_some_iff.mp computed
        exact ⟨_, _, _, _, (Option.some.inj done).symm⟩
      · exact ⟨_, _, _, _, (Option.some.inj computed).symm⟩
    · exact ⟨_, _, _, _, (Option.some.inj computed).symm⟩

end Parts

section Rest

variable {K P : Type} [Field K] [LinearOrder K] [FloorRing K] (expf : K → K) (apid : Apid K P)

/-- `motor_handle`, after the update of its clock. -/
def handleRest (m : Motor K P) (id : ℤ) (cycle : K) (reading : Reading K) :
    Option (Motor K P × List (Event K)) := do
  let m ← m.takeFeedback reading
  if m.flagIsStop then
    let m := { m with accOut := 0 }
    return (m, [.driver id m.flagOutMode m.accOut])
  else
    let m ← m.followCurve expf
    let call := Event.behaver id m.flagRunMode m.tarTorque m.tarSpeed m.tarPos
    let m ← m.behave apid m.flagRunMode cycle
    return (m, [call, .driver id m.flagOutMode m.accOut])

variable {expf} {apid}

theorem handle_eq (m : Motor K P) (id : ℤ) (cycle : K) (reading : Reading K) :
    m.handle expf apid id cycle reading =
      { m with time := trunc ((m.time : K) + cycle) }.handleRest expf apid id cycle reading := rfl

/-- **What `motor_handle` does** after the feedback: a stopped motor gives its driver zero, and any
other follows its curve and its behaviour function. -/
theorem handleRest_cases {m m' : Motor K P} {id : ℤ} {cycle : K} {reading : Reading K}
    {events : List (Event K)}
    (computed : m.handleRest expf apid id cycle reading = some (m', events)) :
    ∃ fed, m.takeFeedback reading = some fed ∧
      (fed.flagIsStop = true ∧ m' = { fed with accOut := 0 } ∧
          events = [.driver id fed.flagOutMode 0] ∨
        fed.flagIsStop = false ∧ ∃ led, fed.followCurve expf = some led ∧
          led.behave apid led.flagRunMode cycle = some m' ∧
          events = [.behaver id led.flagRunMode led.tarTorque led.tarSpeed led.tarPos,
            .driver id m'.flagOutMode m'.accOut]) := by
  obtain ⟨fed, taken, rest⟩ := Option.bind_eq_some_iff.mp computed
  refine ⟨fed, taken, ?_⟩
  split at rest
  case isTrue stopped =>
    obtain ⟨rfl, rfl⟩ := Prod.mk.inj (Option.some.inj rest)
    exact Or.inl ⟨stopped, rfl, rfl⟩
  case isFalse going =>
    obtain ⟨led, followed, rest⟩ := Option.bind_eq_some_iff.mp rest
    obtain ⟨_, behaved, done⟩ := Option.bind_eq_some_iff.mp rest
    obtain ⟨rfl, rfl⟩ := Prod.mk.inj (Option.some.inj done)
    exact Or.inr ⟨Bool.eq_false_of_not_eq_true going, led, followed, behaved, rfl⟩

end Rest

end Motor

/-! ### The setup of a motor -/

/-- The clock of a motor, and the fields that no call writes but for the flag of `motor_stop` and
`motor_start`. -/
structure Setup (K : Type) where
  time : ℤ
  ratioPos : Fin 16
  ratioSpeed : Fin 16
  flagOutMode : Mode
  flagPassiveFeedback : Bool
  flagIsStop : Bool
  behaver : Behiver
  ratio : K

/-- The setup of a motor. -/
def Motor.setup {K P : Type} (m : Motor K P) : Setup K :=
  ⟨m.time, m.ratioPos, m.ratioSpeed, m.flagOutMode, m.flagPassiveFeedback, m.flagIsStop, m.behaver,
    m.ratio⟩

/-- A table as `motor_init` leaves it, with the accept levels of its motors. -/
def Initialised {K P : Type} {num : ℕ} (init : P → P) (levels : Fin num → Fin 4)
    (motors : Vector (Motor K P) num) : Prop :=
  ∀ i, ∃ m allocated, Motor.initialise init allocated m (levels i) = some (motors.get i)

/-- The flag of a motor after the call. -/
def Call.stopFlag {K : Type} (motor : ℤ) (before : Bool) : Call K → Bool
  | .stop id => if id = motor then true else before
  | .start id => if id = motor then false else before
  | _ => before

/-- The clock of a motor after the call. -/
def Call.clock {K : Type} [Field K] [LinearOrder K] [FloorRing K] (motor : ℤ) (before : ℤ) :
    Call K → ℤ
  | .handle id cycle _ => if id = motor then trunc ((before : K) + cycle) else before
  | _ => before

section Calls

variable {K P : Type} {num : ℕ} {motors motors' : Vector (Motor K P) num} {events : List (Event K)}

/-- What a change of one motor means for motor `i`. -/
theorem withMotor_get {id : ℤ} {change : Motor K P → Option (Motor K P × List (Event K))}
    (step : withMotor motors id change = some (motors', events)) (i : Fin num) :
    id = (i : ℕ) ∧ change (motors.get i) = some (motors'.get i, events) ∨
      id ≠ (i : ℕ) ∧ motors'.get i = motors.get i := by
  obtain ⟨j, m', rfl, stepped, rfl⟩ := withMotor_cases step
  by_cases same : j = i
  · subst same
    refine Or.inl ⟨rfl, ?_⟩
    rw [show (motors.set j m').get j = m' from Vector.getElem_set_self _]
    exact stepped
  · refine Or.inr ⟨fun equal => same (Fin.ext (Nat.cast_inj.mp equal)), ?_⟩
    exact Vector.getElem_set_ne _ _ fun equal => same (Fin.ext equal)

theorem withMotor_succeeds {i : Fin num} {change : Motor K P → Option (Motor K P × List (Event K))}
    {m' : Motor K P} (changed : change (motors.get i) = some (m', events)) :
    withMotor motors ((i : ℕ) : ℤ) change =
      some (motors.set i m' i.isLt, events) := by
  have valid : 0 ≤ ((i : ℕ) : ℤ) ∧ ((i : ℕ) : ℤ).toNat < num :=
    ⟨Int.natCast_nonneg _, by rw [Int.toNat_natCast]; exact i.isLt⟩
  have here : change motors[((i : ℕ) : ℤ).toNat] = some (m', events) := by
    simp only [Int.toNat_natCast]
    exact changed
  rw [withMotor, dif_pos valid, here]
  simp only [Option.map_some, Int.toNat_natCast]

theorem withMotor_kept {α : Type} (view : Motor K P → α) {id : ℤ}
    {change : Motor K P → Option (Motor K P × List (Event K))}
    (step : withMotor motors id change = some (motors', events))
    (keeps : ∀ m m' events, change m = some (m', events) → view m' = view m) (i : Fin num) :
    view (motors'.get i) = view (motors.get i) := by
  rcases withMotor_get step i with ⟨-, changed⟩ | ⟨-, same⟩
  · exact keeps _ _ _ changed
  · rw [same]

theorem setter_kept {α : Type} (view : Motor K P → α) {id : ℤ} {store : Motor K P → Motor K P}
    (step : withMotor motors id (fun m => some (store m, [])) = some (motors', events))
    (keeps : ∀ m, view (store m) = view m) (i : Fin num) :
    view (motors'.get i) = view (motors.get i) := by
  refine withMotor_kept view step (fun m m' events stored => ?_) i
  obtain ⟨rfl, -⟩ := Prod.mk.inj (Option.some.inj stored)
  exact keeps m

theorem feedback_kept {α : Type} (view : Motor K P → α) {id : ℤ} {store : Motor K P → Motor K P}
    (step : feedback motors id store = some (motors', events))
    (keeps : ∀ m, view (store m) = view m) (i : Fin num) :
    view (motors'.get i) = view (motors.get i) := by
  unfold feedback at step
  split at step
  · obtain ⟨rfl, -⟩ := Prod.mk.inj (Option.some.inj step)
    rfl
  · exact setter_kept view step keeps i

variable [Field K] [LinearOrder K] [FloorRing K] {expf : K → K} {apid : Apid K P}

theorem setPosPlan_setup {m m' : Motor K P} {targetPos stepPos flexible : K} {maxTimes : ℤ}
    (planned : m.setPosPlan expf targetPos stepPos flexible maxTimes = some m') :
    m'.setup = m.setup := by
  obtain ⟨old, -, rest⟩ := Option.bind_eq_some_iff.mp planned
  obtain ⟨next, -, done⟩ := Option.bind_eq_some_iff.mp rest
  obtain rfl := Option.some.inj done
  rfl

theorem handleRest_setup {m m' : Motor K P} {id : ℤ} {cycle : K} {reading : Reading K}
    (computed : m.handleRest expf apid id cycle reading = some (m', events)) :
    m'.setup = m.setup := by
  obtain ⟨fed, taken, handled⟩ := Motor.handleRest_cases computed
  obtain ⟨_, _, _, rfl⟩ := Motor.takeFeedback_writes taken
  rcases handled with ⟨-, rfl, -⟩ | ⟨-, led, followed, behaved, -⟩
  · rfl
  · obtain ⟨_, _, _, _, rfl⟩ := Motor.followCurve_writes followed
    obtain ⟨_, _, _, _, _, _, rfl⟩ := Motor.behave_drives behaved
    rfl

/-- **Every call keeps the setup**, but for the clock and the flag that says whether the motor is
stopped. -/
theorem call_setup {input : Call K} (step : (layer expf apid).step motors input =
      some (motors', events)) (i : Fin num) :
    (motors'.get i).setup = { (motors.get i).setup with
      time := input.clock (i : ℕ) (motors.get i).time
      flagIsStop := input.stopFlag (i : ℕ) (motors.get i).flagIsStop } := by
  cases input <;> simp only [layer, call] at step
  case setSpeed id value => exact setter_kept Motor.setup step (fun _ => rfl) i
  case setRelativeSpeed id value => exact setter_kept Motor.setup step (fun _ => rfl) i
  case setPos id value => exact setter_kept Motor.setup step (fun _ => rfl) i
  case setRelativePos id value => exact setter_kept Motor.setup step (fun _ => rfl) i
  case setTorque id value => exact setter_kept Motor.setup step (fun _ => rfl) i
  case setPosPlan id targetPos stepPos flexible maxTimes =>
    refine withMotor_kept Motor.setup step (fun m m' events done => ?_) i
    obtain ⟨next, planned, done⟩ := Option.map_eq_some_iff.mp done
    obtain ⟨rfl, -⟩ := Prod.mk.inj done
    exact setPosPlan_setup planned
  case feedbackTorque id value => exact feedback_kept Motor.setup step (fun _ => rfl) i
  case feedbackSpeed id value => exact feedback_kept Motor.setup step (fun _ => rfl) i
  case feedbackPos id value => exact feedback_kept Motor.setup step (fun _ => rfl) i
  case stop id =>
    rcases withMotor_get step i with ⟨same, changed⟩ | ⟨differs, same⟩
    · obtain ⟨after, -⟩ := Prod.mk.inj (Option.some.inj changed)
      rw [← after, Call.stopFlag, if_pos same]
      rfl
    · rw [same, Call.stopFlag, if_neg differs]
      rfl
  case start id =>
    rcases withMotor_get step i with ⟨same, changed⟩ | ⟨differs, same⟩
    · obtain ⟨after, -⟩ := Prod.mk.inj (Option.some.inj changed)
      rw [← after, Call.stopFlag, if_pos same]
      rfl
    · rw [same, Call.stopFlag, if_neg differs]
      rfl
  case handle id cycle reading =>
    rcases withMotor_get step i with ⟨same, handled⟩ | ⟨differs, same⟩
    · rw [Motor.handle_eq] at handled
      rw [handleRest_setup handled, Call.clock, if_pos same]
      rfl
    · rw [same, Call.clock, if_neg differs]
      rfl

/-- The driver of a motor is told the same quantity in every run. -/
theorem run_outMode {inputs : List (Call K)} (run : (layer expf apid).Run motors inputs events
      motors') (i : Fin num) : (motors'.get i).flagOutMode = (motors.get i).flagOutMode := by
  refine run.invariant (fun state => (state.get i).flagOutMode = (motors.get i).flagOutMode) ?_ rfl
  intro state input next output _ same step
  have kept := congrArg Setup.flagOutMode (call_setup step i)
  exact kept.trans same

end Calls

end Robocon.Motors
