/-
**What a motor has been told to do.**

A `Command` is the run mode, the target of that mode and the curve that may feed it. `ticker` is
its purpose: each call of the behaviour function sees the mode and the target, after an active
curve has fed the target (`Command.tick`).

The motor layer refines it: whatever is called, as long as nobody commands the motor, its command
ticks once for every call of its behaviour function and is otherwise left alone (`quiet_ticks`).
-/

import Robocon.Motors.Layer

namespace Robocon.Motors

open Lib Trajectory

variable {K P : Type} [Field K]

/-! ### The abstract motor -/

/-- What a motor has been told to do. -/
structure Command (K : Type) where
  mode : Mode
  target : K
  curve : Option (Curve K)

/-- The target of a mode. -/
def Motor.target (m : Motor K P) : Mode → K
  | .idel => 0
  | .torque => m.tarTorque
  | .speed => m.tarSpeed
  | .pos => m.tarPos

/-- The command of a motor. -/
def Motor.command (m : Motor K P) : Command K := ⟨m.flagRunMode, m.target m.flagRunMode, m.curve⟩

/-- The calls of a motor's behaviour function: the mode and the target of that mode. -/
def Event.see (id : ℤ) : Event K → List (Mode × K)
  | .behaver id' mode tarTorque tarSpeed tarPos =>
    if id' = id then
      [(mode, match mode with
        | .idel => 0
        | .torque => tarTorque
        | .speed => tarSpeed
        | .pos => tarPos)]
    else []
  | .driver .. => []

section Ticker

variable [LinearOrder K] [FloorRing K] (expf : K → K)

/-- An active curve feeds the target. -/
def Command.tick (c : Command K) : Option (Command K) :=
  match c.curve with
  | none => some c
  | some curve =>
    if curve.maxTimes ≠ 0 ∧ c.mode ≠ .idel then
      (motorPlanning expf curve).map fun next =>
        { c with curve := some next, target := next.currentPos }
    else some c

/-- The abstract motor: each tick shows the mode and the target. -/
def ticker : Machine (Command K) Unit (Mode × K) where
  step c _ := (c.tick expf).map fun next => (next, [(next.mode, next.target)])

end Ticker

/-! ### What the behaviour function leaves alone -/

namespace Motor

/-- The run mode, the curve and the target of `mode` are the same. -/
structure Keeps (mode : Mode) (m m' : Motor K P) : Prop where
  runMode : m'.flagRunMode = m.flagRunMode
  curve : m'.curve = m.curve
  target : m'.target mode = m.target mode

theorem Keeps.trans {mode : Mode} {m m' m'' : Motor K P} (first : Keeps mode m m')
    (second : Keeps mode m' m'') : Keeps mode m m'' :=
  ⟨second.runMode.trans first.runMode, second.curve.trans first.curve,
    second.target.trans first.target⟩

theorem Keeps.command {m m' : Motor K P} (keeps : Keeps m.flagRunMode m m') :
    m'.command = m.command := by
  unfold Motor.command
  rw [keeps.runMode, keeps.curve, keeps.target]

/-- The output of a motor is no part of its command. -/
theorem keeps_accOut (mode : Mode) (m : Motor K P) (out : K) :
    Keeps mode m { m with accOut := out } := by
  refine ⟨rfl, rfl, ?_⟩
  cases mode <;> rfl

/-- Stopping and starting a motor is no part of its command. -/
theorem command_stop (m : Motor K P) (stopped : Bool) :
    { m with flagIsStop := stopped }.command = m.command := by
  refine Keeps.command ⟨rfl, rfl, ?_⟩
  cases m.flagRunMode <;> rfl

/-- The clock of a motor is no part of its command. -/
theorem command_time (m : Motor K P) (time : ℤ) :
    { m with time := time }.command = m.command := by
  refine Keeps.command ⟨rfl, rfl, ?_⟩
  cases m.flagRunMode <;> rfl

/-- The measured quantities are no part of a motor's command. -/
theorem command_cur (m : Motor K P) (torque speed pos : K) :
    { m with curTorque := torque, curSpeed := speed, curPos := pos }.command = m.command := by
  refine Keeps.command ⟨rfl, rfl, ?_⟩
  cases m.flagRunMode <;> rfl

/-- The seen part of a call of the behaviour function is the command. -/
theorem see_behaver (m : Motor K P) (id : ℤ) :
    (Event.behaver id m.flagRunMode m.tarTorque m.tarSpeed m.tarPos).see id =
      [(m.command.mode, m.command.target)] := by
  simp only [Event.see, if_true]
  unfold command
  cases m.flagRunMode <;> rfl

variable {apid : Apid K P} {m m' : Motor K P} {cycle : K}

/-- What the position loop does: nothing, or one step of its controller. -/
theorem behiverPos_cases (computed : behiverPos apid m cycle = some m') :
    ∃ due, isTime m.time m.ratioPos = some due ∧
      (due = false ∧ m' = m ∨ due = true ∧ ∃ pid next, m.pidPos = some pid ∧
        next = apid.hander (apid.setPresent (apid.setTarget pid m.tarPos) m.curPos)
          (cycle * (m.ratioPos : ℕ)) ∧
        m' = { m with pidPos := some next, tarSpeed := apid.getOut next }) := by
  obtain ⟨due, time, rest⟩ := Option.bind_eq_some_iff.mp computed
  refine ⟨due, time, ?_⟩
  cases due with
  | false => exact Or.inl ⟨rfl, (Option.some.inj rest).symm⟩
  | true =>
    obtain ⟨pid, held, done⟩ := Option.bind_eq_some_iff.mp rest
    exact Or.inr ⟨rfl, pid, _, held, rfl, (Option.some.inj done).symm⟩

theorem behiverSpeed_cases (computed : behiverSpeed apid m cycle = some m') :
    ∃ due, isTime m.time m.ratioSpeed = some due ∧
      (due = false ∧ m' = m ∨ due = true ∧ ∃ pid next, m.pidSpeed = some pid ∧
        next = apid.hander (apid.setPresent (apid.setTarget pid m.tarSpeed) m.curSpeed)
          (cycle * (m.ratioSpeed : ℕ)) ∧
        m' = { m with pidSpeed := some next, tarTorque := apid.getOut next }) := by
  obtain ⟨due, time, rest⟩ := Option.bind_eq_some_iff.mp computed
  refine ⟨due, time, ?_⟩
  cases due with
  | false => exact Or.inl ⟨rfl, (Option.some.inj rest).symm⟩
  | true =>
    obtain ⟨pid, held, done⟩ := Option.bind_eq_some_iff.mp rest
    exact Or.inr ⟨rfl, pid, _, held, rfl, (Option.some.inj done).symm⟩

theorem behiverPos_keeps (computed : behiverPos apid m cycle = some m') : Keeps .pos m m' := by
  obtain ⟨due, -, ⟨-, rfl⟩ | ⟨-, pid, next, -, -, rfl⟩⟩ := behiverPos_cases computed
  · exact ⟨rfl, rfl, rfl⟩
  · exact ⟨rfl, rfl, rfl⟩

theorem behiverSpeed_keeps {mode : Mode} (above : mode = .pos ∨ mode = .speed)
    (computed : behiverSpeed apid m cycle = some m') : Keeps mode m m' := by
  obtain ⟨due, -, ⟨-, rfl⟩ | ⟨-, pid, next, -, -, rfl⟩⟩ := behiverSpeed_cases computed
  · exact ⟨rfl, rfl, rfl⟩
  · rcases above with rfl | rfl
    · exact ⟨rfl, rfl, rfl⟩
    · exact ⟨rfl, rfl, rfl⟩

theorem behiverTorque_keeps (mode : Mode) (computed : behiverTorque apid m cycle = some m') :
    Keeps mode m m' := by
  obtain ⟨pid, -, done⟩ := Option.bind_eq_some_iff.mp computed
  obtain rfl := Option.some.inj done
  refine ⟨rfl, rfl, ?_⟩
  cases mode <;> rfl

theorem behiver1_keeps (mode : Mode) (computed : behiver1 apid m mode cycle = some m') :
    Keeps mode m m' := by
  cases mode with
  | idel => exact Option.some.inj computed ▸ ⟨rfl, rfl, rfl⟩
  | torque => exact behiverTorque_keeps _ computed
  | speed =>
    obtain ⟨m₁, speed, torque⟩ := Option.bind_eq_some_iff.mp computed
    exact (behiverSpeed_keeps (Or.inr rfl) speed).trans (behiverTorque_keeps _ torque)
  | pos =>
    obtain ⟨m₁, pos, rest⟩ := Option.bind_eq_some_iff.mp computed
    obtain ⟨m₂, speed, torque⟩ := Option.bind_eq_some_iff.mp rest
    exact (behiverPos_keeps pos).trans
      ((behiverSpeed_keeps (Or.inl rfl) speed).trans (behiverTorque_keeps _ torque))

theorem behiver2_keeps (mode : Mode) (computed : behiver2 apid m mode cycle = some m') :
    Keeps mode m m' := by
  cases mode with
  | idel => exact Option.some.inj computed ▸ ⟨rfl, rfl, rfl⟩
  | torque => exact Option.some.inj computed ▸ keeps_accOut _ _ _
  | speed =>
    obtain ⟨m₁, speed, done⟩ := Option.bind_eq_some_iff.mp computed
    exact (behiverSpeed_keeps (Or.inr rfl) speed).trans
      (Option.some.inj done ▸ keeps_accOut _ _ _)
  | pos =>
    obtain ⟨m₁, pos, rest⟩ := Option.bind_eq_some_iff.mp computed
    obtain ⟨m₂, speed, done⟩ := Option.bind_eq_some_iff.mp rest
    exact (behiverPos_keeps pos).trans ((behiverSpeed_keeps (Or.inl rfl) speed).trans
      (Option.some.inj done ▸ keeps_accOut _ _ _))

theorem behiver3_keeps (mode : Mode) (computed : behiver3 apid m mode cycle = some m') :
    Keeps mode m m' := by
  cases mode with
  | idel => exact Option.some.inj computed ▸ ⟨rfl, rfl, rfl⟩
  | torque => exact Option.some.inj computed ▸ keeps_accOut _ _ _
  | speed => exact Option.some.inj computed ▸ keeps_accOut _ _ _
  | pos =>
    obtain ⟨m₁, pos, done⟩ := Option.bind_eq_some_iff.mp computed
    exact (behiverPos_keeps pos).trans (Option.some.inj done ▸ keeps_accOut _ _ _)

theorem behiver4_keeps (mode : Mode) (computed : behiver4 m mode = some m') :
    Keeps mode m m' := by
  cases mode with
  | idel => exact Option.some.inj computed ▸ ⟨rfl, rfl, rfl⟩
  | torque => exact Option.some.inj computed ▸ keeps_accOut _ _ _
  | speed => exact Option.some.inj computed ▸ keeps_accOut _ _ _
  | pos => exact Option.some.inj computed ▸ keeps_accOut _ _ _

/-- **The behaviour function keeps the command.** Its loops write the targets below that of the run
mode only. -/
theorem behave_command (computed : m.behave apid m.flagRunMode cycle = some m') :
    m'.command = m.command := by
  refine Keeps.command ?_
  unfold behave at computed
  cases level : m.behaver with
  | one => exact behiver1_keeps _ (by rwa [level] at computed)
  | two => exact behiver2_keeps _ (by rwa [level] at computed)
  | three => exact behiver3_keeps _ (by rwa [level] at computed)
  | four => exact behiver4_keeps _ (by rwa [level] at computed)

theorem readFeedback_command {reading : Reading K}
    (computed : m.readFeedback reading = some m') : m'.command = m.command := by
  obtain ⟨speedTime, -, rest⟩ := Option.bind_eq_some_iff.mp computed
  obtain ⟨posTime, -, done⟩ := Option.bind_eq_some_iff.mp rest
  obtain rfl := Option.some.inj done
  cases speedTime with
  | false =>
    cases posTime with
    | false => exact command_cur m _ m.curSpeed m.curPos
    | true => exact command_cur m _ m.curSpeed _
  | true =>
    cases posTime with
    | false => exact command_cur m _ _ m.curPos
    | true => exact command_cur m _ _ _

variable [LinearOrder K] [FloorRing K] {expf : K → K}

/-- Following the curve is a tick of the command. -/
theorem followCurve_command (computed : m.followCurve expf = some m') :
    m.command.tick expf = some m'.command := by
  unfold followCurve at computed
  cases attached : m.curve with
  | none =>
    rw [attached] at computed
    obtain rfl := Option.some.inj computed
    simp [Command.tick, command, attached]
  | some curve =>
    rw [attached] at computed
    by_cases active : curve.maxTimes ≠ 0
    · simp only [if_pos active] at computed
      cases mode : m.flagRunMode with
      | idel =>
        rw [mode] at computed
        obtain rfl := Option.some.inj computed
        simp [Command.tick, command, attached, mode]
      | torque =>
        rw [mode] at computed
        obtain ⟨next, planned, done⟩ := Option.bind_eq_some_iff.mp computed
        obtain rfl := Option.some.inj done
        simp [Command.tick, command, attached, mode, active, planned, target]
      | speed =>
        rw [mode] at computed
        obtain ⟨next, planned, done⟩ := Option.bind_eq_some_iff.mp computed
        obtain rfl := Option.some.inj done
        simp [Command.tick, command, attached, mode, active, planned, target]
      | pos =>
        rw [mode] at computed
        obtain ⟨next, planned, done⟩ := Option.bind_eq_some_iff.mp computed
        obtain rfl := Option.some.inj done
        simp [Command.tick, command, attached, mode, active, planned, target]
    · simp only [if_neg active, Option.some.injEq] at computed
      obtain rfl := computed
      simp [Command.tick, command, attached, active]

/-- **`motor_handle`.** A stopped motor keeps its command and its behaviour function is not called;
else the command ticks once, and that is what the behaviour function sees. -/
theorem handle_cases {id : ℤ} {reading : Reading K} {events : List (Event K)}
    (computed : m.handle expf apid id cycle reading = some (m', events)) :
    m'.command = m.command ∧ events.flatMap (Event.see id) = [] ∨
      m.command.tick expf = some m'.command ∧
        events.flatMap (Event.see id) = [(m'.command.mode, m'.command.target)] := by
  obtain ⟨m₁, read, rest⟩ := Option.bind_eq_some_iff.mp computed
  have same : m₁.command = m.command := by
    unfold takeFeedback at read
    split at read
    · exact Option.some.inj read ▸ command_time m _
    · exact (readFeedback_command read).trans (command_time m _)
  split at rest
  · obtain ⟨rfl, rfl⟩ := Prod.mk.inj (Option.some.inj rest)
    exact Or.inl ⟨(Keeps.command (keeps_accOut _ m₁ 0)).trans same, rfl⟩
  · obtain ⟨m₂, followed, rest⟩ := Option.bind_eq_some_iff.mp rest
    obtain ⟨m₃, behaved, done⟩ := Option.bind_eq_some_iff.mp rest
    obtain ⟨rfl, rfl⟩ := Prod.mk.inj (Option.some.inj done)
    have kept := behave_command behaved
    refine Or.inr ⟨?_, ?_⟩
    · rw [← same, kept]
      exact followCurve_command followed
    · rw [List.flatMap_cons, see_behaver, kept]
      rfl

/-- The calls that `motor_handle` makes are about its motor. -/
theorem handle_see {id other : ℤ} (differs : id ≠ other) {reading : Reading K}
    {events : List (Event K)}
    (computed : m.handle expf apid id cycle reading = some (m', events)) :
    events.flatMap (Event.see other) = [] := by
  obtain ⟨m₁, -, rest⟩ := Option.bind_eq_some_iff.mp computed
  split at rest
  · obtain ⟨-, rfl⟩ := Prod.mk.inj (Option.some.inj rest)
    rfl
  · obtain ⟨m₂, -, rest⟩ := Option.bind_eq_some_iff.mp rest
    obtain ⟨m₃, -, done⟩ := Option.bind_eq_some_iff.mp rest
    obtain ⟨-, rfl⟩ := Prod.mk.inj (Option.some.inj done)
    simp [Event.see, differs]

end Motor

/-! ### The table of motors -/

/-- The motor that a setter or a planned move addresses. -/
def Call.commanded : Call K → Option ℤ
  | .setSpeed id _ => some id
  | .setRelativeSpeed id _ => some id
  | .setPos id _ => some id
  | .setRelativePos id _ => some id
  | .setTorque id _ => some id
  | .setPosPlan id .. => some id
  | _ => none

variable {num : ℕ} {motors motors' : Vector (Motor K P) num} {events : List (Event K)}

omit [Field K] in
theorem withMotor_cases {id : ℤ} {step : Motor K P → Option (Motor K P × List (Event K))}
    (computed : withMotor motors id step = some (motors', events)) :
    ∃ (j : Fin num) (m' : Motor K P), id = (j : ℕ) ∧ step motors[j.val] = some (m', events) ∧
      motors' = motors.set j m' := by
  unfold withMotor at computed
  split at computed
  case isFalse => cases computed
  case isTrue valid =>
    obtain ⟨⟨m', events'⟩, stepped, done⟩ := Option.map_eq_some_iff.mp computed
    obtain ⟨rfl, rfl⟩ := Prod.mk.inj done
    exact ⟨⟨id.toNat, valid.2⟩, m', (Int.toNat_of_nonneg valid.1).symm, stepped, rfl⟩

section Quiet

variable (i : Fin num)

/-- The command of motor `i`. -/
def commandOf (motors : Vector (Motor K P) num) : Command K := motors[i.val].command

/-- Only a change of motor `i` changes its command. -/
theorem commandOf_set {j : Fin num} {m : Motor K P}
    (same : m.command = motors[j.val].command) :
    commandOf i (motors.set j m) = commandOf i motors := by
  unfold commandOf
  rw [Vector.getElem_set]
  split
  case isTrue here =>
    obtain rfl := Fin.ext here
    exact same
  case isFalse => rfl

theorem commandOf_set_ne {j : Fin num} (differs : j ≠ i) (m : Motor K P) :
    commandOf i (motors.set j m) = commandOf i motors := by
  unfold commandOf
  rw [Vector.getElem_set_ne _ _ fun same => differs (Fin.ext same)]

variable [LinearOrder K] [FloorRing K] {expf : K → K} {apid : Apid K P}

variable (expf) in
/-- What happened to motor `i` is a run of the abstract motor. -/
def Ticks (motors : Vector (Motor K P) num) (events : List (Event K))
    (motors' : Vector (Motor K P) num) : Prop :=
  ∃ ticks, (ticker expf).Run (commandOf i motors) ticks (events.flatMap (Event.see (i : ℕ)))
    (commandOf i motors')

variable {i}

theorem ticks_of_still (silent : events.flatMap (Event.see (i : ℕ)) = [])
    (same : commandOf i motors' = commandOf i motors) : Ticks i expf motors events motors' := by
  unfold Ticks
  rw [silent, same]
  exact ⟨[], .nil _⟩

theorem ticks_of_elsewhere {id : ℤ} {change : Motor K P → Option (Motor K P × List (Event K))}
    (other : id ≠ (i : ℕ)) (silent : ∀ m m' events, change m = some (m', events) → events = [])
    (step : withMotor motors id change = some (motors', events)) :
    Ticks i expf motors events motors' := by
  obtain ⟨j, m', rfl, stepped, rfl⟩ := withMotor_cases step
  rw [silent _ _ _ stepped]
  exact ticks_of_still rfl (commandOf_set_ne i (fun same => other (same ▸ rfl)) _)

theorem ticks_of_setter {id : ℤ} {store : Motor K P → Motor K P} (other : id ≠ (i : ℕ))
    (step : withMotor motors id (fun m => some (store m, [])) = some (motors', events)) :
    Ticks i expf motors events motors' :=
  ticks_of_elsewhere other (fun _ _ _ done => (Prod.mk.inj (Option.some.inj done)).2.symm) step

/-- A change that is no part of a motor's command. -/
theorem ticks_of_aside {id : ℤ} {store : Motor K P → Motor K P}
    (aside : ∀ m, (store m).command = m.command)
    (step : withMotor motors id (fun m => some (store m, [])) = some (motors', events)) :
    Ticks i expf motors events motors' := by
  obtain ⟨j, m', -, stepped, rfl⟩ := withMotor_cases step
  obtain ⟨rfl, rfl⟩ := Prod.mk.inj (Option.some.inj stepped)
  exact ticks_of_still rfl (commandOf_set i (aside _))

theorem ticks_of_feedback {id : ℤ} {store : Motor K P → Motor K P}
    (aside : ∀ m, (store m).command = m.command)
    (step : feedback motors id store = some (motors', events)) :
    Ticks i expf motors events motors' := by
  unfold feedback at step
  split at step
  · obtain ⟨rfl, rfl⟩ := Prod.mk.inj (Option.some.inj step)
    exact ticks_of_still rfl rfl
  · exact ticks_of_aside aside step

/-- `motor_handle` is at most one tick of the command of its motor. -/
theorem ticks_of_handle {id : ℤ} {cycle : K} {reading : Reading K}
    (step : withMotor motors id (fun m => m.handle expf apid id cycle reading) =
      some (motors', events)) :
    Ticks i expf motors events motors' := by
  obtain ⟨j, m', rfl, handled, rfl⟩ := withMotor_cases step
  by_cases here : j = i
  · subst here
    have after : commandOf j (motors.set j m') = m'.command := by
      unfold commandOf
      rw [Vector.getElem_set_self]
    rcases Motor.handle_cases handled with ⟨same, silent⟩ | ⟨ticked, seen⟩
    · exact ticks_of_still silent (after.trans same)
    · refine ⟨[()], ?_⟩
      rw [seen, after]
      refine .single trivial ?_
      show (Command.tick expf _).map _ = _
      rw [show Command.tick expf (commandOf j motors) = _ from ticked]
      rfl
  · have apart : ((j : ℕ) : ℤ) ≠ (i : ℕ) := fun same => here (Fin.ext (Nat.cast_inj.mp same))
    exact ticks_of_still (Motor.handle_see apart handled) (commandOf_set_ne i here m')

/-- **Nobody commands the motor.** A call that does not command motor `i` is seen as at most one
tick of its command. -/
theorem quiet_step {input : Call K} (quiet : input.commanded ≠ some (i : ℕ))
    (step : (layer expf apid).step motors input = some (motors', events)) :
    Ticks i expf motors events motors' := by
  have other {id : ℤ} (command : input.commanded = some id) : id ≠ (i : ℕ) := by
    rintro rfl
    exact quiet command
  cases input <;> simp only [layer, call] at step
  case setSpeed id value => exact ticks_of_setter (other rfl) step
  case setRelativeSpeed id value => exact ticks_of_setter (other rfl) step
  case setPos id value => exact ticks_of_setter (other rfl) step
  case setRelativePos id value => exact ticks_of_setter (other rfl) step
  case setTorque id value => exact ticks_of_setter (other rfl) step
  case setPosPlan id targetPos stepPos flexible maxTimes =>
    refine ticks_of_elsewhere (other rfl) (fun m m' events done => ?_) step
    obtain ⟨planned, -, done⟩ := Option.map_eq_some_iff.mp done
    exact (Prod.mk.inj done).2.symm
  case feedbackTorque id value => exact ticks_of_feedback (fun m => m.command_cur _ _ _) step
  case feedbackSpeed id value => exact ticks_of_feedback (fun m => m.command_cur _ _ _) step
  case feedbackPos id value => exact ticks_of_feedback (fun m => m.command_cur _ _ _) step
  case stop id => exact ticks_of_aside (fun m => m.command_stop true) step
  case start id => exact ticks_of_aside (fun m => m.command_stop false) step
  case handle id cycle reading => exact ticks_of_handle step

/-- Over a run in which nobody commands motor `i`, its command ticks once for every call of its
behaviour function. -/
theorem quiet_run {inputs : List (Call K)}
    (run : (layer expf apid).RunOn (fun _ input => input.commanded ≠ some (i : ℕ)) motors inputs
      events motors') :
    Ticks i expf motors events motors' :=
  run.simulates (commandOf i) (Event.see (i : ℕ)) fun _ _ _ _ quiet step => quiet_step quiet step

end Quiet

end Robocon.Motors
