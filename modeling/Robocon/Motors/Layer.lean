/-
**The motor layer (`motor.c`, `motor_planning.c`).**

`layer` is the table of motors under the calls of its users: the setters, the planned move, the
feedback functions, `motor_stop`/`motor_start` and the periodic `motor_handle`. Its outputs are the
calls that `motor_handle` makes through function pointers: the behaviour function, with the run
mode and the three targets it sees, and the driver.

* The controller `apid_t` belongs to a library outside the repository and is a parameter; so is
  `expf`. Numbers are exact.
* What the driver's `control` writes back is part of the input of `motor_handle` (`Reading`).
* A failed step is undefined behaviour or an endless loop: a bad id, a null curve or controller, a
  period taken modulo zero.
-/

import Robocon.Trajectory.Planning

namespace Robocon.Motors

open Lib Trajectory

/-- The values of `MOTOR_VALUE_TYPE` that the two-bit mode flags can hold. -/
inductive Mode
  | idel
  | torque
  | speed
  | pos
  deriving DecidableEq

/-- The functions of the controller `apid_t` that the motor layer calls. -/
structure Apid (K P : Type) where
  setTarget : P → K → P
  setPresent : P → K → P
  hander : P → K → P
  getOut : P → K

/-- The behaviour functions `motor_behiver_1 … motor_behiver_4`. -/
inductive Behiver
  | one
  | two
  | three
  | four
  deriving DecidableEq

instance neZero_sixteen : NeZero 16 := ⟨by decide⟩

/-- `motor_t` with the curve of its `ops`, less the fields that no modelled function reads. -/
structure Motor (K P : Type) where
  time : ℤ
  ratioPos : Fin 16
  ratioSpeed : Fin 16
  pidSpeed : Option P
  pidPos : Option P
  pidTorque : Option P
  tarSpeed : K
  tarPos : K
  tarTorque : K
  curSpeed : K
  curPos : K
  curTorque : K
  flagRunMode : Mode
  flagOutMode : Mode
  flagPassiveFeedback : Bool
  flagIsStop : Bool
  behaver : Behiver
  accOut : K
  ratio : K
  curve : Option (Curve K)
  deriving DecidableEq

/-- What `ops->control` writes for each quantity, if anything. -/
structure Reading (K : Type) where
  torque : Option K
  speed : Option K
  pos : Option K

/-- The calls that `motor_handle` makes through function pointers. -/
inductive Event (K : Type)
  | behaver (id : ℤ) (mode : Mode) (tarTorque tarSpeed tarPos : K)
  | driver (id : ℤ) (mode : Mode) (value : K)
  deriving DecidableEq

/-- The calls of the users of the motor layer. -/
inductive Call (K : Type)
  | setSpeed (id : ℤ) (value : K)
  | setRelativeSpeed (id : ℤ) (value : K)
  | setPos (id : ℤ) (value : K)
  | setRelativePos (id : ℤ) (value : K)
  | setTorque (id : ℤ) (value : K)
  | setPosPlan (id : ℤ) (targetPos stepPos flexible : K) (maxTimes : ℤ)
  | feedbackTorque (id : ℤ) (value : K)
  | feedbackSpeed (id : ℤ) (value : K)
  | feedbackPos (id : ℤ) (value : K)
  | stop (id : ℤ)
  | start (id : ℤ)
  | handle (id : ℤ) (cycle : K) (reading : Reading K)

namespace Motor

section Behaviour

variable {K P : Type} [Field K] (apid : Apid K P)

/-- `time % ratio == 0`; a zero ratio is undefined behaviour. -/
def isTime (time : ℤ) (ratio : Fin 16) : Option Bool :=
  if ratio = 0 then none else some (time % ratio = 0)

/-- `motor_behiver_pos`. -/
def behiverPos (m : Motor K P) (cycle : K) : Option (Motor K P) := do
  if ← isTime m.time m.ratioPos then
    let pid ← m.pidPos
    let pid := apid.setTarget pid m.tarPos
    let pid := apid.setPresent pid m.curPos
    let pid := apid.hander pid (cycle * (m.ratioPos : ℕ))
    return { m with pidPos := some pid, tarSpeed := apid.getOut pid }
  else
    return m

/-- `motor_behiver_speed`. -/
def behiverSpeed (m : Motor K P) (cycle : K) : Option (Motor K P) := do
  if ← isTime m.time m.ratioSpeed then
    let pid ← m.pidSpeed
    let pid := apid.setTarget pid m.tarSpeed
    let pid := apid.setPresent pid m.curSpeed
    let pid := apid.hander pid (cycle * (m.ratioSpeed : ℕ))
    return { m with pidSpeed := some pid, tarTorque := apid.getOut pid }
  else
    return m

/-- `motor_behiver_torque`. -/
def behiverTorque (m : Motor K P) (cycle : K) : Option (Motor K P) := do
  let pid ← m.pidTorque
  let pid := apid.setTarget pid m.tarTorque
  let pid := apid.setPresent pid m.curTorque
  let pid := apid.hander pid cycle
  return { m with pidTorque := some pid, accOut := apid.getOut pid }

/-- `motor_behiver_1`: no loop is closed by the hardware. -/
def behiver1 (m : Motor K P) (mode : Mode) (cycle : K) : Option (Motor K P) :=
  match mode with
  | .pos => do
    let m ← behiverPos apid m cycle
    let m ← behiverSpeed apid m cycle
    behiverTorque apid m cycle
  | .speed => do
    let m ← behiverSpeed apid m cycle
    behiverTorque apid m cycle
  | .torque => behiverTorque apid m cycle
  | .idel => some m

/-- `motor_behiver_2`: the hardware takes torques. -/
def behiver2 (m : Motor K P) (mode : Mode) (cycle : K) : Option (Motor K P) :=
  match mode with
  | .pos => do
    let m ← behiverPos apid m cycle
    let m ← behiverSpeed apid m cycle
    return { m with accOut := m.tarTorque }
  | .speed => do
    let m ← behiverSpeed apid m cycle
    return { m with accOut := m.tarTorque }
  | .torque => some { m with accOut := m.tarTorque }
  | .idel => some m

/-- `motor_behiver_3`: the hardware takes torques and speeds. -/
def behiver3 (m : Motor K P) (mode : Mode) (cycle : K) : Option (Motor K P) :=
  match mode with
  | .pos => do
    let m ← behiverPos apid m cycle
    return { m with accOut := m.tarSpeed }
  | .speed => some { m with accOut := m.tarSpeed }
  | .torque => some { m with accOut := m.tarTorque }
  | .idel => some m

/-- `motor_behiver_4`: the hardware takes torques, speeds and positions. -/
def behiver4 (m : Motor K P) (mode : Mode) : Option (Motor K P) :=
  match mode with
  | .pos => some { m with accOut := m.tarPos }
  | .speed => some { m with accOut := m.tarSpeed }
  | .torque => some { m with accOut := m.tarTorque }
  | .idel => some m

/-- The call `motor->behaver(..)`. -/
def behave (m : Motor K P) (mode : Mode) (cycle : K) : Option (Motor K P) :=
  match m.behaver with
  | .one => behiver1 apid m mode cycle
  | .two => behiver2 apid m mode cycle
  | .three => behiver3 apid m mode cycle
  | .four => behiver4 m mode

/-- `__motor_read_feedback`. -/
def readFeedback (m : Motor K P) (reading : Reading K) : Option (Motor K P) := do
  let m := { m with curTorque := reading.torque.getD m.curTorque }
  let speedTime ← isTime m.time m.ratioSpeed
  let m := if speedTime then { m with curSpeed := reading.speed.getD m.curSpeed } else m
  let posTime ← isTime m.time m.ratioPos
  return if posTime then { m with curPos := reading.pos.getD m.curPos } else m

/-- The part of `motor_handle` that updates the measured quantities. -/
def takeFeedback (m : Motor K P) (reading : Reading K) : Option (Motor K P) :=
  if m.flagPassiveFeedback then some m else m.readFeedback reading

end Behaviour

section Handle

variable {K P : Type} [Field K] [LinearOrder K] [FloorRing K] (expf : K → K) (apid : Apid K P)

/-- The part of `motor_handle` that follows an active curve. -/
def followCurve (m : Motor K P) : Option (Motor K P) :=
  match m.curve with
  | none => some m
  | some curve =>
    if curve.maxTimes ≠ 0 then
      match m.flagRunMode with
      | .pos => do
        let curve ← motorPlanning expf curve
        return { m with curve := some curve, tarPos := curve.currentPos }
      | .speed => do
        let curve ← motorPlanning expf curve
        return { m with curve := some curve, tarSpeed := curve.currentPos }
      | .torque => do
        let curve ← motorPlanning expf curve
        return { m with curve := some curve, tarTorque := curve.currentPos }
      | .idel => some m
    else some m

/-- `motor_handle`. -/
def handle (m : Motor K P) (id : ℤ) (cycle : K) (reading : Reading K) :
    Option (Motor K P × List (Event K)) := do
  let m := { m with time := trunc ((m.time : K) + cycle) }
  let m ← m.takeFeedback reading
  if m.flagIsStop then
    let m := { m with accOut := 0 }
    return (m, [.driver id m.flagOutMode m.accOut])
  else
    let m ← m.followCurve expf
    let call := Event.behaver id m.flagRunMode m.tarTorque m.tarSpeed m.tarPos
    let m ← m.behave apid m.flagRunMode cycle
    return (m, [call, .driver id m.flagOutMode m.accOut])

/-- `motor_set_pos_plan`. -/
def setPosPlan (m : Motor K P) (targetPos stepPos flexible : K) (maxTimes : ℤ) :
    Option (Motor K P) := do
  let curve ← m.curve
  let curve := { curve with
    intervel := 2
    aTimes := 0
    targetPos := targetPos * m.ratio
    startPos := m.curPos
    currentPos := m.curPos
    maxTimes := maxTimes
    stepPos := stepPos
    flexible := flexible
    curveMode := .trap }
  let curve ← motorPlanning expf curve
  return { m with curve := some curve, tarPos := curve.currentPos }

end Handle

end Motor

section Layer

variable {K P : Type} [Field K] [LinearOrder K] [FloorRing K] (expf : K → K) (apid : Apid K P)
  {num : ℕ}

/-- A step on the motor `motor_get(id)`. A bad id is a null pointer, on which the callers spin or
which they dereference. -/
def withMotor (motors : Vector (Motor K P) num) (id : ℤ)
    (step : Motor K P → Option (Motor K P × List (Event K))) :
    Option (Vector (Motor K P) num × List (Event K)) :=
  if valid : 0 ≤ id ∧ id.toNat < num then
    (step motors[id.toNat]).map fun next =>
      (motors.set id.toNat next.1 valid.2, next.2)
  else none

/-- The feedback functions return without effect on an id past the end of the table. -/
def feedback (motors : Vector (Motor K P) num) (id : ℤ) (store : Motor K P → Motor K P) :
    Option (Vector (Motor K P) num × List (Event K)) :=
  if num ≤ id then some (motors, []) else withMotor motors id fun m => some (store m, [])

/-- One call. -/
def call (motors : Vector (Motor K P) num) :
    Call K → Option (Vector (Motor K P) num × List (Event K))
  | .setSpeed id value => withMotor motors id fun m =>
      some ({ m with flagRunMode := .speed, tarSpeed := value * m.ratio }, [])
  | .setRelativeSpeed id value => withMotor motors id fun m =>
      some ({ m with flagRunMode := .speed, tarSpeed := m.tarSpeed + value * m.ratio }, [])
  | .setPos id value => withMotor motors id fun m =>
      some ({ m with flagRunMode := .pos, tarPos := value * m.ratio }, [])
  | .setRelativePos id value => withMotor motors id fun m =>
      some ({ m with flagRunMode := .pos, tarPos := m.tarPos + value * m.ratio }, [])
  | .setTorque id value => withMotor motors id fun m =>
      some ({ m with flagRunMode := .torque, tarTorque := value * m.ratio }, [])
  | .setPosPlan id targetPos stepPos flexible maxTimes => withMotor motors id fun m =>
      (m.setPosPlan expf targetPos stepPos flexible maxTimes).map fun m => (m, [])
  | .feedbackTorque id value => feedback motors id fun m => { m with curTorque := value }
  | .feedbackSpeed id value => feedback motors id fun m => { m with curSpeed := value }
  | .feedbackPos id value => feedback motors id fun m => { m with curPos := value }
  | .stop id => withMotor motors id fun m => some ({ m with flagIsStop := true }, [])
  | .start id => withMotor motors id fun m => some ({ m with flagIsStop := false }, [])
  | .handle id cycle reading => withMotor motors id fun m => m.handle expf apid id cycle reading

/-- The motor layer as a machine. -/
def layer : Machine (Vector (Motor K P) num) (Call K) (Event K) where
  step motors input := call expf apid motors input

end Layer

end Robocon.Motors
