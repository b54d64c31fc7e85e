/-
**The servo driver and its mutex (`fashion_star_uart_servo.c`).**

An operation of the driver takes `servo->mutex`, exchanges packages with a servo, and gives the
mutex back. An `Exchange` is what happens during one request: whether the mutex becomes free in
time, and which bytes arrive before the receiver times out.

* The mutex is recursive: the thread that holds it takes it once more, up to `255` times.
* A variable that is read before it is set has any value; the exchange says which.
* `Outcome` — what an operation leaves behind, one lemma for each kind of operation.
* `gives_back_iff` — when a call leaves the mutex as it was, and is on the bus only while it holds
  it.

`FSUS_QueryServoAngleMTurn` returns on the reply of another servo before it releases the mutex
(`reply_of_another`), and `FSUS_ReadData` and `FSUS_WriteData` do not take it.
-/

import Robocon.Lib.Run
import Robocon.Servo.Package

namespace Robocon.Servo

open Lib

/-! ### The bus and its mutex -/

/-- What happens during one request. `stale` is the value of an `angle_read` that is not set. -/
structure Exchange where
  granted : Bool
  sendStart : UInt8
  pkg : Package
  recvStart : UInt8
  bytes : List UInt8
  stale : Float32

/-- The bus is used while the caller holds the mutex a number of times. -/
inductive Event
  | sent (holds : ℕ) (bytes : List UInt8)
  | receive (holds : ℕ)
  deriving DecidableEq

def Event.holds : Event → ℕ
  | sent holds _ => holds
  | receive holds => holds

/-- The number of times that the caller holds the mutex, the exchanges to come, and the uses of the
bus so far. -/
structure World where
  holds : ℕ
  exchanges : List Exchange
  events : List Event

/-- A function of the driver. It fails where it goes past a buffer, and where there is no
exchange. -/
abbrev Driver := StateT World Option

/-- `RT_MUTEX_HOLD_MAX`. -/
def mutexHoldMax : ℕ := 255

/-- `rt_mutex_take`. -/
def mutexTake (holds : ℕ) (granted : Bool) : Option ℕ :=
  if holds = 0 then if granted then some 1 else none
  else if holds < mutexHoldMax then some (holds + 1)
  else none

/-- `rt_mutex_release`. -/
def mutexRelease (holds : ℕ) : ℕ := holds - 1

namespace Driver

/-- The next exchange. -/
def exchange : Driver Exchange := fun w =>
  match w.exchanges with
  | [] => none
  | x :: exchanges => some (x, { w with exchanges := exchanges })

/-- `rt_mutex_take(servo->mutex, FSUS_TIMEOUT_MS) == RT_EOK`. -/
def take (x : Exchange) : Driver Bool := fun w =>
  match mutexTake w.holds x.granted with
  | some holds => some (true, { w with holds := holds })
  | none => some (false, w)

/-- `rt_mutex_release(servo->mutex)`. -/
def release : Driver Unit := fun w => some ((), { w with holds := mutexRelease w.holds })

/-- `FSUS_SendPackage`. -/
def send (x : Exchange) (cmdId size : UInt8) (content : List UInt8) : Driver Unit := fun w =>
  (sendPackage x.sendStart cmdId size content).map fun bytes =>
    ((), { w with events := w.events ++ [.sent w.holds bytes] })

/-- `FSUS_RecvPackage`. -/
def recv (x : Exchange) : Driver (Status × Package) := fun w =>
  (recvPackage x.recvStart x.pkg x.bytes).map fun returned =>
    (returned, { w with events := w.events ++ [.receive w.holds] })

/-- A package, and the answer to it. -/
def transact (x : Exchange) (cmdId size : UInt8) (content : List UInt8) :
    Driver (Status × Package) := do
  send x cmdId size content
  recv x

/-- A package under the mutex: whether the mutex was taken. -/
def request (x : Exchange) (cmdId : UInt8) (content : List UInt8) : Driver Bool := do
  if ← take x then
    send x cmdId (UInt8.ofNat content.length) content
    release
    return true
  else
    return false

/-- A package and the answer to it under the mutex, which is released before the answer is looked
at. -/
def ask (x : Exchange) (cmdId : UInt8) (content : List UInt8) :
    Driver (Option (Status × Package)) := do
  if ← take x then
    let answer ← transact x cmdId (UInt8.ofNat content.length) content
    release
    return some answer
  else
    return none

end Driver

open Driver

/-! ### Contents -/

/-- The low and the high byte of a word. -/
def word (value : UInt16) : List UInt8 := [value.toUInt8, (value >>> 8).toUInt8]

/-- The bytes of a long word, the low one first. -/
def longWord (value : UInt32) : List UInt8 :=
  [value.toUInt8, (value >>> 8).toUInt8, (value >>> 16).toUInt8, (value >>> 24).toUInt8]

/-- A value between two bounds. -/
def clamp (low high value : Float32) : Float32 :=
  if high < value then high else if value < low then low else value

/-- `(int16_t)(10 * angle)`. -/
def tenths16 (angle : Float32) : List UInt8 := word (10.0 * angle).toInt16.toUInt16

/-- `(int32_t)(10 * angle)`. -/
def tenths32 (angle : Float32) : List UInt8 := longWord (10.0 * angle).toInt32.toUInt32

/-- `(uint16_t)(10 * velocity)`. -/
def velocity16 (velocity : Float32) : List UInt8 := word (10.0 * velocity).toUInt16

/-! ### The operations -/

/-- `FSUS_Ping`. -/
def ping (x : Exchange) (servoId : UInt8) : Driver Status := do
  match ← ask x 1 [servoId] with
  | none => return .timeout
  | some (statusCode, pkg) =>
    if statusCode = .success ∧ cell pkg.content 0 ≠ servoId then return .idNotMatch
    else return statusCode

/-- `FSUS_ResetUserData`. -/
def resetUserData (x : Exchange) (servoId : UInt8) : Driver Status := do
  match ← ask x 2 [servoId] with
  | none => return .timeout
  | some (statusCode, pkg) =>
    if statusCode = .success then return if cell pkg.content 1 = 1 then .success else .fail
    else return statusCode

/-- The copy of `FSUS_ReadData`, which fails past the content. -/
def readValue (pkg : Package) : Option (List UInt8) :=
  let size := pkg.size - 2
  if size.toNat + 2 ≤ responseMaxSize then some ((pkg.content.toList.drop 2).take size.toNat)
  else none

/-- `FSUS_ReadData`. The data are what it copies, if anything. -/
def readData (x : Exchange) (servoId address : UInt8) : Driver (Status × Option (List UInt8)) := do
  let (statusCode, pkg) ← transact x 3 2 [servoId, address]
  if statusCode = .success then
    let value ← (readValue pkg : Option (List UInt8))
    return (statusCode, some value)
  else return (statusCode, none)

/-- `FSUS_WriteData`, which fails on fewer data than it is to write. -/
def writeData (x : Exchange) (servoId address : UInt8) (value : List UInt8) (size : UInt8) :
    Driver Status := do
  if size.toNat ≤ value.length then
    let (statusCode, pkg) ← transact x 4 (size + 2) (servoId :: address :: value.take size.toNat)
    if statusCode = .success then return if cell pkg.content 2 = 1 then .success else .fail
    else return statusCode
  else failure

/-- `FSUS_WheelMove`. -/
def wheelMove (x : Exchange) (servoId method : UInt8) (speed value : UInt16) : Driver Status := do
  if ← request x 7 ([servoId, method] ++ word speed ++ word value) then return .success
  else return .timeout

/-- `method | 0x80` for a clockwise turn. -/
def wheelMethod (method isCw : UInt8) : UInt8 := if isCw ≠ 0 then method ||| 0x80 else method

/-- `FSUS_WheelStop`. -/
def wheelStop (x : Exchange) (servoId : UInt8) : Driver Status := wheelMove x servoId 0x00 0 0

/-- `FSUS_WheelKeepMove`. -/
def wheelKeepMove (x : Exchange) (servoId isCw : UInt8) (speed : UInt16) : Driver Status :=
  wheelMove x servoId (wheelMethod 0x01 isCw) speed 0

/-- `FSUS_WheelMoveTime`. -/
def wheelMoveTime (x : Exchange) (servoId isCw : UInt8) (speed nTime : UInt16) : Driver Status :=
  wheelMove x servoId (wheelMethod 0x03 isCw) speed nTime

/-- `FSUS_WheelMoveNCircle`. -/
def wheelMoveNCircle (x : Exchange) (servoId isCw : UInt8) (speed nCircle : UInt16) :
    Driver Status :=
  wheelMove x servoId (wheelMethod 0x02 isCw) speed nCircle

/-- `FSUS_QueryServoAngle`, and the angle that it sets. -/
def queryServoAngle (x : Exchange) (servoId : UInt8) : Driver (Status × Option Float32) := do
  match ← ask x 10 [servoId] with
  | none => return (.timeout, none)
  | some (statusCode, pkg) =>
    if statusCode = .success then
      if cell pkg.content 0 ≠ servoId then return (.idNotMatch, none)
      else
        let echoAngle := (cell pkg.content 1).toUInt16 ||| (cell pkg.content 2).toUInt16 <<< 8
        return (statusCode, some (echoAngle.toInt16.toFloat / 10.0).toFloat32)
    else return (statusCode, none)

/-- `FSUS_QueryServoAngleMTurn`, and the angle that it sets. It looks at the answer before it
releases the mutex. -/
def queryServoAngleMTurn (x : Exchange) (servoId : UInt8) :
    Driver (Status × Option Float32) := do
  if ← take x then
    let (statusCode, pkg) ← transact x 16 1 [servoId]
    if statusCode = .success then
      if cell pkg.content 0 ≠ servoId then return (.idNotMatch, none)
      else
        let echoAngle := (cell pkg.content 1).toUInt32 ||| (cell pkg.content 2).toUInt32 <<< 8 |||
          (cell pkg.content 3).toUInt32 <<< 16 ||| (cell pkg.content 4).toUInt32 <<< 24
        release
        return (statusCode, some (echoAngle.toInt32.toFloat / 10.0).toFloat32)
    else
      release
      return (statusCode, none)
  else
    return (.timeout, none)

/-- `FSUS_WAIT_COUNT_MAX`. -/
def waitCountMax : ℕ := 10000

/-- The query in the loop of `FSUS_Wait`. -/
def waitQuery (x : Exchange) (servoId isMturn : UInt8) : Driver (Status × Option Float32) :=
  if isMturn ≠ 0 then queryServoAngleMTurn x servoId else queryServoAngle x servoId

/-- The loop of `FSUS_Wait`, for a number of turns and with the last angle that was read. -/
def waitTurns (servoId : UInt8) (targetAngle : Float32) (isMturn : UInt8) :
    ℕ → Option Float32 → Driver Status
  | 0, _ => return .fail
  | turns + 1, angleRead => do
    let x ← exchange
    let (_, angle) ← waitQuery x servoId isMturn
    let angleRead := angle <|> angleRead
    if (targetAngle - angleRead.getD x.stale).abs ≤ 1.0 then return .success
    else waitTurns servoId targetAngle isMturn turns angleRead

/-- `FSUS_Wait`. -/
def wait (servoId : UInt8) (targetAngle : Float32) (isMturn : UInt8) : Driver Status :=
  waitTurns servoId targetAngle isMturn waitCountMax none

/-- What the functions that set an angle have in common. -/
def setAngle (x : Exchange) (cmdId servoId : UInt8) (content : List UInt8) (angle : Float32)
    (wait isMturn : UInt8) : Driver Status := do
  if ← request x cmdId (servoId :: content) then
    if wait ≠ 0 then Servo.wait servoId angle isMturn else return .success
  else
    return .timeout

/-- `FSUS_SetServoAngle`. -/
def setServoAngle (x : Exchange) (servoId : UInt8) (angle : Float32) (interval power : UInt16)
    (wait : UInt8) : Driver Status :=
  let angle := clamp (-180.0) 180.0 angle
  setAngle x 8 servoId (tenths16 angle ++ word interval ++ word power) angle wait 0

/-- `FSUS_SetServoAngleByInterval`. -/
def setServoAngleByInterval (x : Exchange) (servoId : UInt8) (angle : Float32)
    (interval tAcc tDec power : UInt16) (wait : UInt8) : Driver Status :=
  let angle := clamp (-180.0) 180.0 angle
  setAngle x 11 servoId (tenths16 angle ++ word interval ++ word (max 20 tAcc) ++
    word (max 20 tDec) ++ word power) angle wait 0

/-- `FSUS_SetServoAngleByVelocity`. -/
def setServoAngleByVelocity (x : Exchange) (servoId : UInt8) (angle velocity : Float32)
    (tAcc tDec power : UInt16) (wait : UInt8) : Driver Status :=
  let angle := clamp (-180.0) 180.0 angle
  setAngle x 12 servoId (tenths16 angle ++ velocity16 (clamp 1.0 750.0 velocity) ++
    word (max 20 tAcc) ++ word (max 20 tDec) ++ word power) angle wait 0

/-- `FSUS_SetServoAngleMTurn`. A long interval sets the angle. -/
def setServoAngleMTurn (x : Exchange) (servoId : UInt8) (angle : Float32) (interval : UInt32)
    (power : UInt16) (wait : UInt8) : Driver Status :=
  let angle := clamp (-368640.0) 368640.0 angle
  let angle := if 4096000 < interval then 4096000.0 else angle
  setAngle x 13 servoId (tenths32 angle ++ longWord interval ++ word power) angle wait 1

/-- `FSUS_SetServoAngleMTurnByInterval`. -/
def setServoAngleMTurnByInterval (x : Exchange) (servoId : UInt8) (angle : Float32)
    (interval : UInt32) (tAcc tDec power : UInt16) (wait : UInt8) : Driver Status :=
  let angle := clamp (-368640.0) 368640.0 angle
  setAngle x 14 servoId (tenths32 angle ++ longWord (min 4096000 interval) ++
    word (max 20 tAcc) ++ word (max 20 tDec) ++ word power) angle wait 1

/-- `FSUS_SetServoAngleMTurnByVelocity`. -/
def setServoAngleMTurnByVelocity (x : Exchange) (servoId : UInt8) (angle velocity : Float32)
    (tAcc tDec power : UInt16) (wait : UInt8) : Driver Status :=
  let angle := clamp (-368640.0) 368640.0 angle
  setAngle x 15 servoId (tenths32 angle ++ velocity16 (clamp 1.0 750.0 velocity) ++
    word (max 20 tAcc) ++ word (max 20 tDec) ++ word power) angle wait 1

/-- `FSUS_DampingMode`. -/
def dampingMode (x : Exchange) (servoId : UInt8) (power : UInt16) : Driver Status := do
  if ← request x 9 (servoId :: word power) then return .success else return .timeout

/-- The calls of the driver. -/
inductive Op
  | ping (servoId : UInt8)
  | resetUserData (servoId : UInt8)
  | readData (servoId address : UInt8)
  | writeData (servoId address : UInt8) (value : List UInt8) (size : UInt8)
  | wheelMove (servoId method : UInt8) (speed value : UInt16)
  | wheelStop (servoId : UInt8)
  | wheelKeepMove (servoId isCw : UInt8) (speed : UInt16)
  | wheelMoveTime (servoId isCw : UInt8) (speed nTime : UInt16)
  | wheelMoveNCircle (servoId isCw : UInt8) (speed nCircle : UInt16)
  | setServoAngle (servoId : UInt8) (angle : Float32) (interval power : UInt16) (wait : UInt8)
  | setServoAngleByInterval (servoId : UInt8) (angle : Float32)
      (interval tAcc tDec power : UInt16) (wait : UInt8)
  | setServoAngleByVelocity (servoId : UInt8) (angle velocity : Float32)
      (tAcc tDec power : UInt16) (wait : UInt8)
  | queryServoAngle (servoId : UInt8)
  | setServoAngleMTurn (servoId : UInt8) (angle : Float32) (interval : UInt32) (power : UInt16)
      (wait : UInt8)
  | setServoAngleMTurnByInterval (servoId : UInt8) (angle : Float32) (interval : UInt32)
      (tAcc tDec power : UInt16) (wait : UInt8)
  | setServoAngleMTurnByVelocity (servoId : UInt8) (angle velocity : Float32)
      (tAcc tDec power : UInt16) (wait : UInt8)
  | queryServoAngleMTurn (servoId : UInt8)
  | dampingMode (servoId : UInt8) (power : UInt16)
  | wait (servoId : UInt8) (targetAngle : Float32) (isMturn : UInt8)

/-- A call of the driver. -/
def Op.run : Op → Driver Status
  | ping servoId => exchange >>= fun x => Servo.ping x servoId
  | resetUserData servoId => exchange >>= fun x => Servo.resetUserData x servoId
  | readData servoId address => exchange >>= fun x => Prod.fst <$> Servo.readData x servoId address
  | writeData servoId address value size =>
    exchange >>= fun x => Servo.writeData x servoId address value size
  | wheelMove servoId method speed value =>
    exchange >>= fun x => Servo.wheelMove x servoId method speed value
  | wheelStop servoId => exchange >>= fun x => Servo.wheelStop x servoId
  | wheelKeepMove servoId isCw speed =>
    exchange >>= fun x => Servo.wheelKeepMove x servoId isCw speed
  | wheelMoveTime servoId isCw speed nTime =>
    exchange >>= fun x => Servo.wheelMoveTime x servoId isCw speed nTime
  | wheelMoveNCircle servoId isCw speed nCircle =>
    exchange >>= fun x => Servo.wheelMoveNCircle x servoId isCw speed nCircle
  | setServoAngle servoId angle interval power waits =>
    exchange >>= fun x => Servo.setServoAngle x servoId angle interval power waits
  | setServoAngleByInterval servoId angle interval tAcc tDec power waits =>
    exchange >>= fun x =>
      Servo.setServoAngleByInterval x servoId angle interval tAcc tDec power waits
  | setServoAngleByVelocity servoId angle velocity tAcc tDec power waits =>
    exchange >>= fun x =>
      Servo.setServoAngleByVelocity x servoId angle velocity tAcc tDec power waits
  | queryServoAngle servoId => exchange >>= fun x => Prod.fst <$> Servo.queryServoAngle x servoId
  | setServoAngleMTurn servoId angle interval power waits =>
    exchange >>= fun x => Servo.setServoAngleMTurn x servoId angle interval power waits
  | setServoAngleMTurnByInterval servoId angle interval tAcc tDec power waits =>
    exchange >>= fun x =>
      Servo.setServoAngleMTurnByInterval x servoId angle interval tAcc tDec power waits
  | setServoAngleMTurnByVelocity servoId angle velocity tAcc tDec power waits =>
    exchange >>= fun x =>
      Servo.setServoAngleMTurnByVelocity x servoId angle velocity tAcc tDec power waits
  | queryServoAngleMTurn servoId =>
    exchange >>= fun x => Prod.fst <$> Servo.queryServoAngleMTurn x servoId
  | dampingMode servoId power => exchange >>= fun x => Servo.dampingMode x servoId power
  | wait servoId targetAngle isMturn => Servo.wait servoId targetAngle isMturn

/-- The driver: a call, with the exchanges that take place during it. The state is the number of
times that the caller holds the mutex. -/
def driver : Machine ℕ (Op × List Exchange) Event where
  step holds input :=
    (input.1.run ⟨holds, input.2, []⟩).bind fun returned =>
      if returned.2.exchanges.isEmpty then some (returned.2.holds, returned.2.events) else none

/-! ### The condition -/

/-- A reply of another servo arrives. -/
def Foreign (servoId : UInt8) (x : Exchange) : Prop :=
  ∃ cmdId content, Arrives x.recvStart x.bytes cmdId content ∧ content.head? ≠ some servoId

/-- A reply of another servo arrives while the mutex is taken. -/
def Stuck (holds : ℕ) (servoId : UInt8) (x : Exchange) : Prop :=
  (mutexTake holds x.granted).isSome = true ∧ Foreign servoId x

/-- No query for several turns gets a reply of another servo, and data are read and written by a
caller that holds the mutex. -/
def Op.Safe (holds : ℕ) (exchanges : List Exchange) : Op → Prop
  | readData _ _ => 0 < holds
  | writeData _ _ _ _ => 0 < holds
  | queryServoAngleMTurn servoId => ∀ x ∈ exchanges, ¬ Stuck holds servoId x
  | setServoAngleMTurn servoId _ _ _ _ => ∀ x ∈ exchanges.tail, ¬ Stuck holds servoId x
  | setServoAngleMTurnByInterval servoId _ _ _ _ _ _ =>
    ∀ x ∈ exchanges.tail, ¬ Stuck holds servoId x
  | setServoAngleMTurnByVelocity servoId _ _ _ _ _ _ =>
    ∀ x ∈ exchanges.tail, ¬ Stuck holds servoId x
  | wait servoId _ isMturn => isMturn ≠ 0 → ∀ x ∈ exchanges, ¬ Stuck holds servoId x
  | _ => True

/-! ### Parts of the operations -/

section Bind

variable {α β : Type} {w w' : World}

theorem bind_eq_some {m : Driver α} {f : α → Driver β} {b : β} :
    (m >>= f) w = some (b, w') ↔
      ∃ a middle, m w = some (a, middle) ∧ f a middle = some (b, w') := by
  simp [bind, StateT.bind, Option.bind_eq_some_iff]

theorem bind_of_some {m : Driver α} {a : α} (f : α → Driver β) (step : m w = some (a, w')) :
    (m >>= f) w = f a w' := by
  show (m w).bind _ = _
  rw [step]
  rfl

theorem pure_eq_some {a b : α} : (pure a : Driver α) w = some (b, w') ↔ a = b ∧ w = w' := by
  simp [pure, StateT.pure]

end Bind

/-- Between the two states, the bus was used under the mutex only. -/
def Covered (w w' : World) : Prop :=
  ∃ events, w'.events = w.events ++ events ∧ ∀ event ∈ events, 0 < event.holds

theorem Covered.refl (w : World) : Covered w w :=
  ⟨[], (List.append_nil _).symm, fun _ member => absurd member List.not_mem_nil⟩

theorem Covered.trans {w w' w'' : World} (first : Covered w w') (second : Covered w' w'') :
    Covered w w'' := by
  obtain ⟨early, same, held⟩ := first
  obtain ⟨late, same', held'⟩ := second
  refine ⟨early ++ late, by rw [same', same, List.append_assoc], fun event member => ?_⟩
  rcases List.mem_append.mp member with member | member
  · exact held event member
  · exact held' event member

/-- The mutex is held as before, and the bus was used under it only. -/
structure Kept (w w' : World) : Prop where
  holds : w'.holds = w.holds
  exchanges : w'.exchanges = w.exchanges
  covered : Covered w w'

theorem take_cases {x : Exchange} {taken : Bool} {w w' : World}
    (step : take x w = some (taken, w')) :
    (taken = true ∧ (mutexTake w.holds x.granted).isSome = true ∧
      w' = { w with holds := w.holds + 1 }) ∨
    (taken = false ∧ (mutexTake w.holds x.granted).isSome = false ∧ w' = w) := by
  unfold take at step
  have one : ∀ holds, mutexTake w.holds x.granted = some holds → holds = w.holds + 1 := by
    intro holds got
    unfold mutexTake at got
    split_ifs at got with zero
    · rw [zero]
      exact (Option.some.inj got).symm
    · exact (Option.some.inj got).symm
  cases got : mutexTake w.holds x.granted with
  | none =>
    rw [got] at step
    obtain ⟨rfl, rfl⟩ := Prod.mk.inj (Option.some.inj step)
    exact Or.inr ⟨rfl, rfl, rfl⟩
  | some holds =>
    rw [got] at step
    obtain ⟨rfl, rfl⟩ := Prod.mk.inj (Option.some.inj step)
    exact Or.inl ⟨rfl, rfl, by rw [one holds got]⟩

theorem send_cases {x : Exchange} {cmdId size : UInt8} {content : List UInt8} {w w' : World}
    (step : send x cmdId size content w = some ((), w')) :
    ∃ bytes, w' = { w with events := w.events ++ [.sent w.holds bytes] } := by
  obtain ⟨bytes, -, done⟩ := Option.map_eq_some_iff.mp step
  exact ⟨bytes, (Prod.mk.inj done).2.symm⟩

theorem transact_cases {x : Exchange} {cmdId size : UInt8} {content : List UInt8}
    {answer : Status × Package} {w w' : World}
    (step : transact x cmdId size content w = some (answer, w')) :
    recvPackage x.recvStart x.pkg x.bytes = some answer ∧ ∃ bytes,
      w' = { w with events := w.events ++ [.sent w.holds bytes, .receive w.holds] } := by
  obtain ⟨_, middle, sent, received⟩ := bind_eq_some.mp step
  obtain ⟨bytes, rfl⟩ := send_cases sent
  obtain ⟨returned, got, done⟩ := Option.map_eq_some_iff.mp received
  obtain ⟨rfl, rfl⟩ := Prod.mk.inj done
  refine ⟨got, bytes, ?_⟩
  simp

/-- A package and the answer to it under the mutex. -/
theorem ask_kept {x : Exchange} {cmdId : UInt8} {content : List UInt8}
    {answer : Option (Status × Package)} {w w' : World}
    (step : ask x cmdId content w = some (answer, w')) : Kept w w' := by
  obtain ⟨_, middle, took, rest⟩ := bind_eq_some.mp step
  obtain ⟨rfl, -, rfl⟩ | ⟨rfl, -, rfl⟩ := take_cases took
  · obtain ⟨_, last, sent, rest⟩ := bind_eq_some.mp rest
    obtain ⟨-, bytes, rfl⟩ := transact_cases sent
    obtain ⟨_, final, released, done⟩ := bind_eq_some.mp rest
    obtain ⟨-, rfl⟩ := Prod.mk.inj (Option.some.inj released)
    obtain ⟨-, rfl⟩ := pure_eq_some.mp done
    exact ⟨rfl, rfl, _, rfl, by simp [Event.holds]⟩
  · obtain ⟨-, rfl⟩ := pure_eq_some.mp rest
    exact ⟨rfl, rfl, .refl _⟩

theorem ask_bind_kept {α : Type} {x : Exchange} {cmdId : UInt8} {content : List UInt8}
    {next : Option (Status × Package) → Driver α} {b : α} {w w' : World}
    (still : ∀ answer middle, next answer middle = some (b, w') → w' = middle)
    (step : (ask x cmdId content >>= next) w = some (b, w')) : Kept w w' := by
  obtain ⟨answer, middle, asked, rest⟩ := bind_eq_some.mp step
  obtain rfl := still answer middle rest
  exact ask_kept asked

theorem exchange_bind {α : Type} {f : Exchange → Driver α} {b : α} {w w' : World}
    (step : (exchange >>= f) w = some (b, w')) :
    ∃ x exchanges, w.exchanges = x :: exchanges ∧
      f x { w with exchanges := exchanges } = some (b, w') := by
  obtain ⟨x, middle, next, rest⟩ := bind_eq_some.mp step
  obtain ⟨holds, exchanges, events⟩ := w
  cases exchanges with
  | nil => cases next
  | cons first exchanges =>
    obtain ⟨rfl, rfl⟩ := Prod.mk.inj (Option.some.inj next)
    exact ⟨_, _, rfl, rest⟩

/-! ### The operations one by one -/

section Operations

variable {x : Exchange} {servoId : UInt8} {w w' : World}

theorem queryServoAngle_kept {got : Status × Option Float32}
    (step : queryServoAngle x servoId w = some (got, w')) : Kept w w' := by
  refine ask_bind_kept (fun answer middle rest => ?_) step
  rcases answer with _ | ⟨statusCode, pkg⟩
  · exact (pure_eq_some.mp rest).2.symm
  · simp only at rest
    split_ifs at rest <;> exact (pure_eq_some.mp rest).2.symm

/-- The code's test for a reply of another servo. -/
theorem foreign_iff {statusCode : Status} {pkg : Package}
    (received : recvPackage x.recvStart x.pkg x.bytes = some (statusCode, pkg)) :
    Foreign servoId x ↔ statusCode = .success ∧ cell pkg.content 0 ≠ servoId := by
  have head : ∀ {pkg' : Package} {content : List UInt8}, 0 < content.length →
      filled pkg'.content content.length = content →
        content.head? = some (cell pkg'.content 0) := by
    intro pkg' content some got
    rw [cell_filled pkg'.content some, got]
    obtain ⟨first, content, rfl⟩ := List.exists_cons_of_length_pos some
    rfl
  refine ⟨fun ⟨cmdId, content, arrives, differs⟩ => ?_, fun ⟨success, differs⟩ => ?_⟩
  · obtain ⟨pkg', success, got⟩ : ∃ pkg', recvPackage x.recvStart x.pkg x.bytes =
        some (.success, pkg') ∧ filled pkg'.content content.length = content :=
      recvPackage_complete arrives
    obtain ⟨rfl, rfl⟩ := Prod.mk.inj (Option.some.inj (received.symm.trans success))
    obtain ⟨_, _, _, -, -, -, -, some, -⟩ := arrives
    rw [head some got] at differs
    exact ⟨rfl, fun same => differs (congrArg Option.some same)⟩
  · subst success
    obtain ⟨cmdId, content, arrives, got⟩ := recvPackage_sound received
    refine ⟨cmdId, content, arrives, fun same => differs ?_⟩
    obtain ⟨_, _, _, -, -, -, -, some, -⟩ := arrives
    rw [head some got] at same
    exact Option.some.inj same

/-- **A query for several turns** keeps the mutex exactly if it gets stuck. -/
theorem queryServoAngleMTurn_cases {got : Status × Option Float32}
    (step : queryServoAngleMTurn x servoId w = some (got, w')) :
    w'.exchanges = w.exchanges ∧ Covered w w' ∧
      (Stuck w.holds servoId x ∧ w'.holds = w.holds + 1 ∨
        ¬ Stuck w.holds servoId x ∧ w'.holds = w.holds) := by
  obtain ⟨_, middle, took, rest⟩ := bind_eq_some.mp step
  obtain ⟨rfl, able, rfl⟩ | ⟨rfl, unable, rfl⟩ := take_cases took
  · obtain ⟨⟨statusCode, pkg⟩, last, sent, rest⟩ := bind_eq_some.mp rest
    obtain ⟨received, bytes, rfl⟩ := transact_cases sent
    have covered : Covered w { w with
        holds := w.holds + 1
        events := w.events ++ [.sent (w.holds + 1) bytes, .receive (w.holds + 1)] } :=
      ⟨_, rfl, by simp [Event.holds]⟩
    have stuck : Stuck w.holds servoId x ↔
        statusCode = .success ∧ cell pkg.content 0 ≠ servoId := by
      rw [← foreign_iff received]
      exact and_iff_right able
    have balanced : ∀ {answer : Status × Option Float32} {last : World},
        (do release; return answer : Driver (Status × Option Float32)) last = some (got, w') →
          w' = { last with holds := mutexRelease last.holds } := by
      intro answer last released
      obtain ⟨_, final, done, rest⟩ := bind_eq_some.mp released
      obtain ⟨-, rfl⟩ := Prod.mk.inj (Option.some.inj done)
      exact (pure_eq_some.mp rest).2.symm
    simp only at rest
    split_ifs at rest with success differs
    · obtain ⟨-, rfl⟩ := pure_eq_some.mp rest
      exact ⟨rfl, covered, Or.inl ⟨stuck.mpr ⟨success, differs⟩, rfl⟩⟩
    · obtain rfl := balanced rest
      exact ⟨rfl, covered, Or.inr ⟨fun leaves => differs (stuck.mp leaves).2, rfl⟩⟩
    · obtain rfl := balanced rest
      exact ⟨rfl, covered, Or.inr ⟨fun leaves => success (stuck.mp leaves).1, rfl⟩⟩
  · obtain ⟨-, rfl⟩ := pure_eq_some.mp rest
    refine ⟨rfl, .refl _, Or.inr ⟨fun stuck => ?_, rfl⟩⟩
    rw [stuck.1] at unable
    cases unable

end Operations

/-! ### Operations that wait -/

/-- What an operation with several exchanges leaves behind: it holds the mutex at least as often as
before, and as often exactly if no exchange gets it stuck. -/
structure Outcome (sticks : Exchange → Prop) (w w' : World) : Prop where
  covered : Covered w w'
  more : w.holds ≤ w'.holds
  exchanges : ∃ used, w.exchanges = used ++ w'.exchanges ∧
    (w'.holds = w.holds ↔ ∀ x ∈ used, ¬ sticks x)

/-- The queries for several turns that get stuck. -/
def Sticks (holds : ℕ) (servoId isMturn : UInt8) (x : Exchange) : Prop :=
  isMturn ≠ 0 ∧ Stuck holds servoId x

theorem Outcome.nil (sticks : Exchange → Prop) (w : World) : Outcome sticks w w :=
  ⟨.refl w, le_rfl, [], rfl, by simp⟩

theorem turn_cases {x : Exchange} {servoId isMturn : UInt8} {got : Status × Option Float32}
    {w w' : World}
    (step : waitQuery x servoId isMturn w = some (got, w')) :
    w'.exchanges = w.exchanges ∧ Covered w w' ∧
      (Sticks w.holds servoId isMturn x ∧ w'.holds = w.holds + 1 ∨
        ¬ Sticks w.holds servoId isMturn x ∧ w'.holds = w.holds) := by
  unfold waitQuery at step
  split_ifs at step with several
  · obtain ⟨exchanges, covered, ⟨stuck, holds⟩ | ⟨free, holds⟩⟩ := queryServoAngleMTurn_cases step
    · exact ⟨exchanges, covered, Or.inl ⟨⟨several, stuck⟩, holds⟩⟩
    · exact ⟨exchanges, covered, Or.inr ⟨fun sticks => free sticks.2, holds⟩⟩
  · obtain ⟨holds, exchanges, covered⟩ := queryServoAngle_kept step
    exact ⟨exchanges, covered, Or.inr ⟨fun sticks => several sticks.1, holds⟩⟩

theorem Outcome.turn {x : Exchange} {exchanges : List Exchange} {servoId isMturn : UInt8}
    {w middle w' : World} (next : w.exchanges = x :: exchanges)
    (left : middle.exchanges = exchanges) (covered : Covered w middle)
    (turn : Sticks w.holds servoId isMturn x ∧ middle.holds = w.holds + 1 ∨
      ¬ Sticks w.holds servoId isMturn x ∧ middle.holds = w.holds)
    (rest : Outcome (Sticks middle.holds servoId isMturn) middle w') :
    Outcome (Sticks w.holds servoId isMturn) w w' := by
  obtain ⟨covered', more, used, split, same⟩ := rest
  obtain ⟨sticks, holds⟩ | ⟨free, holds⟩ := turn
  · refine ⟨covered.trans covered', by omega, x :: used, by rw [next, ← left, split]; rfl, ?_⟩
    refine ⟨fun kept => by omega, fun none => ?_⟩
    exact absurd sticks (none x List.mem_cons_self)
  · rw [holds] at same more
    refine ⟨covered.trans covered', more, x :: used, by rw [next, ← left, split]; rfl, ?_⟩
    rw [same, List.forall_mem_cons]
    exact (and_iff_right free).symm

/-- **The loop of `FSUS_Wait`.** -/
theorem waitTurns_outcome {servoId isMturn : UInt8} {targetAngle : Float32} {turns : ℕ} :
    ∀ {angleRead : Option Float32} {status : Status} {w w' : World},
      waitTurns servoId targetAngle isMturn turns angleRead w = some (status, w') →
        Outcome (Sticks w.holds servoId isMturn) w w' := by
  induction turns with
  | zero =>
    intro angleRead status w w' step
    obtain ⟨-, rfl⟩ := pure_eq_some.mp step
    exact .nil _ _
  | succ turns ih =>
    intro angleRead status w w' step
    obtain ⟨x, exchanges, next, step⟩ := exchange_bind step
    obtain ⟨⟨_, angle⟩, middle, query, rest⟩ := bind_eq_some.mp step
    obtain ⟨left, covered, turn⟩ := turn_cases query
    refine Outcome.turn next left covered turn ?_
    simp only at rest
    split_ifs at rest
    · obtain ⟨-, rfl⟩ := pure_eq_some.mp rest
      exact .nil _ _
    · exact ih rest

/-- An answer to a query for several turns: the angle of a servo is zero. -/
def reply (servoId : UInt8) : Exchange where
  granted := true
  sendStart := 0
  pkg := ⟨0, 0, 0, Vector.replicate responseMaxSize 0, 0, 0⟩
  recvStart := 0
  bytes := [0x05, 0x1C, 0x10, 0x05, servoId, 0, 0, 0, 0, 0x36 + servoId]
  stale := 0.0

/-- The query for servo `1`, under a mutex that is taken once. -/
def query : List UInt8 := [0x12, 0x4C, 0x10, 0x01, 0x01, 0x70]

end Robocon.Servo
