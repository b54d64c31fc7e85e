/-
**Stepper motors on a serial line (`motor_emm_v5_driver.c`).**

`stepperLine` is the driver and the line. A command sends its bytes and then waits for an answer
(`emm_wait_for_ack`); the motors put their replies on the line, and the driver takes them byte by
byte until the answer has the length that goes with the command, or until it times out.

* The mutex is held from the command to the end of the waiting; a command that would block is no
  step.
* A byte of a reply may be taken at any time after the reply was put on the line, and the waiting
  may time out at any time: replies may be late.
* A motor is known by its pointer. A float is the number that it represents.
-/

import Robocon.Lib.Run
import Robocon.Lib.Buffer
import Robocon.Lib.Binary32

namespace Robocon.Stepper

open Lib

/-! ### Records -/

/-- A `stepper_motor_t *`. -/
abbrev Pointer := ℕ

/-- `stepper_motor_t`, less the fields that the driver does not touch. -/
structure StepperMotor (K : Type*) where
  stepperMotorId : UInt8
  stepperMotorSpeed : UInt16
  stepperMotorAngle : K

/-- `SysParams_t`, and all values that are not in it. -/
inductive SysParams
  | ver | rl | pid | vbus | cpha | encl | tpos | vel | cpos | perr | flag | conf | state | org
  | other

/-- The calls of the functions `Emm_V5_*`. -/
inductive Command
  | resetCurPosToZero
  | resetClogPro
  | readSysParams (s : SysParams)
  | modifyCtrlMode (svF : Bool) (ctrlMode : UInt8)
  | enControl (state snF : Bool)
  | velControl (dir : UInt8) (vel : UInt16) (acc : UInt8) (snF : Bool)
  | posControl (dir : UInt8) (vel : UInt16) (acc : UInt8) (clk : UInt32) (raF snF : Bool)
  | stopNow (snF : Bool)
  | synchronousMotion
  | originSetO (svF : Bool)
  | originModifyParams (svF : Bool) (oMode oDir : UInt8) (oVel : UInt16) (oTm : UInt32)
      (slVel slMa slMs : UInt16) (potF : Bool)
  | originTriggerReturn (oMode : UInt8) (snF : Bool)
  | originInterrupt

def emmGetCmdReceiveSize (cmd : UInt8) : ℕ := if cmd = 0x35 then 6 else if cmd = 0x36 then 8 else 4

theorem size_pos (cmd : UInt8) : 0 < emmGetCmdReceiveSize cmd := by
  unfold emmGetCmdReceiveSize
  split_ifs <;> decide

theorem size_le (cmd : UInt8) : emmGetCmdReceiveSize cmd ≤ 8 := by
  unfold emmGetCmdReceiveSize
  split_ifs <;> decide

/-- A reply: address, function code, payload and `6B`. The payloads of speed and position have fixed
lengths. -/
structure Reply where
  address : UInt8
  code : UInt8
  payload : List UInt8
  size : code = 0x35 ∨ code = 0x36 → payload.length + 3 = emmGetCmdReceiveSize code

/-- The bytes of a reply. -/
def Reply.bytes (r : Reply) : List UInt8 := r.address :: r.code :: (r.payload ++ [0x6B])

/-- The variables of `emm_wait_for_ack`. -/
structure Reader where
  motor : Pointer
  cmd : UInt8
  index : ℕ

/-- The driver and its line: of the oldest reply on it, some bytes have been taken. -/
structure Line (K : Type*) where
  motors : Pointer → StepperMotor K
  rxBuf : Vector UInt8 64
  reader : Option Reader
  replies : List Reply
  passed : ℕ

/-- What happens at the driver. -/
inductive Input
  | command (motor : Pointer) (c : Command)
  | reply (r : Reply)
  | take
  | timeout

/-- What the driver sends, and the fields that it sets. -/
inductive Event (K : Type*)
  | sent (bytes : List UInt8)
  | speed (motor : Pointer) (value : UInt16)
  | angle (motor : Pointer) (value : K)

/-! ### Commands -/

/-- The bytes of a command after its function code. -/
def SysParams.code : SysParams → List UInt8
  | ver => [0x1F]
  | rl => [0x20]
  | pid => [0x21]
  | vbus => [0x24]
  | cpha => [0x27]
  | encl => [0x31]
  | tpos => [0x33]
  | vel => [0x35]
  | cpos => [0x36]
  | perr => [0x37]
  | flag => [0x3A]
  | org => [0x3B]
  | conf => [0x42, 0x6C]
  | state => [0x43, 0x7A]
  | other => []

/-- The high and the low byte of a word. -/
def bytesOf16 (word : UInt16) : List UInt8 := [(word >>> 8).toUInt8, (word >>> 0).toUInt8]

/-- The bytes of a long word, the high one first. -/
def bytesOf32 (word : UInt32) : List UInt8 :=
  [(word >>> 24).toUInt8, (word >>> 16).toUInt8, (word >>> 8).toUInt8, (word >>> 0).toUInt8]

/-- What the functions `Emm_V5_*` load into `cmd`, after the address. -/
def Command.load : Command → List UInt8
  | resetCurPosToZero => [0x0A, 0x6D, 0x6B]
  | resetClogPro => [0x0E, 0x52, 0x6B]
  | readSysParams s => s.code ++ [0x6B]
  | modifyCtrlMode svF ctrlMode => [0x46, 0x69, svF.toUInt8, ctrlMode, 0x6B]
  | enControl state snF => [0xF3, 0xAB, state.toUInt8, snF.toUInt8, 0x6B]
  | velControl dir vel acc snF => [0xF6, dir] ++ bytesOf16 vel ++ [acc, snF.toUInt8, 0x6B]
  | posControl dir vel acc clk raF snF =>
    [0xFD, dir] ++ bytesOf16 vel ++ [acc] ++ bytesOf32 clk ++ [raF.toUInt8, snF.toUInt8, 0x6B]
  | stopNow snF => [0xFE, 0x98, snF.toUInt8, 0x6B]
  | synchronousMotion => [0xFF, 0x66, 0x6B]
  | originSetO svF => [0x93, 0x88, svF.toUInt8, 0x6B]
  | originModifyParams svF oMode oDir oVel oTm slVel slMa slMs potF =>
    [0x4C, 0xAE, svF.toUInt8, oMode, oDir] ++ bytesOf16 oVel ++ bytesOf32 oTm ++ bytesOf16 slVel ++
      bytesOf16 slMa ++ bytesOf16 slMs ++ [potF.toUInt8, 0x6B]
  | originTriggerReturn oMode snF => [0x9A, oMode, snF.toUInt8, 0x6B]
  | originInterrupt => [0x9C, 0x48, 0x6B]

section Driver

variable {K : Type*}

/-- A field is set. -/
def record (motors : Pointer → StepperMotor K) : Event K → Pointer → StepperMotor K
  | .sent _ => motors
  | .speed m value => Function.update motors m { motors m with stepperMotorSpeed := value }
  | .angle m value => Function.update motors m { motors m with stepperMotorAngle := value }

namespace Line

/-- Before the first command. -/
def initial (motors : Pointer → StepperMotor K) : Line K where
  motors := motors
  rxBuf := Vector.replicate 64 0
  reader := none
  replies := []
  passed := 0

variable (l : Line K)

/-- The bytes in `cmd`. -/
def bytes (motor : Pointer) (c : Command) : List UInt8 := (l.motors motor).stepperMotorId :: c.load

/-- A function `Emm_V5_*`, up to the waiting: the mutex is taken, and `cmd` is sent. -/
def emmTransmit (motor : Pointer) (c : Command) : Option (Line K × List (Event K)) :=
  match l.reader with
  | some _ => none
  | none =>
    let cmd := l.bytes motor c
    some ({ l with reader := some ⟨motor, cmd.getD 1 0, 0⟩ }, [.sent cmd])

/-- The next byte that `rt_device_read` gives, and the line after it. -/
def read : Option (UInt8 × Line K) :=
  match l.replies with
  | [] => none
  | r :: rest =>
    (r.bytes[l.passed]?).map fun ch =>
      (ch, if l.passed + 1 < r.bytes.length then { l with passed := l.passed + 1 }
        else { l with replies := rest, passed := 0 })

end Line

theorem read_eq {l last : Line K} {ch : UInt8} (taken : l.read = some (ch, last)) :
    ∃ r rest, l.replies = r :: rest ∧ r.bytes[l.passed]? = some ch ∧
      last = if l.passed + 1 < r.bytes.length then { l with passed := l.passed + 1 }
        else { l with replies := rest, passed := 0 } := by
  unfold Line.read at taken
  split at taken
  · cases taken
  · rename_i r rest replies
    obtain ⟨_, here, same⟩ := Option.map_eq_some_iff.mp taken
    obtain ⟨rfl, rfl⟩ := Prod.mk.inj same
    exact ⟨r, rest, replies, here, rfl⟩

/-! ### Answers -/

variable [Field K] [LinearOrder K] [FloorRing K]

/-- The speed in an answer. -/
def speedOf (buf : ℕ → UInt8) : UInt16 :=
  let vel := (buf 3).toUInt16 <<< 8 ||| (buf 4).toUInt16 <<< 0
  if buf 2 ≠ 0 then -vel else vel

/-- The angle in an answer. -/
def angleOf (buf : ℕ → UInt8) : K :=
  let pos := (buf 3).toUInt32 <<< 24 ||| (buf 4).toUInt32 <<< 16 ||| (buf 5).toUInt32 <<< 8 |||
    (buf 6).toUInt32 <<< 0
  let angle := binary32 (binary32 (binary32 (pos.toNat : K) * (360 : ℕ)) / (65536 : ℕ))
  if buf 2 ≠ 0 then -angle else angle

/-- `emm_cmd_ana`: the fields that are set. -/
def emmCmdAna (motor : Pointer) (cmd : UInt8) (buf : ℕ → UInt8) : List (Event K) :=
  if cmd = 0x35 then if buf 1 = 0x35 then [.speed motor (speedOf buf)] else []
  else if cmd = 0x36 then if buf 1 = 0x36 then [.angle motor (angleOf buf)] else []
  else []

/-- One turn of the loop of `emm_wait_for_ack` with a byte. -/
def Line.received (l : Line K) (rd : Reader) (ch : UInt8) : Option (Line K × List (Event K)) :=
  if inside : rd.index < 64 then
    let buf := l.rxBuf.set rd.index ch inside
    if rd.index + 1 ≥ emmGetCmdReceiveSize rd.cmd then
      let events := emmCmdAna rd.motor rd.cmd (cell buf)
      some ({ l with rxBuf := buf, reader := none, motors := events.foldl record l.motors }, events)
    else some ({ l with rxBuf := buf, reader := some { rd with index := rd.index + 1 } }, [])
  else none

theorem received_eq {l : Line K} {rd : Reader} (inside : rd.index < 64) (ch : UInt8) :
    l.received rd ch =
      if rd.index + 1 ≥ emmGetCmdReceiveSize rd.cmd then
        let events := emmCmdAna rd.motor rd.cmd (cell (l.rxBuf.set rd.index ch inside))
        some ({ l with
          rxBuf := l.rxBuf.set rd.index ch inside
          reader := none
          motors := events.foldl record l.motors }, events)
      else some ({ l with
        rxBuf := l.rxBuf.set rd.index ch inside
        reader := some { rd with index := rd.index + 1 } }, []) := dif_pos inside

/-- The driver and the line. -/
def stepperLine : Machine (Line K) Input (Event K) where
  step l
    | .command motor c => l.emmTransmit motor c
    | .reply r => some ({ l with replies := l.replies ++ [r] }, [])
    | .take => l.reader.bind fun rd => l.read.bind fun taken => taken.2.received rd taken.1
    | .timeout => l.reader.map fun _ => ({ l with reader := none }, [])

end Driver

end Robocon.Stepper
