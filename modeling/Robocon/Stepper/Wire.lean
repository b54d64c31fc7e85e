/-
**The commands of the steppers on the wire.**

The bytes of a command carry no length. `decode` is the receiving end: it reads the address and the
function code, and from that knows what follows.

* `decode_bytes` — every command is read back, whatever follows it.
* `wire_decoded` — in every run of the line, the bytes that the driver has sent are read as the
  commands that were given, in their order and with the addresses of their motors.
-/

import Robocon.Lib.Coding
import Robocon.Lib.Words
import Robocon.Stepper.Line

namespace Robocon.Stepper

open Lib

/-! ### The receiving end -/

/-- A parameter that is read, by its function code. Two codes have a second byte, and `6B` alone is
the code of no parameter. -/
def SysParams.ofCode (code : UInt8) : List UInt8 → Option (SysParams × List UInt8)
  | 0x6C :: 0x6B :: rest => if code = 0x42 then some (conf, rest) else none
  | 0x7A :: 0x6B :: rest => if code = 0x43 then some (state, rest) else none
  | 0x6B :: rest =>
    if code = 0x1F then some (ver, rest)
    else if code = 0x20 then some (rl, rest)
    else if code = 0x21 then some (pid, rest)
    else if code = 0x24 then some (vbus, rest)
    else if code = 0x27 then some (cpha, rest)
    else if code = 0x31 then some (encl, rest)
    else if code = 0x33 then some (tpos, rest)
    else if code = 0x35 then some (vel, rest)
    else if code = 0x36 then some (cpos, rest)
    else if code = 0x37 then some (perr, rest)
    else if code = 0x3A then some (flag, rest)
    else if code = 0x3B then some (org, rest)
    else none
  | _ => none

/-- Two bytes as a word, the high one first. -/
def word16 (high low : UInt8) : UInt16 := high.toUInt16 <<< 8 ||| low.toUInt16

/-- Four bytes as a long word, the high one first. -/
def word32 (a b c d : UInt8) : UInt32 :=
  a.toUInt32 <<< 24 ||| b.toUInt32 <<< 16 ||| c.toUInt32 <<< 8 ||| d.toUInt32

theorem word16_bytesOf16 (word : UInt16) :
    word16 (word >>> 8).toUInt8 (word >>> 0).toUInt8 = word := by
  rw [word16, UInt16.shiftRight_zero]
  exact join16 word

theorem word32_bytesOf32 (word : UInt32) :
    word32 (word >>> 24).toUInt8 (word >>> 16).toUInt8 (word >>> 8).toUInt8 (word >>> 0).toUInt8 =
      word := by
  rw [word32, UInt32.shiftRight_zero]
  exact join32 word

/-- A command, by its function code. -/
def Command.ofCode (code : UInt8) (text : List UInt8) : Option (Command × List UInt8) :=
  match code, text with
  | 0x6B, rest => some (.readSysParams .other, rest)
  | 0x0A, 0x6D :: 0x6B :: rest => some (.resetCurPosToZero, rest)
  | 0x0E, 0x52 :: 0x6B :: rest => some (.resetClogPro, rest)
  | 0x46, 0x69 :: svF :: ctrlMode :: 0x6B :: rest => some (.modifyCtrlMode (svF ≠ 0) ctrlMode, rest)
  | 0xF3, 0xAB :: state :: snF :: 0x6B :: rest => some (.enControl (state ≠ 0) (snF ≠ 0), rest)
  | 0xF6, dir :: v₁ :: v₀ :: acc :: snF :: 0x6B :: rest =>
    some (.velControl dir (word16 v₁ v₀) acc (snF ≠ 0), rest)
  | 0xFD, dir :: v₁ :: v₀ :: acc :: c₃ :: c₂ :: c₁ :: c₀ :: raF :: snF :: 0x6B :: rest =>
    some (.posControl dir (word16 v₁ v₀) acc (word32 c₃ c₂ c₁ c₀) (raF ≠ 0) (snF ≠ 0), rest)
  | 0xFE, 0x98 :: snF :: 0x6B :: rest => some (.stopNow (snF ≠ 0), rest)
  | 0xFF, 0x66 :: 0x6B :: rest => some (.synchronousMotion, rest)
  | 0x93, 0x88 :: svF :: 0x6B :: rest => some (.originSetO (svF ≠ 0), rest)
  | 0x4C, 0xAE :: svF :: oMode :: oDir :: v₁ :: v₀ :: t₃ :: t₂ :: t₁ :: t₀ :: a₁ :: a₀ :: b₁ :: b₀ ::
      c₁ :: c₀ :: potF :: 0x6B :: rest =>
    some (.originModifyParams (svF ≠ 0) oMode oDir (word16 v₁ v₀) (word32 t₃ t₂ t₁ t₀)
      (word16 a₁ a₀) (word16 b₁ b₀) (word16 c₁ c₀) (potF ≠ 0), rest)
  | 0x9A, oMode :: snF :: 0x6B :: rest => some (.originTriggerReturn oMode (snF ≠ 0), rest)
  | 0x9C, 0x48 :: 0x6B :: rest => some (.originInterrupt, rest)
  | code, text => (SysParams.ofCode code text).map fun read => (.readSysParams read.1, read.2)

/-- The next command on the wire, with the address of its motor. -/
def decode : List UInt8 → Option ((UInt8 × Command) × List UInt8)
  | address :: code :: text =>
    (Command.ofCode code text).map fun read => ((address, read.1), read.2)
  | _ => none

/-- The bytes of a command for an address. -/
def encode (sent : UInt8 × Command) : List UInt8 := sent.1 :: sent.2.load

@[simp] theorem toUInt8_ne_zero (flag : Bool) : decide (flag.toUInt8 ≠ 0) = flag := by
  cases flag <;> rfl

/-- **Every command is read back.** -/
theorem decode_encode (address : UInt8) (c : Command) (rest : List UInt8) :
    decode (encode (address, c) ++ rest) = some ((address, c), rest) := by
  cases c with
  | resetCurPosToZero => rfl
  | resetClogPro => rfl
  | readSysParams s => cases s <;> rfl
  | modifyCtrlMode svF ctrlMode => cases svF <;> rfl
  | enControl state snF => cases state <;> cases snF <;> rfl
  | velControl dir vel acc snF =>
    have read : decode (encode (address, .velControl dir vel acc snF) ++ rest) =
        some ((address, .velControl dir (word16 (vel >>> 8).toUInt8 (vel >>> 0).toUInt8) acc
          (decide (snF.toUInt8 ≠ 0))), rest) := rfl
    rw [read, word16_bytesOf16, toUInt8_ne_zero]
  | posControl dir vel acc clk raF snF =>
    have read : decode (encode (address, .posControl dir vel acc clk raF snF) ++ rest) =
        some ((address, .posControl dir (word16 (vel >>> 8).toUInt8 (vel >>> 0).toUInt8) acc
          (word32 (clk >>> 24).toUInt8 (clk >>> 16).toUInt8 (clk >>> 8).toUInt8
            (clk >>> 0).toUInt8) (decide (raF.toUInt8 ≠ 0)) (decide (snF.toUInt8 ≠ 0))), rest) :=
      rfl
    rw [read, word16_bytesOf16, word32_bytesOf32, toUInt8_ne_zero, toUInt8_ne_zero]
  | stopNow snF => cases snF <;> rfl
  | synchronousMotion => rfl
  | originSetO svF => cases svF <;> rfl
  | originModifyParams svF oMode oDir oVel oTm slVel slMa slMs potF =>
    have read : decode (encode (address,
          .originModifyParams svF oMode oDir oVel oTm slVel slMa slMs potF) ++ rest) =
        some ((address, .originModifyParams (decide (svF.toUInt8 ≠ 0)) oMode oDir
          (word16 (oVel >>> 8).toUInt8 (oVel >>> 0).toUInt8)
          (word32 (oTm >>> 24).toUInt8 (oTm >>> 16).toUInt8 (oTm >>> 8).toUInt8
            (oTm >>> 0).toUInt8)
          (word16 (slVel >>> 8).toUInt8 (slVel >>> 0).toUInt8)
          (word16 (slMa >>> 8).toUInt8 (slMa >>> 0).toUInt8)
          (word16 (slMs >>> 8).toUInt8 (slMs >>> 0).toUInt8)
          (decide (potF.toUInt8 ≠ 0))), rest) := rfl
    rw [read, word16_bytesOf16, word16_bytesOf16, word16_bytesOf16, word16_bytesOf16,
      word32_bytesOf32, toUInt8_ne_zero, toUInt8_ne_zero]
  | originTriggerReturn oMode snF => cases snF <;> rfl
  | originInterrupt => rfl

theorem reads : Reads decode encode where
  round sent rest := decode_encode sent.1 sent.2 rest
  nonempty _ := List.cons_ne_nil _ _

/-! ### The line -/

section Wire

variable {K : Type*}

/-- The bytes that go onto the wire. -/
def Event.bytes : Event K → List UInt8
  | .sent bytes => bytes
  | _ => []

/-- The commands that are given, with the addresses of their motors. -/
def Input.given (address : Pointer → UInt8) : Input → List (UInt8 × Command)
  | .command motor c => [(address motor, c)]
  | _ => []

/-- The addresses of the motors. -/
def Line.address (l : Line K) (motor : Pointer) : UInt8 := (l.motors motor).stepperMotorId

theorem record_address (motors : Pointer → StepperMotor K) (event : Event K) (motor : Pointer) :
    (record motors event motor).stepperMotorId = (motors motor).stepperMotorId := by
  cases event with
  | sent bytes => rfl
  | speed m value =>
    show (Function.update motors m _ motor).stepperMotorId = _
    by_cases same : motor = m
    · subst same
      rw [Function.update_self]
    · rw [Function.update_of_ne same]
  | angle m value =>
    show (Function.update motors m _ motor).stepperMotorId = _
    by_cases same : motor = m
    · subst same
      rw [Function.update_self]
    · rw [Function.update_of_ne same]

theorem records_address (events : List (Event K)) : ∀ (motors : Pointer → StepperMotor K)
    (motor : Pointer),
    (events.foldl record motors motor).stepperMotorId = (motors motor).stepperMotorId := by
  induction events with
  | nil => exact fun _ _ => rfl
  | cons event events ih =>
    intro motors motor
    rw [List.foldl_cons, ih, record_address]

variable [Field K] [LinearOrder K] [FloorRing K]

theorem emmCmdAna_bytes (motor : Pointer) (cmd : UInt8) (buf : ℕ → UInt8) :
    (emmCmdAna (K := K) motor cmd buf).flatMap Event.bytes = [] := by
  unfold emmCmdAna
  split_ifs <;> rfl

/-- **One step** sends the bytes of the command that is given, and keeps the addresses. -/
theorem wire_step {l l' : Line K} {input : Input} {outs : List (Event K)}
    (step : stepperLine.step l input = some (l', outs)) :
    outs.flatMap Event.bytes = (input.given l.address).flatMap encode ∧ l'.address = l.address := by
  cases input with
  | command motor c =>
    have sent : l.emmTransmit motor c = some (l', outs) := step
    unfold Line.emmTransmit at sent
    split at sent
    · cases sent
    · obtain ⟨rfl, rfl⟩ := Prod.mk.inj (Option.some.inj sent)
      exact ⟨rfl, rfl⟩
  | reply r =>
    obtain ⟨rfl, rfl⟩ := Prod.mk.inj (Option.some.inj step)
    exact ⟨rfl, rfl⟩
  | take =>
    obtain ⟨rd, waiting, rest⟩ := Option.bind_eq_some_iff.mp step
    obtain ⟨⟨ch, last⟩, taken, received⟩ := Option.bind_eq_some_iff.mp rest
    have same : last.motors = l.motors := by
      obtain ⟨r, rest, -, -, done⟩ := read_eq taken
      rw [done]
      split <;> rfl
    have received : last.received rd ch = some (l', outs) := received
    by_cases inside : rd.index < 64
    · rw [received_eq inside] at received
      split at received
      · obtain ⟨rfl, rfl⟩ := Prod.mk.inj (Option.some.inj received)
        refine ⟨emmCmdAna_bytes _ _ _, funext fun motor => ?_⟩
        show (List.foldl record last.motors _ motor).stepperMotorId = _
        rw [records_address, same]
        rfl
      · obtain ⟨rfl, rfl⟩ := Prod.mk.inj (Option.some.inj received)
        refine ⟨rfl, funext fun motor => ?_⟩
        show (last.motors motor).stepperMotorId = _
        rw [same]
        rfl
    · rw [Line.received, dif_neg inside] at received
      cases received
  | timeout =>
    obtain ⟨rd, -, done⟩ := Option.map_eq_some_iff.mp step
    obtain ⟨rfl, rfl⟩ := Prod.mk.inj done
    exact ⟨rfl, rfl⟩

/-- **The wire is read back.** In every run of the line, whatever the motors reply and whenever, the
bytes that were sent are read as the commands that were given, in their order, each with the address
of its motor. -/
theorem wire_decoded {l l' : Line K} {inputs : List Input} {outs : List (Event K)}
    (run : stepperLine.Run l inputs outs l') :
    decodeAll decode (outs.flatMap Event.bytes).length (outs.flatMap Event.bytes) =
      some (inputs.flatMap (Input.given l.address)) := by
  have sent : outs.flatMap Event.bytes = (inputs.flatMap (Input.given l.address)).flatMap encode ∧
      l'.address = l.address := by
    refine run.trace (fun past seen l' => seen.flatMap Event.bytes =
      (past.flatMap (Input.given l.address)).flatMap encode ∧ l'.address = l.address) ?_ [] []
      ⟨rfl, rfl⟩
    rintro past seen middle input next output - ⟨sent, same⟩ step
    obtain ⟨here, kept⟩ := wire_step step
    rw [same] at here
    rw [List.flatMap_append, List.flatMap_append, List.flatMap_append, List.flatMap_singleton,
      sent, here]
    exact ⟨rfl, kept.trans same⟩
  rw [sent.1]
  exact reads.decodeAll_encode _ le_rfl

end Wire

/-- Two motors, at the addresses 1 and 2. -/
def pairLine : Line ℚ := .initial fun motor => ⟨if motor = 0 then 1 else 2, 0, 0⟩

/-- A speed for the one, and when it does not answer a stop for the other. -/
theorem wire_decoded_two : ∃ outs l',
    stepperLine.Run pairLine
      [.command 0 (.velControl 1 500 10 false), .timeout, .command 1 (.stopNow true)] outs l' ∧
    decodeAll decode (outs.flatMap Event.bytes).length (outs.flatMap Event.bytes) =
      some [(1, .velControl 1 500 10 false), (2, .stopNow true)] := by
  obtain ⟨outs, l', run, -⟩ := Machine.exists_run stepperLine (fun _ _ => True) pairLine
    [.command 0 (.velControl 1 500 10 false), .timeout, .command 1 (.stopNow true)]
    (fun _ _ => true) (by decide +kernel)
  exact ⟨outs, l', run, wire_decoded run⟩

end Robocon.Stepper
