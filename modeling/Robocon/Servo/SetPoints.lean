/-
**Set-points on the wire.**

The six functions `FSUS_SetServoAngle*` clamp their arguments and pack them into a content. They are
written here over any `Arithmetic`: `float32` is that of the code, and `exact` that of a field.

* `call_eq`, `call_sends` — with `float32`, these are the functions of the driver.
* `SetPoint.content` — the content that a call sends.
* `fieldAt`, `signedAt` — a field of a content, read with the low byte first.
* `clamped_iff` — with `exact`, the fields are the clamped arguments exactly if the interval of
  `FSUS_SetServoAngleMTurn` is at most `4096000`.

With a longer one, that function sets the angle where its sibling sets the interval
(`long_interval`).
-/

import Robocon.Lib.Trunc
import Robocon.Lib.Words
import Robocon.Servo.Framing
import Robocon.Servo.Driver

namespace Robocon.Servo

open Lib Driver

/-! ### The functions -/

/-- What the functions compute with. -/
structure Arithmetic (K : Type*) where
  less : K → K → Bool
  number : ℤ → K
  tenfold : K → K
  toInt16 : K → Int16
  toInt32 : K → Int32
  toUInt16 : K → UInt16

/-- The single precision. -/
def float32 : Arithmetic Float32 where
  less x y := decide (x < y)
  number := Float32.ofInt
  tenfold x := 10.0 * x
  toInt16 := Float32.toInt16
  toInt32 := Float32.toInt32
  toUInt16 := Float32.toUInt16

/-- Exact arithmetic. The casts truncate; they are met with numbers that fit only. -/
def exact (K : Type*) [Field K] [LinearOrder K] [FloorRing K] : Arithmetic K where
  less x y := decide (x < y)
  number n := n
  tenfold x := 10 * x
  toInt16 x := Int16.ofInt (trunc x)
  toInt32 x := Int32.ofInt (trunc x)
  toUInt16 x := UInt16.ofNat (trunc x).toNat

/-- A call that sets an angle. -/
inductive SetPoint (K : Type*)
  | setServoAngle (servoId : UInt8) (angle : K) (interval power : UInt16)
  | setServoAngleByInterval (servoId : UInt8) (angle : K) (interval tAcc tDec power : UInt16)
  | setServoAngleByVelocity (servoId : UInt8) (angle velocity : K) (tAcc tDec power : UInt16)
  | setServoAngleMTurn (servoId : UInt8) (angle : K) (interval : UInt32) (power : UInt16)
  | setServoAngleMTurnByInterval (servoId : UInt8) (angle : K) (interval : UInt32)
      (tAcc tDec power : UInt16)
  | setServoAngleMTurnByVelocity (servoId : UInt8) (angle velocity : K) (tAcc tDec power : UInt16)

section Arithmetic

variable {K : Type*} (a : Arithmetic K)

/-- The two comparisons with the bounds. -/
def Arithmetic.clamp (low high : ℤ) (value : K) : K :=
  if a.less (a.number high) value then a.number high
  else if a.less value (a.number low) then a.number low
  else value

/-- `(int16_t)(10 * angle)`. -/
def Arithmetic.tenths16 (angle : K) : List UInt8 := word (a.toInt16 (a.tenfold angle)).toUInt16

/-- `(int32_t)(10 * angle)`. -/
def Arithmetic.tenths32 (angle : K) : List UInt8 := longWord (a.toInt32 (a.tenfold angle)).toUInt32

/-- `(uint16_t)(10 * velocity)`. -/
def Arithmetic.velocity16 (velocity : K) : List UInt8 := word (a.toUInt16 (a.tenfold velocity))

namespace SetPoint

/-- The command of a call. -/
def cmdId : SetPoint K → UInt8
  | setServoAngle .. => 8
  | setServoAngleByInterval .. => 11
  | setServoAngleByVelocity .. => 12
  | setServoAngleMTurn .. => 13
  | setServoAngleMTurnByInterval .. => 14
  | setServoAngleMTurnByVelocity .. => 15

/-- The servo of a call. -/
def servoId : SetPoint K → UInt8
  | setServoAngle servoId .. => servoId
  | setServoAngleByInterval servoId .. => servoId
  | setServoAngleByVelocity servoId .. => servoId
  | setServoAngleMTurn servoId .. => servoId
  | setServoAngleMTurnByInterval servoId .. => servoId
  | setServoAngleMTurnByVelocity servoId .. => servoId

/-- The flag of `FSUS_Wait`. -/
def isMturn : SetPoint K → UInt8
  | setServoAngle .. => 0
  | setServoAngleByInterval .. => 0
  | setServoAngleByVelocity .. => 0
  | setServoAngleMTurn .. => 1
  | setServoAngleMTurnByInterval .. => 1
  | setServoAngleMTurnByVelocity .. => 1

/-- `angle` after the bounds. A long interval sets it in `FSUS_SetServoAngleMTurn`. -/
def target : SetPoint K → K
  | setServoAngle _ angle .. => a.clamp (-180) 180 angle
  | setServoAngleByInterval _ angle .. => a.clamp (-180) 180 angle
  | setServoAngleByVelocity _ angle .. => a.clamp (-180) 180 angle
  | setServoAngleMTurn _ angle interval _ =>
    let angle := a.clamp (-368640) 368640 angle
    if 4096000 < interval then a.number 4096000 else angle
  | setServoAngleMTurnByInterval _ angle .. => a.clamp (-368640) 368640 angle
  | setServoAngleMTurnByVelocity _ angle .. => a.clamp (-368640) 368640 angle

/-- The fields after the servo. -/
def fields (s : SetPoint K) : List UInt8 :=
  match s with
  | setServoAngle _ _ interval power => a.tenths16 (s.target a) ++ word interval ++ word power
  | setServoAngleByInterval _ _ interval tAcc tDec power =>
    a.tenths16 (s.target a) ++ word interval ++ word (max 20 tAcc) ++ word (max 20 tDec) ++
      word power
  | setServoAngleByVelocity _ _ velocity tAcc tDec power =>
    a.tenths16 (s.target a) ++ a.velocity16 (a.clamp 1 750 velocity) ++ word (max 20 tAcc) ++
      word (max 20 tDec) ++ word power
  | setServoAngleMTurn _ _ interval power =>
    a.tenths32 (s.target a) ++ longWord interval ++ word power
  | setServoAngleMTurnByInterval _ _ interval tAcc tDec power =>
    a.tenths32 (s.target a) ++ longWord (min 4096000 interval) ++ word (max 20 tAcc) ++
      word (max 20 tDec) ++ word power
  | setServoAngleMTurnByVelocity _ _ velocity tAcc tDec power =>
    a.tenths32 (s.target a) ++ a.velocity16 (a.clamp 1 750 velocity) ++ word (max 20 tAcc) ++
      word (max 20 tDec) ++ word power

/-- The content that is sent. -/
def content (s : SetPoint K) : List UInt8 := s.servoId :: s.fields a

/-- The bytes on the wire. -/
def wire (start : UInt8) (s : SetPoint K) : Option (List UInt8) :=
  sendPackage start s.cmdId (UInt8.ofNat (s.content a).length) (s.content a)

end SetPoint

end Arithmetic

/-! ### The functions of the driver -/

/-- The function of the driver that a call is of. -/
def SetPoint.call (x : Exchange) (wait : UInt8) : SetPoint Float32 → Driver Status
  | setServoAngle servoId angle interval power =>
    Servo.setServoAngle x servoId angle interval power wait
  | setServoAngleByInterval servoId angle interval tAcc tDec power =>
    Servo.setServoAngleByInterval x servoId angle interval tAcc tDec power wait
  | setServoAngleByVelocity servoId angle velocity tAcc tDec power =>
    Servo.setServoAngleByVelocity x servoId angle velocity tAcc tDec power wait
  | setServoAngleMTurn servoId angle interval power =>
    Servo.setServoAngleMTurn x servoId angle interval power wait
  | setServoAngleMTurnByInterval servoId angle interval tAcc tDec power =>
    Servo.setServoAngleMTurnByInterval x servoId angle interval tAcc tDec power wait
  | setServoAngleMTurnByVelocity servoId angle velocity tAcc tDec power =>
    Servo.setServoAngleMTurnByVelocity x servoId angle velocity tAcc tDec power wait

section Call

variable (value : Float32)

theorem clamp_float (low high : ℤ) :
    float32.clamp low high value = clamp (.ofInt low) (.ofInt high) value := by
  simp only [Arithmetic.clamp, clamp, float32, decide_eq_true_eq]

theorem clamp_single : float32.clamp (-180) 180 value = clamp (-180.0) 180.0 value := by
  have bounds : Float32.ofInt (-180) = -180.0 ∧ Float32.ofInt 180 = 180.0 := by decide +kernel
  rw [clamp_float, bounds.1, bounds.2]

theorem clamp_several :
    float32.clamp (-368640) 368640 value = clamp (-368640.0) 368640.0 value := by
  have bounds : Float32.ofInt (-368640) = -368640.0 ∧ Float32.ofInt 368640 = 368640.0 := by
    decide +kernel
  rw [clamp_float, bounds.1, bounds.2]

theorem clamp_velocity : float32.clamp 1 750 value = clamp 1.0 750.0 value := by
  have bounds : Float32.ofInt 1 = 1.0 ∧ Float32.ofInt 750 = 750.0 := by decide +kernel
  rw [clamp_float, bounds.1, bounds.2]

/-- **The calls of the driver** send these contents, and wait for these angles. -/
theorem call_eq (x : Exchange) (s : SetPoint Float32) (wait : UInt8) :
    s.call x wait = do
      if ← request x s.cmdId (s.content float32) then
        if wait ≠ 0 then Servo.wait s.servoId (s.target float32) s.isMturn else return .success
      else return .timeout := by
  have long : Float32.ofInt 4096000 = 4096000.0 := by decide +kernel
  have number : float32.number 4096000 = 4096000.0 := long
  cases s <;>
    simp only [SetPoint.call, SetPoint.content, SetPoint.fields, SetPoint.target, clamp_single,
      clamp_several, clamp_velocity, number] <;> rfl

end Call

theorem request_sends {x : Exchange} {cmdId : UInt8} {content : List UInt8} {taken : Bool}
    {w w' : World} (asked : (mutexTake w.holds x.granted).isSome = true)
    (step : request x cmdId content w = some (taken, w')) :
    taken = true ∧ ∃ bytes,
      sendPackage x.sendStart cmdId (UInt8.ofNat content.length) content = some bytes ∧
        w'.events = w.events ++ [.sent (w.holds + 1) bytes] := by
  obtain ⟨_, middle, took, rest⟩ := bind_eq_some.mp step
  obtain ⟨rfl, -, rfl⟩ | ⟨rfl, unable, rfl⟩ := take_cases took
  · obtain ⟨_, last, sent, rest⟩ := bind_eq_some.mp rest
    obtain ⟨bytes, sends, done⟩ := Option.map_eq_some_iff.mp sent
    obtain ⟨-, rfl⟩ := Prod.mk.inj done
    obtain ⟨_, final, released, done⟩ := bind_eq_some.mp rest
    obtain ⟨-, rfl⟩ := Prod.mk.inj (Option.some.inj released)
    obtain ⟨rfl, rfl⟩ := pure_eq_some.mp done
    exact ⟨rfl, bytes, sends, rfl⟩
  · rw [asked] at unable
    cases unable

/-- **A call that takes the mutex** puts its frame on the wire. -/
theorem call_sends {x : Exchange} {s : SetPoint Float32} {wait : UInt8} {status : Status}
    {w w' : World} (asked : (mutexTake w.holds x.granted).isSome = true)
    (step : s.call x wait w = some (status, w')) :
    ∃ bytes, s.wire float32 x.sendStart = some bytes ∧ .sent (w.holds + 1) bytes ∈ w'.events := by
  rw [call_eq] at step
  obtain ⟨taken, middle, sent, rest⟩ := bind_eq_some.mp step
  obtain ⟨rfl, bytes, sends, events⟩ := request_sends asked sent
  have member : .sent (w.holds + 1) bytes ∈ middle.events := by
    rw [events]
    exact List.mem_append_right _ (List.mem_singleton_self _)
  refine ⟨bytes, sends, ?_⟩
  rw [if_pos rfl] at rest
  split_ifs at rest
  · obtain ⟨later, same, -⟩ := (waitTurns_outcome rest).covered
    rw [same]
    exact List.mem_append_left _ member
  · obtain ⟨-, rfl⟩ := pure_eq_some.mp rest
    exact member

/-! ### Reading a content -/

/-- The field of a content at some offset. -/
def fieldAt (content : List UInt8) (offset width : ℕ) : ℕ :=
  littleEndian ((content.drop offset).take width)

/-- The signed field of a content at some offset. -/
def signedAt (content : List UInt8) (offset width : ℕ) : ℤ :=
  Int.bmod (fieldAt content offset width) (256 ^ width)

section Fields

variable (rest : List UInt8) (offset width : ℕ)

@[simp] theorem fieldAt_cons (byte : UInt8) :
    fieldAt (byte :: rest) (offset + 1) width = fieldAt rest offset width := rfl

@[simp] theorem fieldAt_word (value : UInt16) : fieldAt (word value ++ rest) 0 2 = value.toNat :=
  littleEndian16 value

@[simp] theorem fieldAt_last (value : UInt16) : fieldAt (word value) 0 2 = value.toNat :=
  littleEndian16 value

@[simp] theorem fieldAt_longWord (value : UInt32) :
    fieldAt (longWord value ++ rest) 0 4 = value.toNat :=
  littleEndian32 value

@[simp] theorem fieldAt_after_word (value : UInt16) :
    fieldAt (word value ++ rest) (offset + 2) width = fieldAt rest offset width := rfl

@[simp] theorem fieldAt_after_longWord (value : UInt32) :
    fieldAt (longWord value ++ rest) (offset + 4) width = fieldAt rest offset width := rfl

end Fields

/-- The content of a frame. -/
def payload (bytes : List UInt8) : List UInt8 := (bytes.drop 4).dropLast

section Exact

variable {K : Type*} [Field K] [LinearOrder K] [FloorRing K]

/-- A number between two bounds. -/
def clampTo (low high : ℤ) (value : K) : K := max (low : K) (min (high : K) value)

/-- The fields of a content are the clamped arguments. -/
def SetPoint.Decodes (content : List UInt8) : SetPoint K → Prop
  | setServoAngle _ angle interval power =>
    signedAt content 1 2 = trunc (10 * clampTo (-180) 180 angle) ∧
      fieldAt content 3 2 = interval.toNat ∧ fieldAt content 5 2 = power.toNat
  | setServoAngleByInterval _ angle interval tAcc tDec power =>
    signedAt content 1 2 = trunc (10 * clampTo (-180) 180 angle) ∧
      fieldAt content 3 2 = interval.toNat ∧ fieldAt content 5 2 = max 20 tAcc.toNat ∧
      fieldAt content 7 2 = max 20 tDec.toNat ∧ fieldAt content 9 2 = power.toNat
  | setServoAngleByVelocity _ angle velocity tAcc tDec power =>
    signedAt content 1 2 = trunc (10 * clampTo (-180) 180 angle) ∧
      fieldAt content 3 2 = trunc (10 * clampTo 1 750 velocity) ∧
      fieldAt content 5 2 = max 20 tAcc.toNat ∧ fieldAt content 7 2 = max 20 tDec.toNat ∧
      fieldAt content 9 2 = power.toNat
  | setServoAngleMTurn _ angle interval power =>
    signedAt content 1 4 = trunc (10 * clampTo (-368640) 368640 angle) ∧
      fieldAt content 5 4 = min 4096000 interval.toNat ∧ fieldAt content 9 2 = power.toNat
  | setServoAngleMTurnByInterval _ angle interval tAcc tDec power =>
    signedAt content 1 4 = trunc (10 * clampTo (-368640) 368640 angle) ∧
      fieldAt content 5 4 = min 4096000 interval.toNat ∧
      fieldAt content 9 2 = max 20 tAcc.toNat ∧ fieldAt content 11 2 = max 20 tDec.toNat ∧
      fieldAt content 13 2 = power.toNat
  | setServoAngleMTurnByVelocity _ angle velocity tAcc tDec power =>
    signedAt content 1 4 = trunc (10 * clampTo (-368640) 368640 angle) ∧
      fieldAt content 5 2 = trunc (10 * clampTo 1 750 velocity) ∧
      fieldAt content 7 2 = max 20 tAcc.toNat ∧ fieldAt content 9 2 = max 20 tDec.toNat ∧
      fieldAt content 11 2 = power.toNat

/-- What a call sends is its clamped arguments. -/
def SetPoint.Clamped (start : UInt8) (s : SetPoint K) : Prop :=
  ∃ bytes, s.wire (exact K) start = some bytes ∧ s.Decodes (payload bytes)

/-- The interval of a call for several turns is not too long. -/
def SetPoint.Short : SetPoint K → Prop
  | setServoAngleMTurn _ _ interval _ => interval.toNat ≤ 4096000
  | _ => True

/-! ### The clamps -/

section Clamps

variable [IsStrictOrderedRing K] {low high : ℤ}

theorem clamp_exact (ordered : low ≤ high) (value : K) :
    (exact K).clamp low high value = clampTo low high value := by
  have ordered' : (low : K) ≤ high := Int.cast_le.mpr ordered
  simp only [Arithmetic.clamp, exact, decide_eq_true_eq, clampTo]
  split_ifs with above below
  · rw [min_eq_left above.le, max_eq_right ordered']
  · rw [min_eq_right (not_lt.mp above), max_eq_left below.le]
  · rw [min_eq_right (not_lt.mp above), max_eq_right (not_lt.mp below)]

theorem trunc_clampTo (ordered : low ≤ high) (value : K) :
    10 * low ≤ trunc (10 * clampTo low high value) ∧
      trunc (10 * clampTo low high value) ≤ 10 * high := by
  have tenfold : ∀ n : ℤ, trunc (10 * (n : K)) = 10 * n := fun n => by
    rw [← trunc_intCast (K := K) (10 * n)]
    push_cast
    rfl
  have above : (low : K) ≤ clampTo low high value := le_max_left _ _
  have below : clampTo low high value ≤ (high : K) :=
    max_le (Int.cast_le.mpr ordered) (min_le_left _ _)
  have ten : (0 : K) ≤ 10 := by norm_num
  rw [← tenfold low, ← tenfold high]
  exact ⟨trunc_mono (mul_le_mul_of_nonneg_left above ten),
    trunc_mono (mul_le_mul_of_nonneg_left below ten)⟩

end Clamps

/-! ### The casts -/

section Casts

variable {value : K}

theorem bmod_toInt16 (low : -32768 ≤ trunc (10 * value)) (high : trunc (10 * value) < 32768) :
    Int.bmod (((exact K).toInt16 ((exact K).tenfold value)).toUInt16.toNat : ℤ) 65536 =
      trunc (10 * value) := by
  have signed : (Int16.ofInt (trunc (10 * value))).toInt = trunc (10 * value) :=
    Int16.toInt_ofInt_of_le low high
  rw [← signed]
  exact (BitVec.toInt_eq_toNat_bmod _).symm

theorem bmod_toInt32 (low : -2147483648 ≤ trunc (10 * value))
    (high : trunc (10 * value) < 2147483648) :
    Int.bmod (((exact K).toInt32 ((exact K).tenfold value)).toUInt32.toNat : ℤ) 4294967296 =
      trunc (10 * value) := by
  have signed : (Int32.ofInt (trunc (10 * value))).toInt = trunc (10 * value) :=
    Int32.toInt_ofInt_of_le low high
  rw [← signed]
  exact (BitVec.toInt_eq_toNat_bmod _).symm

theorem toNat_toUInt16 (low : 0 ≤ trunc (10 * value)) (high : trunc (10 * value) < 65536) :
    (((exact K).toUInt16 ((exact K).tenfold value)).toNat : ℤ) = trunc (10 * value) := by
  show ((UInt16.ofNat (trunc (10 * value)).toNat).toNat : ℤ) = _
  rw [UInt16.toNat_ofNat_of_lt' (show _ < 65536 by omega), Int.toNat_of_nonneg low]

end Casts

/-! ### The fields -/

variable [IsStrictOrderedRing K] (value : K)

theorem angle_single : Int.bmod (((exact K).toInt16 ((exact K).tenfold
      ((exact K).clamp (-180) 180 value))).toUInt16.toNat : ℤ) 65536 =
    trunc (10 * clampTo (-180) 180 value) := by
  obtain ⟨above, below⟩ := trunc_clampTo (show (-180 : ℤ) ≤ 180 by decide) value
  rw [clamp_exact (by decide), bmod_toInt16 (by omega) (by omega)]

theorem angle_several : Int.bmod (((exact K).toInt32 ((exact K).tenfold
      ((exact K).clamp (-368640) 368640 value))).toUInt32.toNat : ℤ) 4294967296 =
    trunc (10 * clampTo (-368640) 368640 value) := by
  obtain ⟨above, below⟩ := trunc_clampTo (show (-368640 : ℤ) ≤ 368640 by decide) value
  rw [clamp_exact (by decide), bmod_toInt32 (by omega) (by omega)]

theorem velocity_field : (((exact K).toUInt16 ((exact K).tenfold
      ((exact K).clamp 1 750 value))).toNat : ℤ) = trunc (10 * clampTo 1 750 value) := by
  obtain ⟨above, below⟩ := trunc_clampTo (show (1 : ℤ) ≤ 750 by decide) value
  rw [clamp_exact (by decide), toNat_toUInt16 (by omega) (by omega)]

theorem toNat_max (time : UInt16) : (max 20 time).toNat = max 20 time.toNat := by
  show (if 20 ≤ time then time else 20).toNat = _
  split_ifs with above
  · exact (max_eq_right (UInt16.le_iff_toNat_le.mp above)).symm
  · exact (max_eq_left (Nat.le_of_lt (UInt16.lt_iff_toNat_lt.mp (UInt16.not_le.mp above)))).symm

theorem toNat_min (interval : UInt32) :
    (min 4096000 interval).toNat = min 4096000 interval.toNat := by
  show (if 4096000 ≤ interval then 4096000 else interval).toNat = _
  split_ifs with above
  · exact (min_eq_left (UInt32.le_iff_toNat_le.mp above)).symm
  · exact (min_eq_right (Nat.le_of_lt (UInt32.lt_iff_toNat_lt.mp (UInt32.not_le.mp above)))).symm

/-- **The fields of a content** are the clamped arguments exactly if the interval is short. -/
theorem fields_iff (s : SetPoint K) : s.Decodes (s.content (exact K)) ↔ s.Short := by
  cases s with
  | setServoAngle servoId angle interval power =>
    simp [SetPoint.Decodes, SetPoint.Short, SetPoint.content, SetPoint.fields, SetPoint.target,
      Arithmetic.tenths16, signedAt, angle_single]
  | setServoAngleByInterval servoId angle interval tAcc tDec power =>
    simp [SetPoint.Decodes, SetPoint.Short, SetPoint.content, SetPoint.fields, SetPoint.target,
      Arithmetic.tenths16, signedAt, angle_single, toNat_max]
  | setServoAngleByVelocity servoId angle velocity tAcc tDec power =>
    simp [SetPoint.Decodes, SetPoint.Short, SetPoint.content, SetPoint.fields, SetPoint.target,
      Arithmetic.tenths16, Arithmetic.velocity16, signedAt, angle_single, velocity_field,
      toNat_max]
  | setServoAngleMTurn servoId angle interval power =>
    by_cases long : 4096000 < interval
    · have above : 4096000 < interval.toNat := UInt32.lt_iff_toNat_lt.mp long
      refine iff_of_false (fun ⟨_, same, _⟩ => ?_) (Nat.not_le.mpr above)
      have sent : interval.toNat = min 4096000 interval.toNat := by
        simpa [SetPoint.content, SetPoint.fields, Arithmetic.tenths32] using same
      omega
    · have below : interval.toNat ≤ 4096000 :=
        UInt32.le_iff_toNat_le.mp (UInt32.not_lt.mp long)
      simp [SetPoint.Decodes, SetPoint.Short, SetPoint.content, SetPoint.fields, SetPoint.target,
        Arithmetic.tenths32, signedAt, angle_several, long, below]
  | setServoAngleMTurnByInterval servoId angle interval tAcc tDec power =>
    simp [SetPoint.Decodes, SetPoint.Short, SetPoint.content, SetPoint.fields, SetPoint.target,
      Arithmetic.tenths32, signedAt, angle_several, toNat_max, toNat_min]
  | setServoAngleMTurnByVelocity servoId angle velocity tAcc tDec power =>
    simp [SetPoint.Decodes, SetPoint.Short, SetPoint.content, SetPoint.fields, SetPoint.target,
      Arithmetic.tenths32, Arithmetic.velocity16, signedAt, angle_several, velocity_field,
      toNat_max]

/-! ### On the wire -/

omit [IsStrictOrderedRing K] in
theorem content_length (s : SetPoint K) : (s.content (exact K)).length ≤ 15 := by
  cases s <;> simp [SetPoint.content, SetPoint.fields, Arithmetic.tenths16, Arithmetic.tenths32,
    Arithmetic.velocity16, word, longWord]

omit [IsStrictOrderedRing K] in
theorem wire_payload (start : UInt8) (s : SetPoint K) :
    ∃ bytes, s.wire (exact K) start = some bytes ∧ payload bytes = s.content (exact K) := by
  have short := content_length s
  have length : (s.content (exact K)).length =
      (UInt8.ofNat (s.content (exact K)).length).toNat :=
    (UInt8.toNat_ofNat_of_lt' (show _ < 256 by omega)).symm
  have fits : (UInt8.ofNat (s.content (exact K)).length).toNat ≤ responseMaxSize := by
    rw [← length, responseMaxSize]
    omega
  refine ⟨_, sendPackage_fits start s.cmdId length fits, ?_⟩
  simp [payload]

/-- **Set-points are clamped on the wire** exactly if the interval of a call of
`FSUS_SetServoAngleMTurn` is short. -/
theorem clamped_iff (start : UInt8) (s : SetPoint K) : s.Clamped start ↔ s.Short := by
  obtain ⟨bytes, sent, content⟩ := wire_payload start s
  rw [← fields_iff s, ← content, SetPoint.Clamped, sent]
  refine ⟨fun ⟨_, same, decodes⟩ => ?_, fun decodes => ⟨bytes, rfl, decodes⟩⟩
  rwa [Option.some.inj same]

end Exact

/-! ### A long interval -/

/-- A call with a short interval: the condition of the exact statement. -/
theorem clamped_iff_short : (SetPoint.setServoAngleMTurn 1 (90 : ℚ) 1000 0).Clamped 0 ↔
    (SetPoint.setServoAngleMTurn 1 (90 : ℚ) 1000 0).Short :=
  clamped_iff 0 _

/-- **A long interval** is sent as it is, and the angle is `4096000`. -/
theorem long_interval : ¬ (SetPoint.setServoAngleMTurn 1 (90 : ℚ) 4096001 0).Clamped 0 := by
  rintro ⟨bytes, sent, decodes⟩
  obtain ⟨bytes', sent', content⟩ :=
    wire_payload 0 (SetPoint.setServoAngleMTurn 1 (90 : ℚ) 4096001 0)
  obtain rfl := Option.some.inj (sent.symm.trans sent')
  rw [content, fields_iff] at decodes
  exact absurd decodes (show ¬ (4096001 : UInt32).toNat ≤ 4096000 by decide)

end Robocon.Servo
