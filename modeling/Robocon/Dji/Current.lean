/-
**The current of a torque command (`motor.c` and `motor_dj_rm_driver.c`).**

A torque command is scaled by the gear ratio, stored untyped as the output of the motor, and cast to
`int16_t` by the driver of the motor. Nothing limits it on the way.

* `station` — the motor layer, the driver and the frames of the CAN device as one machine. Its
  outputs are the values that the driver places in its slots. The cast is taken modulo `2 ^ 16`;
  `motorDjDriver_wraps` ties it to the driver whose cast fails outside the range.
* `Obeys` — a motor of accept level 1 under torque commands keeps the last of them, scaled, as its
  torque target, and `handle_places` that its driver places the cast of that.
* `right_iff` — such a value is right exactly if the scaled command is in the range, or happens to
  wrap to the bound that it passes.
* `current_right_iff` — a run places the right currents, growing with the commands, exactly if the
  command in effect is of that kind whenever a value is placed.
-/

import Robocon.Dji.Slots
import Robocon.Motors.Outputs

namespace Robocon.Dji

open Lib

variable {K P : Type} [Field K] [LinearOrder K] [FloorRing K]

/-! ### The driver with a cast that wraps -/

/-- `int16_t tmpout = *value`, for every value modulo `2 ^ 16`. -/
def tmpout (value : K) : Int16 := Int16.ofInt (trunc value)

/-- `motor_dj_driver`, for every value. -/
def motorDjDriverWraps (cfg : Config) (s : State) (motor : Macro) (mode : Mode) (value : K)
    (written : Bool) : State × List Event :=
  match mode with
  | .torque =>
    if 4 ≤ motor.slot.num then driveHigh cfg s motor (tmpout value)
    else driveLow cfg s motor (tmpout value) written
  | .invalid => (s, [])

/-- **Where the cast is defined**, this is the driver. -/
theorem motorDjDriver_wraps {cfg : Config} {s : State} {motor : Macro} {mode : Mode} {value : K}
    {written : Bool} {last : State × List Event}
    (step : motorDjDriver cfg s motor mode value written = some last) :
    motorDjDriverWraps cfg s motor mode value written = last := by
  unfold motorDjDriver at step
  split at step
  case isFalse => cases step
  case isTrue =>
    obtain ⟨out, converted, done⟩ := Option.map_eq_some_iff.mp step
    have cast : out = tmpout value := by
      unfold toInt16 at converted
      split at converted
      · exact (Option.some.inj converted).symm
      · cases converted
    rw [← done, cast]
    cases mode with
    | torque => rfl
    | invalid => rfl

/-- A torque call that stores its value stores it in the slot of its number. -/
theorem wraps_slotValue {cfg : Config} (s : State) (motor : Macro) (value : K) (written : Bool)
    (stored : cfg.stores s motor.slot.num = true) :
    (motorDjDriverWraps cfg s motor .torque value written).1.slotValue motor.slot.num =
      tmpout value := by
  show (if 4 ≤ motor.slot.num then driveHigh cfg s motor (tmpout value)
    else driveLow cfg s motor (tmpout value) written).1.slotValue motor.slot.num = _
  by_cases numbered : 4 ≤ motor.slot.num
  · rw [if_pos numbered, driveHigh]
    split
    · exact (s.slotValue_storeHigh _ numbered _).trans (if_pos rfl)
    · exact (s.slotValue_storeHigh _ numbered _).trans (if_pos rfl)
  · rw [stores_of_low numbered] at stored
    rw [if_neg numbered, driveLow, if_pos stored]
    cases written with
    | true => exact (s.slotValue_storeLow _ numbered _).trans (if_pos rfl)
    | false => exact (s.slotValue_storeLow (tmpout value) numbered _).trans (if_pos rfl)

/-! ### The station -/

/-- The motor layer and the driver. `told` is the last torque asked of each motor, which is no part
of the program. -/
structure Station (K P : Type) (num : ℕ) where
  motors : Vector (Motors.Motor K P) num
  dji : State
  told : ℤ → Option K

/-- `motor_set_torque`, `motor_handle` with the period 1, and a frame for the callback. -/
inductive Order (K : Type)
  | setTorque (id : ℤ) (value : K)
  | handle (id : ℤ) (reading : Motors.Reading K) (written : Bool)
  | frame (msg : CanMsg)

/-- A value placed in the slot of a motor, with the last torque asked of the motor. -/
structure Placement (K : Type) where
  id : ℤ
  told : Option K
  iq : Int16
  deriving DecidableEq

/-- The modes that `motor_dj_driver` tells apart. -/
def driverMode : Motors.Mode → Mode
  | .torque => .torque
  | _ => .invalid

section Station

variable (expf : K → K) (apid : Motors.Apid K P) (cfg : Config) (kk : K) {num : ℕ}

/-- The call `motor->ops->driver(..)`. Motors past the DJI motors have drivers of their own. -/
def react (s : Station K P num) (written : Bool) :
    Motors.Event K → Station K P num × List (Placement K)
  | .behaver .. => (s, [])
  | .driver id mode value =>
    match cfg.layerIds[id.toNat]? with
    | none => (s, [])
    | some motor =>
      let dji := (motorDjDriverWraps cfg s.dji motor (driverMode mode) value written).1
      ({ s with dji := dji },
        if driverMode mode = .torque ∧ cfg.stores s.dji motor.slot.num = true then
          [⟨id, s.told id, dji.slotValue motor.slot.num⟩]
        else [])

/-- The calls of one `motor_handle`, in their order. -/
def reactAll (written : Bool) :
    Station K P num → List (Motors.Event K) → Station K P num × List (Placement K)
  | s, [] => (s, [])
  | s, event :: events =>
    let here := react cfg s written event
    let rest := reactAll written here.1 events
    (rest.1, here.2 ++ rest.2)

/-- The feedback calls of the callback; `kk` is the constant `KK`. -/
def takeEvent (motors : Vector (Motors.Motor K P) num) :
    Event → Option (Vector (Motors.Motor K P) num)
  | .feedback id speed torque totalAngle => do
    let (motors, _) ← (Motors.layer expf apid).step motors (.feedbackSpeed id (speed.toInt : K))
    let (motors, _) ← (Motors.layer expf apid).step motors (.feedbackTorque id (torque.toInt : K))
    let (motors, _) ← (Motors.layer expf apid).step motors (.feedbackPos id ((totalAngle : K) * kk))
    return motors
  | _ => some motors

/-- The station as a machine. -/
def station : Machine (Station K P num) (Order K) (Placement K) where
  step s
    | .setTorque id value => do
      let (motors, _) ← (Motors.layer expf apid).step s.motors (.setTorque id value)
      return ({ s with motors := motors, told := Function.update s.told id (some value) }, [])
    | .handle id reading written => do
      let (motors, events) ← (Motors.layer expf apid).step s.motors (.handle id 1 reading)
      return reactAll cfg written { s with motors := motors } events
    | .frame msg => do
      let (dji, events) ← callback cfg s.dji msg
      let motors ← events.foldlM (takeEvent expf apid kk) s.motors
      return ({ s with motors := motors, dji := dji }, [])

end Station

/-! ### A motor under torque commands -/

/-- A motor of accept level 1 that holds the last torque asked of it. -/
structure Obeys (r : K) (told : Option K) (m : Motors.Motor K P) : Prop where
  ready : Motors.Ready 1 m
  ratio : m.ratio = r
  target : ∀ v, told = some v → m.flagRunMode = .torque ∧ m.tarTorque = v * r

section Motor

variable {expf : K → K} {apid : Motors.Apid K P} {num : ℕ}
  {motors after : Vector (Motors.Motor K P) num} {events : List (Motors.Event K)} {i : Fin num}
  {r : K} {told : Option K}

/-- A plain call that keeps the run mode and the torque target. -/
theorem Obeys.kept (obeys : Obeys r told (motors.get i)) {input : Motors.Call K}
    (step : (Motors.layer expf apid).step motors input = some (after, events))
    (plain : input.Plain i)
    (mode : (after.get i).flagRunMode = (motors.get i).flagRunMode)
    (target : (after.get i).tarTorque = (motors.get i).tarTorque) :
    Obeys r told (after.get i) where
  ready := obeys.ready.next plain step
  ratio := (congrArg Motors.Setup.ratio (Motors.call_setup step i)).trans obeys.ratio
  target v commanded := by
    rw [mode, target]
    exact obeys.target v commanded

theorem Obeys.set (obeys : Obeys r told (motors.get i)) {value : K}
    (step : (Motors.layer expf apid).step motors (.setTorque (i : ℕ) value) =
      some (after, events)) :
    Obeys r (some value) (after.get i) := by
  have plain : Motors.Call.Plain i (.setTorque (i : ℕ) value) := trivial
  have ready := obeys.ready.next plain step
  have ratio := (congrArg Motors.Setup.ratio (Motors.call_setup step i)).trans obeys.ratio
  refine ⟨ready, ratio, fun v commanded => ?_⟩
  simp only [Motors.layer, Motors.call] at step
  rcases Motors.withMotor_get step i with ⟨-, stored⟩ | ⟨other, -⟩
  · obtain ⟨stored, -⟩ := Prod.mk.inj (Option.some.inj stored)
    rw [← Option.some.inj commanded, ← stored, ← obeys.ratio]
    exact ⟨rfl, rfl⟩
  · exact absurd rfl other

omit [LinearOrder K] [FloorRing K] in
theorem Obeys.aside (obeys : Obeys r told (motors.get i)) {id : ℤ} (other : id ≠ (i : ℕ))
    {change : Motors.Motor K P → Option (Motors.Motor K P × List (Motors.Event K))}
    (step : Motors.withMotor motors id change = some (after, events)) :
    Obeys r told (after.get i) := by
  rcases Motors.withMotor_get step i with ⟨here, -⟩ | ⟨-, same⟩
  · exact absurd here other
  · rw [same]
    exact obeys

theorem Obeys.takeEvent {kk : K} (obeys : Obeys r told (motors.get i)) {event : Event}
    (taken : takeEvent expf apid kk motors event = some after) :
    Obeys r told (after.get i) := by
  cases event with
  | feedback id speed torque totalAngle =>
    obtain ⟨⟨first, _⟩, fed, rest⟩ := Option.bind_eq_some_iff.mp taken
    obtain ⟨⟨second, _⟩, fed', rest⟩ := Option.bind_eq_some_iff.mp rest
    obtain ⟨⟨third, _⟩, fed'', done⟩ := Option.bind_eq_some_iff.mp rest
    obtain rfl := Option.some.inj done
    have one : Obeys r told (first.get i) := obeys.kept fed trivial
      (Motors.feedback_kept Motors.Motor.flagRunMode fed (fun _ => rfl) i)
      (Motors.feedback_kept Motors.Motor.tarTorque fed (fun _ => rfl) i)
    have two : Obeys r told (second.get i) := one.kept fed' trivial
      (Motors.feedback_kept Motors.Motor.flagRunMode fed' (fun _ => rfl) i)
      (Motors.feedback_kept Motors.Motor.tarTorque fed' (fun _ => rfl) i)
    exact two.kept fed'' trivial
      (Motors.feedback_kept Motors.Motor.flagRunMode fed'' (fun _ => rfl) i)
      (Motors.feedback_kept Motors.Motor.tarTorque fed'' (fun _ => rfl) i)
  | write device msg =>
    obtain rfl := Option.some.inj taken
    exact obeys
  | putchar id =>
    obtain rfl := Option.some.inj taken
    exact obeys

theorem Obeys.takeEvents {kk : K} {seen : List Event} : ∀ {motors : Vector _ num},
    Obeys r told (motors.get i) →
    seen.foldlM (Dji.takeEvent expf apid kk) motors = some after → Obeys r told (after.get i) := by
  induction seen with
  | nil =>
    intro motors obeys taken
    obtain rfl := Option.some.inj taken
    exact obeys
  | cons event seen ih =>
    intro motors obeys taken
    rw [List.foldlM_cons] at taken
    obtain ⟨middle, here, rest⟩ := Option.bind_eq_some_iff.mp taken
    exact ih (obeys.takeEvent here) rest

omit [LinearOrder K] [FloorRing K] in
/-- The behaviour function of accept level 1 in the torque mode. -/
theorem behave_torque {m m' : Motors.Motor K P} {cycle : K}
    (behaved : m.behave apid m.flagRunMode cycle = some m') (behaver : m.behaver = .two)
    (mode : m.flagRunMode = .torque) :
    m'.flagRunMode = .torque ∧ m'.tarTorque = m.tarTorque ∧ m'.accOut = m.tarTorque := by
  rw [Motors.Motor.behave, behaver, mode] at behaved
  obtain rfl := Option.some.inj behaved
  exact ⟨mode, rfl, rfl⟩

/-- **`motor_handle` under a torque command** hands the scaled command to the driver. -/
theorem Obeys.handle (obeys : Obeys r told (motors.get i)) {reading : Motors.Reading K} {cycle : K}
    (step : (Motors.layer expf apid).step motors (.handle (i : ℕ) cycle reading) =
      some (after, events)) :
    ∃ mode tarTorque tarSpeed tarPos value, Obeys r told (after.get i) ∧
      events = [.behaver (i : ℕ) mode tarTorque tarSpeed tarPos, .driver (i : ℕ) .torque value] ∧
      ∀ v, told = some v → value = v * r := by
  have plain : Motors.Call.Plain i (.handle (i : ℕ) cycle reading) := trivial
  have ready := obeys.ready.next plain step
  have ratio := (congrArg Motors.Setup.ratio (Motors.call_setup step i)).trans obeys.ratio
  simp only [Motors.layer, Motors.call] at step
  rcases Motors.withMotor_get step i with ⟨-, handled⟩ | ⟨other, -⟩
  · obtain ⟨time, curTorque, curSpeed, curPos, behaved, shape⟩ := obeys.ready.handle_cases handled
    have stored : ∀ v, told = some v → (after.get i).flagRunMode = .torque ∧
        (after.get i).tarTorque = v * r ∧ (after.get i).accOut = v * r := by
      intro v commanded
      obtain ⟨mode, target⟩ := obeys.target v commanded
      obtain ⟨mode', target', out⟩ := behave_torque behaved obeys.ready.behaver mode
      exact ⟨mode', target'.trans target, out.trans target⟩
    rw [ready.outMode] at shape
    exact ⟨_, _, _, _, _, ⟨ready, ratio, fun v commanded =>
      ⟨(stored v commanded).1, (stored v commanded).2.1⟩⟩, shape,
      fun v commanded => (stored v commanded).2.2⟩
  · exact absurd rfl other

end Motor

/-! ### The value placed -/

/-- What is asked of a value placed under the command `v`. -/
structure Right (r v : K) (iq : Int16) : Prop where
  sign : SignType.sign iq.toInt = if |v * r| < 1 then 0 else SignType.sign v
  saturated : iq.toInt = max (-2 ^ 15) (min (2 ^ 15 - 1) (trunc (v * r)))

/-- **The condition on a scaled command**: it is in the range, or its residue happens to be the
bound that it passes. -/
def Fits (scaled : ℤ) : Prop :=
  (-2 ^ 15 ≤ scaled ∧ scaled < 2 ^ 15) ∨ (2 ^ 15 ≤ scaled ∧ scaled % 2 ^ 16 = 2 ^ 15 - 1) ∨
    (scaled < -2 ^ 15 ∧ scaled % 2 ^ 16 = 2 ^ 15)

/-- A number taken modulo `2 ^ 16` is the saturated one exactly if it fits. -/
theorem saturated_iff (scaled : ℤ) :
    (Int16.ofInt scaled).toInt = max (-2 ^ 15) (min (2 ^ 15 - 1) scaled) ↔ Fits scaled := by
  rw [Int16.toInt_ofInt, Int.bmod_def, Fits, Int16.size]
  split <;> omega

section Value

variable [IsStrictOrderedRing K] {r v w : K}

theorem sign_saturated (positive : 0 < r) :
    SignType.sign (max (-2 ^ 15) (min (2 ^ 15 - 1) (trunc (v * r)))) =
      if |v * r| < 1 then 0 else SignType.sign v := by
  split
  case isTrue small =>
    rw [trunc_eq_zero_iff.mpr small]
    rfl
  case isFalse large =>
    have nonzero : trunc (v * r) ≠ 0 := fun zero => large (trunc_eq_zero_iff.mp zero)
    rcases lt_trichotomy v 0 with negative | zero | above
    · have below := trunc_nonneg (neg_nonneg.mpr (mul_neg_of_neg_of_pos negative positive).le)
      rw [trunc_neg] at below
      rw [sign_neg negative, sign_eq_neg_one_iff]
      omega
    · rw [zero, zero_mul, trunc_eq_zero_iff.mpr (by simp)] at nonzero
      exact absurd rfl nonzero
    · have nonneg := trunc_nonneg (mul_pos above positive).le
      rw [sign_pos above, sign_eq_one_iff]
      omega

/-- **The cast of a scaled command** is right exactly if the scaled command fits. -/
theorem right_iff (positive : 0 < r) :
    Right r v (tmpout (v * r)) ↔ Fits (trunc (v * r)) := by
  rw [← saturated_iff]
  refine ⟨Right.saturated, fun saturated => ⟨?_, saturated⟩⟩
  rw [tmpout, saturated]
  exact sign_saturated positive

/-- **A larger command gives no smaller current**, but for the two bounds. -/
theorem Right.grows {iq iq' : Int16} (right : Right r v iq) (right' : Right r w iq')
    (larger : |v| ≤ |w|) :
    |iq.toInt| ≤ |iq'.toInt| ∨ iq.toInt = -2 ^ 15 ∧ iq'.toInt = 2 ^ 15 - 1 := by
  have scaled : |trunc (v * r)| ≤ |trunc (w * r)| := by
    rw [abs_trunc, abs_trunc, abs_mul, abs_mul]
    exact trunc_mono (mul_le_mul_of_nonneg_right larger (abs_nonneg r))
  rw [right.saturated, right'.saturated]
  simp only [abs_eq_max_neg] at scaled ⊢
  omega

end Value

/-! ### Runs -/

section Runs

variable {cfg : Config} {num : ℕ} {i : Fin num}

/-- The calls of `motor_handle` touch neither the motor layer nor the commands. -/
theorem reactAll_keeps (written : Bool) (events : List (Motors.Event K)) :
    ∀ s : Station K P num, (reactAll cfg written s events).1.motors = s.motors ∧
      (reactAll cfg written s events).1.told = s.told := by
  have once (s : Station K P num) (event : Motors.Event K) :
      (react cfg s written event).1.motors = s.motors ∧
        (react cfg s written event).1.told = s.told := by
    unfold react
    split
    · exact ⟨rfl, rfl⟩
    · split
      · exact ⟨rfl, rfl⟩
      · exact ⟨rfl, rfl⟩
  induction events with
  | nil => exact fun s => ⟨rfl, rfl⟩
  | cons event events ih =>
    intro s
    have rest := ih (react cfg s written event).1
    exact ⟨rest.1.trans (once s event).1, rest.2.trans (once s event).2⟩

/-- A value is placed for the motor whose driver is called. -/
theorem reactAll_placed {written : Bool} {events : List (Motors.Event K)}
    {placement : Placement K} : ∀ {s : Station K P num},
      placement ∈ (reactAll cfg written s events).2 →
      ∃ mode value, Motors.Event.driver placement.id mode value ∈ events := by
  induction events with
  | nil => exact fun member => absurd member List.not_mem_nil
  | cons event events ih =>
    intro s member
    rcases List.mem_append.mp member with here | later
    · unfold react at here
      split at here
      · cases here
      · split at here
        · cases here
        · split at here
          · rw [List.mem_singleton.mp here]
            exact ⟨_, _, List.mem_cons_self⟩
          · cases here
    · obtain ⟨mode, value, member⟩ := ih later
      exact ⟨mode, value, List.mem_cons_of_mem _ member⟩

/-- The call of the driver of a DJI motor with a torque. -/
theorem reactAll_torque (s : Station K P num) (written : Bool) {mode : Motors.Mode}
    {tarTorque tarSpeed tarPos value : K} {motor : Macro}
    (known : cfg.layerIds[i.val]? = some motor) :
    (reactAll cfg written s [.behaver (i : ℕ) mode tarTorque tarSpeed tarPos,
      .driver (i : ℕ) .torque value]).2 =
      if cfg.stores s.dji motor.slot.num = true then [⟨(i : ℕ), s.told (i : ℕ), tmpout value⟩]
      else [] := by
  simp only [reactAll, react, Int.toNat_natCast, known, driverMode, true_and, List.nil_append,
    List.append_nil]
  split
  case isTrue stored => rw [wraps_slotValue s.dji motor value written stored]
  case isFalse => rfl

variable (cfg) in
/-- **The condition on a step.** If `motor_handle` places a value for motor `i`, the scaled command
in effect fits. -/
def Suits (i : Fin num) (r : K) (s : Station K P num) : Order K → Prop
  | .handle id _ _ => id = (i : ℕ) → ∀ motor v, cfg.layerIds[i.val]? = some motor →
      cfg.stores s.dji motor.slot.num = true → s.told id = some v → Fits (trunc (v * r))
  | _ => True

/-- What is asked of a value placed. -/
def Placement.Right (i : Fin num) (r : K) (placement : Placement K) : Prop :=
  placement.id = (i : ℕ) → ∀ v, placement.told = some v → Dji.Right r v placement.iq

variable {expf : K → K} {apid : Motors.Apid K P} {kk : K}

/-- One step keeps a motor under torque commands. -/
theorem Obeys.next {s s' : Station K P num} {r : K} {input : Order K} {output : List (Placement K)}
    (obeys : Obeys r (s.told (i : ℕ)) (s.motors.get i))
    (step : (station expf apid cfg kk).step s input = some (s', output)) :
    Obeys r (s'.told (i : ℕ)) (s'.motors.get i) := by
  cases input with
  | setTorque id value =>
    obtain ⟨⟨motors, events⟩, called, done⟩ := Option.bind_eq_some_iff.mp step
    obtain ⟨rfl, -⟩ := Prod.mk.inj (Option.some.inj done)
    show Obeys r (Function.update s.told id (some value) (i : ℕ)) (motors.get i)
    by_cases here : id = (i : ℕ)
    · rw [here, Function.update_self]
      rw [here] at called
      exact obeys.set called
    · rw [Function.update_of_ne (Ne.symm here)]
      simp only [Motors.layer, Motors.call] at called
      exact obeys.aside here called
  | handle id reading written =>
    obtain ⟨⟨motors, events⟩, called, done⟩ := Option.bind_eq_some_iff.mp step
    have reacted : reactAll cfg written { s with motors := motors } events = (s', output) :=
      Option.some.inj done
    have kept : (reactAll cfg written { s with motors := motors } events).1.motors = motors ∧
        (reactAll cfg written { s with motors := motors } events).1.told = s.told :=
      reactAll_keeps written events _
    rw [reacted] at kept
    rw [kept.1, kept.2]
    by_cases here : id = (i : ℕ)
    · rw [here] at called
      obtain ⟨_, _, _, _, _, next, -⟩ := obeys.handle called
      exact next
    · simp only [Motors.layer, Motors.call] at called
      exact obeys.aside here called
  | frame msg =>
    obtain ⟨⟨dji, events⟩, -, rest⟩ := Option.bind_eq_some_iff.mp step
    obtain ⟨motors, taken, done⟩ := Option.bind_eq_some_iff.mp rest
    obtain ⟨rfl, -⟩ := Prod.mk.inj (Option.some.inj done)
    exact obeys.takeEvents taken

/-- **The values of one step** are right exactly if the step suits. -/
theorem Obeys.right_iff [IsStrictOrderedRing K] {s s' : Station K P num} {r : K} {input : Order K}
    {output : List (Placement K)} (positive : 0 < r)
    (obeys : Obeys r (s.told (i : ℕ)) (s.motors.get i))
    (step : (station expf apid cfg kk).step s input = some (s', output)) :
    (∀ placement ∈ output, placement.Right i r) ↔ Suits cfg i r s input := by
  have quiet (none : output = []) : ∀ placement ∈ output, placement.Right i r := by
    rw [none]
    exact fun _ member => absurd member List.not_mem_nil
  cases input with
  | setTorque id value =>
    obtain ⟨_, -, done⟩ := Option.bind_eq_some_iff.mp step
    exact iff_of_true (quiet (Prod.mk.inj (Option.some.inj done)).2.symm) trivial
  | frame msg =>
    obtain ⟨_, -, rest⟩ := Option.bind_eq_some_iff.mp step
    obtain ⟨_, -, done⟩ := Option.bind_eq_some_iff.mp rest
    exact iff_of_true (quiet (Prod.mk.inj (Option.some.inj done)).2.symm) trivial
  | handle id reading written =>
    obtain ⟨⟨motors, events⟩, called, done⟩ := Option.bind_eq_some_iff.mp step
    have reacted : (reactAll cfg written { s with motors := motors } events).2 = output :=
      congrArg Prod.snd (Option.some.inj done)
    by_cases here : id = (i : ℕ)
    · rw [here] at called
      obtain ⟨_, _, _, _, value, -, shape, scaled⟩ := obeys.handle called
      cases known : cfg.layerIds[i.val]? with
      | none =>
        rw [shape] at reacted
        simp only [reactAll, react, Int.toNat_natCast, known, List.append_nil] at reacted
        refine iff_of_true (quiet reacted.symm) fun _ motor v known' => ?_
        rw [known] at known'
        cases known'
      | some motor =>
        rw [shape, reactAll_torque _ written known] at reacted
        by_cases stores : cfg.stores s.dji motor.slot.num = true
        · rw [if_pos stores] at reacted
          rw [← reacted]
          refine ⟨fun right _ motor' v known' stores' commanded => ?_,
            fun suits placement member own v commanded => ?_⟩
          · rw [here] at commanded
            have placed := right _ List.mem_cons_self rfl v commanded
            rw [scaled v commanded] at placed
            exact (Dji.right_iff positive).mp placed
          · rw [List.mem_singleton.mp member] at commanded ⊢
            rw [scaled v commanded]
            rw [← here] at commanded
            exact (Dji.right_iff positive).mpr (suits here motor v known stores commanded)
        · rw [if_neg stores] at reacted
          refine iff_of_true (quiet reacted.symm) fun _ motor' v known' stores' => ?_
          rw [known] at known'
          rw [← Option.some.inj known'] at stores'
          exact absurd stores' stores
    · refine iff_of_true (fun placement member own => ?_) fun same => absurd same here
      rw [← reacted] at member
      obtain ⟨mode, value, driven⟩ := reactAll_placed member
      rw [own] at driven
      obtain ⟨_, _, same⟩ := Motors.driver_handles called driven
      exact absurd (Motors.Call.handle.inj same).1 here

/-- **The placed currents** have the sign of the commands, are the scaled commands saturated, and
grow with the commands, exactly as long as every scaled command in effect fits. -/
theorem current_right_iff [IsStrictOrderedRing K] {init : P → P} {levels : Fin num → Fin 4}
    {start final : Station K P num} {r : K} {inputs : List (Order K)} {outs : List (Placement K)}
    (initialised : Motors.Initialised init levels start.motors) (accept : levels i = 1)
    (going : (start.motors.get i).flagIsStop = false)
    (idle : (start.motors.get i).command.Idle) (ratio : (start.motors.get i).ratio = r)
    (positive : 0 < r) (untold : start.told (i : ℕ) = none)
    (run : (station expf apid cfg kk).Run start inputs outs final) :
    ((∀ placement ∈ outs, placement.id = (i : ℕ) → ∀ v, placement.told = some v →
        Right r v placement.iq) ∧
      ∀ first ∈ outs, ∀ second ∈ outs, first.id = (i : ℕ) → second.id = (i : ℕ) →
        ∀ v w, first.told = some v → second.told = some w → |v| ≤ |w| →
          |first.iq.toInt| ≤ |second.iq.toInt| ∨
            first.iq.toInt = -2 ^ 15 ∧ second.iq.toInt = 2 ^ 15 - 1) ↔
      (station expf apid cfg kk).RunOn (Suits cfg i r) start inputs outs final := by
  obtain ⟨m, allocated, initial⟩ := initialised i
  obtain ⟨-, outMode, behaver⟩ := Motors.Motor.initialise_setup initial
  rw [accept] at outMode behaver
  have obeys : Obeys r (start.told (i : ℕ)) (start.motors.get i) := by
    refine ⟨⟨outMode, behaver, going, idle⟩, ratio, fun v commanded => ?_⟩
    rw [untold] at commanded
    cases commanded
  have each := run.outputs_iff (fun s => Obeys r (s.told (i : ℕ)) (s.motors.get i))
    (Placement.Right i r) (Suits cfg i r)
    (fun s input next output _ obeys step => ⟨obeys.next step, obeys.right_iff positive step⟩) obeys
  refine ⟨fun right => each.mp right.1, fun suits => ⟨each.mpr suits, ?_⟩⟩
  intro first member second member' own own' v w commanded commanded' larger
  have right := each.mpr suits first member own v commanded
  exact right.grows (each.mpr suits second member' own' w commanded') larger

end Runs

/-! ### Two motors -/

/-- Motors with the ratio 2 whose driver takes torques, at power-on. -/
def powerOn : Station ℚ Unit 2 := ⟨#v[Motors.fresh, Motors.fresh], .initial, fun _ => none⟩

theorem powerOn_initialised : Motors.Initialised id (fun _ => 1) powerOn.motors :=
  fun i => ⟨Motors.fresh, fun _ => (), by fin_cases i <;> rfl⟩

theorem powerOn_idle : (powerOn.motors.get 1).command.Idle :=
  fun _ attached => Option.some.inj attached ▸ rfl

theorem current_right_six : ∃ outs final,
    (station (fun _ => 1) Motors.still apart 1).Run powerOn
      [.setTorque 1 3, .handle 1 ⟨none, none, none⟩ true] outs final ∧
    (station (fun _ => 1) Motors.still apart 1).RunOn (Suits apart (1 : Fin 2) 2) powerOn
      [.setTorque 1 3, .handle 1 ⟨none, none, none⟩ true] outs final := by
  obtain ⟨outs, final, run, placed⟩ := Machine.exists_run
    (station (fun _ => 1) Motors.still apart 1) (fun _ _ => True) powerOn
    [.setTorque 1 3, .handle 1 ⟨none, none, none⟩ true] (fun _ outs => outs = [⟨1, some 3, 6⟩])
    (by decide +kernel)
  have here : outs = [⟨1, some 3, 6⟩] := of_decide_eq_true placed
  have right : Right (2 : ℚ) 3 6 := ⟨by decide +kernel, by decide +kernel⟩
  refine ⟨outs, final, run, (current_right_iff powerOn_initialised rfl rfl powerOn_idle rfl
    (by decide +kernel) rfl run).mp ⟨?_, ?_⟩⟩
  · rw [here]
    intro placement member _ v told
    rw [List.mem_singleton.mp member] at told ⊢
    rw [← Option.some.inj told]
    exact right
  · rw [here]
    intro first member second member' _ _ v w _ _ _
    rw [List.mem_singleton.mp member, List.mem_singleton.mp member']
    exact Or.inl le_rfl

/-- **A current wraps.** The torque 20000 at the ratio 2 gives the current -25536. -/
theorem current_wraps :
    Motors.Initialised id (fun _ => 1) powerOn.motors ∧ ∃ outs final,
      (station (fun _ => 1) Motors.still apart 1).Run powerOn
        [.setTorque 1 20000, .handle 1 ⟨none, none, none⟩ true] outs final ∧
      ⟨1, some 20000, -25536⟩ ∈ outs ∧ ¬ Right (2 : ℚ) 20000 (-25536) := by
  obtain ⟨outs, final, run, placed⟩ := Machine.exists_run
    (station (fun _ => 1) Motors.still apart 1) (fun _ _ => True) powerOn
    [.setTorque 1 20000, .handle 1 ⟨none, none, none⟩ true]
    (fun _ outs => ⟨1, some 20000, -25536⟩ ∈ outs) (by decide +kernel)
  refine ⟨powerOn_initialised, outs, final, run, of_decide_eq_true placed, fun right => ?_⟩
  exact absurd right.saturated (by decide +kernel)

end Robocon.Dji
