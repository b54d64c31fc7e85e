/-
**Configurations of the DJI motors (`motor_cfg.h`, `motor_dj_rm_driver.h`).**

A configuration is the set of `MOTOR_DJ_*` macros that are defined. It decides which motors exist,
in which order their records stand in `dj_motors`, and which conditions a group frame waits for.

The 6020 motors are left out: a configuration with one of them does not compile, because the
conditions of the group frame name records `DJ_M_CAN1_9 … DJ_M_CAN2_16` that the enumeration only
declares, if at all, for four other 6020 motors.
-/

import Mathlib

namespace Robocon.Dji

/-- `M3508` and `M2006` in the macro names. -/
inductive Kind
  | m3508
  | m2006
  deriving DecidableEq

instance : Fintype Kind := ⟨{.m3508, .m2006}, fun kind => by cases kind <;> decide⟩

/-- `CAN1` and `CAN2` in the macro names. -/
inductive Bus
  | can1
  | can2
  deriving DecidableEq

instance : Fintype Bus := ⟨{.can1, .can2}, fun bus => by cases bus <;> decide⟩

instance neZero_eight : NeZero 8 := ⟨by decide⟩

/-- A record name `DJ_M_CAN<bus>_<num + 1>`. -/
structure Slot where
  bus : Bus
  num : Fin 8
  deriving DecidableEq, Fintype

/-- A macro `MOTOR_DJ_<kind>_ID<num + 1>_<bus>`, and the motor it enables. -/
structure Macro where
  kind : Kind
  slot : Slot
  deriving DecidableEq, Fintype

/-- The defined macros. -/
structure Config where
  enabled : Macro → Bool

/-- The motor whose feedback the block of an enabled motor makes passive. Those of the M2006 motors
past the fifth on CAN1, and of all on CAN2, name the first one of their bus. -/
def Macro.passiveTarget (motor : Macro) : Macro :=
  match motor.kind, motor.slot.bus with
  | .m3508, _ => motor
  | .m2006, .can1 => if (motor.slot.num : ℕ) < 5 then motor else ⟨.m2006, ⟨.can1, 0⟩⟩
  | .m2006, .can2 => ⟨.m2006, ⟨.can2, 0⟩⟩

/-- The configuration compiles: the motors that its blocks name are enabled, and `M3508_1_CAN1` is,
which `can_rx_thread1` and `main` name in every configuration. -/
structure Config.Compiles (cfg : Config) : Prop where
  targets : ∀ motor, cfg.enabled motor = true → cfg.enabled motor.passiveTarget = true
  watched : cfg.enabled ⟨.m3508, .can1, 0⟩ = true

instance (cfg : Config) : Decidable cfg.Compiles :=
  decidable_of_iff
    ((∀ motor, cfg.enabled motor = true → cfg.enabled motor.passiveTarget = true) ∧
      cfg.enabled ⟨.m3508, .can1, 0⟩ = true)
    ⟨fun both => ⟨both.1, both.2⟩, fun compiles => ⟨compiles.targets, compiles.watched⟩⟩

/-- The configuration as it is shipped, with `MOTOR_DJ_M3508_ID1_CAN1` only. -/
def shipped : Config where
  enabled motor := motor = ⟨.m3508, .can1, 0⟩

/-- The configuration with the motors `M3508_ID1_CAN1` and `M3508_ID5_CAN1`, one in each group. -/
def apart : Config where
  enabled motor := motor = ⟨.m3508, .can1, 0⟩ ∨ motor = ⟨.m3508, .can1, 4⟩

def canMotor1Id : ℕ := 0x201

/-- The `can_id` of a record, which is set by its initialiser only. -/
def Slot.canId (slot : Slot) : ℕ := canMotor1Id + slot.num

/-- The names on one bus, in the order of the enumerations. -/
def Bus.slots (bus : Bus) : List Slot := (List.finRange 8).map fun num => ⟨bus, num⟩

namespace Config

variable (cfg : Config)

/-- The motor ids of the motor layer: `M3508` before `M2006`, each on CAN1 before CAN2. -/
def layerIds : List Macro :=
  ((Bus.can1.slots ++ Bus.can2.slots).map (Macro.mk .m3508) ++
    (Bus.can1.slots ++ Bus.can2.slots).map (Macro.mk .m2006)).filter cfg.enabled

/-- The records of `dj_motors` in the order of their indices. -/
def djSlots : List Slot :=
  (Bus.can1.slots ++ Bus.can2.slots).filter fun slot =>
    cfg.enabled ⟨.m3508, slot⟩ || cfg.enabled ⟨.m2006, slot⟩

/-- The `id` of a record: of two motors on one record, the later initialiser is in effect. -/
def recordId (slot : Slot) : ℕ :=
  if cfg.enabled ⟨.m2006, slot⟩ then cfg.layerIds.idxOf ⟨.m2006, slot⟩
  else cfg.layerIds.idxOf ⟨.m3508, slot⟩

/-- The loop of `motor_get_by_canid`, whose indices are `uint8_t`. It fails on a read past the end
of `dj_motors`, finds `none` for `RT_NULL`, and each of its turns uses one unit of fuel. -/
def search (slots : List Slot) (canId : ℕ) : ℕ → UInt8 → UInt8 → Option (Option Slot)
  | 0, _, _ => none
  | fuel + 1, left, right =>
    if left ≤ right then
      let mid := (left.toNat + right.toNat) / 2
      match slots[mid]? with
      | none => none
      | some slot =>
        if slot.canId = canId then some (some slot)
        else if slot.canId < canId then search slots canId fuel (UInt8.ofNat (mid + 1)) right
        else search slots canId fuel left (UInt8.ofNat mid - 1)
    else some none

def motorGetByCanid (canId : ℕ) : Option (Option Slot) :=
  search cfg.djSlots canId 256 0 (UInt8.ofNat cfg.djSlots.length - 1)

end Config

/-- A record that is found carries the CAN id that was looked for. -/
theorem search_canId {slots : List Slot} {canId : ℕ} (fuel : ℕ) :
    ∀ {left right : UInt8} {slot : Slot},
      Config.search slots canId fuel left right = some (some slot) → slot.canId = canId := by
  induction fuel with
  | zero => exact fun found => by cases found
  | succ fuel ih =>
    intro left right slot found
    unfold Config.search at found
    split at found
    · simp only at found
      split at found
      · cases found
      · split at found
        case isTrue same =>
          obtain rfl := Option.some.inj (Option.some.inj found)
          exact same
        case isFalse =>
          split at found
          · exact ih found
          · exact ih found
    · cases found

theorem motorGetByCanid_canId {cfg : Config} {canId : ℕ} {slot : Slot}
    (found : cfg.motorGetByCanid canId = some (some slot)) : slot.canId = canId :=
  search_canId 256 found

end Robocon.Dji
