/-
**The chassis layer (`chassis.c`).**

A chassis hands its wheels to two functions of its `Ops`: the module converts between the motion
of the chassis and the data of the wheels, the driver exchanges these data with the motors. Both
get the one record `ops->date` as output, as input or not at all.

Numbers are exact. What the motors report is part of the input of a call, and what they are told
is its output.
-/

import Robocon.Lib.Trunc

namespace Robocon.Chassis

/-- `chassis_status`. -/
inductive Status
  | idle
  | speed
  | pos
  deriving DecidableEq

/-- `chassis_speed_t`. -/
structure Speed (K : Type) where
  xMS : K
  yMS : K
  zRadS : K
  deriving DecidableEq

/-- `chassis_pos_t`. -/
structure Pos (K : Type) where
  xM : K
  yM : K
  zRad : K
  deriving DecidableEq

/-- `chassis_data_t`. -/
structure Data (K : Type) where
  speed : Speed K
  pos : Pos K
  deriving DecidableEq

/-- `chassis_t`, less `ops`. -/
structure State (K : Type) where
  target : Data K
  present : Data K
  runStatus : Status
  offset : Data K
  deriving DecidableEq

/-- `chassis_ops_t`. The two flags of a function say whether its arguments `output` and `input` are
the record `date` or null. -/
structure Ops (K Date Reading Command : Type) where
  moduleOp : State K → Date → (output input : Bool) → Status → State K × Date
  driverOp : Date → Reading → (output input : Bool) → Status → Date × List Command

section Layer

variable {K Date Reading Command : Type} (ops : Ops K Date Reading Command)

/-- `chassis_set_speed`. -/
def setSpeed (chassis : State K) (data : Speed K) : State K :=
  { chassis with target := { chassis.target with speed := data }, runStatus := .speed }

/-- `chassis_set_pos`. -/
def setPos (chassis : State K) (data : Pos K) : State K :=
  { chassis with target := { chassis.target with pos := data }, runStatus := .pos }

/-- The motors are read, and what they report becomes the present motion: `chassis_updata_speed` and
`chassis_updata_pos`. -/
def updata (cmd : Status) (chassis : State K) (date : Date) (reading : Reading) :
    State K × Date :=
  ops.moduleOp chassis (ops.driverOp date reading false true cmd).1 false true cmd

/-- The target becomes commands to the motors: `chassis_drv_set_speed` and `chassis_drv_set_pos`. -/
def drvSet (cmd : Status) (chassis : State K) (date : Date) (reading : Reading) :
    State K × Date × List Command :=
  let (chassis, date) := ops.moduleOp chassis date true false cmd
  (chassis, ops.driverOp date reading true false cmd)

/-- `chassis_updata_offset`, the weak version: no correction of the position. -/
def updataOffset [Zero K] (chassis : State K) : State K :=
  { chassis with offset := { chassis.offset with pos := ⟨0, 0, 0⟩ } }

/-- `chassis_handle`, with the version of `chassis_updata_offset` that is linked. -/
def handle (updataOffset : State K → State K) (chassis : State K) (date : Date)
    (reading : Reading) : State K × Date × List Command :=
  let (chassis, date) := updata ops .speed chassis date reading
  let (chassis, date) := updata ops .pos chassis date reading
  let chassis := updataOffset chassis
  match chassis.runStatus with
  | .idle => (chassis, date, [])
  | .speed => drvSet ops .speed chassis date reading
  | .pos => drvSet ops .pos chassis date reading

end Layer

end Robocon.Chassis
