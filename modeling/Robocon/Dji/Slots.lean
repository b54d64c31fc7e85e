/-
**The slots of the group frames.**

A number has one of the eight stored values, and the group frame of the number sends it big-endian.

* `word_bytes` — the two bytes of a slot are the stored value.
* `Drives.slotValue`, `Drives.djMotors`, `Drives.events` — what a torque call does, read off from
  two conditions: the call stores its value if it is in the high group or finds its gate open, and
  it writes the frame of its group if it finds its gate open.
-/

import Robocon.Lib.Words
import Robocon.Dji.Driver

namespace Robocon.Dji

open Lib

/-! ### Bytes -/

/-- The high and the low half of a word make up the word. -/
theorem word_split (w : UInt16) : word (w >>> 8).toUInt8 w.toUInt8 = w := join16 w

/-- The bytes of a current are its word, big-endian. -/
theorem word_bytes (iq : Int16) : (word (highByte iq) (lowByte iq)).toInt16 = iq := by
  rw [highByte, lowByte, word_split, Int16.toInt16_toUInt16]

/-- The bytes of a group frame for one motor. -/
def CanMsg.bytes (msg : CanMsg) (i : Fin 4) : UInt8 × UInt8 :=
  (msg.data.get ⟨2 * i, by omega⟩, msg.data.get ⟨2 * i + 1, by omega⟩)

theorem groupMsg_bytes (id : ℕ) (iq : Vector Int16 4) (i : Fin 4) :
    (groupMsg id iq).bytes i = (highByte (iq.get i), lowByte (iq.get i)) := by
  fin_cases i <;> rfl

/-- What a motor reads in a group frame: its two bytes, big-endian. -/
def CanMsg.current (msg : CanMsg) (i : Fin 4) : Int16 :=
  (word (msg.bytes i).1 (msg.bytes i).2).toInt16

/-! ### Slots -/

theorem place_eq_iff {num num' : Fin 8} (group : 4 ≤ num ↔ 4 ≤ num') :
    place num = place num' ↔ num = num' := by
  refine ⟨fun same => ?_, congrArg place⟩
  have same : num.val % 4 = num'.val % 4 := congrArg Fin.val same
  have bound := num.isLt
  have bound' := num'.isLt
  apply Fin.ext
  change 4 ≤ num.val ↔ 4 ≤ num'.val at group
  omega

theorem get_set (iq : Vector Int16 4) (i j : Fin 4) (tmpout : Int16) :
    (iq.set i tmpout).get j = if j = i then tmpout else iq.get j := by
  by_cases same : j = i
  · rw [if_pos same, same]
    exact Vector.getElem_set_self _
  · rw [if_neg same]
    exact Vector.getElem_set_ne _ _ fun place => same (Fin.ext place.symm)

/-- The id of the frame that carries the value of a number. -/
def groupId (num : Fin 8) : ℕ := if 4 ≤ num then canMotorAllId2 else canMotorAllId

theorem groupId_eq_iff {num num' : Fin 8} :
    groupId num = groupId num' ↔ (4 ≤ num ↔ 4 ≤ num') := by
  have ids : canMotorAllId2 ≠ canMotorAllId := by decide
  unfold groupId
  by_cases high : 4 ≤ num
  · by_cases high' : 4 ≤ num'
    · rw [if_pos high, if_pos high']
      exact iff_of_true rfl (iff_of_true high high')
    · rw [if_pos high, if_neg high']
      exact iff_of_false ids fun group => high' (group.mp high)
  · by_cases high' : 4 ≤ num'
    · rw [if_neg high, if_pos high']
      exact iff_of_false ids.symm fun group => high (group.mpr high')
    · rw [if_neg high, if_neg high']
      exact iff_of_true rfl (iff_of_false high high')

namespace State

/-- The stored value that goes out to a number. -/
def slotValue (s : State) (num : Fin 8) : Int16 :=
  if 4 ≤ num then s.iq1High.get (place num) else s.iq1Low.get (place num)

theorem slotValue_initial (num : Fin 8) : initial.slotValue num = 0 := by
  unfold slotValue
  split
  · exact Vector.getElem_replicate _
  · exact Vector.getElem_replicate _

theorem slotValue_storeHigh (s : State) {motor : Macro} (tmpout : Int16)
    (numbered : 4 ≤ motor.slot.num) (num : Fin 8) :
    (s.storeHigh motor tmpout).slotValue num =
      if num = motor.slot.num then tmpout else s.slotValue num := by
  unfold slotValue storeHigh
  by_cases high : 4 ≤ num
  · rw [if_pos high, if_pos high, get_set]
    simp only [place_eq_iff (iff_of_true high numbered)]
  · have apart : num ≠ motor.slot.num := fun same => high (same ▸ numbered)
    rw [if_neg high, if_neg high, if_neg apart]

theorem slotValue_storeLow (s : State) {motor : Macro} (tmpout : Int16)
    (numbered : ¬ 4 ≤ motor.slot.num) (num : Fin 8) :
    (s.storeLow motor tmpout).slotValue num =
      if num = motor.slot.num then tmpout else s.slotValue num := by
  unfold slotValue storeLow
  by_cases high : 4 ≤ num
  · have apart : num ≠ motor.slot.num := fun same => numbered (same ▸ high)
    rw [if_pos high, if_pos high, if_neg apart]
  · rw [if_neg high, if_neg high, get_set]
    simp only [place_eq_iff (iff_of_false high numbered)]

/-- The frame of the group of a number. -/
def groupMsg (s : State) (num : Fin 8) : CanMsg :=
  if 4 ≤ num then Dji.groupMsg canMotorAllId2 s.iq1High else Dji.groupMsg canMotorAllId s.iq1Low

/-- The event that writes the frame of the group of a number. -/
def groupWrite (s : State) (num : Fin 8) : Event := .write canDev (s.groupMsg num)

theorem groupMsg_id (s : State) (num : Fin 8) : (s.groupMsg num).id = groupId num := by
  unfold groupMsg groupId
  split <;> rfl

/-- In the frame of its group, a number has its slot value. -/
theorem groupMsg_bytes (s : State) {num num' : Fin 8} (group : 4 ≤ num' ↔ 4 ≤ num) :
    (s.groupMsg num).bytes (place num') =
      (highByte (s.slotValue num'), lowByte (s.slotValue num')) := by
  unfold groupMsg slotValue
  by_cases high : 4 ≤ num
  · rw [if_pos high, if_pos (group.mpr high), Dji.groupMsg_bytes]
  · rw [if_neg high, if_neg fun high' => high (group.mp high'), Dji.groupMsg_bytes]

end State

/-! ### What a torque call does -/

section Calls

variable {cfg : Config} {s s' : State} {motor : Macro} {tmpout : Int16} {written : Bool}
  {events : List Event}

/-- The condition on the frame of the group of a number. -/
def Config.gate (cfg : Config) (s : State) (num : Fin 8) : Bool :=
  if 4 ≤ num then cfg.highGate s else cfg.lowGate s

/-- The condition on storing a value: the high group stores before its gate. -/
def Config.stores (cfg : Config) (s : State) (num : Fin 8) : Bool := 4 ≤ num || cfg.lowGate s

theorem stores_of_high (numbered : 4 ≤ motor.slot.num) : cfg.stores s motor.slot.num = true := by
  rw [Config.stores, decide_eq_true numbered, Bool.true_or]

theorem stores_of_low (numbered : ¬ 4 ≤ motor.slot.num) :
    cfg.stores s motor.slot.num = cfg.lowGate s := by
  rw [Config.stores, decide_eq_false numbered, Bool.false_or]

/-- A call whose value is stored changes the slot of its number, and no call changes another. -/
theorem drives_slotValue (drives : Drives cfg s motor tmpout written s' events) (num : Fin 8) :
    s'.slotValue num = if cfg.stores s motor.slot.num then
      (if num = motor.slot.num then tmpout else s.slotValue num) else s.slotValue num := by
  cases drives with
  | high _ numbered _ => rw [if_pos (stores_of_high numbered), s.slotValue_storeHigh _ numbered]
  | highWaits _ numbered _ =>
    rw [if_pos (stores_of_high numbered), s.slotValue_storeHigh _ numbered]
  | low numbered gate => rw [stores_of_low numbered, if_pos gate, s.slotValue_storeLow _ numbered]
  | lowFails numbered gate =>
    rw [stores_of_low numbered, if_pos gate]
    exact s.slotValue_storeLow tmpout numbered num
  | lowWaits _ numbered gate => rw [stores_of_low numbered, if_neg gate]

/-- Only a failed write of the low group touches the records. -/
theorem drives_djMotors (drives : Drives cfg s motor tmpout written s' events) :
    s'.djMotors = if ¬ 4 ≤ motor.slot.num ∧ cfg.lowGate s ∧ written = false
      then s.outdate.djMotors else s.djMotors := by
  cases drives with
  | high _ numbered _ => rw [if_neg fun failed => failed.1 numbered]; rfl
  | highWaits _ numbered _ => rw [if_neg fun failed => failed.1 numbered]; rfl
  | low _ _ => rw [if_neg fun failed => Bool.noConfusion failed.2.2]; rfl
  | lowFails numbered gate => rw [if_pos ⟨numbered, gate, rfl⟩]; rfl
  | lowWaits _ _ gate => rw [if_neg fun failed => gate failed.2.1]

/-- Behind an open gate a call writes the frame of its group, with the slots as they are after
it. -/
theorem drives_events (drives : Drives cfg s motor tmpout written s' events) :
    events = if cfg.gate s motor.slot.num then [s'.groupWrite motor.slot.num] else [] := by
  unfold Config.gate State.groupWrite State.groupMsg
  cases drives with
  | high _ numbered gate => rw [if_pos numbered, if_pos gate, if_pos numbered]; rfl
  | highWaits _ numbered gate => rw [if_pos numbered, if_neg gate]
  | low numbered gate => rw [if_neg numbered, if_pos gate, if_neg numbered]; rfl
  | lowFails numbered gate => rw [if_neg numbered, if_pos gate, if_neg numbered]; rfl
  | lowWaits _ numbered gate => rw [if_neg numbered, if_neg gate]

end Calls

end Robocon.Dji
