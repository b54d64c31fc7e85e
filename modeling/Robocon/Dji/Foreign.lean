/-
**Frames of unknown motors (`ind_dj_can_motor_callback` in `motor_dj_rm_driver.c`).**

The filter of the receiving thread admits sixteen CAN ids. The callback uses what the search returns
for the id without looking at it.

* `receive` — the whole effect of the callback: on the records, on the measured quantities of the
  motor layer, and on the ring buffer.
* `takeEvent_feedback` — the three feedback calls change the measured quantities of one motor.
* `counts_iff` — a record takes an angle unless its turns leave the range of `int32_t`.
* `harmless_iff` — a frame does what it should exactly if the search finds a record for it, and the
  record takes its angle. On a single bus the search finds a record exactly for the ids of the
  enabled motors.
-/

import Robocon.Dji.Current
import Robocon.Dji.Search
import Robocon.Dji.TotalAngle

namespace Robocon.Dji

open Lib

/-- The standard ids that the filter `{.id = 0x200, .mask = 0x7f0}` admits. -/
def CanMsg.Admitted (msg : CanMsg) : Prop := 0x200 ≤ msg.id ∧ msg.id ≤ 0x20F

instance (msg : CanMsg) : Decidable msg.Admitted := inferInstanceAs (Decidable (_ ∧ _))

/-- The byte that the callback puts into the ring buffer. -/
def Event.put : Event → Option ℕ
  | .putchar id => some id
  | _ => none

/-! ### Records -/

/-- The turns of a record after an angle. -/
def Measure.turns (m : Measure) (angle : UInt16) : ℤ :=
  if (angle.toNat : ℤ) - m.angle.toNat > 4096 then m.roundCnt - 1
  else if (angle.toNat : ℤ) - m.angle.toNat < -4096 then m.roundCnt + 1
  else m.roundCnt

/-- The `int32_t` arithmetic on the turns of a calibrated record does not overflow. -/
structure Measure.InRange (m : Measure) (angle : UInt16) : Prop where
  turns : -2 ^ 31 ≤ m.turns angle ∧ m.turns angle < 2 ^ 31
  rounds : -2 ^ 31 ≤ m.turns angle * 8191 ∧ m.turns angle * 8191 < 2 ^ 31
  absolute : -2 ^ 31 ≤ m.turns angle * 8191 + angle.toNat ∧
    m.turns angle * 8191 + angle.toNat < 2 ^ 31
  total : -2 ^ 31 ≤ m.turns angle * 8191 + angle.toNat - m.offsetAngle.toNat ∧
    m.turns angle * 8191 + angle.toNat - m.offsetAngle.toNat < 2 ^ 31

theorem int32_of_range {x : ℤ} (range : -2 ^ 31 ≤ x ∧ x < 2 ^ 31) : int32 x = some x :=
  if_pos range

theorem int32_range {x y : ℤ} (computed : int32 x = some y) : -2 ^ 31 ≤ x ∧ x < 2 ^ 31 := by
  unfold int32 at computed
  split at computed
  case isTrue range => exact range
  case isFalse => cases computed

/-- **A record takes an angle** exactly if it is still counting, or its turns stay in range. -/
theorem counts_iff {m : Measure} {angle : UInt16} :
    (∃ m', m.receive angle = some m') ↔ (¬ m.msgCnt < 50 → m.InRange angle) := by
  unfold Measure.receive
  by_cases short : m.msgCnt < 50
  · rw [if_pos short]
    exact iff_of_true ⟨_, rfl⟩ fun long => absurd short long
  · rw [if_neg short]
    refine ⟨fun ⟨m', received⟩ _ => ?_, fun range => ?_⟩
    · obtain ⟨roundCnt, counted, rest⟩ := Option.bind_eq_some_iff.mp received
      obtain ⟨rounds, multiplied, rest⟩ := Option.bind_eq_some_iff.mp rest
      obtain ⟨absolute, added, rest⟩ := Option.bind_eq_some_iff.mp rest
      obtain ⟨totalAngle, subtracted, -⟩ := Option.bind_eq_some_iff.mp rest
      have turns : roundCnt = m.turns angle := int32_eq counted
      have range := int32_range counted
      have one := int32_range multiplied
      have two := int32_range added
      have three := int32_range subtracted
      rw [int32_eq added, int32_eq multiplied, turns] at three
      rw [int32_eq multiplied, turns] at two
      rw [turns] at one
      exact ⟨range, one, two, three⟩
    · obtain ⟨turns, rounds, absolute, total⟩ := range short
      show ∃ m', (int32 (m.turns angle)).bind _ = some m'
      rw [int32_of_range turns]
      show ∃ m', (int32 (m.turns angle * 8191)).bind _ = some m'
      rw [int32_of_range rounds]
      show ∃ m', (int32 (m.turns angle * 8191 + angle.toNat)).bind _ = some m'
      rw [int32_of_range absolute]
      show ∃ m', (int32 (m.turns angle * 8191 + angle.toNat - m.offsetAngle.toNat)).bind _ = some m'
      rw [int32_of_range total]
      exact ⟨_, rfl⟩

/-! ### The search -/

theorem searchTable_mem {Record : Type*} {canId : Record → ℕ} {table : List Record} {id : ℕ}
    {record : Record} (fuel : ℕ) : ∀ {left right : UInt8},
      searchTable canId table id fuel left right = some (some record) → record ∈ table := by
  induction fuel with
  | zero => exact fun found => by cases found
  | succ fuel ih =>
    intro left right found
    unfold searchTable at found
    split at found
    · simp only at found
      split at found
      · cases found
      case h_2 here read =>
        split at found
        · obtain rfl := Option.some.inj (Option.some.inj found)
          exact List.mem_of_getElem? read
        · split at found
          · exact ih found
          · exact ih found
    · cases found

theorem motorGetByCanid_mem {cfg : Config} {canId : ℕ} {slot : Slot}
    (found : cfg.motorGetByCanid canId = some (some slot)) : slot ∈ cfg.djSlots := by
  rw [motorGetByCanid_eq] at found
  exact searchTable_mem 256 found

/-- All enabled motors are on one bus. -/
def Config.OneBus (cfg : Config) : Prop := ∃ bus, ∀ slot ∈ cfg.djSlots, slot.bus = bus

/-- The id belongs to an enabled motor. -/
def Config.Known (cfg : Config) (canId : ℕ) : Prop := ∃ slot ∈ cfg.djSlots, slot.canId = canId

/-- The search finds a record. -/
def Config.Finds (cfg : Config) (canId : ℕ) : Prop :=
  ∃ slot, cfg.motorGetByCanid canId = some (some slot)

theorem Config.Finds.known {cfg : Config} {canId : ℕ} (finds : cfg.Finds canId) :
    cfg.Known canId := by
  obtain ⟨slot, found⟩ := finds
  exact ⟨slot, motorGetByCanid_mem found, motorGetByCanid_canId found⟩

theorem Config.OneBus.ascending {cfg : Config} (single : cfg.OneBus) :
    Ascending Slot.canId cfg.djSlots := by
  obtain ⟨bus, same⟩ := single
  have ordered : (Bus.can1.slots ++ Bus.can2.slots).Pairwise fun first second =>
      first.bus = second.bus → first.canId < second.canId := by decide
  refine List.Pairwise.imp_of_mem (fun member member' order => ?_) (ordered.filter _)
  exact order ((same _ member).trans (same _ member').symm)

/-- **On one bus** the search finds a record for the ids of the enabled motors. -/
theorem Config.OneBus.finds_iff {cfg : Config} (single : cfg.OneBus) (canId : ℕ) :
    cfg.Finds canId ↔ cfg.Known canId := by
  refine ⟨Config.Finds.known, fun ⟨slot, member, same⟩ => ⟨slot, ?_⟩⟩
  have small : cfg.djSlots.length ≤ 24 := (List.length_filter_le _ _).trans (by decide)
  have ascending := single.ascending
  rw [motorGetByCanid_eq, ← same]
  cases table : cfg.djSlots with
  | nil =>
    rw [table] at member
    cases member
  | cons head tail =>
    rw [table] at member small ascending
    rw [getByCanid_eq small ascending (ascending.head_le member) (by omega),
      ascending.scan_eq member]

/-! ### The motor layer -/

section Feedback

variable {K P : Type} [Field K] [LinearOrder K] [FloorRing K] {num : ℕ}

omit [Field K] [LinearOrder K] [FloorRing K] in
/-- A feedback function never fails, and writes to the motor of its id only. -/
theorem feedback_get (motors : Vector (Motors.Motor K P) num) (id : ℕ)
    (store : Motors.Motor K P → Motors.Motor K P) :
    ∃ after, Motors.feedback motors id store = some (after, []) ∧
      ∀ j : Fin num, after.get j = if (j : ℕ) = id then store (motors.get j) else motors.get j := by
  by_cases past : num ≤ id
  · refine ⟨motors, if_pos (Nat.cast_le.mpr past), fun j => ?_⟩
    have other : (j : ℕ) ≠ id := by omega
    rw [if_neg other]
  · have valid : 0 ≤ (id : ℤ) ∧ (id : ℤ).toNat < num := ⟨Int.natCast_nonneg id, by omega⟩
    have step : Motors.feedback motors id store = Motors.withMotor motors id
        (fun m => some (store m, [])) := if_neg fun le => past (Nat.cast_le.mp le)
    obtain ⟨after, done⟩ : ∃ after, Motors.withMotor motors id
        (fun m => some (store m, ([] : List (Motors.Event K)))) = some (after, []) :=
      ⟨_, dif_pos valid⟩
    refine ⟨after, step.trans done, fun j => ?_⟩
    rcases Motors.withMotor_get done j with ⟨here, stored⟩ | ⟨other, same⟩
    · rw [if_pos (Nat.cast_inj.mp here).symm]
      exact (Prod.mk.inj (Option.some.inj stored)).1.symm
    · rw [if_neg fun here => other (congrArg _ here.symm)]
      exact same

variable (expf : K → K) (apid : Motors.Apid K P) (cfg : Config) (kk : K)

/-- **The three feedback calls** change the measured quantities of one motor. -/
theorem takeEvent_feedback (motors : Vector (Motors.Motor K P) num) (id : ℕ)
    (speed torque : Int16) (totalAngle : ℤ) :
    ∃ after, takeEvent expf apid kk motors (.feedback id speed torque totalAngle) = some after ∧
      ∀ j : Fin num, after.get j =
        if (j : ℕ) = id then { motors.get j with
          curSpeed := speed.toInt
          curTorque := torque.toInt
          curPos := totalAngle * kk }
        else motors.get j := by
  obtain ⟨first, fed, get⟩ := feedback_get motors id
    fun m => { m with curSpeed := (speed.toInt : K) }
  obtain ⟨second, fed', get'⟩ := feedback_get first id
    fun m => { m with curTorque := (torque.toInt : K) }
  obtain ⟨third, fed'', get''⟩ := feedback_get second id
    fun m => { m with curPos := (totalAngle : K) * kk }
  refine ⟨third, ?_, fun j => ?_⟩
  · refine Option.bind_eq_some_iff.mpr ⟨_, fed, ?_⟩
    refine Option.bind_eq_some_iff.mpr ⟨_, fed', ?_⟩
    exact Option.bind_eq_some_iff.mpr ⟨_, fed'', rfl⟩
  · rw [get'' j, get' j, get j]
    by_cases here : (j : ℕ) = id
    · simp only [if_pos here]
    · simp only [if_neg here]

/-! ### The callback -/

/-- What `ind_dj_can_motor_callback` leaves behind: the motors, the records, and the bytes put into
the ring buffer. -/
def receive (motors : Vector (Motors.Motor K P) num) (s : State) (msg : CanMsg) :
    Option (Vector (Motors.Motor K P) num × State × List ℕ) := do
  let (s, events) ← callback cfg s msg
  let motors ← events.foldlM (takeEvent expf apid kk) motors
  return (motors, s, events.filterMap Event.put)

/-- The changes of one motor: its record, its measured quantities, and one byte in the ring
buffer. -/
structure Confined (slot : Slot) (motors after : Vector (Motors.Motor K P) num) (s s' : State)
    (bytes : List ℕ) : Prop where
  record : ∃ measure, s' = s.setRecord slot measure
  measured : ∃ speed torque pos : K, ∀ j : Fin num, after.get j =
    if (j : ℕ) = cfg.recordId slot then
      { motors.get j with curSpeed := speed, curTorque := torque, curPos := pos }
    else motors.get j
  byte : bytes = [cfg.recordId slot]

/-- **What is asked of a frame.** The callback returns. It changes what belongs to a motor with the
id of the frame, and nothing if no enabled motor has it. -/
def Harmless (motors : Vector (Motors.Motor K P) num) (s : State) (msg : CanMsg) : Prop :=
  ∃ after s' bytes, receive expf apid cfg kk motors s msg = some (after, s', bytes) ∧
    (cfg.Known msg.id → ∃ slot ∈ cfg.djSlots, slot.canId = msg.id ∧
      Confined cfg slot motors after s s' bytes) ∧
    (¬ cfg.Known msg.id → after = motors ∧ s' = s ∧ bytes = [])

variable {expf apid cfg kk}

theorem receive_confined {s : State} {msg : CanMsg} {slot : Slot} {measure : Measure}
    (motors : Vector (Motors.Motor K P) num)
    (found : cfg.motorGetByCanid (msg.id % 2 ^ 16) = some (some slot))
    (received : (s.djMotors slot).receive msg.angle = some measure) :
    ∃ after s' bytes, receive expf apid cfg kk motors s msg = some (after, s', bytes) ∧
      Confined cfg slot motors after s s' bytes := by
  obtain ⟨events, stepped⟩ := callback_received found received
  obtain ⟨slot', measure', found', -, -, shape⟩ := callback_cases stepped
  obtain rfl : slot = slot' := Option.some.inj (Option.some.inj (found.symm.trans found'))
  obtain ⟨after, taken, get⟩ := takeEvent_feedback expf apid kk motors (cfg.recordId slot)
    (word msg.data[2] msg.data[3]).toInt16 (word msg.data[4] msg.data[5]).toInt16
    measure'.totalAngle
  refine ⟨after, s.setRecord slot measure, [cfg.recordId slot], ?_, ⟨⟨measure, rfl⟩,
    ⟨_, _, _, get⟩, rfl⟩⟩
  rw [receive, stepped, shape]
  refine Option.bind_eq_some_iff.mpr ⟨_, rfl, ?_⟩
  refine Option.bind_eq_some_iff.mpr ⟨after, ?_, rfl⟩
  rw [List.foldlM_cons, taken]
  rfl

/-- **A frame is harmless** exactly if the search finds a record for its id, and the record takes
its angle. On one bus the search finds a record for the ids of the enabled motors. -/
theorem harmless_iff {motors : Vector (Motors.Motor K P) num} {s : State} {msg : CanMsg}
    (admitted : msg.Admitted) :
    (Harmless expf apid cfg kk motors s msg ↔
      ∃ slot, cfg.motorGetByCanid msg.id = some (some slot) ∧
        (¬ (s.djMotors slot).msgCnt < 50 → (s.djMotors slot).InRange msg.angle)) ∧
    (cfg.OneBus → (cfg.Finds msg.id ↔ cfg.Known msg.id)) := by
  have whole : msg.id % 2 ^ 16 = msg.id := Nat.mod_eq_of_lt (by have := admitted.2; omega)
  refine ⟨⟨fun ⟨_, _, _, stepped, _⟩ => ?_, fun ⟨slot, found, range⟩ => ?_⟩,
    fun single => single.finds_iff msg.id⟩
  · obtain ⟨⟨dji, events⟩, called, -⟩ := Option.bind_eq_some_iff.mp stepped
    obtain ⟨slot, measure, found, received, -⟩ := callback_cases called
    rw [whole] at found
    exact ⟨slot, found, counts_iff.mp ⟨measure, received⟩⟩
  · obtain ⟨measure, received⟩ := counts_iff.mpr range
    have known : cfg.Known msg.id := Config.Finds.known ⟨slot, found⟩
    have member := motorGetByCanid_mem found
    have own := motorGetByCanid_canId found
    rw [← whole] at found
    obtain ⟨after, s', bytes, stepped, confined⟩ := receive_confined motors found received
    exact ⟨after, s', bytes, stepped, fun _ => ⟨slot, member, own, confined⟩,
      fun unknown => absurd known unknown⟩

end Feedback

/-! ### One motor -/

/-- A frame of zeros with a CAN id. -/
def zeros (id : ℕ) : CanMsg := ⟨id, Vector.replicate 8 0⟩

theorem harmless_lone :
    Harmless (fun _ => 1) Motors.still shipped 1 #v[Motors.fresh] State.initial (zeros 0x201) :=
  (harmless_iff (by decide)).1.mpr ⟨⟨.can1, 0⟩, by decide +kernel,
    fun long => absurd (by decide) long⟩

/-- **A frame with the id of no motor.** The filter admits it, the search returns `RT_NULL`, and the
callback reads the counter of that. -/
theorem foreign_null :
    shipped.Compiles ∧ (zeros 0x20F).Admitted ∧ shipped.motorGetByCanid 0x20F = some none ∧
      ¬ Harmless (fun _ => 1) Motors.still shipped 1 #v[Motors.fresh] State.initial
        (zeros 0x20F) := by
  have lost : shipped.motorGetByCanid 0x20F = some none := by decide +kernel
  refine ⟨by decide, by decide, lost, fun ⟨_, _, _, stepped, _⟩ => ?_⟩
  unfold receive at stepped
  obtain ⟨_, called, -⟩ := Option.bind_eq_some_iff.mp stepped
  obtain ⟨slot, _, found, -⟩ := callback_cases called
  rw [show (zeros 0x20F).id % 2 ^ 16 = 0x20F from rfl, lost] at found
  cases Option.some.inj found

end Robocon.Dji
