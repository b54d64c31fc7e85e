/-
**The multi-turn angle of a DJI motor.**

The frames of a motor carry its position modulo `8192`. After the fifty frames of the calibration
the record follows the position (`Follows`): it holds the wrapped position, the wrapped position of
the fiftieth frame and the exact number of turns since. `totalAngle` counts `8191` for a turn, so it
is short by the number of turns (`totalAngle_eq`).
-/

import Robocon.Dji.Driver
import Robocon.Lib.Turns

namespace Robocon.Dji

open Lib

/-! ### One record -/

/-- The angle that a frame carries. -/
def wrap (p : ℤ) : UInt16 := UInt16.ofNat (p % 8192).toNat

theorem wrap_toNat (p : ℤ) : ((wrap p).toNat : ℤ) = p % 8192 := by
  have low := Int.emod_nonneg p (show (8192 : ℤ) ≠ 0 by decide)
  have high := Int.emod_lt_of_pos p (show (0 : ℤ) < 8192 by decide)
  rw [wrap, UInt16.toNat_ofNat']
  omega

theorem int32_eq {x y : ℤ} (computed : int32 x = some y) : y = x := by
  unfold int32 at computed
  split at computed
  · exact (Option.some.inj computed).symm
  · cases computed

/-- A record that counts takes the angle as its offset. -/
theorem receive_counting {m m' : Measure} {angle : UInt16} (short : m.msgCnt < 50)
    (received : m.receive angle = some m') :
    m' = { m with msgCnt := m.msgCnt + 1, offsetAngle := angle, angle := angle } := by
  unfold Measure.receive at received
  rw [if_pos short] at received
  exact (Option.some.inj received).symm

theorem receive_counted {m m' : Measure} {angle : UInt16} (long : ¬ m.msgCnt < 50)
    (received : m.receive angle = some m') :
    ∃ roundCnt : ℤ, roundCnt = (if (angle.toNat : ℤ) - m.angle.toNat > 4096 then m.roundCnt - 1
        else if (angle.toNat : ℤ) - m.angle.toNat < -4096 then m.roundCnt + 1 else m.roundCnt) ∧
      m' = { m with
        lastAngle := m.angle
        angle := angle
        roundCnt := roundCnt
        msgCnt := 0xff
        totalAngle := roundCnt * 8191 + angle.toNat - m.offsetAngle.toNat } := by
  unfold Measure.receive at received
  rw [if_neg long] at received
  obtain ⟨roundCnt, counted, rest⟩ := Option.bind_eq_some_iff.mp received
  obtain ⟨rounds, multiplied, rest⟩ := Option.bind_eq_some_iff.mp rest
  obtain ⟨absolute, added, rest⟩ := Option.bind_eq_some_iff.mp rest
  obtain ⟨totalAngle, subtracted, done⟩ := Option.bind_eq_some_iff.mp rest
  refine ⟨roundCnt, int32_eq counted, ?_⟩
  rw [← Option.some.inj done, int32_eq subtracted, int32_eq added, int32_eq multiplied]

/-- The record follows the position `p` since the position `base`. -/
structure Follows (base p : ℤ) (m : Measure) : Prop where
  offset : m.offsetAngle = wrap base
  angle : m.angle = wrap p
  rounds : m.roundCnt = p / 8192 - base / 8192

/-- **One frame after the calibration.** The record follows the position, and the total angle is
short by one count for every turn. -/
theorem receive_follows {base p q : ℤ} {m m' : Measure} (ready : ¬ m.msgCnt < 50)
    (follows : Follows base p m) (near : |q - p| < 4096)
    (received : m.receive (wrap q) = some m') :
    Follows base q m' ∧ m'.msgCnt = 0xff ∧
      m'.totalAngle = q - base - (q / 8192 - base / 8192) := by
  obtain ⟨roundCnt, counted, rfl⟩ := receive_counted ready received
  have turned : q / 8192 = p / 8192 + turn 8192 (p % 8192) (q % 8192) :=
    turns_eq (by decide) (by linarith)
  have count : roundCnt = q / 8192 - base / 8192 := by
    rw [counted, turned, follows.rounds]
    simp only [follows.angle, wrap_toNat]
    unfold turn
    split_ifs <;> omega
  refine ⟨⟨follows.offset, rfl, count⟩, rfl, ?_⟩
  have total : roundCnt * 8191 + (wrap q).toNat - m.offsetAngle.toNat =
      roundCnt * 8191 + q % 8192 - base % 8192 := by
    simp only [wrap_toNat, follows.offset]
  have last := Int.mul_ediv_add_emod q 8192
  have first := Int.mul_ediv_add_emod base 8192
  refine total.trans ?_
  rw [count]
  linarith

/-- What the record holds after the frames of `positions`. -/
inductive Tracked (positions : List ℤ) (m : Measure) : Prop
  | calibrating (short : positions.length ≤ 50) (counted : m.msgCnt.toNat = positions.length)
      (rounds : m.roundCnt = 0) (here : ∀ p, positions.getLast? = some p → Follows p p m)
  | tracking (base p : ℤ) (long : 50 < positions.length) (ready : m.msgCnt = 0xff)
      (calibrated : positions[49]? = some base) (here : positions.getLast? = some p)
      (follows : Follows base p m)
      (total : m.totalAngle = p - base - (p / 8192 - base / 8192))

theorem Tracked.next {positions : List ℤ} {q : ℤ} {m m' : Measure} (tracked : Tracked positions m)
    (near : ∀ p, positions.getLast? = some p → |q - p| < 4096)
    (received : m.receive (wrap q) = some m') : Tracked (positions ++ [q]) m' := by
  have last : (positions ++ [q]).getLast? = some q := List.getLast?_concat
  cases tracked with
  | calibrating short counted rounds here =>
    by_cases more : positions.length < 50
    · have ready : m.msgCnt < 50 := by
        rw [UInt8.lt_iff_toNat_lt, counted]
        exact more
      obtain rfl := receive_counting ready received
      refine .calibrating (by simpa using more) ?_ rounds fun p same => ?_
      · have one : (1 : UInt8).toNat = 1 := rfl
        rw [UInt8.toNat_add, counted, one, List.length_append, List.length_singleton]
        exact Nat.mod_eq_of_lt (by omega)
      · rw [last] at same
        obtain rfl := Option.some.inj same
        exact ⟨rfl, rfl, by rw [sub_self]; exact rounds⟩
    · have full : positions.length = 50 := le_antisymm short (not_lt.mp more)
      have ready : ¬ m.msgCnt < 50 := by
        rw [UInt8.lt_iff_toNat_lt, counted]
        exact more
      obtain ⟨p, same⟩ : ∃ p, positions[49]? = some p :=
        ⟨_, List.getElem?_eq_getElem (by omega)⟩
      have end_ : positions.getLast? = some p := by
        rw [List.getLast?_eq_getElem?, full]
        exact same
      obtain ⟨follows, fresh, total⟩ := receive_follows ready (here p end_) (near p end_) received
      refine .tracking p q ?_ fresh ?_ last follows total
      · rw [List.length_append, full, List.length_singleton]
        decide
      · rw [List.getElem?_append_left (by omega)]
        exact same
  | tracking base p long ready calibrated here follows total =>
    have past : ¬ m.msgCnt < 50 := by
      rw [ready]
      decide
    obtain ⟨follows, fresh, total⟩ := receive_follows past follows (near p here) received
    refine .tracking base q ?_ fresh ?_ last follows total
    · rw [List.length_append]
      omega
    · rw [List.getElem?_append_left (by omega)]
      exact calibrated

/-! ### Runs of the driver -/

section Run

variable {K : Type} [Field K] [LinearOrder K] [FloorRing K] {cfg : Config} {canId : ℕ} {slot : Slot}

/-- The angles that the frames with a CAN id carry. -/
def Input.angles (canId : ℕ) : Input K → List UInt16
  | .drive .. => []
  | .frame msg => if msg.id % 2 ^ 16 = canId then [msg.angle] else []

/-- The input is no call whose frame is not written. -/
def Input.Written : Input K → Prop
  | .drive _ _ _ written => written = true
  | .frame _ => True

instance (input : Input K) : Decidable input.Written :=
  match input with
  | .drive _ _ _ written => inferInstanceAs (Decidable (written = true))
  | .frame _ => .isTrue trivial

/-- A call whose frame is written leaves the records alone. -/
theorem drive_djMotors {s s' : State} {motor : Macro} {mode : Mode} {value : K}
    {events : List Event} (step : motorDjDriver cfg s motor mode value true = some (s', events)) :
    s'.djMotors = s.djMotors := by
  obtain ⟨tmpout, -, ⟨-, drives⟩ | ⟨-, rfl, -⟩⟩ := drive_cases step
  · cases drives <;> rfl
  · rfl

/-- **One step, seen from a record.** It receives the angle of the frame, if the frame has its CAN
id, and is left alone otherwise. -/
theorem record_step (found : cfg.motorGetByCanid canId = some (some slot)) {s s' : State}
    {input : Input K} {events : List Event} (written : input.Written)
    (step : (driver cfg).step s input = some (s', events)) :
    input.angles canId = [] ∧ s'.djMotors slot = s.djMotors slot ∨
      ∃ angle, input.angles canId = [angle] ∧
        (s.djMotors slot).receive angle = some (s'.djMotors slot) := by
  cases input with
  | drive motor mode value written' =>
    obtain rfl : written' = true := written
    exact Or.inl ⟨rfl, congrFun (drive_djMotors step) slot⟩
  | frame msg =>
    obtain ⟨slot', measure, found', received, rfl, -⟩ := callback_cases step
    by_cases same : msg.id % 2 ^ 16 = canId
    · rw [same, found] at found'
      obtain rfl := Option.some.inj (Option.some.inj found')
      refine Or.inr ⟨_, if_pos same, ?_⟩
      rw [received]
      exact congrArg some (s.setRecord_self slot measure).symm
    · refine Or.inl ⟨if_neg same, s.setRecord_of_ne measure ?_⟩
      rintro rfl
      exact same ((motorGetByCanid_canId found').symm.trans (motorGetByCanid_canId found))

/-- The frames with the record's CAN id carry the positions. -/
def Carries (canId : ℕ) (positions : List ℤ) (inputs : List (Input K)) : Prop :=
  inputs.flatMap (Input.angles canId) = positions.map wrap ∧
    positions.IsChain fun p q => |q - p| < 4096

/-- **The record tracks the positions** over every run in which no frame fails to be written. -/
theorem run_tracked (found : cfg.motorGetByCanid canId = some (some slot))
    {inputs : List (Input K)} {outs : List Event} {s : State}
    (run : (driver cfg).RunOn (fun _ input => input.Written) State.initial inputs outs s)
    {positions : List ℤ} (carries : Carries canId positions inputs) :
    Tracked positions (s.djMotors slot) := by
  have tracks := run.history (fun past s => ∀ positions, Carries canId positions past →
    Tracked positions (s.djMotors slot)) ?_ [] ?_
  · exact tracks positions carries
  · intro past s input next output written tracks step positions carries
    obtain ⟨carried, slow⟩ := carries
    rw [List.flatMap_append, List.flatMap_singleton] at carried
    rcases record_step found written step with ⟨none, same⟩ | ⟨angle, one, received⟩
    · rw [none, List.append_nil] at carried
      rw [same]
      exact tracks positions ⟨carried, slow⟩
    · rw [one] at carried
      obtain ⟨early, last, rfl, init, wrapped⟩ := List.append_eq_map_iff.mp carried
      obtain ⟨q, rfl, rfl⟩ := List.map_eq_singleton_iff.mp wrapped
      have chain := List.isChain_append.mp slow
      refine (tracks early ⟨init.symm, chain.1⟩).next (fun p here => ?_) received
      exact chain.2.2 p here q rfl
  · intro positions carries
    obtain rfl := List.map_eq_nil_iff.mp carries.1.symm
    exact .calibrating (by decide) rfl rfl fun p none => by cases none

/-- **The total angle of a record** is exact only within the revolution of the fiftieth frame. -/
theorem totalAngle_iff (found : cfg.motorGetByCanid canId = some (some slot))
    {inputs : List (Input K)} {outs : List Event} {s : State}
    (run : (driver cfg).RunOn (fun _ input => input.Written) State.initial inputs outs s)
    {positions : List ℤ} (carries : Carries canId positions inputs) {base last : ℤ}
    (beyond : 50 < positions.length) (calibrated : positions[49]? = some base)
    (here : positions.getLast? = some last) :
    (s.djMotors slot).totalAngle = last - base ↔ last / 8192 = base / 8192 := by
  cases run_tracked found run carries with
  | calibrating short => exact absurd beyond (not_lt.mpr short)
  | tracking base' last' _ _ calibrated' here' _ total =>
    obtain rfl := Option.some.inj (calibrated.symm.trans calibrated')
    obtain rfl := Option.some.inj (here.symm.trans here')
    rw [total]
    omega

end Run

/-! ### One motor -/

/-- The frame of a motor with CAN id `0x201`. -/
def positionFrame (p : ℤ) : Input ℚ :=
  .frame ⟨0x201, #v[(wrap p >>> 8).toUInt8, (wrap p).toUInt8, 0, 0, 0, 0, 0, 0]⟩

/-- A motor that rests for the calibration and then moves within a revolution. -/
def nudge : List ℤ := List.replicate 50 8000 ++ [8100]

/-- A motor that rests for the calibration and then passes a revolution. -/
def lap : List ℤ := List.replicate 50 8000 ++ [8500]

/-- Within a revolution the total angle is exact. -/
theorem totalAngle_nudge :
    ∃ outs s, (driver shipped).RunOn (fun _ input => input.Written) State.initial
        (nudge.map positionFrame) outs s ∧
      ((s.djMotors ⟨.can1, 0⟩).totalAngle = 8100 - 8000 ↔ (8100 : ℤ) / 8192 = 8000 / 8192) := by
  obtain ⟨outs, s, run, -⟩ := Machine.exists_run (driver shipped) (fun _ input => input.Written)
    State.initial (nudge.map positionFrame) (fun _ _ => true) (by decide +kernel)
  have found : shipped.motorGetByCanid 0x201 = some (some ⟨.can1, 0⟩) := by decide +kernel
  have carries : Carries 0x201 nudge (nudge.map positionFrame) :=
    ⟨by decide +kernel, by decide +kernel⟩
  exact ⟨outs, s, run, totalAngle_iff found run carries (by decide) rfl (by decide +kernel)⟩

/-- **A turn costs a count.** The motor moved by `500` counts, and the total angle is `499`. -/
theorem totalAngle_lap :
    Carries 0x201 lap (lap.map positionFrame) ∧ 50 < lap.length ∧ lap[49]? = some 8000 ∧
      lap.getLast? = some 8500 ∧
      ∃ outs s, (driver shipped).RunOn (fun _ input => input.Written) State.initial
          (lap.map positionFrame) outs s ∧
        (s.djMotors ⟨.can1, 0⟩).totalAngle ≠ 8500 - 8000 := by
  obtain ⟨outs, s, run, short⟩ := Machine.exists_run (driver shipped)
    (fun _ input => input.Written) State.initial (lap.map positionFrame)
    (fun s _ => (s.djMotors ⟨.can1, 0⟩).totalAngle ≠ 8500 - 8000) (by decide +kernel)
  exact ⟨⟨by decide +kernel, by decide +kernel⟩, by decide, rfl, by decide +kernel, outs, s, run,
    of_decide_eq_true short⟩

end Robocon.Dji
