/-
**Speed and angle from a motor's own replies.**

* `Genuine l input` — the step sets speed and angle only to what a complete reply of that motor
  says, and that reply ends with the byte that is taken.
* `Answered l input` — if the byte completes the answer to a request for speed or angle, that answer
  was taken from the first byte of a reply on, and the reply is one of the motor that was asked.
* `Tracks` — what of the answer was taken from the oldest reply, ends there.
* `genuine_iff` — a run sets only genuine values exactly if all its steps are so answered.

The driver does not look at the address and at the last byte of an answer, and a command does not
drop what is left on the line, so a reply that is late answers the next request (`late_reply`).
-/

import Robocon.Stepper.Line

namespace Robocon.Stepper

open Lib

variable {K : Type*}

/-! ### The bytes of an answer -/

/-- The bytes of the answer that were taken from the oldest reply are the end of what was taken of
that reply. -/
structure Tracks (l : Line K) : Prop where
  empty : l.replies = [] → l.passed = 0
  passed : ∀ r, l.replies.head? = some r → l.passed < r.bytes.length
  index : ∀ rd, l.reader = some rd → rd.index < emmGetCmdReceiveSize rd.cmd
  bytes : ∀ rd r, l.reader = some rd → l.replies.head? = some r → rd.index ≤ l.passed →
    filled l.rxBuf rd.index = (r.bytes.take l.passed).drop (l.passed - rd.index)

theorem tracks_initial (motors : Pointer → StepperMotor K) : Tracks (Line.initial motors) :=
  ⟨fun _ => rfl, fun _ => nofun, fun _ => nofun, fun _ _ => nofun⟩

theorem Reply.bytes_length (r : Reply) : r.bytes.length = r.payload.length + 3 := by
  simp [bytes]

variable {l last : Line K} {events : List (Event K)}

theorem Tracks.command (tracks : Tracks l) {motor : Pointer} {c : Command}
    (step : l.emmTransmit motor c = some (last, events)) : Tracks last := by
  unfold Line.emmTransmit at step
  split at step
  · cases step
  · obtain ⟨rfl, -⟩ := Prod.mk.inj (Option.some.inj step)
    refine ⟨tracks.empty, tracks.passed, fun rd here => ?_, fun rd r here head _ => ?_⟩
    · obtain rfl := Option.some.inj here
      exact size_pos _
    · obtain rfl := Option.some.inj here
      have few : (r.bytes.take l.passed).length ≤ l.passed := List.length_take_le _ _
      exact (filled_zero _).trans (List.drop_eq_nil_of_le few).symm

theorem Tracks.reply (tracks : Tracks l) (r : Reply) :
    Tracks { l with replies := l.replies ++ [r] } := by
  cases replies : l.replies with
  | nil =>
    have none : l.passed = 0 := tracks.empty replies
    refine ⟨fun _ => none, fun other head => ?_, tracks.index, fun rd other here head start => ?_⟩
    · show l.passed < _
      rw [none, Reply.bytes_length]
      exact Nat.succ_pos _
    · have start : rd.index = 0 := Nat.le_zero.mp (none ▸ start)
      have few : (other.bytes.take l.passed).length ≤ l.passed := List.length_take_le _ _
      show filled l.rxBuf rd.index = (other.bytes.take l.passed).drop (l.passed - rd.index)
      rw [start, filled_zero, Nat.sub_zero]
      exact (List.drop_eq_nil_of_le few).symm
  | cons first rest =>
    have head : l.replies.head? = some first := by rw [replies]; rfl
    refine ⟨nofun, fun other here => ?_, tracks.index, fun rd other reading here few => ?_⟩
    · exact tracks.passed other (head.trans here)
    · exact tracks.bytes rd other reading (head.trans here) few

theorem take_drop_succ {bytes : List UInt8} {passed index : ℕ} {ch : UInt8}
    (here : bytes[passed]? = some ch) :
    (bytes.take (passed + 1)).drop (passed + 1 - (index + 1)) =
      (bytes.take passed).drop (passed - index) ++ [ch] := by
  have inside : passed < bytes.length := (List.getElem?_eq_some_iff.mp here).1
  have length : passed - index ≤ (bytes.take passed).length := by
    rw [List.length_take, min_eq_left inside.le]
    exact Nat.sub_le _ _
  rw [Nat.add_sub_add_right, List.take_add_one, here, List.drop_append_of_le_length length]
  rfl

/-! ### The byte that completes an answer -/

/-- The byte that is taken next is the last one of the reply. -/
def Line.Ends (l : Line K) (r : Reply) : Prop :=
  l.replies.head? = some r ∧ l.passed + 1 = r.bytes.length

section Complete

variable {rd : Reader} {r : Reply} {ch : UInt8}

/-- An answer that was taken from the first byte of the oldest reply on is the start of that
reply. -/
theorem answer_cells (tracks : Tracks l) (reading : l.reader = some rd)
    (head : l.replies.head? = some r) (here : r.bytes[l.passed]? = some ch)
    (aligned : l.passed = rd.index) (inside : rd.index < 64) {i : ℕ} (before : i ≤ rd.index) :
    cell (l.rxBuf.set rd.index ch inside) i = r.bytes.getD i 0 := by
  have start := tracks.bytes rd r reading head aligned.ge
  rw [aligned, Nat.sub_self, List.drop_zero] at start
  have filled_all : filled (l.rxBuf.set rd.index ch inside) (rd.index + 1) =
      r.bytes.take (rd.index + 1) := by
    rw [filled_set, start, List.take_add_one, ← aligned, here]
    rfl
  rw [cell_filled _ (Nat.lt_succ_of_le before), filled_all, List.getD_eq_getElem?_getD,
    List.getD_eq_getElem?_getD, List.getElem?_take_of_lt (Nat.lt_succ_of_le before)]

/-- **The byte that completes an answer** ends a reply of the motor exactly if the answer is that
reply. -/
theorem ends_iff (tracks : Tracks l) (reading : l.reader = some rd)
    (head : l.replies.head? = some r) (here : r.bytes[l.passed]? = some ch)
    (asks : rd.cmd = 0x35 ∨ rd.cmd = 0x36) (last : rd.index + 1 = emmGetCmdReceiveSize rd.cmd)
    (code : cell l.rxBuf 1 = rd.cmd) :
    (l.Ends r ∧ r.code = rd.cmd) ↔ l.passed = rd.index := by
  refine ⟨fun ⟨ends, same⟩ => ?_, fun aligned => ?_⟩
  · have length := r.size (same ▸ asks)
    have whole := ends.2
    rw [r.bytes_length, length, same, ← last] at whole
    exact Nat.succ.inj whole
  · have far : 1 < rd.index := by
      have long : 6 ≤ emmGetCmdReceiveSize rd.cmd := by
        rcases asks with speed | angle
        · rw [speed]
          decide
        · rw [angle]
          decide
      omega
    have inside : rd.index < 64 := by
      have short := size_le rd.cmd
      omega
    have second := answer_cells tracks reading head here aligned inside far.le
    have same : r.code = rd.cmd := by
      rw [cell, Vector.getElem?_set_ne _ far.ne', ← cell, code] at second
      exact second.symm
    have length := r.size (same ▸ asks)
    refine ⟨⟨head, ?_⟩, same⟩
    rw [r.bytes_length, length, same, ← last, aligned]

/-- A value that is decoded from the answer is decoded from a reply exactly if the motor that was
asked has answered. -/
theorem decoded_iff {Value : Type*} {decode : (ℕ → UInt8) → Value} (tracks : Tracks l)
    (reading : l.reader = some rd) (head : l.replies.head? = some r)
    (here : r.bytes[l.passed]? = some ch) (inside : rd.index < 64)
    (asks : rd.cmd = 0x35 ∨ rd.cmd = 0x36) (last : rd.index + 1 = emmGetCmdReceiveSize rd.cmd)
    (code : cell l.rxBuf 1 = rd.cmd)
    (reads : ∀ f g : ℕ → UInt8, (∀ i ≤ rd.index, f i = g i) → decode f = decode g) (id : UInt8) :
    (∃ other, l.Ends other ∧ other.code = rd.cmd ∧ other.address = id ∧
        decode (cell (l.rxBuf.set rd.index ch inside)) = decode fun i => other.bytes.getD i 0) ↔
      l.passed = rd.index ∧ r.address = id := by
  have whole := ends_iff tracks reading head here asks last code
  refine ⟨fun ⟨other, ends, same, address, _⟩ => ?_, fun ⟨aligned, address⟩ => ?_⟩
  · obtain rfl := Option.some.inj (head.symm.trans ends.1)
    exact ⟨whole.mp ⟨ends, same⟩, address⟩
  · obtain ⟨ends, same⟩ := whole.mpr aligned
    refine ⟨r, ends, same, address, reads _ _ fun i before => ?_⟩
    exact answer_cells tracks reading head here aligned inside before

end Complete

/-! ### What is set, and what should be -/

/-- A byte that completes the answer to a request for speed or angle is one of a reply that the
driver has taken as this answer from its first byte on, and of the motor that was asked. -/
def Answered (l : Line K) : Input → Prop
  | .take => ∀ rd ∈ l.reader, rd.cmd = 0x35 ∨ rd.cmd = 0x36 →
    rd.index + 1 = emmGetCmdReceiveSize rd.cmd → cell l.rxBuf 1 = rd.cmd →
    l.passed = rd.index ∧ ∀ r ∈ l.replies.head?, r.address = (l.motors rd.motor).stepperMotorId
  | _ => True

variable [Field K] [LinearOrder K] [FloorRing K]

/-- The event sets a field to what a reply of the motor says that ends with the next byte. -/
def FromReply (l : Line K) : Event K → Prop
  | .sent _ => True
  | .speed m value => ∃ r, l.Ends r ∧ r.code = 0x35 ∧
    r.address = (l.motors m).stepperMotorId ∧ value = speedOf fun i => r.bytes.getD i 0
  | .angle m value => ∃ r, l.Ends r ∧ r.code = 0x36 ∧
    r.address = (l.motors m).stepperMotorId ∧ value = angleOf fun i => r.bytes.getD i 0

/-- The step sets the fields of its events only, and those to genuine values. -/
def Genuine (l : Line K) (input : Input) : Prop :=
  ∀ next events, stepperLine.step l input = some (next, events) →
    next.motors = events.foldl record l.motors ∧ ∀ event ∈ events, FromReply l event

theorem Tracks.take (tracks : Tracks l) {rd : Reader} (reading : l.reader = some rd) {ch : UInt8}
    {l' : Line K} (taken : l.read = some (ch, l'))
    (step : l'.received rd ch = some (last, events)) : Tracks last := by
  obtain ⟨r, rest, replies, here, same⟩ := read_eq taken
  have head : l.replies.head? = some r := by
    rw [replies]
    rfl
  have inside : rd.index < 64 :=
    (tracks.index rd reading).trans_le ((size_le rd.cmd).trans (by decide))
  have empty : l'.replies = [] → l'.passed = 0 := by
    rw [same]
    split
    · intro none
      cases replies.symm.trans none
    · exact fun _ => rfl
  have passed : ∀ other, l'.replies.head? = some other → l'.passed < other.bytes.length := by
    rw [same]
    split
    · intro other first
      obtain rfl := Option.some.inj (head.symm.trans first)
      assumption
    · intro other _
      rw [Reply.bytes_length]
      exact Nat.succ_pos _
  have bytes : ∀ other, l'.replies.head? = some other → rd.index + 1 ≤ l'.passed →
      filled (l'.rxBuf.set rd.index ch inside) (rd.index + 1) =
        (other.bytes.take l'.passed).drop (l'.passed - (rd.index + 1)) := by
    rw [same]
    split
    · intro other first few
      obtain rfl := Option.some.inj (head.symm.trans first)
      rw [filled_set, take_drop_succ here]
      exact congrArg (· ++ [ch]) (tracks.bytes rd r reading head (Nat.le_of_succ_le_succ few))
    · exact fun _ _ few => absurd few (Nat.not_succ_le_zero _)
  rw [received_eq inside] at step
  split at step
  · obtain ⟨rfl, -⟩ := Prod.mk.inj (Option.some.inj step)
    exact ⟨empty, passed, fun _ => nofun, fun _ _ => nofun⟩
  · rename_i more
    obtain ⟨rfl, -⟩ := Prod.mk.inj (Option.some.inj step)
    refine ⟨empty, passed, fun other here => ?_, fun other r' here => ?_⟩
    · obtain rfl := Option.some.inj here
      exact not_le.mp more
    · obtain rfl := Option.some.inj here
      exact bytes r'

/-- **One step** keeps the track. -/
theorem Tracks.next (tracks : Tracks l) {input : Input}
    (step : stepperLine.step l input = some (last, events)) : Tracks last := by
  cases input with
  | command motor c => exact tracks.command step
  | reply r =>
    obtain ⟨rfl, -⟩ := Prod.mk.inj (Option.some.inj step)
    exact tracks.reply r
  | take =>
    obtain ⟨rd, reading, step⟩ := Option.bind_eq_some_iff.mp step
    obtain ⟨⟨ch, l'⟩, taken, step⟩ := Option.bind_eq_some_iff.mp step
    exact tracks.take reading taken step
  | timeout =>
    obtain ⟨rd, -, same⟩ := Option.map_eq_some_iff.mp step
    obtain ⟨rfl, -⟩ := Prod.mk.inj same
    exact ⟨tracks.empty, tracks.passed, fun _ => nofun, fun _ _ => nofun⟩

/-! ### One step -/

section Step

variable {rd : Reader} {r : Reply} {ch : UInt8}

theorem speedOf_reads {f g : ℕ → UInt8} (same : ∀ i ≤ 5, f i = g i) : speedOf f = speedOf g := by
  unfold speedOf
  rw [same 2 (by decide), same 3 (by decide), same 4 (by decide)]

theorem angleOf_reads {f g : ℕ → UInt8} (same : ∀ i ≤ 7, f i = g i) :
    angleOf (K := K) f = angleOf g := by
  unfold angleOf
  rw [same 2 (by decide), same 3 (by decide), same 4 (by decide), same 5 (by decide),
    same 6 (by decide)]

/-- **The byte that completes an answer** sets a genuine value exactly if the motor that was asked
has answered. -/
theorem fromReply_iff (tracks : Tracks l) (reading : l.reader = some rd)
    (head : l.replies.head? = some r) (here : r.bytes[l.passed]? = some ch)
    (inside : rd.index < 64) (last : rd.index + 1 = emmGetCmdReceiveSize rd.cmd) :
    (∀ event ∈ emmCmdAna (K := K) rd.motor rd.cmd (cell (l.rxBuf.set rd.index ch inside)),
      FromReply l event) ↔
      (rd.cmd = 0x35 ∨ rd.cmd = 0x36 → cell l.rxBuf 1 = rd.cmd →
        l.passed = rd.index ∧ r.address = (l.motors rd.motor).stepperMotorId) := by
  have long : 4 ≤ emmGetCmdReceiveSize rd.cmd := by
    unfold emmGetCmdReceiveSize
    split
    · decide
    · split
      · decide
      · decide
  have second : cell (l.rxBuf.set rd.index ch inside) 1 = cell l.rxBuf 1 := by
    rw [cell, Vector.getElem?_set_ne _ (by omega), cell]
  unfold emmCmdAna
  rw [second]
  by_cases speed : rd.cmd = 0x35
  · rw [if_pos speed, speed]
    by_cases code : cell l.rxBuf 1 = 0x35
    · have six : rd.index + 1 = 6 := last.trans (congrArg _ speed)
      have exactly := decoded_iff tracks reading head here inside (.inl speed) last
        (code.trans speed.symm) (fun f g same => speedOf_reads fun i few => same i (by omega))
        (l.motors rd.motor).stepperMotorId
      rw [speed] at exactly
      rw [if_pos code, List.forall_mem_singleton]
      exact exactly.trans ⟨fun both _ _ => both, fun all => all (.inl rfl) code⟩
    · rw [if_neg code]
      exact iff_of_true (fun _ none => absurd none List.not_mem_nil)
        fun _ other => absurd other code
  · rw [if_neg speed]
    by_cases angle : rd.cmd = 0x36
    · rw [if_pos angle, angle]
      by_cases code : cell l.rxBuf 1 = 0x36
      · have eight : rd.index + 1 = 8 := last.trans (congrArg _ angle)
        have exactly := decoded_iff tracks reading head here inside (.inr angle) last
          (code.trans angle.symm)
          (fun f g same => angleOf_reads (K := K) fun i few => same i (by omega))
          (l.motors rd.motor).stepperMotorId
        rw [angle] at exactly
        rw [if_pos code, List.forall_mem_singleton]
        exact exactly.trans ⟨fun both _ _ => both, fun all => all (.inr rfl) code⟩
      · rw [if_neg code]
        exact iff_of_true (fun _ none => absurd none List.not_mem_nil)
          fun _ other => absurd other code
    · rw [if_neg angle]
      exact iff_of_true (fun _ none => absurd none List.not_mem_nil)
        fun asks => absurd asks (not_or_intro speed angle)

theorem genuine_take_iff (tracks : Tracks l)
    (step : stepperLine.step l .take = some (last, events)) :
    Genuine l .take ↔ Answered l .take := by
  obtain ⟨rd, reading, step⟩ := Option.bind_eq_some_iff.mp step
  obtain ⟨⟨ch, l'⟩, taken, received⟩ := Option.bind_eq_some_iff.mp step
  obtain ⟨r, rest, replies, here, same⟩ := read_eq taken
  have head : l.replies.head? = some r := by
    rw [replies]
    rfl
  have short := tracks.index rd reading
  have inside : rd.index < 64 := short.trans_le ((size_le rd.cmd).trans (by decide))
  have buffer : l'.rxBuf = l.rxBuf := by
    rw [same]
    split
    · rfl
    · rfl
  have motors : l'.motors = l.motors := by
    rw [same]
    split
    · rfl
    · rfl
  have again : stepperLine.step l .take = l'.received rd ch := by
    show l.reader.bind _ = _
    rw [reading, Option.bind_some, taken, Option.bind_some]
  rw [received_eq inside, buffer, motors] at again
  have answered : Answered l .take ↔ (rd.cmd = 0x35 ∨ rd.cmd = 0x36 →
      rd.index + 1 = emmGetCmdReceiveSize rd.cmd → cell l.rxBuf 1 = rd.cmd →
      l.passed = rd.index ∧ r.address = (l.motors rd.motor).stepperMotorId) := by
    refine ⟨fun all asks full code => ?_, fun all other reads asks full code => ?_⟩
    · obtain ⟨aligned, address⟩ := all rd reading asks full code
      exact ⟨aligned, address r head⟩
    · obtain rfl := Option.some.inj (reading.symm.trans reads)
      obtain ⟨aligned, address⟩ := all asks full code
      refine ⟨aligned, fun first found => ?_⟩
      obtain rfl := Option.some.inj (head.symm.trans found)
      exact address
  by_cases full : rd.index + 1 ≥ emmGetCmdReceiveSize rd.cmd
  · rw [if_pos full] at again
    have complete : rd.index + 1 = emmGetCmdReceiveSize rd.cmd := le_antisymm short full
    have genuine := fromReply_iff (K := K) tracks reading head here inside complete
    refine ⟨fun right => ?_, fun right other found stepped => ?_⟩
    · exact answered.mpr fun asks _ => genuine.mp (right _ _ again).2 asks
    · obtain ⟨rfl, rfl⟩ := Machine.step_unique again stepped
      exact ⟨rfl, genuine.mpr fun asks => answered.mp right asks complete⟩
  · rw [if_neg full] at again
    refine iff_of_true (fun other found stepped => ?_) ?_
    · obtain ⟨rfl, rfl⟩ := Machine.step_unique again stepped
      exact ⟨rfl, nofun⟩
    · exact answered.mpr fun _ complete => absurd complete.ge full

end Step

/-- **One step** is genuine exactly if it is answered. -/
theorem genuine_step_iff (tracks : Tracks l) {input : Input}
    (step : stepperLine.step l input = some (last, events)) :
    Genuine l input ↔ Answered l input := by
  cases input with
  | command motor c =>
    refine iff_of_true (fun other found again => ?_) trivial
    unfold stepperLine Line.emmTransmit at again
    simp only at again
    split at again
    · cases again
    · obtain ⟨rfl, rfl⟩ := Prod.mk.inj (Option.some.inj again)
      exact ⟨rfl, by simp [FromReply]⟩
  | reply r =>
    refine iff_of_true (fun other found again => ?_) trivial
    obtain ⟨rfl, rfl⟩ := Prod.mk.inj (Option.some.inj again)
    exact ⟨rfl, nofun⟩
  | timeout =>
    refine iff_of_true (fun other found again => ?_) trivial
    obtain ⟨rd, -, same⟩ := Option.map_eq_some_iff.mp again
    obtain ⟨rfl, rfl⟩ := Prod.mk.inj same
    exact ⟨rfl, nofun⟩
  | take => exact genuine_take_iff tracks step

/-- **Speed and angle come from the motor's own replies** in a run exactly if each byte that
completes an answer to a request for them is so answered. -/
theorem genuine_iff (motors : Pointer → StepperMotor K) {inputs : List Input}
    {events : List (Event K)} {last : Line K} :
    stepperLine.RunOn Genuine (.initial motors) inputs events last ↔
      stepperLine.RunOn Answered (.initial motors) inputs events last :=
  Machine.RunOn.guard_iff_of_invariant Tracks (fun _ _ _ _ tracks step => tracks.next step)
    (fun _ _ _ _ tracks step => genuine_step_iff tracks step) (tracks_initial motors)

/-! ### A late reply -/

/-- Two motors. -/
def twoMotors : Pointer → StepperMotor ℚ := fun m => ⟨UInt8.ofNat (m + 1), 0, 0⟩

/-- The reply of the first motor to a request for its speed. -/
def firstSpeed : Reply where
  address := 1
  code := 0x35
  payload := [0, 0, 7]
  size := fun _ => rfl

/-- The first motor is asked for its speed and replies after the timeout; the second one is asked,
and all but the last byte of the late reply are taken. -/
def lateInputs : List Input :=
  [.command 0 (.readSysParams .vel), .timeout, .reply firstSpeed, .command 1 (.readSysParams .vel),
    .take, .take, .take, .take, .take]

/-- The event sets the speed of the motor. -/
def Event.setsSpeed {K : Type*} (m : Pointer) : Event K → Bool
  | .speed other _ => other == m
  | _ => false

/-- The second motor gets the speed of the first one. -/
theorem late_reply :
    ∃ events last, stepperLine.Run (.initial twoMotors) (lateInputs ++ [.take]) events last ∧
      ¬ stepperLine.RunOn Genuine (.initial twoMotors) (lateInputs ++ [.take]) events last := by
  obtain ⟨early, l, head, checked⟩ := Machine.exists_run (stepperLine (K := ℚ)) (fun _ _ => True)
    (.initial twoMotors) lateInputs (fun l _ => l.replies.map Reply.address = [1] ∧
      (l.motors 1).stepperMotorId = 2 ∧
      (stepperLine.step l .take).any fun taken => taken.2.any (Event.setsSpeed 1))
    (by decide +kernel)
  obtain ⟨address, id, sets⟩ := of_decide_eq_true checked
  obtain ⟨⟨last, events⟩, step, found⟩ := (Option.any_eq_true _ _).mp sets
  refine ⟨_, last, Machine.RunOn.append head (.single trivial step), fun right => ?_⟩
  obtain ⟨l', _, _, _, first, second⟩ := right.split
  obtain ⟨-, rfl⟩ := Machine.Run.unique head (first.weaken fun _ _ _ => trivial)
  obtain ⟨_, _, _, _, genuine, _, _⟩ := second.uncons
  obtain ⟨event, member, sets⟩ := List.any_eq_true.mp found
  have from_reply := (genuine last events step).2 event member
  cases event with
  | sent bytes => cases sets
  | angle m value => cases sets
  | speed m value =>
    obtain ⟨r, ⟨here, -⟩, -, same, -⟩ := from_reply
    obtain rfl : m = 1 := beq_iff_eq.mp sets
    have first : (l'.replies.map Reply.address).head? = some r.address := by
      rw [List.head?_map, here]
      rfl
    rw [address, same, id] at first
    cases first

end Robocon.Stepper
