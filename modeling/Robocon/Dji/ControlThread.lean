/-
**The control loop of the DJI motors (`can_rx_thread` in `motor_dj_rm_driver.c`).**

The callback of a frame runs in an interrupt: it feeds the motor layer and puts the id of the motor
into the ring buffer `dj_m_ringfifo`. The thread takes the ids out again, and runs `motor_handle`
for each of them, which drives the motor. `controlLoop` is the motor layer, the driver and the ring
buffer between them; interrupts and calls of other threads come between any two turns of the thread.

* `loop_feeds` — the motor layer and the driver are components of it: what the loop does is a run of
  each. What holds of all their runs holds in the loop.
* `loop_handles` — `motor_handle` is called once for every id that the thread takes, and else only
  by other threads.
* `frames_handled` — while the ring buffer has room, the thread takes the ids of all frames in their
  order.
* `frames_overrun` — where it has none the oldest ids are lost, and only these.
-/

import Robocon.Dji.Foreign
import Robocon.Serial.RingBuffer

namespace Robocon.Dji

open Lib Serial

/-! ### The loop -/

/-- The motor layer, the driver, and `dj_m_ringfifo`. -/
structure ControlLoop (K P : Type) (num size : ℕ) where
  motors : Vector (Motors.Motor K P) num
  dji : State
  djMRingfifo : RingBuffer size

/-- What happens next: a frame interrupts, the thread makes a turn, or another thread calls the
motor layer. -/
inductive Signal (K : Type)
  | frame (msg : CanMsg)
  | turn (reading : Motors.Reading K) (written : Bool)
  | call (input : Motors.Call K) (written : Bool)

/-- What the loop does: calls and events of the motor layer, inputs and events of the driver, and
the ids that the thread takes. -/
inductive Deed (K : Type)
  | called (input : Motors.Call K)
  | answered (event : Motors.Event K)
  | given (input : Input K)
  | emitted (event : Event)
  | taken (id : ℕ)

namespace Deed

variable {K : Type}

/-- The calls of the motor layer. -/
def calls : Deed K → List (Motors.Call K)
  | called input => [input]
  | _ => []

/-- The events of the motor layer. -/
def answers : Deed K → List (Motors.Event K)
  | answered event => [event]
  | _ => []

/-- The inputs of the driver. -/
def inputs : Deed K → List (Input K)
  | given input => [input]
  | _ => []

/-- The events of the driver. -/
def events : Deed K → List Event
  | emitted event => [event]
  | _ => []

/-- The ids that the thread takes. -/
def ids : Deed K → List ℕ
  | taken id => [id]
  | _ => []

end Deed

section Loop

variable {K P : Type} [Field K] [LinearOrder K] [FloorRing K] (expf : K → K)
  (apid : Motors.Apid K P) (cfg : Config) (kk : K) {num size : ℕ}

/-- The feedback calls of the callback; `kk` is the constant `KK`. -/
def Event.feeds : Event → List (Motors.Call K)
  | .feedback id speed torque totalAngle =>
    [.feedbackSpeed id (speed.toInt : K), .feedbackTorque id (torque.toInt : K),
      .feedbackPos id ((totalAngle : K) * kk)]
  | _ => []

/-- The calls `motor->ops->driver(..)` of one `motor_handle`. Motors past the DJI motors have
drivers of their own. -/
def driveAll (written : Bool) : State → List (Motors.Event K) → Option (State × List (Deed K))
  | s, [] => some (s, [])
  | s, .behaver .. :: events => driveAll written s events
  | s, .driver id mode value :: events =>
    match cfg.layerIds[id.toNat]? with
    | none => driveAll written s events
    | some motor => do
      let (s, emitted) ← motorDjDriver cfg s motor (driverMode mode) value written
      let (s, deeds) ← driveAll written s events
      return (s, .given (.drive motor (driverMode mode) value written) ::
        emitted.map .emitted ++ deeds)

namespace ControlLoop

/-- A call of the motor layer, with the drivers it calls. -/
def perform (s : ControlLoop K P num size) (input : Motors.Call K) (written : Bool) :
    Option (ControlLoop K P num size × List (Deed K)) := do
  let (motors, events) ← (Motors.layer expf apid).step s.motors input
  let (dji, deeds) ← driveAll cfg written s.dji events
  return ({ s with motors := motors, dji := dji },
    .called input :: events.map .answered ++ deeds)

/-- `ind_dj_can_motor_callback`. -/
def interrupt (s : ControlLoop K P num size) (msg : CanMsg) :
    Option (ControlLoop K P num size × List (Deed K)) := do
  let (dji, events) ← callback cfg s.dji msg
  let motors ← events.foldlM (takeEvent expf apid kk) s.motors
  let djMRingfifo ← (events.filterMap Event.put).foldlM
    (fun rb id => (rb.putcharForce (UInt8.ofNat id)).map Prod.fst) s.djMRingfifo
  return ({ s with motors := motors, dji := dji, djMRingfifo := djMRingfifo },
    .given (.frame msg) :: events.map .emitted ++ (events.flatMap (Event.feeds kk)).map .called)

/-- One turn of `can_rx_thread`. -/
def turn (s : ControlLoop K P num size) (reading : Motors.Reading K) (written : Bool) :
    Option (ControlLoop K P num size × List (Deed K)) := do
  let (djMRingfifo, i) ← s.djMRingfifo.getchar
  let s := { s with djMRingfifo := djMRingfifo }
  match i with
  | none => return (s, [])
  | some i => do
    let (s, deeds) ← perform expf apid cfg s (.handle i.toNat 1 reading) written
    return (s, .taken i.toNat :: deeds)

end ControlLoop

/-- The control loop as a machine. -/
def controlLoop : Machine (ControlLoop K P num size) (Signal K) (Deed K) where
  step s
    | .frame msg => s.interrupt expf apid cfg kk msg
    | .turn reading written => s.turn expf apid cfg reading written
    | .call input written => s.perform expf apid cfg input written

/-! ### The components -/

variable {expf} {apid} {cfg} {kk}

/-- What the drivers do is a run of the driver, and nothing else. -/
theorem driveAll_run {written : Bool} (events : List (Motors.Event K)) :
    ∀ {s s' : State} {deeds : List (Deed K)}, driveAll cfg written s events = some (s', deeds) →
      (driver cfg).Run s (deeds.flatMap Deed.inputs) (deeds.flatMap Deed.events) s' ∧
        deeds.flatMap Deed.calls = [] ∧ deeds.flatMap Deed.answers = [] ∧
        deeds.flatMap Deed.ids = [] := by
  induction events with
  | nil =>
    intro s s' deeds done
    obtain ⟨rfl, rfl⟩ := Prod.mk.inj (Option.some.inj done)
    exact ⟨.nil s, rfl, rfl, rfl⟩
  | cons event events ih =>
    intro s s' deeds done
    cases event with
    | behaver id mode tarTorque tarSpeed tarPos => exact ih done
    | driver id mode value =>
      unfold driveAll at done
      split at done
      · exact ih done
      · next motor known =>
        obtain ⟨⟨s₁, emitted⟩, driven, rest⟩ := Option.bind_eq_some_iff.mp done
        obtain ⟨⟨s₂, later⟩, drives, last⟩ := Option.bind_eq_some_iff.mp rest
        obtain ⟨rfl, rfl⟩ := Prod.mk.inj (Option.some.inj last)
        obtain ⟨run, calls, answers, ids⟩ := ih drives
        have first : (driver cfg).Run s [.drive motor (driverMode mode) value written] emitted s₁ :=
          .single trivial driven
        refine ⟨?_, ?_, ?_, ?_⟩
        · simpa [List.flatMap_map, flatMap_silent, Deed.inputs, Deed.events] using first.append run
        · simpa [List.flatMap_map, flatMap_silent, Deed.calls] using calls
        · simpa [List.flatMap_map, flatMap_silent, Deed.answers] using answers
        · simpa [List.flatMap_map, flatMap_silent, Deed.ids] using ids

omit [Field K] [LinearOrder K] [FloorRing K] in
theorem feedback_silent {motors after : Vector (Motors.Motor K P) num} {id : ℤ}
    {store : Motors.Motor K P → Motors.Motor K P} {events : List (Motors.Event K)}
    (done : Motors.feedback motors id store = some (after, events)) : events = [] := by
  unfold Motors.feedback at done
  split at done
  · exact (Prod.mk.inj (Option.some.inj done)).2.symm
  · obtain ⟨j, m, -, stored, -⟩ := Motors.withMotor_cases done
    exact (Prod.mk.inj (Option.some.inj stored)).2.symm

/-- The feedback calls of an event are a run of the motor layer, which answers none of them. -/
theorem takeEvent_run {motors after : Vector (Motors.Motor K P) num} {event : Event}
    (taken : takeEvent expf apid kk motors event = some after) :
    (Motors.layer expf apid).Run motors (event.feeds kk) [] after := by
  cases event with
  | feedback id speed torque totalAngle =>
    obtain ⟨⟨first, events⟩, fed, rest⟩ := Option.bind_eq_some_iff.mp taken
    obtain ⟨⟨second, events'⟩, fed', rest⟩ := Option.bind_eq_some_iff.mp rest
    obtain ⟨⟨third, events''⟩, fed'', last⟩ := Option.bind_eq_some_iff.mp rest
    obtain rfl := Option.some.inj last
    obtain rfl := feedback_silent fed
    obtain rfl := feedback_silent fed'
    obtain rfl := feedback_silent fed''
    exact .cons trivial fed (.cons trivial fed' (.single trivial fed''))
  | write device msg =>
    obtain rfl := Option.some.inj taken
    exact .nil motors
  | putchar id =>
    obtain rfl := Option.some.inj taken
    exact .nil motors

theorem takeEvents_run (events : List Event) : ∀ {motors after : Vector (Motors.Motor K P) num},
    events.foldlM (takeEvent expf apid kk) motors = some after →
      (Motors.layer expf apid).Run motors (events.flatMap (Event.feeds kk)) [] after := by
  induction events with
  | nil =>
    intro motors after taken
    obtain rfl := Option.some.inj taken
    exact .nil motors
  | cons event events ih =>
    intro motors after taken
    rw [List.foldlM_cons] at taken
    obtain ⟨middle, first, rest⟩ := Option.bind_eq_some_iff.mp taken
    exact (takeEvent_run first).append (ih rest)

/-- **A call of the motor layer.** -/
theorem perform_run {s s' : ControlLoop K P num size} {input : Motors.Call K} {written : Bool}
    {deeds : List (Deed K)} (done : s.perform expf apid cfg input written = some (s', deeds)) :
    (Motors.layer expf apid).Run s.motors (deeds.flatMap Deed.calls) (deeds.flatMap Deed.answers)
        s'.motors ∧
      (driver cfg).Run s.dji (deeds.flatMap Deed.inputs) (deeds.flatMap Deed.events) s'.dji ∧
      deeds.flatMap Deed.ids = [] ∧ s'.djMRingfifo = s.djMRingfifo := by
  obtain ⟨⟨motors, events⟩, called, rest⟩ := Option.bind_eq_some_iff.mp done
  obtain ⟨⟨dji, driven⟩, drives, last⟩ := Option.bind_eq_some_iff.mp rest
  obtain ⟨rfl, rfl⟩ := Prod.mk.inj (Option.some.inj last)
  obtain ⟨run, calls, answers, ids⟩ := driveAll_run events drives
  have first : (Motors.layer expf apid).Run s.motors [input] events motors := .single trivial called
  refine ⟨?_, ?_, ?_, rfl⟩
  · simpa [List.flatMap_map, flatMap_silent, Deed.calls, Deed.answers, calls, answers] using first
  · simpa [List.flatMap_map, flatMap_silent, Deed.inputs, Deed.events] using run
  · simpa [List.flatMap_map, flatMap_silent, Deed.ids] using ids

/-- **A frame.** -/
theorem interrupt_run {s s' : ControlLoop K P num size} {msg : CanMsg} {deeds : List (Deed K)}
    (done : s.interrupt expf apid cfg kk msg = some (s', deeds)) :
    (Motors.layer expf apid).Run s.motors (deeds.flatMap Deed.calls) (deeds.flatMap Deed.answers)
        s'.motors ∧
      (driver cfg).Run s.dji (deeds.flatMap Deed.inputs) (deeds.flatMap Deed.events) s'.dji ∧
      deeds.flatMap Deed.ids = [] ∧
      ∃ slot count, cfg.motorGetByCanid (msg.id % 2 ^ 16) = some (some slot) ∧
        s.djMRingfifo.putcharForce (UInt8.ofNat (cfg.recordId slot)) =
          some (s'.djMRingfifo, count) := by
  obtain ⟨⟨dji, events⟩, called, rest⟩ := Option.bind_eq_some_iff.mp done
  obtain ⟨motors, fed, rest⟩ := Option.bind_eq_some_iff.mp rest
  obtain ⟨rb, put, last⟩ := Option.bind_eq_some_iff.mp rest
  obtain ⟨rfl, rfl⟩ := Prod.mk.inj (Option.some.inj last)
  have first : (driver (K := K) cfg).Run s.dji [.frame msg] events dji := .single trivial called
  obtain ⟨slot, measure, found, -, -, shape⟩ := callback_cases called
  have ids : events.filterMap Event.put = [cfg.recordId slot] := by
    rw [shape]
    rfl
  rw [ids, List.foldlM_cons] at put
  obtain ⟨rb', stored, same⟩ := Option.bind_eq_some_iff.mp put
  obtain rfl := Option.some.inj same
  obtain ⟨⟨rb', count⟩, forced, rfl⟩ := Option.map_eq_some_iff.mp stored
  refine ⟨?_, ?_, ?_, slot, count, found, forced⟩
  · have fed := takeEvents_run events fed
    simpa [List.flatMap_map, flatMap_silent, Deed.calls, Deed.answers] using fed
  · simpa [List.flatMap_map, flatMap_silent, Deed.inputs, Deed.events] using first
  · simp [List.flatMap_map, flatMap_silent, Deed.ids]

/-- **A turn of the thread.** -/
theorem turn_run {s s' : ControlLoop K P num size} {reading : Motors.Reading K} {written : Bool}
    {deeds : List (Deed K)} (done : s.turn expf apid cfg reading written = some (s', deeds)) :
    (Motors.layer expf apid).Run s.motors (deeds.flatMap Deed.calls) (deeds.flatMap Deed.answers)
        s'.motors ∧
      (driver cfg).Run s.dji (deeds.flatMap Deed.inputs) (deeds.flatMap Deed.events) s'.dji ∧
      ∃ i, s.djMRingfifo.getchar = some (s'.djMRingfifo, i) ∧
        deeds.flatMap Deed.ids = i.toList.map UInt8.toNat := by
  obtain ⟨⟨rb, i⟩, got, rest⟩ := Option.bind_eq_some_iff.mp done
  cases i with
  | none =>
    obtain ⟨rfl, rfl⟩ := Prod.mk.inj (Option.some.inj rest)
    exact ⟨.nil _, .nil _, none, got, rfl⟩
  | some i =>
    obtain ⟨⟨s₁, later⟩, performed, last⟩ := Option.bind_eq_some_iff.mp rest
    obtain ⟨rfl, rfl⟩ := Prod.mk.inj (Option.some.inj last)
    obtain ⟨layer, driver, ids, ring⟩ := perform_run performed
    refine ⟨layer, driver, some i, ?_, ?_⟩
    · rw [ring]
      exact got
    · show i.toNat :: later.flatMap Deed.ids = _
      rw [ids]
      rfl

/-- **The components of the loop.** What the loop does is a run of the motor layer, with its calls
and its events, and a run of the driver. -/
theorem loop_feeds {guard : ControlLoop K P num size → Signal K → Prop}
    {s s' : ControlLoop K P num size} {signals : List (Signal K)} {deeds : List (Deed K)}
    (run : (controlLoop expf apid cfg kk).RunOn guard s signals deeds s') :
    (Motors.layer expf apid).Run s.motors (deeds.flatMap Deed.calls) (deeds.flatMap Deed.answers)
        s'.motors ∧
      (driver cfg).Run s.dji (deeds.flatMap Deed.inputs) (deeds.flatMap Deed.events) s'.dji := by
  have both (s : ControlLoop K P num size) (signal : Signal K) (s' : ControlLoop K P num size)
      (deeds : List (Deed K))
      (step : (controlLoop expf apid cfg kk).step s signal = some (s', deeds)) :
      (Motors.layer expf apid).Run s.motors (deeds.flatMap Deed.calls)
          (deeds.flatMap Deed.answers) s'.motors ∧
        (driver cfg).Run s.dji (deeds.flatMap Deed.inputs) (deeds.flatMap Deed.events)
          s'.dji := by
    cases signal with
    | frame msg =>
      obtain ⟨layer, driver, -⟩ := interrupt_run step
      exact ⟨layer, driver⟩
    | turn reading written =>
      obtain ⟨layer, driver, -⟩ := turn_run step
      exact ⟨layer, driver⟩
    | call input written =>
      obtain ⟨layer, driver, -⟩ := perform_run step
      exact ⟨layer, driver⟩
  exact ⟨run.component ControlLoop.motors _ _ fun _ _ _ _ _ step => (both _ _ _ _ step).1,
    run.component ControlLoop.dji _ _ fun _ _ _ _ _ step => (both _ _ _ _ step).2⟩

/-! ### Frames and turns -/

variable (cfg) in
/-- The id of the motor whose record is found for a frame. -/
def Signal.ids : Signal K → List ℕ
  | .frame msg => (((cfg.motorGetByCanid (msg.id % 2 ^ 16)).bind id).map cfg.recordId).toList
  | _ => []

/-- The ring buffer has room for the id of the motor. -/
def Room (s : ControlLoop K P num size) : Signal K → Prop
  | .frame _ => s.djMRingfifo.dataLen < size
  | _ => True

instance (s : ControlLoop K P num size) (signal : Signal K) : Decidable (Room s signal) := by
  unfold Room
  split <;> infer_instance

/-- The motor that a call of the motor layer handles. -/
def handled : Motors.Call K → List ℤ
  | .handle id _ _ => [id]
  | _ => []

/-- The motor that another thread handles. -/
def Signal.handled : Signal K → List ℤ
  | .call input _ => Dji.handled input
  | _ => []

omit [LinearOrder K] [FloorRing K] in
theorem feeds_handled (events : List Event) :
    (events.flatMap (Event.feeds kk)).flatMap handled = [] := by
  refine List.flatMap_eq_nil_iff.mpr fun call member => ?_
  obtain ⟨event, -, fed⟩ := List.mem_flatMap.mp member
  cases event with
  | feedback =>
    simp only [Event.feeds, List.mem_cons, List.not_mem_nil, or_false] at fed
    rcases fed with rfl | rfl | rfl <;> rfl
  | write => cases fed
  | putchar => cases fed

theorem perform_calls {s s' : ControlLoop K P num size} {input : Motors.Call K} {written : Bool}
    {deeds : List (Deed K)} (done : s.perform expf apid cfg input written = some (s', deeds)) :
    deeds.flatMap Deed.calls = [input] := by
  obtain ⟨⟨motors, events⟩, called, rest⟩ := Option.bind_eq_some_iff.mp done
  obtain ⟨⟨dji, driven⟩, drives, last⟩ := Option.bind_eq_some_iff.mp rest
  obtain ⟨rfl, rfl⟩ := Prod.mk.inj (Option.some.inj last)
  obtain ⟨-, calls, -⟩ := driveAll_run events drives
  simp [List.flatMap_map, flatMap_silent, Deed.calls, calls]

/-- **One step** handles the motor whose id the thread takes, or the one that another thread
handles. -/
theorem step_handles {s s' : ControlLoop K P num size} {signal : Signal K} {deeds : List (Deed K)}
    (step : (controlLoop expf apid cfg kk).step s signal = some (s', deeds)) :
    (deeds.flatMap Deed.calls).flatMap handled =
      (deeds.flatMap Deed.ids).map Nat.cast ++ signal.handled := by
  cases signal with
  | frame msg =>
    obtain ⟨-, -, ids, -⟩ := interrupt_run step
    obtain ⟨⟨dji, events⟩, called, rest⟩ := Option.bind_eq_some_iff.mp step
    obtain ⟨motors, fed, rest⟩ := Option.bind_eq_some_iff.mp rest
    obtain ⟨rb, put, last⟩ := Option.bind_eq_some_iff.mp rest
    obtain ⟨rfl, rfl⟩ := Prod.mk.inj (Option.some.inj last)
    rw [ids]
    have fed : (events.flatMap (Event.feeds kk)).flatMap handled = [] := feeds_handled events
    simpa [List.flatMap_map, flatMap_silent, Deed.calls, Signal.handled] using fed
  | turn reading written =>
    obtain ⟨⟨rb, i⟩, got, rest⟩ := Option.bind_eq_some_iff.mp step
    cases i with
    | none =>
      obtain ⟨rfl, rfl⟩ := Prod.mk.inj (Option.some.inj rest)
      rfl
    | some i =>
      obtain ⟨⟨s₁, later⟩, performed, last⟩ := Option.bind_eq_some_iff.mp rest
      obtain ⟨rfl, rfl⟩ := Prod.mk.inj (Option.some.inj last)
      obtain ⟨-, -, ids, -⟩ := perform_run performed
      show (later.flatMap Deed.calls).flatMap handled =
        (i.toNat :: later.flatMap Deed.ids).map Nat.cast ++ []
      rw [perform_calls performed, ids]
      rfl
  | call input written =>
    obtain ⟨-, -, ids, -⟩ := perform_run step
    rw [perform_calls step, ids, List.flatMap_singleton]
    rfl

/-- **What the loop handles**: the motors whose ids the thread takes, in their order, and between
them those that other threads handle. -/
theorem loop_handles {guard : ControlLoop K P num size → Signal K → Prop}
    {s s' : ControlLoop K P num size} {signals : List (Signal K)} {deeds : List (Deed K)}
    (run : (controlLoop expf apid cfg kk).RunOn guard s signals deeds s') :
    ((deeds.flatMap Deed.ids).map Nat.cast).Sublist
        ((deeds.flatMap Deed.calls).flatMap handled) ∧
      ∀ id, ((deeds.flatMap Deed.calls).flatMap handled).count id =
        ((deeds.flatMap Deed.ids).map Nat.cast).count id +
          (signals.flatMap Signal.handled).count id := by
  refine run.trace (fun past seen _ =>
    ((seen.flatMap Deed.ids).map Nat.cast).Sublist
        ((seen.flatMap Deed.calls).flatMap handled) ∧
      ∀ id, ((seen.flatMap Deed.calls).flatMap handled).count id =
        ((seen.flatMap Deed.ids).map Nat.cast).count id +
          (past.flatMap Signal.handled).count id) ?_ [] [] ⟨List.Sublist.refl _, fun _ => rfl⟩
  rintro past seen s signal next output - ⟨sublist, counts⟩ step
  have here := step_handles step
  simp only [List.flatMap_append, List.map_append, List.flatMap_singleton, here, List.count_append]
  refine ⟨sublist.append (List.sublist_append_left _ _), fun id => ?_⟩
  rw [counts id]
  omega

/-- The ids that wait in the ring buffer. -/
structure Waits (s : ControlLoop K P num size) (waiting : List ℕ) : Prop where
  held : s.djMRingfifo.Holds (waiting.map UInt8.ofNat)
  small : ∀ id ∈ waiting, id < 256

omit [Field K] [LinearOrder K] [FloorRing K] in
theorem recordId_lt (cfg : Config) (slot : Slot) : cfg.recordId slot < 256 := by
  have few : cfg.layerIds.length ≤ 32 := (List.length_filter_le _ _).trans (by decide)
  have within (motor : Macro) : cfg.layerIds.idxOf motor < 256 :=
    List.idxOf_le_length.trans_lt (few.trans_lt (by decide))
  unfold Config.recordId
  split
  · exact within _
  · exact within _

/-- **One step.** The ids that wait and the one that arrives are those that are lost, taken or
waiting afterwards, in this order; with room, none is lost. -/
theorem Waits.next {s s' : ControlLoop K P num size} {waiting : List ℕ} {signal : Signal K}
    {deeds : List (Deed K)} (waits : Waits s waiting)
    (step : (controlLoop expf apid cfg kk).step s signal = some (s', deeds)) :
    ∃ lost waiting', Waits s' waiting' ∧
      waiting ++ signal.ids cfg = lost ++ (deeds.flatMap Deed.ids ++ waiting') ∧
      (Room s signal → lost = []) := by
  obtain ⟨held, small⟩ := waits
  cases signal with
  | frame msg =>
    obtain ⟨-, -, ids, slot, count, found, put⟩ := interrupt_run step
    have arrived : (Signal.frame (K := K) msg).ids cfg = [cfg.recordId slot] := by
      rw [Signal.ids, found]
      rfl
    rw [RingBuffer.putcharForce_eq held.fits] at put
    obtain ⟨rb, put', held'⟩ := held.putForce [UInt8.ofNat (cfg.recordId slot)]
    obtain ⟨rfl, -⟩ := Prod.mk.inj (Option.some.inj (put'.symm.trans put))
    have within : ∀ id ∈ waiting ++ [cfg.recordId slot], id < 256 := by
      intro id member
      rcases List.mem_append.mp member with old | new
      · exact small id old
      · exact List.mem_singleton.mp new ▸ recordId_lt cfg slot
    refine ⟨(waiting ++ [cfg.recordId slot]).take (waiting.length + 1 - size),
      (waiting ++ [cfg.recordId slot]).drop (waiting.length + 1 - size), ⟨?_, ?_⟩, ?_, ?_⟩
    · rw [List.map_drop, List.map_append]
      simpa using held'
    · exact fun id member => within id (List.mem_of_mem_drop member)
    · rw [ids, arrived, List.nil_append, List.take_append_drop]
    · intro room
      have free : s.djMRingfifo.dataLen < size := room
      rw [held.fits.dataLen, List.length_map] at free
      rw [Nat.sub_eq_zero_of_le free, List.take_zero]
  | turn reading written =>
    obtain ⟨-, -, i, got, ids⟩ := turn_run step
    obtain ⟨rb, got', held'⟩ := held.get 1
    rw [RingBuffer.getchar_eq held.fits.reads, got'] at got
    obtain ⟨rfl, rfl⟩ := Prod.mk.inj (Option.some.inj got)
    cases waiting with
    | nil => exact ⟨[], [], ⟨held', small⟩, by rw [ids]; rfl, fun _ => rfl⟩
    | cons id waiting =>
      obtain ⟨first, small⟩ := List.forall_mem_cons.mp small
      have whole : (UInt8.ofNat id).toNat = id := by
        rw [UInt8.toNat_ofNat', Nat.mod_eq_of_lt first]
      refine ⟨[], waiting, ⟨held', small⟩, ?_, fun _ => rfl⟩
      rw [ids]
      show id :: waiting ++ [] = (UInt8.ofNat id).toNat :: waiting
      rw [whole, List.append_nil]
  | call input written =>
    obtain ⟨-, -, ids, same⟩ := perform_run step
    exact ⟨[], waiting, ⟨same ▸ held, small⟩, by rw [ids]; simp [Signal.ids], fun _ => rfl⟩

omit [Field K] [LinearOrder K] [FloorRing K] in
theorem waits_init (positive : 0 < size) (pool : Vector UInt8 size)
    (motors : Vector (Motors.Motor K P) num) (dji : State) :
    Waits ⟨motors, dji, .init pool⟩ [] :=
  ⟨RingBuffer.holds_init positive pool, fun _ member => by cases member⟩

/-- **Every frame is handled.** While the ring buffer has room, the ids of the frames are those that
the thread has taken, and then those that wait. It has called `motor_handle` for the ones it took,
in their order, and no other call of it was made but by other threads. So at most `size` frames of a
motor wait, and the thread does not handle it more often than it has sent frames. -/
theorem frames_handled (positive : 0 < size) (pool : Vector UInt8 size)
    (motors : Vector (Motors.Motor K P) num) (dji : State) {s : ControlLoop K P num size}
    {signals : List (Signal K)} {deeds : List (Deed K)}
    (run : (controlLoop expf apid cfg kk).RunOn Room ⟨motors, dji, .init pool⟩ signals deeds s) :
    (∃ waiting, s.djMRingfifo.Holds (waiting.map UInt8.ofNat) ∧
      signals.flatMap (Signal.ids cfg) = deeds.flatMap Deed.ids ++ waiting) ∧
    ((deeds.flatMap Deed.ids).map Nat.cast).Sublist
      ((deeds.flatMap Deed.calls).flatMap handled) ∧
    ∀ id : ℕ,
      ((deeds.flatMap Deed.calls).flatMap handled).count (id : ℤ) =
        (deeds.flatMap Deed.ids).count id + (signals.flatMap Signal.handled).count (id : ℤ) ∧
      (deeds.flatMap Deed.ids).count id ≤ (signals.flatMap (Signal.ids cfg)).count id ∧
        (signals.flatMap (Signal.ids cfg)).count id ≤ (deeds.flatMap Deed.ids).count id + size := by
  have kept : ∃ waiting, Waits s waiting ∧
      signals.flatMap (Signal.ids cfg) = deeds.flatMap Deed.ids ++ waiting := by
    refine run.trace (fun past seen s => ∃ waiting, Waits s waiting ∧
      past.flatMap (Signal.ids cfg) = seen.flatMap Deed.ids ++ waiting) ?_ [] []
      ⟨[], waits_init positive pool motors dji, rfl⟩
    rintro past seen s signal next output room ⟨waiting, waits, order⟩ step
    obtain ⟨lost, waiting', waits', moved, none⟩ := waits.next step
    rw [none room, List.nil_append] at moved
    refine ⟨waiting', waits', ?_⟩
    rw [List.flatMap_append, List.flatMap_append, List.flatMap_singleton, order, List.append_assoc,
      moved, List.append_assoc]
  obtain ⟨waiting, waits, order⟩ := kept
  obtain ⟨sublist, counts⟩ := loop_handles run
  refine ⟨⟨waiting, waits.held, order⟩, sublist, fun id => ⟨?_, ?_⟩⟩
  · rw [counts, List.count_map_of_injective _ _ Nat.cast_injective]
  have few : waiting.count id ≤ size :=
    List.count_le_length.trans (by simpa using waits.held.fits.count_le)
  rw [order, List.count_append]
  exact ⟨Nat.le_add_right _ _, Nat.add_le_add_left few _⟩

end Loop

/-! ### One motor -/

/-- Two frames of the only motor, and a turn between them. -/
def twoFrames : List (Signal ℚ) :=
  [.frame (zeros 0x201), .turn ⟨none, none, none⟩ true, .frame (zeros 0x201)]

theorem frames_handled_two : ∃ deeds s waiting,
    (controlLoop (fun _ => 1) Motors.still shipped 1).RunOn Room
      ⟨#v[Motors.fresh], State.initial, .init (Vector.replicate 4 0)⟩ twoFrames deeds s ∧
    deeds.flatMap Deed.ids = [0] ∧ s.djMRingfifo.Holds (List.map UInt8.ofNat waiting) ∧
    twoFrames.flatMap (Signal.ids shipped) = [0] ++ waiting := by
  obtain ⟨deeds, s, run, checked⟩ := Machine.exists_run
    (controlLoop (fun _ => 1) Motors.still shipped 1) Room
    ⟨#v[Motors.fresh], State.initial, .init (Vector.replicate 4 0)⟩ twoFrames
    (fun _ deeds => deeds.flatMap Deed.ids = [0]) (by decide +kernel)
  have taken := of_decide_eq_true checked
  obtain ⟨⟨waiting, held, order⟩, -⟩ := frames_handled (by decide) (Vector.replicate 4 0)
    #v[Motors.fresh] State.initial run
  exact ⟨deeds, s, waiting, run, taken, held, taken ▸ order⟩

end Robocon.Dji
