/-
**Sending and receiving on one record.**

The sender numbers its frames by `TxNumber` of the record that the receiver uses too. `radio` is
both on one record: its inputs are the calls, its outputs the frames.

* `Status.send` — `FDILink_Send`; the macro `Serial_Send` gets the frame.
* `runningData_txNumber` — a byte that is read in the start state clears `TxNumber`, and no other
  byte changes it.
* `numbered` — if no byte changes `TxNumber`, the frames are numbered consecutively.
* `undisturbed_iff` — which happens exactly if each byte read in the start state finds `TxNumber`
  zero.

`FDILink_Reset`, which opens each frame that is received, clears the fields of the receiver and, in
the place of `RxNumber`, `TxNumber` (`number_lost`).
-/

import Robocon.FDILink.Published

namespace Robocon.FDILink

open Lib Status

/-! ### Sending -/

/-- `FDILink_Send`: the record with the next `TxNumber`, and the bytes given to `Serial_Send`. The
frame has to fit the local buffer of 256 bytes. -/
def Status.send (s : Status) (type : UInt8) (buf : List UInt8) : Option (Status × List UInt8) :=
  let len := UInt8.ofNat buf.length
  let header := [stxFlag, type, len, UInt8.ofInt s.txNumber]
  let crc8 := crc8Table header 4
  let s' := { s with txNumber := s.txNumber + 1 }
  if buf.length = 0 then some (s', header ++ [crc8])
  else if 8 + buf.length ≤ 256 then
    let crc16 := crc16Table buf len
    some (s', header ++ [crc8] ++ [(crc16 >>> 8).toUInt8, (crc16 &&& 0xff).toUInt8] ++ buf ++
      [edxFlag])
  else none

/-- The calls on the record. -/
inductive Call
  | pack (type : UInt8) (buf : List UInt8)
  | send (type : UInt8) (buf : List UInt8)
  | receive (value : UInt8)

/-- `FDILink_Pack`, `FDILink_Send` and `FDILink_Receive` on one record: calls in, frames out. -/
def radio : Machine Receiver Call (List UInt8) where
  step r
    | .pack type buf =>
      let (link, frame, _) := r.link.pack type buf
      some ({ r with link := link }, [frame])
    | .send type buf =>
      (r.link.send type buf).map fun (link, frame) => ({ r with link := link }, [frame])
    | .receive value => (r.receive value).map fun next => (next.1, [])

/-- If the call receives a byte, it leaves `TxNumber` as it is. -/
def Undisturbed (r : Receiver) : Call → Prop
  | .receive value =>
    ∀ next result, r.receive value = some (next, result) → next.link.txNumber = r.link.txNumber
  | _ => True

/-- If the call receives a byte and a frame could start with it, `TxNumber` is zero. -/
def Harmless (r : Receiver) : Call → Prop
  | .receive _ => r.link.rxStatus = frameStart → r.link.txNumber = 0
  | _ => True

/-! ### One call -/

variable {s s' : Status} {r r' : Receiver} {value : UInt8} {code : ℤ} {frames : List (List UInt8)}

theorem insert_txNumber (inserted : s.insert value = some s') : s'.txNumber = s.txNumber := by
  unfold Status.insert at inserted
  split at inserted
  · obtain rfl := Option.some.inj inserted
    rfl
  · split at inserted
    · obtain rfl := Option.some.inj inserted
      rfl
    · split at inserted
      · simp only at inserted
        split at inserted
        · obtain rfl := Option.some.inj inserted
          rfl
        · obtain rfl := Option.some.inj inserted
          rfl
      · cases inserted

theorem endOfFrame_txNumber (s : Status) (value : UInt8) :
    (s.endOfFrame value).1.txNumber = s.txNumber := by
  unfold endOfFrame
  split
  · rfl
  · split
    · rfl
    · rfl

/-- Outside of the start state a byte leaves `TxNumber` as it is. -/
theorem dispatch_txNumber (other : s.rxStatus ≠ frameStart)
    (read : s.dispatch value = some (s', code)) : s'.txNumber = s.txNumber := by
  unfold dispatch at read
  rw [if_neg other] at read
  have kept {next : Status} {result : ℤ} (read : some (next, result) = some (s', code))
      (same : next.txNumber = s.txNumber) : s'.txNumber = s.txNumber := by
    obtain ⟨rfl, -⟩ := Prod.mk.inj (Option.some.inj read)
    exact same
  split at read
  · exact kept read rfl
  split at read
  · exact kept read rfl
  split at read
  · exact kept read rfl
  split at read
  · simp only at read
    split at read
    · exact kept read rfl
    split at read
    · exact kept read rfl
    · exact kept read rfl
  split at read
  · exact kept read rfl
  split at read
  · exact kept read rfl
  split at read
  · split at read
    · obtain ⟨last, inserted, same⟩ := Option.map_eq_some_iff.mp read
      have left := insert_txNumber inserted
      obtain ⟨rfl, -⟩ := Prod.mk.inj same
      split
      · exact left
      · exact left
    · exact kept read (endOfFrame_txNumber _ value)
  split at read
  · exact kept read (endOfFrame_txNumber s value)
  · exact kept read rfl

/-- The receiver changes `TxNumber` in the start state only, where it clears it. -/
theorem runningData_txNumber (read : s.runningData value = some (s', code)) :
    s'.txNumber = if s.rxStatus = frameStart then 0 else s.txNumber := by
  by_cases start : s.rxStatus = frameStart
  · rw [if_pos start]
    rw [runningData_start start] at read
    split at read
    · obtain ⟨rfl, -⟩ := Prod.mk.inj (Option.some.inj read)
      rfl
    · split at read
      · obtain ⟨rfl, -⟩ := Prod.mk.inj (Option.some.inj read)
        rfl
      · obtain ⟨rfl, -⟩ := Prod.mk.inj (Option.some.inj read)
        rfl
  · rw [if_neg start]
    unfold runningData at read
    split at read
    · obtain ⟨rfl, -⟩ := Prod.mk.inj (Option.some.inj read)
      rfl
    · have kept := fun other => dispatch_txNumber other read
      exact kept start

theorem receive_txNumber {result : UInt8} (read : r.receive value = some (r', result)) :
    r'.link.txNumber = if r.link.rxStatus = frameStart then 0 else r.link.txNumber := by
  obtain ⟨⟨link, code⟩, running, same⟩ := Option.map_eq_some_iff.mp read
  obtain ⟨rfl, -⟩ := Prod.mk.inj same
  rw [← runningData_txNumber running]
  split
  · rfl
  · rfl

/-- **One call.** -/
theorem undisturbed_step_iff {call : Call} (stepped : radio.step r call = some (r', frames)) :
    Undisturbed r call ↔ Harmless r call := by
  cases call with
  | pack type buf => exact Iff.rfl
  | send type buf => exact Iff.rfl
  | receive value =>
    obtain ⟨⟨next, result⟩, read, -⟩ := Option.map_eq_some_iff.mp stepped
    have number := receive_txNumber read
    refine ⟨fun undisturbed start => ?_, fun harmless other code again => ?_⟩
    · rw [← undisturbed next result read, number, if_pos start]
    · rw [receive_txNumber again]
      split
      · exact (harmless ‹_›).symm
      · rfl

/-- The frames carry the sequence numbers from `first` on, modulo 256. -/
def NumberedFrom (first : ℤ) (frames : List (List UInt8)) : Prop :=
  ∀ (k : ℕ) (frame : List UInt8), frames[k]? = some frame →
    frame[3]? = some (UInt8.ofInt (first + k))

theorem NumberedFrom.cons {first : ℤ} {frame : List UInt8} {frames : List (List UInt8)}
    (head : frame[3]? = some (UInt8.ofInt first)) (tail : NumberedFrom (first + 1) frames) :
    NumberedFrom first (frame :: frames) := by
  intro k other here
  cases k with
  | zero =>
    obtain rfl := Option.some.inj here
    rw [Nat.cast_zero, add_zero]
    exact head
  | succ k =>
    rw [tail k other here, Nat.cast_succ, add_assoc, add_comm 1]

theorem send_eq {type : UInt8} {buf frame : List UInt8}
    (sent : s.send type buf = some (s', frame)) :
    s'.txNumber = s.txNumber + 1 ∧ frame[3]? = some (UInt8.ofInt s.txNumber) := by
  unfold Status.send at sent
  simp only at sent
  split at sent
  · obtain ⟨rfl, rfl⟩ := Prod.mk.inj (Option.some.inj sent)
    exact ⟨rfl, rfl⟩
  · split at sent
    · obtain ⟨rfl, rfl⟩ := Prod.mk.inj (Option.some.inj sent)
      exact ⟨rfl, rfl⟩
    · cases sent

/-- **If no byte changes `TxNumber`**, the frames are numbered consecutively. -/
theorem numbered {calls : List Call} (run : radio.RunOn Undisturbed r calls frames r') :
    NumberedFrom r.link.txNumber frames := by
  induction run with
  | nil r => exact fun _ _ here => nomatch here
  | @cons r middle last call calls output outputs undisturbed step _ ih =>
    cases call with
    | pack type buf =>
      obtain ⟨rfl, rfl⟩ := Prod.mk.inj (Option.some.inj step)
      exact .cons rfl ih
    | send type buf =>
      obtain ⟨⟨link, frame⟩, sent, same⟩ := Option.map_eq_some_iff.mp step
      obtain ⟨rfl, rfl⟩ := Prod.mk.inj same
      obtain ⟨number, head⟩ := send_eq sent
      exact .cons head (number ▸ ih)
    | receive value =>
      obtain ⟨⟨next, result⟩, read, same⟩ := Option.map_eq_some_iff.mp step
      obtain ⟨rfl, rfl⟩ := Prod.mk.inj same
      rw [← undisturbed next result read]
      exact ih

/-- **Receiving does not disturb sending** exactly if each byte that is read in the start state
finds `TxNumber` zero. -/
theorem undisturbed_iff {calls : List Call} :
    (radio.RunOn Undisturbed r calls frames r' ∧ NumberedFrom r.link.txNumber frames) ↔
      radio.RunOn Harmless r calls frames r' := by
  have same : radio.RunOn Undisturbed r calls frames r' ↔ radio.RunOn Harmless r calls frames r' :=
    Machine.RunOn.guard_iff fun _ _ _ _ step => undisturbed_step_iff step
  rw [← same]
  exact ⟨And.left, fun run => ⟨run, numbered run⟩⟩

/-- After two frames and one byte that opens none, the third frame has the number of the first. -/
theorem number_lost :
    ∃ frames last, radio.Run .initial [.pack 1 [], .pack 1 [], .receive 0, .pack 1 []] frames last ∧
      ¬ NumberedFrom 0 frames := by
  obtain ⟨frames, last, run, checked⟩ := Machine.exists_run radio (fun _ _ => True) .initial
    [.pack 1 [], .pack 1 [], .receive 0, .pack 1 []]
    (fun _ frames => frames.map (fun frame => frame[3]?) = [some 0, some 1, some 0])
    (by decide +kernel)
  refine ⟨frames, last, run, fun numbers => ?_⟩
  have third : (frames.map fun frame => frame[3]?)[2]? = some (some 0) := by
    rw [of_decide_eq_true checked]
    rfl
  rw [List.getElem?_map] at third
  obtain ⟨frame, here, number⟩ := Option.map_eq_some_iff.mp third
  have two := numbers 2 frame here
  rw [number] at two
  exact absurd two (by decide)

end Robocon.FDILink
