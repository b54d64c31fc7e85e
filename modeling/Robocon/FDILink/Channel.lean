/-
**The IMU link over a noisy line.**

* `Hit` — a frame in which noise flips bits of the payload and of its CRC16: an odd number of them,
  or two, or any among sixteen consecutive ones.
* `Item` — what the line carries one after the other: idle bytes, whole frames and frames that were
  hit.
* `noisy_link` — whatever the items and their order: each whole frame is decoded once, each hit one
  is rejected at its end and costs no other frame, and what is published is the payload of the last
  whole AHRS frame.
* `resynchronises` — the same after any bytes at all, once the line has been idle for as long as the
  longest frame.
-/

import Robocon.FDILink.Distance
import Robocon.FDILink.Published

namespace Robocon.FDILink

open Lib Status

/-! ### The line -/

/-- A frame in which noise flips bits of the CRC16 and of the payload. -/
structure Hit where
  frame : Packed
  error : List UInt8
  hi : UInt8
  lo : UInt8
  same : error.length = frame.payload.length
  noise : Noise (error ++ [hi, lo])

/-- The bytes that arrive. -/
def Hit.bytes (hit : Hit) : List UInt8 :=
  corrupt hit.frame.bytes (List.replicate 5 0 ++ [hit.hi, hit.lo] ++ hit.error ++ [0])

/-- What the line carries. An idle byte opens no frame, and the payload of an AHRS frame is as long
as its packet. -/
inductive Item
  | idle (value : UInt8) (other : value ≠ stxFlag)
  | whole (frame : Packed) (fits : frame.type = 0x41 → frame.payload.length = 48)
  | struck (hit : Hit)

namespace Item

def bytes : Item → List UInt8
  | .idle value _ => [value]
  | .whole frame _ => frame.bytes
  | .struck hit => hit.bytes

/-- What `FDILink_Receive` returns. -/
def results : Item → List UInt8
  | .idle value _ => [if value = connectFlag then 0 else 255]
  | .whole frame _ => List.replicate (7 + frame.payload.length) 0 ++ [1]
  | .struck hit => List.replicate (7 + hit.frame.payload.length) 0 ++ [255]

/-- What is published after the item. -/
def publish (data : List UInt8) : Item → List UInt8
  | .whole frame _ => if frame.type = 0x41 then frame.payload else data
  | _ => data

end Item

/-! ### One item -/

/-- The bytes of a hit frame: the header is whole, and so is the end. -/
theorem Hit.bytes_eq (hit : Hit) :
    let len := UInt8.ofNat hit.frame.payload.length
    let sn := UInt8.ofInt hit.frame.sender.txNumber
    let crc16 := crc16Table hit.frame.payload len
    hit.bytes = frameHeader hit.frame.type len sn ++
      [crc8Table (frameHeader hit.frame.type len sn) 4, (crc16 >>> 8).toUInt8 ^^^ hit.hi,
        crc16.toUInt8 ^^^ hit.lo] ++ (corrupt hit.frame.payload hit.error ++ [edxFlag]) := by
  intro len sn crc16
  have whole : List.zipWith (· ^^^ ·) (hit.frame.payload ++ [edxFlag]) (hit.error ++ [0]) =
      corrupt hit.frame.payload hit.error ++ [edxFlag] := by
    rw [List.zipWith_append hit.same.symm]
    rfl
  have bytes : hit.frame.bytes = frameBytes hit.frame.type sn hit.frame.payload :=
    hit.frame.sender.pack_bytes hit.frame.type hit.frame.payload
  rw [Hit.bytes, bytes]
  unfold corrupt frameBytes frameHeader
  simp only [List.replicate, List.cons_append, List.nil_append, List.zipWith_cons_cons, whole,
    UInt8.xor_zero]
  rfl

/-- **A hit frame** is read to its end and rejected there. -/
theorem hit_run (hit : Hit) {s : Status} (idle : s.rxStatus = frameStart) :
    ∃ s', receiver.Run s hit.bytes (List.replicate (7 + hit.frame.payload.length) 0 ++ [-1]) s' ∧
      s'.rxStatus = frameStart := by
  obtain ⟨⟨sender, type, payload, nonempty, short⟩, error, hi, lo, same, noise⟩ := hit
  have same : error.length = payload.length := same
  have length : (corrupt payload error).length = payload.length := by
    simp [corrupt, same]
  have counted : (UInt8.ofNat payload.length).toNat = payload.length := by
    rw [UInt8.toNat_ofNat', Nat.mod_eq_of_lt (Nat.lt_succ_of_le short)]
  have some : UInt8.ofNat payload.length ≠ 0 := by
    intro zero
    rw [zero] at counted
    exact nonempty (List.eq_nil_of_length_eq_zero counted.symm)
  obtain ⟨s₁, head, body₁, index₁, bytes₁⟩ := header_run idle type (UInt8.ofInt sender.txNumber)
    ((crc16Table payload (UInt8.ofNat payload.length) >>> 8).toUInt8 ^^^ hi)
    ((crc16Table payload (UInt8.ofNat payload.length)).toUInt8 ^^^ lo) some
  have left₁ : s₁.rxDataLeft = (corrupt payload error).length := by
    have len₁ : s₁.frameBuffer[2] = UInt8.ofNat payload.length := (header_cells bytes₁).2.1
    have total := body₁.length
    rw [index₁, len₁, counted] at total
    rw [length]
    simpa using total
  obtain ⟨s₂, data, body₂, done, bytes₂, index₂, payload₂⟩ :=
    payload_run (corrupt payload error) body₁ left₁
  rw [index₁, Nat.zero_add, length] at index₂
  rw [index₁, filled_zero, List.nil_append, index₂] at payload₂
  have cells₂ := header_cells (bytes₂.trans bytes₁)
  have hi₂ : s₂.frameBuffer[5] = _ := cells₂.2.2.2.1
  have lo₂ : s₂.frameBuffer[6] = _ := cells₂.2.2.2.2
  have detected : messageValue (error ++ [hi, lo]) ≠ 0 := by
    refine noise_detected ?_ noise
    rw [List.length_append, same]
    exact Nat.add_le_add_right short 2
  have verify : s₂.sum16 ≠ s₂.crc16Verify := by
    intro equal
    have carried := equal.trans body₂.crc16
    rw [hi₂, lo₂] at carried
    have received := crc16_cut carried
    rw [index₂, payload₂, crc16Table_all short, ← length,
      crc16Table_all (length.le.trans short)] at received
    exact detected ((crc16_verify_iff same hi lo _ received).mp rfl)
  obtain ⟨s₃, code, step, idle₃, -, -, -, ⟨-, -, right⟩ | ⟨rfl, -⟩⟩ := body₂.end_cases edxFlag done
  · exact absurd right verify
  · refine ⟨s₃, ?_, idle₃⟩
    have codes : List.replicate (7 + payload.length) (0 : ℤ) ++ [-1] =
        List.replicate 7 0 ++ (List.replicate (corrupt payload error).length 0 ++ [-1]) := by
      rw [length, List.replicate_add, List.append_assoc]
    rw [Hit.bytes_eq, codes]
    exact head.append (data.append (.single trivial (receiver_step step)))

theorem receiver_length {s s' : Status} {bytes : List UInt8} {codes : List ℤ}
    (run : receiver.Run s bytes codes s') : codes.length = bytes.length := by
  induction run with
  | nil s => rfl
  | cons _ step _ ih =>
    obtain ⟨_, -, same⟩ := Option.map_eq_some_iff.mp step
    obtain ⟨-, rfl⟩ := Prod.mk.inj same
    rw [List.length_append, List.length_singleton, List.length_cons, ih, Nat.add_comm]

/-- A run without a completed frame publishes nothing. -/
theorem quiet_run {s s' : Status} {bytes : List UInt8} {codes : List ℤ}
    (run : receiver.Run s bytes codes s') (data : Vector UInt8 48) :
    (∀ code ∈ codes, UInt8.ofInt code ≠ 1) →
      publisher.Run ⟨s, data⟩ bytes (codes.map UInt8.ofInt) ⟨s', data⟩ := by
  induction run with
  | nil s => exact fun _ => .nil _
  | @cons s middle last value bytes output outputs _ step _ ih =>
    intro quiet
    obtain ⟨⟨next, code⟩, read, same⟩ := Option.map_eq_some_iff.mp step
    obtain ⟨rfl, rfl⟩ := Prod.mk.inj same
    have other := quiet code (by simp)
    have received : Receiver.receive ⟨s, data⟩ value = some (⟨next, data⟩, UInt8.ofInt code) := by
      rw [receive_eq read, if_neg other]
    exact .cons trivial (publisher_step received)
      (ih fun code member => quiet code (List.mem_cons_of_mem _ member))

/-- A run whose last byte completes a frame publishes it. -/
theorem completed_run {s s' : Status} {bytes : List UInt8} {codes : List ℤ}
    (run : receiver.Run s bytes codes s') (data : Vector UInt8 48) :
    ∀ {count : ℕ}, codes = List.replicate count 0 ++ [1] →
      publisher.Run ⟨s, data⟩ bytes (List.replicate count 0 ++ [1])
        ⟨s', decode s'.rxType s'.buffer data⟩ := by
  induction run with
  | nil s => exact fun {count} none => by cases count <;> cases none
  | @cons s middle last value bytes output outputs _ step rest ih =>
    intro count codes
    obtain ⟨⟨next, code⟩, read, same⟩ := Option.map_eq_some_iff.mp step
    obtain ⟨rfl, rfl⟩ := Prod.mk.inj same
    cases count with
    | zero =>
      obtain ⟨rfl, rfl⟩ : code = 1 ∧ outputs = [] := by simpa using codes
      obtain rfl := List.eq_nil_of_length_eq_zero (receiver_length rest).symm
      cases rest
      have received : Receiver.receive ⟨s, data⟩ value =
          some (⟨next, decode next.rxType next.buffer data⟩, 1) := by
        rw [receive_eq read]
        rfl
      exact .single trivial (publisher_step received)
    | succ count =>
      obtain ⟨rfl, later⟩ : code = 0 ∧ outputs = List.replicate count 0 ++ [1] := by
        simpa [List.replicate_succ] using codes
      have received : Receiver.receive ⟨s, data⟩ value = some (⟨next, data⟩, 0) := by
        rw [receive_eq read]
        rfl
      show publisher.Run _ _ ([0] ++ (List.replicate count 0 ++ [1])) _
      exact .cons trivial (publisher_step received) (ih later)

/-- **One item.** -/
theorem item_run (item : Item) {r : Receiver} (idle : r.link.rxStatus = frameStart) :
    ∃ r', publisher.Run r item.bytes item.results r' ∧ r'.link.rxStatus = frameStart ∧
      r'.ahrsData.toList = item.publish r.ahrsData.toList := by
  obtain ⟨link, data⟩ := r
  cases item with
  | idle value other =>
    have code : link.runningData value =
        if value = connectFlag then some ((link.stored 0 (by decide) value).reset, 0)
        else some ((link.stored 0 (by decide) value).reset.error, -1) := by
      rw [runningData_start idle, if_pos other]
    have quiet (code : ℤ) (next : Status) (read : link.runningData value = some (next, code))
        (different : UInt8.ofInt code ≠ 1) :
        publisher.Run ⟨link, data⟩ [value] [UInt8.ofInt code] ⟨next, data⟩ := by
      refine .single trivial (publisher_step ?_)
      rw [receive_eq read, if_neg different]
    by_cases connect : value = connectFlag
    · rw [if_pos connect] at code
      refine ⟨⟨(link.stored 0 (by decide) value).reset, data⟩, ?_, rfl, rfl⟩
      rw [Item.results, if_pos connect]
      exact quiet 0 _ code (by decide)
    · rw [if_neg connect] at code
      refine ⟨⟨(link.stored 0 (by decide) value).reset.error, data⟩, ?_, rfl, rfl⟩
      rw [Item.results, if_neg connect]
      exact quiet (-1) _ code (by decide)
  | whole frame fits =>
    obtain ⟨s', run, holds⟩ := frame_run frame idle
    have length : frame.bytes.length - 1 = 7 + frame.payload.length := by
      rw [Packed.bytes, frame.sender.pack_bytes, frameBytes_length]
      omega
    have codes := congrArg (fun count => List.replicate count (0 : ℤ) ++ [1]) length
    refine ⟨_, completed_run run data codes,
      holds.idle, ?_⟩
    show (decode s'.rxType s'.buffer data).toList =
      if frame.type = 0x41 then frame.payload else data.toList
    by_cases ahrs : frame.type = 0x41
    · have kind : s'.rxType = ahrsDataPacketId := by
        rw [holds.type, ahrs]
        rfl
      rw [if_pos ahrs, kind, decode_ahrs, ← fits ahrs, holds.payload]
    · have other : s'.rxType ≠ ahrsDataPacketId := by
        rw [holds.type]
        intro same
        have both : (frame.type.toNat : ℤ) = (0x41 : UInt8).toNat := same
        exact ahrs (UInt8.toNat_inj.mp (Nat.cast_inj.mp both))
      rw [if_neg ahrs, decode_other other]
  | struck hit =>
    obtain ⟨s', run, idle'⟩ := hit_run hit idle
    refine ⟨⟨s', data⟩, ?_, idle', rfl⟩
    have published := quiet_run run data (by
      intro code member
      rcases List.mem_append.mp member with zero | last
      · rw [List.eq_of_mem_replicate zero]
        decide
      · rw [List.mem_singleton.mp last]
        decide)
    rw [List.map_append, List.map_replicate] at published
    exact published

/-! ### The whole line -/

/-- **The link over a noisy line.** From an idle receiver, any items are read with the results of
each: a whole frame returns `1` at its last byte, a hit one `-1`; and what is published at the end
is the payload of the last whole AHRS frame. -/
theorem noisy_link (items : List Item) {r : Receiver} (idle : r.link.rxStatus = frameStart) :
    ∃ r', publisher.Run r (items.flatMap Item.bytes) (items.flatMap Item.results) r' ∧
      r'.link.rxStatus = frameStart ∧
      r'.ahrsData.toList = items.foldl Item.publish r.ahrsData.toList :=
  Machine.Run.line (fun r : Receiver => r.link.rxStatus = frameStart) (fun r => r.ahrsData.toList)
    (fun item _ idle => item_run item idle) items idle

/-- An AHRS frame. -/
def sampleFrame : Packed where
  sender := .initial
  type := 0x41
  payload := List.replicate 48 7
  nonempty := by decide
  short := by decide

/-- The frame with one bit of its payload flipped. -/
def sampleHit : Hit where
  frame := sampleFrame
  error := 1 :: List.replicate 47 0
  hi := 0
  lo := 0
  same := rfl
  noise := Or.inl (by decide +kernel)

/-! ### Out of step -/

/-- The bytes that the receiver still reads of a frame, at most. -/
def Status.pending (s : Status) : ℕ :=
  if s.rxStatus = frameStart then 0
  else if s.rxStatus ≤ 6 then 263 - s.rxStatus.toNat
  else s.rxDataLeft.toNat + 1

theorem Status.pending_idle {s : Status} (idle : s.rxStatus = frameStart) : s.pending = 0 :=
  if_pos idle

theorem Heading.pending {s : Status} {count : ℕ} (heading : Heading s count) (positive : 1 ≤ count)
    (short : count ≤ 6) : s.pending = 263 - count := by
  have status := heading.status
  rw [Status.pending, if_neg (by unfold frameStart; omega), if_pos (by omega), status]
  rfl

theorem Body.pending {s : Status} (body : Body s) : s.pending = s.rxDataLeft.toNat + 1 := by
  have status : s.rxStatus = frameEnd ∨ s.rxStatus = frameData := by
    rw [body.status]
    split
    · exact Or.inl rfl
    · exact Or.inr rfl
  unfold frameEnd frameData at status
  rw [Status.pending, if_neg (by unfold frameStart; omega), if_neg (by omega)]

/-- **An idle byte** brings the receiver closer to the end of what it reads. -/
theorem Tracks.pending_next {stream : List UInt8} {s : Status} (tracks : Tracks stream s)
    {value : UInt8} (other : value ≠ stxFlag) :
    ∃ s' code, s.runningData value = some (s', code) ∧ s'.pending ≤ s.pending - 1 := by
  cases tracks with
  | idle status =>
    obtain ⟨s', code, step, ⟨stx, -⟩ | ⟨-, -, idle⟩⟩ := idle_cases value status
    · exact absurd stx other
    · exact ⟨s', code, step, (pending_idle idle).le.trans (Nat.zero_le _)⟩
  | heading count positive short heading bytes =>
    have now := heading.pending positive short
    by_cases crc8 : count = 4
    · subst crc8
      obtain ⟨s', code, step, -, ⟨-, -, idle⟩ | ⟨-, -, -, idle, -⟩ | ⟨-, -, -, next, -⟩⟩ :=
        heading.crc8_cases value
      · exact ⟨s', code, step, (pending_idle idle).le.trans (Nat.zero_le _)⟩
      · exact ⟨s', code, step, (pending_idle idle).le.trans (Nat.zero_le _)⟩
      · refine ⟨s', code, step, ?_⟩
        rw [next.pending (by decide) (by decide), now]
    · by_cases last : count = 6
      · subst last
        obtain ⟨s', step, body, index, -⟩ := heading.last value
        have length := body.length
        have small := s'.frameBuffer[2].toNat_lt
        refine ⟨s', 0, step, ?_⟩
        rw [body.pending, now]
        omega
      · obtain ⟨s', step, next, -⟩ := heading.next value (by omega)
        refine ⟨s', 0, step, ?_⟩
        rw [next.pending (by omega) (by omega), now]
        omega
  | body body bytes =>
    have now := body.pending
    by_cases done : s.rxDataLeft = 0
    · obtain ⟨s', code, step, idle, -⟩ := body.end_cases value done
      exact ⟨s', code, step, (pending_idle idle).le.trans (Nat.zero_le _)⟩
    · obtain ⟨s', step, next, left, -⟩ := body.next value done
      have positive := body.left
      refine ⟨s', 0, step, ?_⟩
      rw [next.pending, now, left]
      omega

/-- Where there is nothing left to read, the receiver is idle. -/
theorem Tracks.idle_of_pending {stream : List UInt8} {s : Status} (tracks : Tracks stream s)
    (none : s.pending = 0) : s.rxStatus = frameStart := by
  cases tracks with
  | idle status => exact status
  | heading count positive short heading bytes =>
    rw [heading.pending positive short] at none
    omega
  | body body bytes =>
    rw [body.pending] at none
    omega

theorem Tracks.pending_le {stream : List UInt8} {s : Status} (tracks : Tracks stream s) :
    s.pending ≤ 262 := by
  cases tracks with
  | idle status => exact (pending_idle status).le.trans (Nat.zero_le _)
  | heading count positive short heading bytes =>
    rw [heading.pending positive short]
    omega
  | body body bytes =>
    have length := body.length
    have small := s.frameBuffer[2].toNat_lt
    rw [body.pending]
    omega

/-- Idle bytes bring the receiver to the end of what it reads. -/
theorem Tracks.gap (bytes : List UInt8) : ∀ {stream : List UInt8} {r : Receiver},
    Tracks stream r.link → (∀ value ∈ bytes, value ≠ stxFlag) →
    ∃ results r', publisher.Run r bytes results r' ∧ Tracks (stream ++ bytes) r'.link ∧
      r'.link.pending ≤ r.link.pending - bytes.length := by
  induction bytes with
  | nil => exact fun tracks _ => ⟨[], _, .nil _, by rwa [List.append_nil], le_rfl⟩
  | cons value bytes ih =>
    intro stream r tracks quiet
    obtain ⟨other, quiet⟩ := List.forall_mem_cons.mp quiet
    obtain ⟨s', code, step, tracks', -⟩ := tracks.next value
    obtain ⟨s'', code', step', less⟩ := tracks.pending_next other
    obtain ⟨rfl, rfl⟩ := Prod.mk.inj (Option.some.inj (step.symm.trans step'))
    have received := publisher_step (receive_eq step)
    have link : (if UInt8.ofInt code = 1 then Receiver.effect ⟨s', r.ahrsData⟩
        else ⟨s', r.ahrsData⟩).link = s' := by
      split <;> rfl
    obtain ⟨results, r', run, tracks'', left⟩ := ih (link.symm ▸ tracks') quiet
    rw [List.append_assoc, List.singleton_append] at tracks''
    refine ⟨_, r', .cons trivial received run, tracks'', ?_⟩
    rw [link] at left
    rw [List.length_cons]
    omega

/-- Every byte is read, whatever the receiver has read before. -/
theorem publisher_steps (r : Receiver) (value : UInt8) (tracked : ∃ past, Tracks past r.link) :
    ∃ r' result, publisher.step r value = some (r', result) ∧ ∃ past, Tracks past r'.link := by
  obtain ⟨past, tracks⟩ := tracked
  obtain ⟨s', code, step, tracks', -⟩ := tracks.next value
  refine ⟨_, _, publisher_step (receive_eq step), past ++ [value], ?_⟩
  split
  · exact tracks'
  · exact tracks'

theorem tracked_initial : ∃ past, Tracks past Receiver.initial.link := ⟨[], .idle rfl⟩

/-- **The receiver resynchronises.** After any bytes at all, `262` bytes none of which is `FC` make
the receiver idle; the items after them are read as by an idle one. -/
theorem resynchronises (garbage gap : List UInt8) (items : List Item) (quiet : stxFlag ∉ gap)
    (long : 262 ≤ gap.length) :
    ∃ results r r', publisher.Run .initial (garbage ++ gap) results r ∧
      publisher.Run r (items.flatMap Item.bytes) (items.flatMap Item.results) r' ∧
      r'.link.rxStatus = frameStart ∧
      r'.ahrsData.toList = items.foldl Item.publish r.ahrsData.toList := by
  obtain ⟨early, middle, head, past, tracks⟩ :=
    Machine.Run.progress publisher _ publisher_steps garbage tracked_initial
  obtain ⟨late, r, tail, tracks', left⟩ :=
    tracks.gap gap fun value member same => quiet (same ▸ member)
  have within := tracks.pending_le
  have idle := tracks'.idle_of_pending (by omega)
  obtain ⟨r', run, idle', data⟩ := noisy_link items idle
  exact ⟨early ++ late, r, r', head.append tail, run, idle', data⟩

/-- The opening byte of a frame that never comes, and after the gap a frame and a hit one. -/
theorem resynchronises_frame :
    ∃ results r r', publisher.Run .initial ([0xFC, 0x41, 0xFF] ++ List.replicate 262 0xFD)
        results r ∧
      publisher.Run r
        ([Item.whole sampleFrame fun _ => rfl, .struck sampleHit].flatMap Item.bytes)
        ([Item.whole sampleFrame fun _ => rfl, .struck sampleHit].flatMap Item.results) r' ∧
      r'.ahrsData.toList = List.replicate 48 7 := by
  obtain ⟨results, r, r', head, tail, -, data⟩ := resynchronises [0xFC, 0x41, 0xFF]
    (List.replicate 262 0xFD) [.whole sampleFrame fun _ => rfl, .struck sampleHit]
    (fun member => absurd (List.eq_of_mem_replicate member) (by decide)) List.length_replicate.ge
  exact ⟨results, r, r', head, tail, data⟩

end Robocon.FDILink
