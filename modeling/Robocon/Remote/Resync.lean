/-
**Finding the next packet.**

In `flag = 1` a byte that is not `40` is rejected without a look whether it is `20`, the first byte
of a header (`resync_missed`).

* `Packet` — a packet with a right checksum; `packet_read`: read from `flag = 0` it is decoded.
* `flag_after` — after bytes without a header `flag` is the parity of the `20`s at their end.
* `resync_iff` — such bytes and then a packet are decoded exactly if that parity is even, unless the
  channels are the old ones.
-/

import Robocon.Lib.Stream
import Robocon.Remote.Decoding

namespace Robocon.Remote

open Lib

/-! ### Packets -/

/-- A packet: the bytes of the channels and a checksum, which is `ffff` less the sum of the bytes
before it. -/
structure Packet where
  payload : List UInt8
  low : UInt8
  high : UInt8
  length : payload.length = 28
  checksum : low.toUInt16 + 256 * high.toUInt16 =
    0xffff - ((0x20 :: 0x40 :: payload).map UInt8.toUInt16).sum

namespace Packet

variable (p : Packet)

/-- The bytes of a packet. -/
def bytes : List UInt8 := 0x20 :: 0x40 :: (p.payload ++ [p.low, p.high])

/-- The channels of a packet. -/
def words : Vector UInt16 14 := Vector.ofFn fun j =>
  (p.payload.getD (j * 2) 0).toUInt16 + 256 * (p.payload.getD (j * 2 + 1) 0).toUInt16

theorem bytes_length : p.bytes.length = 32 := by
  simp [bytes, p.length]

theorem getD_payload {index : ℕ} (inside : index < 28) :
    p.bytes.getD (index + 2) 0 = p.payload.getD index 0 := by
  have short : index < p.payload.length := p.length.symm ▸ inside
  rw [bytes, List.getD_cons_succ, List.getD_cons_succ, List.getD_append _ _ _ _ short]

theorem getD_checksum (index : ℕ) :
    p.bytes.getD (28 + index + 2) 0 = [p.low, p.high].getD index 0 := by
  have late : p.payload.length ≤ 28 + index := p.length ▸ Nat.le_add_right 28 index
  rw [bytes, List.getD_cons_succ, List.getD_cons_succ, List.getD_append_right _ _ _ _ late,
    p.length, Nat.add_sub_cancel_left]

theorem correct : Correct p.bytes := by
  have before : p.bytes.take 30 = 0x20 :: 0x40 :: p.payload := by
    rw [bytes, List.take_succ_cons, List.take_succ_cons,
      show 28 = p.payload.length from p.length.symm, List.take_left]
  have low : p.bytes.getD 30 0 = p.low := p.getD_checksum 0
  have high : p.bytes.getD 31 0 = p.high := p.getD_checksum 1
  rw [Correct, before, littleWord, low, high]
  exact p.checksum

theorem channels_eq : channels p.bytes = p.words := by
  unfold channels words
  congr 1
  funext j
  have low := p.getD_payload (show (j : ℕ) * 2 < 28 by omega)
  have high := p.getD_payload (show (j : ℕ) * 2 + 1 < 28 by omega)
  rw [littleWord, low, high]

end Packet

/-! ### Reading -/

/-- The stream is cut into bytes other than `20`, and bytes `20` before one other than `40`. -/
inductive Skipped : List UInt8 → Prop
  | nil : Skipped []
  | other {data : UInt8} {stream : List UInt8} (idle : data ≠ 0x20) (rest : Skipped stream) :
    Skipped (data :: stream)
  | opening {data : UInt8} {stream : List UInt8} (drop : data ≠ 0x40) (rest : Skipped stream) :
    Skipped (0x20 :: data :: stream)

/-- The number of bytes `20` at the end of a stream. -/
def openings (stream : List UInt8) : ℕ := (stream.rtakeWhile (· = 0x20)).length

namespace Rc

variable {rc : Rc} {data : UInt8}

/-- **A packet** that is read from `flag = 0` is decoded. -/
theorem packet_read (p : Packet) (idle : rc.flag = 0) :
    ∃ rc', rc.feed p.bytes = some rc' ∧ rc'.flag = 0 ∧ rc'.chs = p.words := by
  have length : (p.payload ++ [p.low, p.high]).length = 30 := by
    rw [List.length_append, p.length]
    rfl
  obtain ⟨rc', reads, flag, chs⟩ := packet_decoded idle length
  refine ⟨rc', reads, flag, ?_⟩
  rw [chs, ← p.channels_eq]
  exact if_pos p.correct

/-! ### Bytes before a packet -/

theorem openings_append (stream : List UInt8) (data : UInt8) :
    openings (stream ++ [data]) = if data = 0x20 then openings stream + 1 else 0 :=
  trailing_append

theorem getLast_of_openings {stream : List UInt8} (opened : openings stream ≠ 0) :
    stream.getLast? = some 0x20 := getLast_of_trailing opened

/-- After bytes without a header `flag` is the parity of the bytes `20` at their end. -/
theorem flag_after (stream : List UInt8) (apart : Apart 0x20 0x40 stream) (idle : rc.flag = 0) :
    ∃ rc', rc.feed stream = some rc' ∧ rc'.chs = rc.chs ∧ rc'.flag = openings stream % 2 := by
  induction stream using List.reverseRecOn with
  | nil => exact ⟨rc, rfl, rfl, idle⟩
  | append_singleton stream data ih =>
    obtain ⟨rc', read, chs, flag⟩ := ih apart.init
    rw [feed_append read, openings_append]
    have next {rc'' : Rc} (reads : rc'.ibusIn data = some rc'') : rc'.feed [data] = some rc'' :=
      feed_cons reads []
    rcases Nat.mod_two_eq_zero_or_one (openings stream) with even | odd
    · by_cases opens : data = 0x20
      · obtain ⟨rc'', reads, flag', chs', -⟩ := ibusIn_first (flag.trans even)
        refine ⟨rc'', next (opens ▸ reads), chs'.trans chs, ?_⟩
        rw [if_pos opens, flag']
        omega
      · refine ⟨rc', next (ibusIn_idle (flag.trans even) opens), chs, ?_⟩
        rw [if_neg opens, flag, even]
    · have last : stream.getLast? = some 0x20 := getLast_of_openings (by omega)
      refine ⟨_, next (ibusIn_drop (flag.trans odd) (apart.last_ne last)), chs, ?_⟩
      split
      · simp only
        omega
      · rfl

theorem skipped_cons {stream : List UInt8} (idle : data ≠ 0x20) :
    Skipped (data :: stream) ↔ Skipped stream := by
  refine ⟨fun skipped => ?_, .other idle⟩
  cases skipped with
  | other _ rest => exact rest
  | opening => exact absurd rfl idle

theorem skipped_opening {stream : List UInt8} :
    Skipped (0x20 :: data :: stream) ↔ data ≠ 0x40 ∧ Skipped stream := by
  refine ⟨fun skipped => ?_, fun both => .opening both.1 both.2⟩
  cases skipped with
  | other idle _ => exact absurd rfl idle
  | opening drop rest => exact ⟨drop, rest⟩

theorem not_skipped_single : ¬ Skipped [0x20] := by
  intro skipped
  cases skipped with
  | other idle _ => exact absurd rfl idle

/-- Less than a packet does not change the channels, and `flag` is left at zero exactly if the bytes
are skipped. -/
theorem feed_short : ∀ (stream : List UInt8) {rc : Rc}, rc.flag = 0 → stream.length < 32 →
    ∃ rc', rc.feed stream = some rc' ∧ rc'.chs = rc.chs ∧ (rc'.flag = 0 ↔ Skipped stream)
  | [], rc, idle, _ => ⟨rc, rfl, rfl, iff_of_true idle .nil⟩
  | data :: stream, rc, idle, short => by
    by_cases opens : data = 0x20
    · subst opens
      obtain ⟨rc₁, read₁, opened, chs₁, bytes₁⟩ := ibusIn_first idle
      cases stream with
      | nil => exact ⟨rc₁, feed_cons read₁ [], chs₁, iff_of_false (by omega) not_skipped_single⟩
      | cons next stream =>
        simp only [List.length_cons] at short
        rw [feed_cons read₁, skipped_opening]
        by_cases header : next = 0x40
        · subst header
          obtain ⟨rc₂, read₂, body, chs₂, -⟩ := ibusIn_second opened bytes₁
          obtain ⟨rc₃, read₃, flag, chs₃, -⟩ := feed_body stream body.ge (by omega)
          refine ⟨rc₃, (feed_cons read₂ stream).trans read₃, chs₃.trans (chs₂.trans chs₁), ?_⟩
          exact iff_of_false (by omega) fun both => both.1 rfl
        · obtain ⟨rc₂, read₂, chs₂, skipped⟩ :=
            @feed_short stream { rc₁ with flag := 0 } rfl (by omega)
          refine ⟨rc₂, (feed_cons (ibusIn_drop opened header) stream).trans read₂,
            chs₂.trans chs₁, ?_⟩
          rw [skipped, and_iff_right header]
    · obtain ⟨rc', read, chs, skipped⟩ := feed_short stream idle (Nat.lt_of_succ_lt short)
      refine ⟨rc', (feed_cons (ibusIn_idle idle opens) stream).trans read, chs, ?_⟩
      rw [skipped, skipped_cons opens]

/-- **Resynchronising.** Bytes without a header and then a packet leave `flag = 0` and the channels
of the packet exactly if an even number of bytes `20` stands before the packet, or the channels were
those of the packet and the bytes after its header are skipped. -/
theorem resync_iff (idle : rc.flag = 0) {stream : List UInt8} (apart : Apart 0x20 0x40 stream)
    (p : Packet) :
    ∃ rc', rc.feed (stream ++ p.bytes) = some rc' ∧
      (rc'.flag = 0 ∧ rc'.chs = p.words ↔
        Even (openings stream) ∨ rc.chs = p.words ∧ Skipped (p.bytes.drop 2)) := by
  obtain ⟨rc₁, read, chs, flag⟩ := flag_after stream apart idle
  rcases Nat.mod_two_eq_zero_or_one (openings stream) with even | odd
  · obtain ⟨rc₂, reads, idle', words⟩ := packet_read p (flag.trans even)
    refine ⟨rc₂, (feed_append read _).trans reads, ?_⟩
    exact iff_of_true ⟨idle', words⟩ (.inl (Nat.even_iff.mpr even))
  · have dropped : rc₁.ibusIn 0x20 = some { rc₁ with flag := 0 } :=
      ibusIn_drop (flag.trans odd) (by decide)
    have missed : ({ rc₁ with flag := 0 } : Rc).ibusIn 0x40 = some { rc₁ with flag := 0 } :=
      ibusIn_idle rfl (by decide)
    obtain ⟨rc₂, reads, same, skipped⟩ := @feed_short (p.bytes.drop 2) { rc₁ with flag := 0 } rfl
      (by rw [List.length_drop, p.bytes_length]; decide)
    refine ⟨rc₂, (feed_append read _).trans ?_, ?_⟩
    · exact ((feed_cons dropped _).trans (feed_cons missed _)).trans reads
    · have not_even : ¬ Even (openings stream) := Nat.not_even_iff.mpr odd
      rw [skipped, same]
      show Skipped _ ∧ rc₁.chs = _ ↔ _
      rw [chs, or_iff_right not_even, and_comm]

/-! ### A packet after a byte that opens a header -/

/-- A packet whose channels are one. -/
def ones : Packet where
  payload := (List.replicate 14 [1, 0]).flatten
  low := 0x91
  high := 0xff
  length := by decide
  checksum := by decide

theorem resync_two :
    ∃ rc', initial.feed ([0x20, 0x20] ++ ones.bytes) = some rc' ∧ rc'.flag = 0 ∧
      rc'.chs = ones.words := by
  have idle : initial.flag = 0 := rfl
  have apart : Apart (0x20 : UInt8) 0x40 [0x20, 0x20] := by decide
  obtain ⟨rc', read, same⟩ := resync_iff idle apart ones
  exact ⟨rc', read, same.mpr (.inl (by decide))⟩

theorem resync_missed :
    ∃ rc', initial.feed ([0x20] ++ ones.bytes) = some rc' ∧
      ¬ (rc'.flag = 0 ∧ rc'.chs = ones.words) := by
  have computed : (initial.feed ([0x20] ++ ones.bytes)).any (fun rc' =>
      ¬ (rc'.flag = 0 ∧ rc'.chs = ones.words)) = true := by decide +kernel
  obtain ⟨rc', read, missed⟩ := (Option.any_eq_true _ _).mp computed
  exact ⟨rc', read, of_decide_eq_true missed⟩

end Rc

end Robocon.Remote
