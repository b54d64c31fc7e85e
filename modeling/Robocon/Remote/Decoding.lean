/-
**What `ibus_in` makes of a packet.**

`frame` is the framing alone: the bytes of the packet that is being read, and the packet that a byte
completes. `ibus_in` keeps the former in the front of its buffer.

* `Correct`, `channels` — the checksum and the channels of a packet, read off its 32 bytes.
* `analyse_eq` — the loop of `ibus_in` computes them.
* `ibusIn_frame` — one byte: the buffer follows the framing, no write leaves it, and a packet that
  is completed sets the channels if it is correct.
* `ibus_decodes` — from `flag = 0` no stream leaves the buffer, and 32 bytes with a header are
  decoded exactly if they are correct.
-/

import Robocon.Remote.Ibus

namespace Robocon.Remote

open Lib

/-! ### Packets of 32 bytes -/

/-- Two bytes of a packet as a word, the low byte first. -/
def littleWord (b : List UInt8) (i : ℕ) : UInt16 :=
  (b.getD i 0).toUInt16 + 256 * (b.getD (i + 1) 0).toUInt16

/-- The last word is `ffff` less the sum of the bytes before it. -/
def Correct (b : List UInt8) : Prop :=
  littleWord b 30 = 0xffff - ((b.take 30).map UInt8.toUInt16).sum

instance (b : List UInt8) : Decidable (Correct b) := inferInstanceAs (Decidable (_ = _))

/-- The fourteen words after the header. -/
def channels (b : List UInt8) : Vector UInt16 14 := Vector.ofFn fun j => littleWord b (j * 2 + 2)

/-- The bytes of a packet that have been read, after one byte more, and the packet if that byte
completes it. -/
def frame (reading : List UInt8) (data : UInt8) : List UInt8 × Option (List UInt8) :=
  if reading.length = 0 then (if data = 0x20 then [data] else [], none)
  else if reading.length = 1 then (if data = 0x40 then reading ++ [data] else [], none)
  else if reading.length < 31 then (reading ++ [data], none)
  else ([], some (reading ++ [data]))

namespace Rc

/-- The bytes of the packet that is being read. -/
def reading (rc : Rc) : List UInt8 := filled rc.buf rc.flag

variable {rc : Rc} {data : UInt8}

theorem reading_length (inside : rc.flag ≤ 31) : rc.reading.length = rc.flag :=
  filled_length rc.buf (by omega)

/-! ### The end of a packet -/

/-- The channels of the buffer are those of its bytes. -/
theorem word_channels (buf : Vector UInt8 32) :
    (Vector.ofFn fun j : Fin 14 => word buf j.val) = channels buf.toList := by
  unfold channels
  congr 1
  funext j
  rw [word, join_eq, cell_eq, cell_eq]
  rfl

/-- The loop compares what makes the bytes of the buffer a correct packet. -/
theorem checksum_iff (buf : Vector UInt8 32) :
    checksumCal buf 14 = checksumIbus buf ↔ Correct buf.toList := by
  rw [checksumCal_eq buf le_rfl, checksumIbus, join_eq, cell_eq, cell_eq, eq_comm]
  rfl

/-- **The end of a packet.** -/
theorem analyse_eq (rc : Rc) :
    rc.analyse = { rc with
      newPkg := 1
      flag := 0
      chs := if Correct rc.buf.toList then channels rc.buf.toList else rc.chs } := by
  unfold analyse
  by_cases correct : Correct rc.buf.toList
  · rw [if_pos ((checksum_iff rc.buf).mpr correct), if_pos correct, word_channels]
  · rw [if_neg fun same => correct ((checksum_iff rc.buf).mp same), if_neg correct]

/-! ### One byte -/

/-- What a byte does to the channels and the flag of new packets, by the packet that it
completes. -/
def Effect (rc rc' : Rc) : Option (List UInt8) → Prop
  | none => rc'.chs = rc.chs ∧ rc'.newPkg = rc.newPkg
  | some b => rc'.chs = (if Correct b then channels b else rc.chs) ∧ rc'.newPkg = 1

theorem frame_idle (idle : rc.flag = 0) :
    frame rc.reading data = (if data = 0x20 then [data] else [], none) :=
  if_pos ((reading_length (idle.trans_le (by decide))).trans idle)

theorem frame_opened (opened : rc.flag = 1) :
    frame rc.reading data = (if data = 0x40 then rc.reading ++ [data] else [], none) := by
  have length := (reading_length (opened.trans_le (by decide))).trans opened
  have started : ¬ rc.reading.length = 0 := by omega
  rw [frame, if_neg started, if_pos length]

theorem frame_body (body : 2 ≤ rc.flag) (inside : rc.flag ≤ 31) :
    frame rc.reading data =
      if rc.flag < 31 then (rc.reading ++ [data], none) else ([], some (rc.reading ++ [data])) := by
  have length := reading_length inside
  have started : ¬ rc.reading.length = 0 := by omega
  have opened : ¬ rc.reading.length = 1 := by omega
  rw [frame, if_neg started, if_neg opened, length]

/-- The state after a byte is stored. -/
def stored (rc : Rc) (data : UInt8) (place : rc.flag < 32) (flag : ℕ) : Rc :=
  { rc with buf := rc.buf.set rc.flag data place, flag := flag }

theorem stored_reading (place : rc.flag < 32) (data : UInt8) :
    (rc.stored data place (rc.flag + 1)).reading = rc.reading ++ [data] :=
  filled_set rc.buf data place

theorem ibusIn_opens (idle : rc.flag = 0) (place : rc.flag < 32) :
    rc.ibusIn 0x20 = some (rc.stored 0x20 place (rc.flag + 1)) := by
  have next : 1 = rc.flag + 1 := by omega
  rw [ibusIn, if_pos idle, if_pos rfl, store_eq place]
  exact congrArg (fun flag => some (rc.stored 0x20 place flag)) next

theorem ibusIn_header (opened : rc.flag = 1) (place : rc.flag < 32) :
    rc.ibusIn 0x40 = some (rc.stored 0x40 place (rc.flag + 1)) := by
  have started : ¬ rc.flag = 0 := by omega
  have next : 2 = rc.flag + 1 := by omega
  rw [ibusIn, if_neg started, if_pos opened, if_pos rfl, store_eq place]
  exact congrArg (fun flag => some (rc.stored 0x40 place flag)) next

/-- **One byte** follows the framing, and never leaves the buffer. -/
theorem ibusIn_frame (inside : rc.flag ≤ 31) (data : UInt8) :
    ∃ rc', rc.ibusIn data = some rc' ∧ rc'.flag ≤ 31 ∧ rc'.reading = (frame rc.reading data).1 ∧
      Effect rc rc' (frame rc.reading data).2 := by
  have place : rc.flag < 32 := by omega
  rcases Nat.lt_or_ge rc.flag 2 with early | body
  · rcases Nat.eq_zero_or_pos rc.flag with idle | started
    · have none : rc.reading = [] := by rw [reading, idle, filled_zero]
      rw [frame_idle idle]
      by_cases opens : data = 0x20
      · rw [if_pos opens, opens]
        refine ⟨_, ibusIn_opens idle place, ?_, ?_, rfl, rfl⟩
        · show rc.flag + 1 ≤ 31
          omega
        · rw [stored_reading, none, List.nil_append]
      · rw [if_neg opens]
        exact ⟨rc, ibusIn_idle idle opens, inside, none, rfl, rfl⟩
    · have opened : rc.flag = 1 := by omega
      rw [frame_opened opened]
      by_cases header : data = 0x40
      · rw [if_pos header, header]
        refine ⟨_, ibusIn_header opened place, ?_, stored_reading place 0x40, rfl, rfl⟩
        show rc.flag + 1 ≤ 31
        omega
      · rw [if_neg header]
        exact ⟨_, ibusIn_drop opened header, Nat.zero_le _, filled_zero _, rfl, rfl⟩
  · rw [frame_body body inside]
    have read : rc.ibusIn data = _ := ibusIn_store body place
    by_cases more : rc.flag < 31
    · have short : ¬ rc.flag + 1 ≥ 32 := by omega
      simp only [if_neg short] at read
      rw [if_pos more]
      exact ⟨_, read, more, stored_reading place data, rfl, rfl⟩
    · have full : rc.flag + 1 ≥ 32 := by omega
      simp only [if_pos full] at read
      have whole : (rc.stored data place (rc.flag + 1)).buf.toList = rc.reading ++ [data] := by
        rw [← filled_full, ← stored_reading place data, reading]
        congr 1
        show 32 = rc.flag + 1
        omega
      rw [if_neg more]
      refine ⟨_, read, ?_, ?_, ?_⟩
      · rw [analyse_eq]
        exact Nat.zero_le _
      · rw [analyse_eq]
        exact filled_zero _
      · rw [analyse_eq, ← whole]
        exact ⟨rfl, rfl⟩

/-! ### Streams -/

/-- **No stream** leaves the buffer. -/
theorem feed_inside (stream : List UInt8) : ∀ {rc : Rc}, rc.flag ≤ 31 →
    ∃ rc', rc.feed stream = some rc' ∧ rc'.flag ≤ 31 := by
  induction stream with
  | nil => exact fun {rc} inside => ⟨rc, rfl, inside⟩
  | cons data stream ih =>
    intro rc inside
    obtain ⟨rc₁, read, inside₁, -⟩ := ibusIn_frame inside data
    obtain ⟨rc₂, reads, inside₂⟩ := ih inside₁
    exact ⟨rc₂, (feed_cons read stream).trans reads, inside₂⟩

theorem feed_front (idle : rc.flag = 0) {front : List UInt8} (length : front.length = 29) :
    ∃ rc', rc.feed (0x20 :: 0x40 :: front) = some rc' ∧ rc'.flag = 31 ∧ rc'.chs = rc.chs ∧
      rc'.reading = 0x20 :: 0x40 :: front := by
  obtain ⟨rc₁, read₁, opened, chs₁, bytes₁⟩ := ibusIn_first idle
  obtain ⟨rc₂, read₂, body, chs₂, bytes₂⟩ := ibusIn_second opened bytes₁
  obtain ⟨rc₃, reads, flag, chs₃, bytes₃⟩ := feed_body front body.ge (by omega)
  refine ⟨rc₃, ?_, by omega, chs₃.trans (chs₂.trans chs₁), ?_⟩
  · rw [feed_cons read₁, feed_cons read₂, reads]
  · rw [reading, bytes₃, body, bytes₂]
    rfl

/-- **A packet** that is read from `flag = 0` sets the channels if it is correct. -/
theorem packet_decoded (idle : rc.flag = 0) {rest : List UInt8} (length : rest.length = 30) :
    ∃ rc', rc.feed (0x20 :: 0x40 :: rest) = some rc' ∧ rc'.flag = 0 ∧
      rc'.chs = if Correct (0x20 :: 0x40 :: rest) then channels (0x20 :: 0x40 :: rest)
        else rc.chs := by
  obtain ⟨front, last, rfl⟩ : ∃ front last, rest = front ++ [last] := by
    rcases List.eq_nil_or_concat rest with rfl | ⟨front, last, rfl⟩
    · cases length
    · exact ⟨front, last, List.concat_eq_append⟩
  rw [List.length_append, List.length_singleton] at length
  obtain ⟨rc₁, reads, flag, chs, bytes⟩ := feed_front idle (show front.length = 29 by omega)
  obtain ⟨rc₂, read, inside₂, reading₂, effect⟩ := ibusIn_frame flag.le last
  have full : ¬ rc₁.flag < 31 := by omega
  rw [frame_body (by omega) flag.le, if_neg full] at effect reading₂
  have completed : rc₁.reading ++ [last] = 0x20 :: 0x40 :: (front ++ [last]) := by
    rw [bytes]
    rfl
  rw [completed] at effect
  refine ⟨rc₂, ?_, ?_, ?_⟩
  · exact (feed_append reads [last]).trans (feed_cons read [])
  · rw [← reading_length inside₂, reading₂]
    rfl
  · rw [effect.1, chs]

/-- **Decoding.** From `flag = 0` no stream leaves the buffer, and a packet sets the channels
exactly if its checksum is right. -/
theorem ibus_decodes (idle : rc.flag = 0) :
    (∀ stream, ∃ rc', rc.feed stream = some rc' ∧ rc'.flag ≤ 31) ∧
      ∀ rest : List UInt8, rest.length = 30 →
        ∃ rc', rc.feed (0x20 :: 0x40 :: rest) = some rc' ∧ rc'.flag = 0 ∧
          rc'.chs = if Correct (0x20 :: 0x40 :: rest) then channels (0x20 :: 0x40 :: rest)
            else rc.chs := by
  exact ⟨fun stream => feed_inside stream (idle.trans_le (by decide)),
    fun _ length => packet_decoded idle length⟩

/-- A packet of zeros with its checksum, and with another one. -/
theorem ibus_decodes_zeros :
    (∃ rc', initial.feed (0x20 :: 0x40 :: (List.replicate 28 0 ++ [0x9f, 0xff])) = some rc' ∧
      rc'.flag = 0 ∧ rc'.chs = channels (0x20 :: 0x40 :: (List.replicate 28 0 ++ [0x9f, 0xff]))) ∧
    ∃ rc', initial.feed (0x20 :: 0x40 :: List.replicate 30 0) = some rc' ∧
      rc'.flag = 0 ∧ rc'.chs = initial.chs := by
  have idle : initial.flag = 0 := rfl
  obtain ⟨rc₁, read₁, flag₁, chs₁⟩ :=
    (ibus_decodes idle).2 (List.replicate 28 0 ++ [0x9f, 0xff]) (by decide)
  obtain ⟨rc₂, read₂, flag₂, chs₂⟩ := (ibus_decodes idle).2 (List.replicate 30 0) (by decide)
  rw [if_pos (by decide +kernel)] at chs₁
  rw [if_neg (by decide +kernel)] at chs₂
  exact ⟨⟨rc₁, read₁, flag₁, chs₁⟩, rc₂, read₂, flag₂, chs₂⟩

end Rc

end Robocon.Remote
