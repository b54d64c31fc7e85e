/-
**The remote control (`bsp_sbus.c`).**

`Rc.ibusIn` reads one byte of the ibus stream: a packet is `20 40`, fourteen words with their low
bytes first, and a checksum. A write past the end of `buf` is a failed step.

* `checksumCal_eq` — the loop at the end of a packet subtracts the bytes before the checksum.
* `ibusIn_idle`, `ibusIn_first`, `ibusIn_second`, `ibusIn_drop`, `ibusIn_store` — one byte, by the
  state of the parser.
* `feed_body` — the bytes of a packet before its last one are stored.
-/

import Robocon.Lib.Buffer

namespace Robocon.Remote

open Lib

/-! ### The parser -/

/-- `rc_t`. -/
structure Rc where
  newPkg : UInt8
  buf : Vector UInt8 32
  chs : Vector UInt16 14
  flag : ℕ

/-- `ch[i]`. -/
def word (buf : Vector UInt8 32) (i : ℕ) : UInt16 :=
  (cell buf (i * 2 + 3)).toUInt16 <<< 8 ||| (cell buf (i * 2 + 2)).toUInt16

/-- `checksum_cal` after some turns of the loop over the channels. -/
def checksumCal (buf : Vector UInt8 32) : ℕ → UInt16
  | 0 => 0xffff - (cell buf 0).toUInt16 - (cell buf 1).toUInt16
  | i + 1 => checksumCal buf i - (cell buf (i * 2 + 3)).toUInt16 - (cell buf (i * 2 + 2)).toUInt16

def checksumIbus (buf : Vector UInt8 32) : UInt16 :=
  (cell buf 31).toUInt16 <<< 8 ||| (cell buf 30).toUInt16

namespace Rc

/-- The end of a packet in `ibus_in`. -/
def analyse (rc : Rc) : Rc :=
  if checksumCal rc.buf 14 = checksumIbus rc.buf then
    { rc with chs := Vector.ofFn fun j => word rc.buf j.val, newPkg := 1, flag := 0 }
  else { rc with newPkg := 1, flag := 0 }

/-- `rc->buf[rc->flag] = data`. -/
def store (rc : Rc) (data : UInt8) : Option Rc :=
  if inside : rc.flag < 32 then some { rc with buf := rc.buf.set rc.flag data inside } else none

def ibusIn (rc : Rc) (data : UInt8) : Option Rc :=
  if rc.flag = 0 then
    if data = 0x20 then (rc.store data).map fun rc => { rc with flag := 1 }
    else some rc
  else if rc.flag = 1 then
    if data = 0x40 then (rc.store data).map fun rc => { rc with flag := 2 }
    else some { rc with flag := 0 }
  else
    (rc.store data).map fun rc =>
      let rc := { rc with flag := rc.flag + 1 }
      if rc.flag ≥ 32 then rc.analyse else rc

/-- The bytes of a stream, one after the other. -/
def feed (rc : Rc) (stream : List UInt8) : Option Rc := stream.foldlM ibusIn rc

theorem feed_cons {rc rc' : Rc} {data : UInt8} (read : rc.ibusIn data = some rc')
    (stream : List UInt8) : rc.feed (data :: stream) = rc'.feed stream := by
  rw [feed, List.foldlM_cons, read]
  rfl

theorem feed_append {rc rc' : Rc} {early : List UInt8} (read : rc.feed early = some rc')
    (late : List UInt8) : rc.feed (early ++ late) = rc'.feed late := by
  rw [feed, List.foldlM_append]
  show (rc.feed early).bind _ = _
  rw [read]
  rfl

end Rc

namespace Rc

/-- The zero-initialised `rc1`. -/
def initial : Rc where
  newPkg := 0
  buf := Vector.replicate 32 0
  chs := Vector.replicate 14 0
  flag := 0

end Rc

/-! ### The checksum -/

theorem join_eq (high low : UInt8) :
    high.toUInt16 <<< 8 ||| low.toUInt16 = low.toUInt16 + 256 * high.toUInt16 := by
  have top := high.toNat_lt
  have bottom := low.toNat_lt
  have eight : (8 : UInt16).toNat % 16 = 8 := rfl
  have shifted : (high.toUInt16 <<< 8).toNat = high.toNat <<< 8 := by
    rw [UInt16.toNat_shiftLeft, eight, UInt8.toNat_toUInt16, Nat.shiftLeft_eq]
    omega
  apply UInt16.toNat_inj.mp
  rw [UInt16.toNat_or, shifted, UInt8.toNat_toUInt16, ← Nat.shiftLeft_add_eq_or_of_lt bottom,
    UInt16.toNat_add, UInt16.toNat_mul, UInt8.toNat_toUInt16, UInt8.toNat_toUInt16,
    Nat.shiftLeft_eq, show (256 : UInt16).toNat = 256 from rfl]
  omega

/-- The loop subtracts the bytes before the checksum. -/
theorem checksumCal_eq (buf : Vector UInt8 32) {n : ℕ} (inside : n ≤ 14) :
    checksumCal buf n = 0xffff - ((filled buf (n * 2 + 2)).map UInt8.toUInt16).sum := by
  induction n with
  | zero =>
    rw [checksumCal, filled_cell buf (by omega), filled_cell buf (by omega), sub_sub]
    simp
  | succ n ih =>
    have next : (n + 1) * 2 + 2 = n * 2 + 2 + 1 + 1 := by omega
    have first := filled_cell buf (show n * 2 + 2 < 32 by omega)
    have second := filled_cell buf (show n * 2 + 2 + 1 < 32 by omega)
    rw [checksumCal, ih (by omega), next, second, first]
    simp only [List.map_append, List.sum_append, List.map_cons, List.map_nil, List.sum_singleton]
    rw [sub_sub, sub_sub, add_assoc, add_comm (cell buf (n * 2 + 3)).toUInt16]

/-! ### One byte -/

namespace Rc

variable {rc : Rc} {data : UInt8}

/-- The buffer with a byte stored at the index of the machine. -/
theorem store_eq (inside : rc.flag < 32) (data : UInt8) :
    rc.store data = some { rc with buf := rc.buf.set rc.flag data inside } := dif_pos inside

theorem ibusIn_idle (idle : rc.flag = 0) (other : data ≠ 0x20) : rc.ibusIn data = some rc := by
  rw [ibusIn, if_pos idle, if_neg other]

theorem ibusIn_first (idle : rc.flag = 0) :
    ∃ rc', rc.ibusIn 0x20 = some rc' ∧ rc'.flag = 1 ∧ rc'.chs = rc.chs ∧
      filled rc'.buf 1 = [0x20] := by
  have inside : rc.flag < 32 := idle.symm ▸ by decide
  refine ⟨{ rc with buf := rc.buf.set rc.flag 0x20 inside, flag := 1 }, ?_, rfl, rfl, ?_⟩
  · rw [ibusIn, if_pos idle, if_pos rfl, store_eq inside]
    rfl
  · simp only [idle]
    rw [filled_set, filled_zero]
    rfl

theorem ibusIn_second (opened : rc.flag = 1) (first : filled rc.buf 1 = [0x20]) :
    ∃ rc', rc.ibusIn 0x40 = some rc' ∧ rc'.flag = 2 ∧ rc'.chs = rc.chs ∧
      filled rc'.buf 2 = [0x20, 0x40] := by
  have inside : rc.flag < 32 := opened.symm ▸ by decide
  have started : ¬ rc.flag = 0 := by
    rw [opened]
    exact one_ne_zero
  refine ⟨{ rc with buf := rc.buf.set rc.flag 0x40 inside, flag := 2 }, ?_, rfl, rfl, ?_⟩
  · rw [ibusIn, if_neg started, if_pos opened, if_pos rfl, store_eq inside]
    rfl
  · simp only [opened]
    rw [filled_set, first]
    rfl

/-- Any other byte after the first one of a header is dropped. -/
theorem ibusIn_drop (opened : rc.flag = 1) (other : data ≠ 0x40) :
    rc.ibusIn data = some { rc with flag := 0 } := by
  have started : ¬ rc.flag = 0 := by
    rw [opened]
    exact one_ne_zero
  rw [ibusIn, if_neg started, if_pos opened, if_neg other]

theorem ibusIn_store (body : 2 ≤ rc.flag) (inside : rc.flag < 32) :
    rc.ibusIn data =
      let rc' : Rc := { rc with buf := rc.buf.set rc.flag data inside, flag := rc.flag + 1 }
      some (if rc.flag + 1 ≥ 32 then rc'.analyse else rc') := by
  have started : ¬ rc.flag = 0 := by omega
  have opened : ¬ rc.flag = 1 := by omega
  rw [ibusIn, if_neg started, if_neg opened, store_eq inside]
  rfl

theorem feed_body (data : List UInt8) : ∀ {rc : Rc}, 2 ≤ rc.flag → rc.flag + data.length < 32 →
    ∃ rc', rc.feed data = some rc' ∧ rc'.flag = rc.flag + data.length ∧ rc'.chs = rc.chs ∧
      filled rc'.buf rc'.flag = filled rc.buf rc.flag ++ data := by
  induction data with
  | nil => exact fun body _ => ⟨_, rfl, rfl, rfl, (List.append_nil _).symm⟩
  | cons first rest ih =>
    intro rc body room
    rw [List.length_cons] at room
    have inside : rc.flag < 32 := by omega
    have more : ¬ rc.flag + 1 ≥ 32 := by omega
    have read : rc.ibusIn first = _ := ibusIn_store body inside
    simp only [if_neg more] at read
    obtain ⟨rc', reads, flag, chs, buffer⟩ := @ih
      { rc with buf := rc.buf.set rc.flag first inside, flag := rc.flag + 1 } (by simp only; omega)
      (by simp only; omega)
    refine ⟨rc', (feed_cons read rest).trans reads, ?_, chs, ?_⟩
    · rw [flag, List.length_cons]
      simp only
      omega
    · rw [buffer, filled_set, List.append_assoc]
      rfl

end Rc

end Robocon.Remote
