/-
**The receiving half of the serial driver (`serial_v2.c`, `drv_usart_v2.c`).**

A port receives in one of two ways. With the receive interrupt, `uart_isr` puts each byte into the
fifo. With DMA, the controller stores the bytes into the pool of the fifo, round its end, and
`dma_recv_isr` moves the write index behind the bytes that have come since the last time; it runs
when the line goes idle, and when the controller is half through the pool or at its end.

* `Sound u queue` — the fifo holds the queue, and the controller stays in the pool.
* `Carries u queue flight` — the fifo holds the queue, and the controller has stored the bytes in
  flight behind it.
* One lemma for each interrupt says what it does to either; `rt_hw_serial_isr` returns here the
  length that it hands to `rx_indicate`, and nothing if it does not call it.

The counter of the controller counts the places down to the end of the pool. The size of the pool is
a multiple of `RT_ALIGN_SIZE`, so that the fifo has all of it, and fits a `rt_uint16_t`.
-/

import Robocon.Serial.RingBuffer

namespace Robocon.Serial

open Lib RingBuffer

variable {size : ℕ}

/-! ### The interrupts -/

/-- `rt_serial_update_write_index`; `write_size` and the space are of type `rt_uint16_t`. -/
def RingBuffer.updateWriteIndex (rb : RingBuffer size) (writeSize : ℕ) : RingBuffer size × ℕ :=
  let writeSize := writeSize % 65536
  let space := rb.spaceLen % 65536
  let writeSize := if space < writeSize then space else writeSize
  if size - rb.writeIndex > writeSize then
    ({ rb with writeIndex := rb.writeIndex + writeSize }, writeSize)
  else
    ({ rb with
      writeMirror := !rb.writeMirror, writeIndex := writeSize - (size - rb.writeIndex) }, writeSize)

/-- The receiving half of a port: `rx_fifo->rb`, the place that the controller writes next, and
`dma_rx.remaining_cnt`. -/
structure Uart (size : ℕ) where
  rb : RingBuffer size
  position : ℕ
  remainingCnt : ℕ

namespace Uart

/-- The port after `rt_serial_rx_enable` and `stm32_dma_config`. -/
def init (pool : Vector UInt8 size) : Uart size where
  rb := RingBuffer.init pool
  position := 0
  remainingCnt := size

/-- `rt_hw_serial_isr`, on a receive event. -/
def hwSerialIsr (u : Uart size) (rxLength : ℕ) : Uart size × Option ℕ :=
  let u := if rxLength ≠ 0 then { u with rb := (u.rb.updateWriteIndex rxLength).1 } else u
  let rxLength := u.rb.dataLen
  if rxLength = 0 then (u, none) else (u, some rxLength)

/-- `uart_isr` on a received byte. -/
def uartIsr (u : Uart size) (value : UInt8) : Option (Uart size × Option ℕ) :=
  (u.rb.putchar value).map fun put => { u with rb := put.1 }.hwSerialIsr 0

/-- The controller stores a byte. -/
def dma (u : Uart size) (value : UInt8) : Option (Uart size) :=
  (store u.rb.bufferPtr u.position value).map fun bufferPtr =>
    { u with rb := { u.rb with bufferPtr := bufferPtr }, position := (u.position + 1) % size }

/-- `__HAL_DMA_GET_COUNTER`. -/
def counter (u : Uart size) : ℕ := size - u.position

def dmaRecvIsr (u : Uart size) : Uart size × Option ℕ :=
  let recvLen :=
    if u.counter ≤ u.remainingCnt then u.remainingCnt - u.counter
    else size + u.remainingCnt - u.counter
  if recvLen ≠ 0 then { u with remainingCnt := u.counter }.hwSerialIsr recvLen else (u, none)

end Uart

/-! ### Without any assumption on the traffic -/

variable {u : Uart size} {count : ℕ} {queue flight : List UInt8}

theorem RingBuffer.Fits.holds {rb : RingBuffer size} (fits : rb.Fits count) :
    ∃ queue : List UInt8, queue.length = count ∧ rb.Holds queue := by
  have length : (window rb.bufferPtr.toList rb.readIndex count).length = count :=
    length_window (by rw [Vector.length_toList]; exact fits.count_le)
  exact ⟨_, length, by rwa [length], by rw [length]⟩

/-- Where the indices do not change, neither does the count. -/
theorem RingBuffer.Fits.stored {rb : RingBuffer size} (fits : rb.Fits count)
    (bufferPtr : Vector UInt8 size) : Fits { rb with bufferPtr := bufferPtr } count :=
  ⟨fits.reads, fits.writes, fits.count_le, fits.place⟩

theorem RingBuffer.Fits.updateWriteIndex {rb : RingBuffer size} (fits : rb.Fits count)
    (writeSize : ℕ) :
    ∃ added writeMirror writeIndex, added ≤ size - count ∧
      rb.updateWriteIndex writeSize =
        ({ rb with writeMirror := writeMirror, writeIndex := writeIndex }, added) ∧
      rb.Moved added writeMirror writeIndex ∧
      Fits { rb with writeMirror := writeMirror, writeIndex := writeIndex } (count + added) ∧
      (size < 65536 → writeSize ≤ size - count → added = writeSize) := by
  obtain ⟨added, trimmed, free, whole⟩ : ∃ added,
      (if rb.spaceLen % 65536 < writeSize % 65536 then rb.spaceLen % 65536
        else writeSize % 65536) = added ∧ added ≤ size - count ∧
      (size < 65536 → writeSize ≤ size - count → added = writeSize) := by
    rw [fits.spaceLen]
    refine ⟨_, rfl, ?_, fun small room => ?_⟩
    · have le := Nat.mod_le (size - count) 65536
      split <;> omega
    · rw [Nat.mod_eq_of_lt (by omega), Nat.mod_eq_of_lt (by omega), if_neg (by omega)]
  have le := fits.count_le
  have writes := fits.writes
  have grown {writeMirror : Bool} {writeIndex : ℕ}
      (moved : rb.Moved added writeMirror writeIndex) :=
    fits.moved (by omega) rb.bufferPtr moved
  unfold RingBuffer.updateWriteIndex
  simp only [trimmed]
  by_cases room : size - rb.writeIndex > added
  · rw [if_pos room]
    have moved : rb.Moved added rb.writeMirror (rb.writeIndex + added) := Or.inl ⟨room, rfl, rfl⟩
    exact ⟨added, _, _, free, rfl, moved, grown moved, whole⟩
  · rw [if_neg room]
    have moved : rb.Moved added (!rb.writeMirror) (added - (size - rb.writeIndex)) :=
      Or.inr ⟨by omega, rfl, by omega⟩
    exact ⟨added, _, _, free, rfl, moved, grown moved, whole⟩

namespace Uart

/-- The fifo holds the queue, and the controller stays in the pool. -/
structure Sound (u : Uart size) (queue : List UInt8) : Prop where
  holds : u.rb.Holds queue
  inside : u.position < size

theorem sound_init (positive : 0 < size) (pool : Vector UInt8 size) : (init pool).Sound [] where
  holds := holds_init positive pool
  inside := positive

/-- **A received byte** is appended if there is room, and announced in any case. -/
theorem Sound.uartIsr (sound : u.Sound queue) (value : UInt8) :
    ∃ u' length, u.uartIsr value = some (u', some length) ∧
      u'.Sound (queue ++ [value].take (size - queue.length)) := by
  obtain ⟨rb, done, holds⟩ := sound.holds.put [value]
  rw [← putchar_eq sound.holds.fits.writes] at done
  have positive := sound.inside
  have some : rb.dataLen ≠ 0 := by
    rw [holds.fits.dataLen, List.length_append, List.length_take, List.length_singleton]
    omega
  refine ⟨{ u with rb := rb }, rb.dataLen, ?_, holds, sound.inside⟩
  rw [Uart.uartIsr, done, Option.map_some]
  exact congrArg Option.some (if_neg some)

/-- A byte that the controller stores changes no count. -/
theorem Sound.dma (sound : u.Sound queue) (value : UInt8) :
    ∃ u' queue', u.dma value = some u' ∧ u'.Sound queue' ∧ queue'.length = queue.length := by
  have positive := Nat.zero_lt_of_lt sound.inside
  obtain ⟨queue', length, holds⟩ :=
    (sound.holds.fits.stored (u.rb.bufferPtr.set u.position value sound.inside)).holds
  refine ⟨{ u with
    rb := { u.rb with bufferPtr := u.rb.bufferPtr.set u.position value sound.inside }
    position := (u.position + 1) % size }, queue', ?_, ⟨holds, Nat.mod_lt _ positive⟩, length⟩
  rw [Uart.dma, store, dif_pos sound.inside]
  rfl

/-- The interrupt of the controller, by the number of bytes that it sees. -/
theorem dmaRecvIsr_eq {recvLen : ℕ}
    (received : (if u.counter ≤ u.remainingCnt then u.remainingCnt - u.counter
      else size + u.remainingCnt - u.counter) = recvLen) :
    u.dmaRecvIsr =
      if recvLen ≠ 0 then { u with remainingCnt := u.counter }.hwSerialIsr recvLen
      else (u, none) := by
  unfold Uart.dmaRecvIsr
  simp only [received]

/-- **The interrupt of the controller** announces the bytes in the fifo, unless it has none or sees
no new ones. -/
theorem Sound.dmaRecvIsr (sound : u.Sound queue) :
    ∃ u' queue', u'.Sound queue' ∧
      ((∃ length, u.dmaRecvIsr = (u', some length)) ∨
        u.dmaRecvIsr = (u', none) ∧ (queue' = [] ∨ queue' = queue)) := by
  obtain ⟨recvLen, received⟩ : ∃ recvLen, (if u.counter ≤ u.remainingCnt then
      u.remainingCnt - u.counter else size + u.remainingCnt - u.counter) = recvLen := ⟨_, rfl⟩
  rw [dmaRecvIsr_eq received]
  by_cases none : recvLen = 0
  · rw [if_neg (not_not.mpr none)]
    exact ⟨u, queue, sound, Or.inr ⟨rfl, Or.inr rfl⟩⟩
  · obtain ⟨added, mirror, index, -, moved, -, fits, -⟩ :=
      sound.holds.fits.updateWriteIndex recvLen
    obtain ⟨queue', length, holds⟩ := fits.holds
    have total := fits.dataLen
    rw [if_pos none, hwSerialIsr]
    simp only [if_pos none, moved, total]
    refine ⟨⟨_, u.position, u.counter⟩, queue', ⟨holds, sound.inside⟩, ?_⟩
    by_cases empty : queue.length + added = 0
    · rw [if_pos empty]
      exact Or.inr ⟨rfl, Or.inl (List.eq_nil_of_length_eq_zero (length.trans empty))⟩
    · rw [if_neg empty]
      exact Or.inl ⟨_, rfl⟩

theorem Sound.get (sound : u.Sound queue) :
    ∃ rb, u.rb.get 1 = some (rb, queue.take 1) ∧ Sound { u with rb := rb } (queue.drop 1) := by
  obtain ⟨rb, done, holds⟩ := sound.holds.get 1
  exact ⟨rb, done, holds, sound.inside⟩

/-! ### Bytes in flight -/

/-- The fifo holds the queue, and the controller has stored the bytes in flight behind it. -/
structure Carries (u : Uart size) (queue flight : List UInt8) : Prop where
  fits : u.rb.Fits queue.length
  bytes : window u.rb.bufferPtr.toList u.rb.readIndex (queue.length + flight.length) =
    queue ++ flight
  room : queue.length + flight.length ≤ size
  flight_lt : flight.length < size
  position : u.position = (u.rb.writeIndex + flight.length) % size
  remaining : u.remainingCnt = size - u.rb.writeIndex

theorem carries_init (positive : 0 < size) (pool : Vector UInt8 size) :
    (init pool).Carries [] [] where
  fits := (holds_init positive pool).fits
  bytes := window_zero _ _
  room := Nat.zero_le _
  flight_lt := positive
  position := (Nat.mod_eq_of_lt positive).symm
  remaining := rfl

namespace Carries

variable (carries : u.Carries queue flight)

include carries

/-- What the fifo holds does not depend on the bytes in flight. -/
theorem sound : u.Sound queue where
  holds := by
    refine ⟨carries.fits, ?_⟩
    have front := congrArg (List.take queue.length) carries.bytes
    rwa [List.take_left, window, List.take_take, min_eq_left (Nat.le_add_right _ _)] at front
  inside := by
    rw [carries.position]
    exact Nat.mod_lt _ (Nat.zero_lt_of_lt carries.flight_lt)

/-- **A byte that the controller stores** is in flight. -/
theorem dma (value : UInt8) (room : queue.length + flight.length < size)
    (short : flight.length + 1 < size) :
    ∃ u', u.dma value = some u' ∧ u'.Carries queue (flight ++ [value]) := by
  have inside := carries.sound.inside
  have behind : u.position = (u.rb.readIndex + (queue.length + flight.length)) % size := by
    rw [carries.position, carries.fits.writeIndex, Nat.mod_add_mod, Nat.add_assoc]
  have length : u.rb.bufferPtr.toList.length = size := Vector.length_toList
  have seam := window_set u.rb.bufferPtr.toList u.rb.readIndex
    (show queue.length + flight.length < _ by rwa [length]) value
  rw [length, ← behind, carries.bytes] at seam
  refine ⟨{ u with
    rb := { u.rb with bufferPtr := u.rb.bufferPtr.set u.position value inside }
    position := (u.position + 1) % size }, ?_, ?_⟩
  · rw [Uart.dma, store, dif_pos inside]
    rfl
  · exact
      { fits := carries.fits.stored _
        bytes := by
          rw [Vector.toList_set, List.length_append, List.length_singleton, ← Nat.add_assoc, seam,
            List.append_assoc]
        room := by
          rw [List.length_append, List.length_singleton]
          omega
        flight_lt := by rwa [List.length_append, List.length_singleton]
        position := by
          have next := congrArg (fun place => (place + 1) % size) carries.position
          rw [List.length_append, List.length_singleton, ← Nat.add_assoc]
          exact next.trans (Nat.mod_add_mod _ _ _)
        remaining := carries.remaining }

/-- **The interrupt of the controller** hands the bytes in flight to the fifo. -/
theorem dmaRecvIsr (small : size < 65536) :
    ∃ u', u'.Carries (queue ++ flight) [] ∧
      ((∃ length, u.dmaRecvIsr = (u', some length)) ∨ u.dmaRecvIsr = (u', none) ∧ flight = []) := by
  have inside := carries.sound.inside
  have writes := carries.fits.writes
  have flight_lt := carries.flight_lt
  have position := carries.position
  have room := carries.room
  have received : (if u.counter ≤ u.remainingCnt then u.remainingCnt - u.counter
      else size + u.remainingCnt - u.counter) = flight.length := by
    rw [counter, carries.remaining]
    by_cases wrap : u.rb.writeIndex + flight.length < size
    · rw [Nat.mod_eq_of_lt wrap] at position
      rw [if_pos (by omega)]
      omega
    · rw [Nat.mod_eq_sub_mod (by omega), Nat.mod_eq_of_lt (by omega)] at position
      by_cases none : flight.length = 0
      · omega
      · rw [if_neg (by omega)]
        omega
  rw [dmaRecvIsr_eq received]
  by_cases none : flight.length = 0
  · have empty : flight = [] := List.eq_nil_of_length_eq_zero none
    rw [if_neg (not_not.mpr none)]
    refine ⟨u, ?_, Or.inr ⟨rfl, empty⟩⟩
    rw [empty, List.append_nil]
    rwa [empty] at carries
  · obtain ⟨added, mirror, index, -, moved, place, fits, all⟩ :=
      carries.fits.updateWriteIndex flight.length
    obtain rfl := all small (by omega)
    have total := fits.dataLen
    rw [if_pos none, hwSerialIsr]
    simp only [if_pos none, moved, total, if_neg (show ¬ queue.length + flight.length = 0 by omega)]
    have landing : index = u.position := by
      rw [position]
      rcases place with ⟨less, -, place⟩ | ⟨past, -, place⟩
      · rw [place, Nat.mod_eq_of_lt (by omega)]
      · rw [← place, Nat.add_mod_right, Nat.mod_eq_of_lt (by omega)]
    refine ⟨_, ?_, Or.inl ⟨_, rfl⟩⟩
    exact
      { fits := by rwa [List.length_append]
        bytes := by
          rw [List.length_append, List.length_nil, Nat.add_zero, List.append_nil]
          exact carries.bytes
        room := by rwa [List.length_append, List.length_nil, Nat.add_zero]
        flight_lt := Nat.zero_lt_of_lt flight_lt
        position := by
          show u.position = (index + 0) % size
          rw [landing, Nat.add_zero, Nat.mod_eq_of_lt inside]
        remaining := by
          show size - u.position = size - index
          rw [landing] }

theorem get :
    ∃ rb, u.rb.get 1 = some (rb, queue.take 1) ∧
      Carries { u with rb := rb } (queue.drop 1) flight := by
  obtain ⟨rb, done, holds⟩ := carries.sound.holds.get 1
  obtain ⟨pool, writes⟩ := get_frame done
  refine ⟨rb, done, ?_⟩
  cases queue with
  | nil =>
    have none : u.rb.dataLen = 0 := carries.fits.dataLen
    rw [RingBuffer.get, if_pos none] at done
    obtain ⟨rfl, -⟩ := Prod.mk.inj (Option.some.inj done)
    exact carries
  | cons value queue =>
    -- the read index moves by one place, as the write index stays
    have landing : rb.readIndex = (u.rb.readIndex + 1) % size := by
      have before := carries.fits.writeIndex
      have after := holds.fits.writeIndex
      rw [writes, before, List.drop_one, List.tail_cons, List.length_cons, Nat.add_comm queue.length,
        ← Nat.add_assoc] at after
      have same := Nat.ModEq.add_right_cancel' queue.length after
      rw [← Nat.mod_eq_of_lt holds.fits.reads]
      exact same.symm
    have room := carries.room
    rw [List.length_cons] at room
    have seam := window_drop u.rb.bufferPtr.toList u.rb.readIndex
      (show (value :: queue).length + flight.length ≤ _ by
        rw [Vector.length_toList]; exact carries.room) 1 (by rw [List.length_cons]; omega)
    have rest : (value :: queue).length + flight.length - 1 = queue.length + flight.length := by
      rw [List.length_cons]
      omega
    rw [Vector.length_toList, ← landing, carries.bytes, rest] at seam
    exact
      { fits := holds.fits
        bytes := by
          rw [pool, List.drop_one, List.tail_cons]
          exact seam
        room := by
          rw [List.drop_one, List.tail_cons]
          omega
        flight_lt := carries.flight_lt
        position := by
          rw [writes]
          exact carries.position
        remaining := by
          rw [writes]
          exact carries.remaining }

end Carries

end Uart

end Robocon.Serial
