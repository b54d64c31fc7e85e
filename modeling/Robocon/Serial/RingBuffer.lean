/-
**The ring buffer of the serial driver (`ringbuffer.c`).**

The receive fifo of a serial port is an `rt_ringbuffer`: a pool of bytes, a read and a write index,
and for each of them a mirror bit that is flipped when the index passes the end of the pool. The
indices are equal in an empty and in a full buffer; the mirror bits tell them apart.

* `Fits rb count` — the indices and mirror bits are those of a buffer that holds `count` bytes;
  `contents` are these bytes, the oldest first.
* `Holds rb queue` — the buffer holds the queue. One lemma for each function says what it does to
  it, and that it does not leave the pool.
* `putchar_eq`, `getchar_eq` — the functions for one byte do what those for many do.
* `ringbuffer_queue` — in any run of calls the buffer is a bounded queue.

A write to the pool or a read from it is checked, and fails outside of it.
-/

import Robocon.Lib.Window
import Robocon.Lib.Run

namespace Robocon.Serial

open Lib

variable {size : ℕ}

/-! ### The buffer -/

/-- `enum rt_ringbuffer_state`. -/
inductive RingState
  | empty
  | full
  | halfFull

/-- `struct rt_ringbuffer`; `size` is its `buffer_size`. -/
structure RingBuffer (size : ℕ) where
  bufferPtr : Vector UInt8 size
  readMirror : Bool
  readIndex : ℕ
  writeMirror : Bool
  writeIndex : ℕ

namespace RingBuffer

/-- `rt_ringbuffer_init`; the size of the pool is a multiple of `RT_ALIGN_SIZE`. -/
def init (pool : Vector UInt8 size) : RingBuffer size where
  bufferPtr := pool
  readMirror := false
  readIndex := 0
  writeMirror := false
  writeIndex := 0

/-- `rt_ringbuffer_reset`. -/
def reset (rb : RingBuffer size) : RingBuffer size :=
  { rb with readMirror := false, readIndex := 0, writeMirror := false, writeIndex := 0 }

/-- `rt_ringbuffer_status`. -/
def status (rb : RingBuffer size) : RingState :=
  if rb.readIndex = rb.writeIndex then
    if rb.readMirror = rb.writeMirror then .empty else .full
  else .halfFull

/-- `rt_ringbuffer_data_len`. -/
def dataLen (rb : RingBuffer size) : ℕ :=
  match rb.status with
  | .empty => 0
  | .full => size
  | .halfFull =>
    if rb.writeIndex > rb.readIndex then rb.writeIndex - rb.readIndex
    else size - (rb.readIndex - rb.writeIndex)

/-- `rt_ringbuffer_space_len`. -/
def spaceLen (rb : RingBuffer size) : ℕ := size - rb.dataLen

/-- `rt_memcpy` out of the pool. -/
def read (rb : RingBuffer size) (index length : ℕ) : Option (List UInt8) :=
  if index + length ≤ size then some ((rb.bufferPtr.toList.drop index).take length) else none

/-- The stores of a block, which `rt_ringbuffer_put` and `rt_ringbuffer_put_force` share: in one
piece, or past the end of the pool back to its front. -/
def write (rb : RingBuffer size) (ptr : List UInt8) : Option (RingBuffer size) :=
  if size - rb.writeIndex > ptr.length then do
    let bufferPtr ← storeAll rb.bufferPtr rb.writeIndex ptr
    return { rb with bufferPtr := bufferPtr, writeIndex := rb.writeIndex + ptr.length }
  else do
    let bufferPtr ← storeAll rb.bufferPtr rb.writeIndex (ptr.take (size - rb.writeIndex))
    let bufferPtr ← storeAll bufferPtr 0 (ptr.drop (size - rb.writeIndex))
    return { rb with
      bufferPtr := bufferPtr, writeMirror := !rb.writeMirror,
      writeIndex := ptr.length - (size - rb.writeIndex) }

/-- `rt_ringbuffer_put`: the buffer and the count that is returned. -/
def put (rb : RingBuffer size) (ptr : List UInt8) : Option (RingBuffer size × ℕ) :=
  if rb.spaceLen = 0 then some (rb, 0)
  else
    let ptr := if rb.spaceLen < ptr.length then ptr.take rb.spaceLen else ptr
    (rb.write ptr).map fun rb => (rb, ptr.length)

/-- `rt_ringbuffer_put_force`. -/
def putForce (rb : RingBuffer size) (ptr : List UInt8) : Option (RingBuffer size × ℕ) :=
  let ptr := if ptr.length > size then ptr.drop (ptr.length - size) else ptr
  (rb.write ptr).map fun rb' =>
    if size - rb.writeIndex > ptr.length then
      (if ptr.length > rb.spaceLen then { rb' with readIndex := rb'.writeIndex } else rb',
        ptr.length)
    else if ptr.length > rb.spaceLen then
      ({ rb' with
        readMirror := if rb'.writeIndex ≤ rb'.readIndex then !rb'.readMirror else rb'.readMirror,
        readIndex := rb'.writeIndex }, ptr.length)
    else (rb', ptr.length)

/-- `rt_ringbuffer_get`: the buffer and the bytes, as many as are returned. -/
def get (rb : RingBuffer size) (length : ℕ) : Option (RingBuffer size × List UInt8) :=
  if rb.dataLen = 0 then some (rb, [])
  else
    let length := if rb.dataLen < length then rb.dataLen else length
    if size - rb.readIndex > length then do
      let bytes ← rb.read rb.readIndex length
      return ({ rb with readIndex := rb.readIndex + length }, bytes)
    else do
      let first ← rb.read rb.readIndex (size - rb.readIndex)
      let second ← rb.read 0 (length - (size - rb.readIndex))
      return ({ rb with
        readMirror := !rb.readMirror, readIndex := length - (size - rb.readIndex) },
        first ++ second)

/-- `rt_ringbuffer_peek`: the buffer and the bytes at the pointer, as many as are returned. -/
def peek (rb : RingBuffer size) : Option (RingBuffer size × List UInt8) :=
  if rb.dataLen = 0 then some (rb, [])
  else if size - rb.readIndex > rb.dataLen then do
    let bytes ← rb.read rb.readIndex rb.dataLen
    return ({ rb with readIndex := rb.readIndex + rb.dataLen }, bytes)
  else do
    let bytes ← rb.read rb.readIndex (size - rb.readIndex)
    return ({ rb with readMirror := !rb.readMirror, readIndex := 0 }, bytes)

/-- `rt_ringbuffer_putchar`. -/
def putchar (rb : RingBuffer size) (ch : UInt8) : Option (RingBuffer size × ℕ) :=
  if rb.spaceLen = 0 then some (rb, 0)
  else do
    let bufferPtr ← store rb.bufferPtr rb.writeIndex ch
    let rb := { rb with bufferPtr := bufferPtr }
    if rb.writeIndex = size - 1 then
      return ({ rb with writeMirror := !rb.writeMirror, writeIndex := 0 }, 1)
    else return ({ rb with writeIndex := rb.writeIndex + 1 }, 1)

/-- `rt_ringbuffer_putchar_force`. -/
def putcharForce (rb : RingBuffer size) (ch : UInt8) : Option (RingBuffer size × ℕ) := do
  let oldState := rb.status
  let bufferPtr ← store rb.bufferPtr rb.writeIndex ch
  let rb := { rb with bufferPtr := bufferPtr }
  if rb.writeIndex = size - 1 then
    let rb := { rb with writeMirror := !rb.writeMirror, writeIndex := 0 }
    match oldState with
    | .full => return ({ rb with readMirror := !rb.readMirror, readIndex := rb.writeIndex }, 1)
    | _ => return (rb, 1)
  else
    let rb := { rb with writeIndex := rb.writeIndex + 1 }
    match oldState with
    | .full => return ({ rb with readIndex := rb.writeIndex }, 1)
    | _ => return (rb, 1)

/-- `rt_ringbuffer_getchar`: the buffer, and the byte unless `0` is returned. -/
def getchar (rb : RingBuffer size) : Option (RingBuffer size × Option UInt8) :=
  if rb.dataLen = 0 then some (rb, none)
  else
    rb.bufferPtr[rb.readIndex]?.map fun ch =>
      if rb.readIndex = size - 1 then
        ({ rb with readMirror := !rb.readMirror, readIndex := 0 }, some ch)
      else ({ rb with readIndex := rb.readIndex + 1 }, some ch)

/-! ### What the buffer holds -/

/-- The indices and the mirror bits of a buffer that holds `count` bytes. -/
structure Fits (rb : RingBuffer size) (count : ℕ) : Prop where
  reads : rb.readIndex < size
  writes : rb.writeIndex < size
  count_le : count ≤ size
  place : if rb.readMirror = rb.writeMirror then rb.writeIndex = rb.readIndex + count
    else rb.writeIndex + size = rb.readIndex + count

/-- The buffer holds the queue, the oldest byte first. -/
structure Holds (rb : RingBuffer size) (queue : List UInt8) : Prop where
  fits : rb.Fits queue.length
  bytes : window rb.bufferPtr.toList rb.readIndex queue.length = queue

namespace Fits

variable {rb : RingBuffer size} {count : ℕ}

/-- **The length** that the indices and the mirror bits tell. -/
theorem dataLen (fits : rb.Fits count) : rb.dataLen = count := by
  obtain ⟨reads, writes, le, place⟩ := fits
  unfold RingBuffer.dataLen status
  by_cases mirror : rb.readMirror = rb.writeMirror
  · rw [if_pos mirror] at place
    by_cases same : rb.readIndex = rb.writeIndex
    · simp only [if_pos same, if_pos mirror]
      omega
    · simp only [if_neg same]
      rw [if_pos (by omega)]
      omega
  · rw [if_neg mirror] at place
    by_cases same : rb.readIndex = rb.writeIndex
    · simp only [if_pos same, if_neg mirror]
      omega
    · simp only [if_neg same]
      rw [if_neg (by omega)]
      omega

theorem spaceLen (fits : rb.Fits count) : rb.spaceLen = size - count := by
  rw [RingBuffer.spaceLen, fits.dataLen]

/-- The write index is the place behind the bytes. -/
theorem writeIndex (fits : rb.Fits count) : rb.writeIndex = (rb.readIndex + count) % size := by
  obtain ⟨reads, writes, le, place⟩ := fits
  split at place
  · rw [← place, Nat.mod_eq_of_lt writes]
  · rw [← place, Nat.add_mod_right, Nat.mod_eq_of_lt writes]

/-- The buffer is full exactly if it holds as many bytes as the pool has. -/
theorem status_full (fits : rb.Fits count) : rb.status = .full ↔ count = size := by
  obtain ⟨reads, writes, le, place⟩ := fits
  unfold status
  by_cases mirror : rb.readMirror = rb.writeMirror
  · rw [if_pos mirror] at place
    by_cases same : rb.readIndex = rb.writeIndex
    · simp only [if_pos same, if_pos mirror]
      exact ⟨(fun wrong => by cases wrong), fun full => by omega⟩
    · simp only [if_neg same]
      exact ⟨(fun wrong => by cases wrong), fun full => by omega⟩
  · rw [if_neg mirror] at place
    by_cases same : rb.readIndex = rb.writeIndex
    · simp only [if_pos same, if_neg mirror, true_iff]
      omega
    · simp only [if_neg same]
      exact ⟨(fun wrong => by cases wrong), fun full => by omega⟩

end Fits

/-! ### Writing -/

variable {rb : RingBuffer size} {count : ℕ} {queue : List UInt8}

theorem holds_init (positive : 0 < size) (pool : Vector UInt8 size) : (init pool).Holds [] where
  fits := { reads := positive, writes := positive, count_le := Nat.zero_le _, place := rfl }
  bytes := window_zero _ _

theorem holds_reset (positive : 0 < size) (rb : RingBuffer size) : rb.reset.Holds [] where
  fits := { reads := positive, writes := positive, count_le := Nat.zero_le _, place := rfl }
  bytes := window_zero _ _

/-- Where the write index is after so many bytes. -/
def Moved (rb : RingBuffer size) (length : ℕ) (writeMirror : Bool) (writeIndex : ℕ) : Prop :=
  size - rb.writeIndex > length ∧ writeMirror = rb.writeMirror ∧
      writeIndex = rb.writeIndex + length ∨
    size - rb.writeIndex ≤ length ∧ writeMirror = !rb.writeMirror ∧
      writeIndex + size = rb.writeIndex + length

/-- **A block** is written round the pool from the write index on, which moves behind it. -/
theorem write_spec (inside : rb.writeIndex < size) (ptr : List UInt8) (short : ptr.length ≤ size) :
    ∃ bufferPtr writeMirror writeIndex,
      rb.write ptr = some
        { rb with bufferPtr := bufferPtr, writeMirror := writeMirror, writeIndex := writeIndex } ∧
      bufferPtr.toList = setAll rb.bufferPtr.toList rb.writeIndex ptr ∧
      rb.Moved ptr.length writeMirror writeIndex := by
  unfold write
  by_cases room : size - rb.writeIndex > ptr.length
  · obtain ⟨bufferPtr, stored, cells⟩ :=
      storeAll_setAll ptr rb.bufferPtr (show rb.writeIndex + ptr.length ≤ size by omega)
    rw [if_pos room, stored]
    exact ⟨bufferPtr, rb.writeMirror, _, rfl, cells, Or.inl ⟨room, rfl, rfl⟩⟩
  · obtain ⟨first, second, stored, stored', cells⟩ :=
      storeAll_wrap rb.bufferPtr inside (show size ≤ rb.writeIndex + ptr.length by omega)
        short
    rw [if_neg room, stored]
    simp only [Option.bind_eq_bind, Option.bind_some, stored']
    exact ⟨second, _, _, rfl, cells, Or.inr ⟨by omega, rfl, by omega⟩⟩

/-- The indices and mirror bits after a block that fits. -/
theorem Fits.moved (fits : rb.Fits count) {length : ℕ} (room : count + length ≤ size)
    (bufferPtr : Vector UInt8 size) {writeMirror : Bool} {writeIndex : ℕ}
    (moved : rb.Moved length writeMirror writeIndex) :
    Fits { rb with bufferPtr := bufferPtr, writeMirror := writeMirror, writeIndex := writeIndex }
      (count + length) := by
  obtain ⟨reads, writes, -, place⟩ := fits
  refine ⟨reads, ?_, room, ?_⟩
  · show writeIndex < size
    rcases moved with ⟨_, _, moved⟩ | ⟨_, _, moved⟩ <;> omega
  · show if rb.readMirror = writeMirror then writeIndex = rb.readIndex + _
      else writeIndex + size = rb.readIndex + _
    by_cases same : rb.readMirror = rb.writeMirror
    · rw [if_pos same] at place
      rcases moved with ⟨less, rfl, moved⟩ | ⟨past, rfl, moved⟩
      · rw [if_pos same]
        omega
      · rw [if_neg (by simp [same])]
        omega
    · rw [if_neg same] at place
      rcases moved with ⟨less, rfl, moved⟩ | ⟨past, -, moved⟩
      · rw [if_neg same]
        omega
      · omega

/-- **A block that fits** behind the bytes is appended to them. -/
theorem Holds.written (holds : rb.Holds queue) {ptr : List UInt8}
    (room : queue.length + ptr.length ≤ size) {bufferPtr : Vector UInt8 size} {writeMirror : Bool}
    {writeIndex : ℕ} (cells : bufferPtr.toList = setAll rb.bufferPtr.toList rb.writeIndex ptr)
    (moved : rb.Moved ptr.length writeMirror writeIndex) :
    Holds { rb with bufferPtr := bufferPtr, writeMirror := writeMirror, writeIndex := writeIndex }
      (queue ++ ptr) := by
  have seam := window_setAll ptr rb.bufferPtr.toList rb.readIndex
    (show queue.length + ptr.length ≤ _ by rwa [Vector.length_toList])
  rw [Vector.length_toList, ← holds.fits.writeIndex, holds.bytes, ← cells,
    ← List.length_append] at seam
  refine ⟨?_, seam⟩
  rw [List.length_append]
  exact holds.fits.moved room bufferPtr moved

/-- **A block that does not fit** pushes the oldest bytes out: the read index is set to the write
index, on the other side of the mirror. -/
theorem Holds.overrun (holds : rb.Holds queue) {ptr : List UInt8} (short : ptr.length ≤ size)
    (room : size ≤ queue.length + ptr.length) {bufferPtr : Vector UInt8 size}
    {readMirror writeMirror : Bool} {writeIndex : ℕ}
    (cells : bufferPtr.toList = setAll rb.bufferPtr.toList rb.writeIndex ptr)
    (moved : rb.Moved ptr.length writeMirror writeIndex) (differ : readMirror ≠ writeMirror) :
    Holds ⟨bufferPtr, readMirror, writeIndex, writeMirror, writeIndex⟩
      ((queue ++ ptr).drop (queue.length + ptr.length - size)) := by
  obtain ⟨⟨reads, writes, le, -⟩, bytes⟩ := id holds
  have inside : writeIndex < size := by
    rcases moved with ⟨_, _, moved⟩ | ⟨_, _, moved⟩ <;> omega
  have behind : (rb.readIndex + queue.length) % size = rb.writeIndex := holds.fits.writeIndex.symm
  have landing : (rb.readIndex + queue.length + ptr.length) % size = writeIndex := by
    rw [← Nat.mod_add_mod, behind]
    rcases moved with ⟨_, _, moved⟩ | ⟨_, _, moved⟩
    · rw [← moved, Nat.mod_eq_of_lt inside]
    · rw [← moved, Nat.add_mod_right, Nat.mod_eq_of_lt inside]
  have whole : ((queue ++ ptr).drop (queue.length + ptr.length - size)).length = size := by
    rw [List.length_drop, List.length_append]
    omega
  have seam := window_overrun rb.bufferPtr.toList rb.readIndex
    (show rb.readIndex < _ by rwa [Vector.length_toList])
    (show queue.length ≤ _ by rwa [Vector.length_toList])
    (show _ ≤ queue.length + ptr.length by rwa [Vector.length_toList])
  rw [Vector.length_toList, bytes, behind, ← cells, landing] at seam
  refine ⟨⟨inside, inside, whole.le, ?_⟩, ?_⟩
  · rw [if_neg differ, whole]
  · rw [whole]
    exact seam

/-- **`rt_ringbuffer_put`** appends what fits. -/
theorem Holds.put (holds : rb.Holds queue) (ptr : List UInt8) :
    ∃ rb', rb.put ptr = some (rb', min ptr.length (size - queue.length)) ∧
      rb'.Holds (queue ++ ptr.take (size - queue.length)) := by
  have fits := holds.fits
  have space := fits.spaceLen
  have le := fits.count_le
  unfold RingBuffer.put
  by_cases none : rb.spaceLen = 0
  · have full : size - queue.length = 0 := by omega
    rw [if_pos none, full, Nat.min_zero, List.take_zero, List.append_nil]
    exact ⟨rb, rfl, holds⟩
  · have trimmed : (if rb.spaceLen < ptr.length then ptr.take rb.spaceLen else ptr) =
        ptr.take (size - queue.length) := by
      rw [space]
      split
      · rfl
      · exact (List.take_of_length_le (by omega)).symm
    have length : (ptr.take (size - queue.length)).length =
        min ptr.length (size - queue.length) := by
      rw [List.length_take, min_comm]
    obtain ⟨bufferPtr, mirror, index, written, cells, moved⟩ :=
      write_spec fits.writes (ptr.take (size - queue.length)) (by omega)
    rw [if_neg none]
    simp only [trimmed]
    rw [written, length]
    exact ⟨_, rfl, holds.written (by omega) cells moved⟩

/-- **`rt_ringbuffer_put_force`** appends everything and lets the oldest bytes go. -/
theorem Holds.putForce (holds : rb.Holds queue) (ptr : List UInt8) :
    ∃ rb', rb.putForce ptr = some (rb', min ptr.length size) ∧
      rb'.Holds ((queue ++ ptr).drop (queue.length + ptr.length - size)) := by
  have fits := holds.fits
  have le := fits.count_le
  obtain ⟨last, short, trimmed, length, kept⟩ : ∃ last : List UInt8, last.length ≤ size ∧
      (if ptr.length > size then ptr.drop (ptr.length - size) else ptr) = last ∧
      last.length = min ptr.length size ∧
      (queue ++ ptr).drop (queue.length + ptr.length - size) =
        (queue ++ last).drop (queue.length + last.length - size) := by
    by_cases long : ptr.length > size
    · have cut : (ptr.drop (ptr.length - size)).length = size := by
        rw [List.length_drop]
        omega
      refine ⟨_, cut.le, if_pos long, by omega, ?_⟩
      rw [cut, Nat.add_sub_cancel, List.drop_left,
        show queue.length + ptr.length - size = queue.length + (ptr.length - size) by omega,
        List.drop_append]
      simp
    · exact ⟨ptr, by omega, if_neg long, by omega, rfl⟩
  obtain ⟨bufferPtr, mirror, index, written, cells, moved⟩ := write_spec fits.writes last short
  obtain ⟨reads, writes, -, place⟩ := fits
  unfold RingBuffer.putForce
  simp only [trimmed]
  rw [kept, ← length, written, Option.map_some, holds.fits.spaceLen]
  by_cases overrun : last.length > size - queue.length
  · rcases id moved with ⟨room, rfl, -⟩ | ⟨past, rfl, landed⟩
    · rw [if_pos room, if_pos overrun]
      refine ⟨_, rfl, holds.overrun short (by omega) cells moved fun same => ?_⟩
      rw [if_pos same] at place
      omega
    · rw [if_neg (by omega), if_pos overrun]
      refine ⟨_, rfl, holds.overrun short (by omega) cells moved ?_⟩
      by_cases same : rb.readMirror = rb.writeMirror
      · rw [if_pos same] at place
        have before : ¬ index ≤ rb.readIndex := by omega
        simp [before, same]
      · rw [if_neg same] at place
        have behind : index ≤ rb.readIndex := by omega
        simpa [behind] using same
  · have held := holds.written (by omega) cells moved
    have none : queue.length + last.length - size = 0 := by omega
    rw [none, List.drop_zero]
    rcases moved with ⟨room, -⟩ | ⟨past, -⟩
    · rw [if_pos room, if_neg overrun]
      exact ⟨_, rfl, held⟩
    · rw [if_neg (by omega), if_neg overrun]
      exact ⟨_, rfl, held⟩

/-! ### Reading -/

/-- The read index after bytes that lie before the end of the pool. -/
theorem Holds.advanced (holds : rb.Holds queue) {taken : ℕ} (enough : taken ≤ queue.length)
    {readMirror : Bool} {readIndex : ℕ} (inside : readIndex < size)
    (moved : readMirror = rb.readMirror ∧ readIndex = rb.readIndex + taken ∨
      readMirror = !rb.readMirror ∧ readIndex + size = rb.readIndex + taken) :
    Holds { rb with readMirror := readMirror, readIndex := readIndex } (queue.drop taken) := by
  obtain ⟨⟨reads, writes, le, place⟩, bytes⟩ := id holds
  have landing : (rb.readIndex + taken) % size = readIndex := by
    rcases moved with ⟨-, moved⟩ | ⟨-, moved⟩
    · rw [← moved, Nat.mod_eq_of_lt inside]
    · rw [← moved, Nat.add_mod_right, Nat.mod_eq_of_lt inside]
  have seam := window_drop rb.bufferPtr.toList rb.readIndex
    (show queue.length ≤ _ by rwa [Vector.length_toList]) taken enough
  rw [Vector.length_toList, landing, bytes, ← List.length_drop] at seam
  refine ⟨⟨inside, writes, ?_, ?_⟩, seam⟩
  · rw [List.length_drop]
    omega
  · rw [List.length_drop]
    show if readMirror = rb.writeMirror then rb.writeIndex = readIndex + _
      else rb.writeIndex + size = readIndex + _
    by_cases same : rb.readMirror = rb.writeMirror
    · rw [if_pos same] at place
      rcases moved with ⟨rfl, moved⟩ | ⟨rfl, moved⟩
      · rw [if_pos same]
        omega
      · rw [if_neg (by simp [same])]
        omega
    · rw [if_neg same] at place
      rcases moved with ⟨rfl, moved⟩ | ⟨rfl, moved⟩
      · rw [if_neg same]
        omega
      · rw [if_pos (Bool.not_eq_eq_eq_not.mpr (Bool.eq_not.mpr same))]
        omega

theorem Holds.read (holds : rb.Holds queue) {taken : ℕ} (enough : taken ≤ queue.length)
    (within : rb.readIndex + taken ≤ size) :
    rb.read rb.readIndex taken = some (queue.take taken) := by
  have linear := window_linear rb.bufferPtr.toList rb.readIndex
    (show rb.readIndex + taken ≤ _ by rwa [Vector.length_toList]) enough
  rw [holds.bytes] at linear
  rw [RingBuffer.read, if_pos within, linear]

/-- The bytes past the end of the pool, in two pieces. -/
theorem Holds.read_wrap (holds : rb.Holds queue) {taken : ℕ} (enough : taken ≤ queue.length)
    (past : size ≤ rb.readIndex + taken) :
    ∃ first second, rb.read rb.readIndex (size - rb.readIndex) = some first ∧
      rb.read 0 (taken - (size - rb.readIndex)) = some second ∧
      first ++ second = queue.take taken := by
  have reads := holds.fits.reads
  have le := holds.fits.count_le
  have wrapped := window_wrap rb.bufferPtr.toList rb.readIndex
    (show rb.readIndex < _ by rwa [Vector.length_toList])
    (show _ ≤ rb.readIndex + taken by rwa [Vector.length_toList]) enough
    (by rwa [Vector.length_toList])
  rw [holds.bytes, Vector.length_toList] at wrapped
  refine ⟨_, _, if_pos (by omega), if_pos (by omega), ?_⟩
  rw [← wrapped, List.drop_zero, List.take_of_length_le]
  rw [List.length_drop, Vector.length_toList]

/-- **`rt_ringbuffer_get`** takes the oldest bytes. -/
theorem Holds.get (holds : rb.Holds queue) (length : ℕ) :
    ∃ rb', rb.get length = some (rb', queue.take length) ∧ rb'.Holds (queue.drop length) := by
  have held := holds.fits.dataLen
  have reads := holds.fits.reads
  unfold RingBuffer.get
  by_cases none : rb.dataLen = 0
  · have empty : queue = [] := List.length_eq_zero_iff.mp (held.symm.trans none)
    rw [if_pos none]
    refine ⟨rb, by rw [empty, List.take_nil], ?_⟩
    rw [empty, List.drop_nil, ← empty]
    exact holds
  · obtain ⟨taken, trimmed, enough, take, drop⟩ : ∃ taken,
        (if rb.dataLen < length then rb.dataLen else length) = taken ∧ taken ≤ queue.length ∧
          queue.take length = queue.take taken ∧ queue.drop length = queue.drop taken := by
      rw [held]
      split
      · refine ⟨_, rfl, le_rfl, ?_, ?_⟩
        · rw [List.take_of_length_le (by omega), List.take_length]
        · rw [List.drop_of_length_le (by omega), List.drop_length]
      · exact ⟨length, rfl, by omega, rfl, rfl⟩
    rw [if_neg none, take, drop]
    simp only [trimmed]
    by_cases room : size - rb.readIndex > taken
    · rw [if_pos room, holds.read enough (by omega)]
      exact ⟨_, rfl, holds.advanced enough (by omega) (Or.inl ⟨rfl, rfl⟩)⟩
    · obtain ⟨first, second, front, back, both⟩ :=
        holds.read_wrap enough (show size ≤ rb.readIndex + taken by omega)
      have le := holds.fits.count_le
      rw [if_neg room, front]
      simp only [Option.bind_eq_bind, Option.bind_some, back, both]
      exact ⟨_, rfl, holds.advanced enough (by omega) (Or.inr ⟨rfl, by omega⟩)⟩

/-- What is read leaves the pool and the write index as they are. -/
theorem get_frame {rb' : RingBuffer size} {length : ℕ} {bytes : List UInt8}
    (done : rb.get length = some (rb', bytes)) :
    rb'.bufferPtr = rb.bufferPtr ∧ rb'.writeIndex = rb.writeIndex := by
  unfold RingBuffer.get at done
  split at done
  · obtain ⟨rfl, -⟩ := Prod.mk.inj (Option.some.inj done)
    exact ⟨rfl, rfl⟩
  · simp only at done
    generalize (if rb.dataLen < length then rb.dataLen else length) = taken at done
    split at done
    · obtain ⟨_, -, done⟩ := Option.bind_eq_some_iff.mp done
      obtain ⟨rfl, -⟩ := Prod.mk.inj (Option.some.inj done)
      exact ⟨rfl, rfl⟩
    · obtain ⟨_, -, done⟩ := Option.bind_eq_some_iff.mp done
      obtain ⟨_, -, done⟩ := Option.bind_eq_some_iff.mp done
      obtain ⟨rfl, -⟩ := Prod.mk.inj (Option.some.inj done)
      exact ⟨rfl, rfl⟩

/-- **`rt_ringbuffer_peek`** takes the oldest bytes as far as they lie in one piece; of a buffer
that is not empty, that is some of them. -/
theorem Holds.peek (holds : rb.Holds queue) :
    ∃ rb' taken, rb.peek = some (rb', queue.take taken) ∧ rb'.Holds (queue.drop taken) ∧
      taken = min queue.length (size - rb.readIndex) := by
  have held := holds.fits.dataLen
  have reads := holds.fits.reads
  unfold RingBuffer.peek
  by_cases none : rb.dataLen = 0
  · have empty : queue.length = 0 := held.symm.trans none
    rw [if_pos none]
    refine ⟨rb, 0, by rw [List.take_zero], by rwa [List.drop_zero], by omega⟩
  · rw [if_neg none, held]
    by_cases room : size - rb.readIndex > queue.length
    · rw [if_pos room, holds.read le_rfl (by omega)]
      exact ⟨_, _, rfl, holds.advanced le_rfl (by omega) (Or.inl ⟨rfl, rfl⟩), by omega⟩
    · rw [if_neg room, holds.read (show size - rb.readIndex ≤ queue.length by omega) (by omega)]
      exact ⟨_, _, rfl, holds.advanced (by omega) (by omega) (Or.inr ⟨rfl, by omega⟩), by omega⟩

/-! ### One byte -/

theorem write_single (inside : rb.writeIndex < size) (ch : UInt8) :
    rb.write [ch] = some { rb with
      bufferPtr := rb.bufferPtr.set rb.writeIndex ch
      writeMirror := if rb.writeIndex = size - 1 then !rb.writeMirror else rb.writeMirror
      writeIndex := if rb.writeIndex = size - 1 then 0 else rb.writeIndex + 1 } := by
  have stored : storeAll rb.bufferPtr rb.writeIndex [ch] =
      some (rb.bufferPtr.set rb.writeIndex ch) := by
    rw [storeAll_single, store, dif_pos inside]
  unfold write
  rw [List.length_singleton]
  by_cases last : rb.writeIndex = size - 1
  · have one : size - rb.writeIndex = 1 := by omega
    rw [if_neg (by omega), if_pos last, if_pos last, one]
    show ((storeAll rb.bufferPtr rb.writeIndex [ch]).bind fun bufferPtr => _) = _
    rw [stored]
    rfl
  · rw [if_pos (by omega), if_neg last, if_neg last, stored]
    rfl

/-- **`rt_ringbuffer_putchar`** is `rt_ringbuffer_put` of one byte. -/
theorem putchar_eq (inside : rb.writeIndex < size) (ch : UInt8) : rb.putchar ch = rb.put [ch] := by
  unfold putchar put
  by_cases none : rb.spaceLen = 0
  · rw [if_pos none, if_pos none]
  · have whole : ¬ rb.spaceLen < [ch].length := by
      rw [List.length_singleton]
      omega
    rw [if_neg none, if_neg none]
    simp only [if_neg whole, write_single inside, store, dif_pos inside]
    by_cases last : rb.writeIndex = size - 1
    · simp [last]
    · simp [last]

/-- **`rt_ringbuffer_putchar_force`** is `rt_ringbuffer_put_force` of one byte. -/
theorem putcharForce_eq (fits : rb.Fits count) (ch : UInt8) :
    rb.putcharForce ch = rb.putForce [ch] := by
  have inside := fits.writes
  have whole : ¬ [ch].length > size := by
    rw [List.length_singleton]
    omega
  have overrun : 1 > rb.spaceLen ↔ rb.status = .full := by
    have le := fits.count_le
    rw [fits.status_full, fits.spaceLen]
    omega
  unfold putcharForce putForce
  simp only [if_neg whole]
  simp only [write_single inside, store, dif_pos inside, Option.bind_eq_bind, Option.bind_some,
    Option.map_some, List.length_singleton]
  by_cases last : rb.writeIndex = size - 1
  · have wraps : ¬ size - rb.writeIndex > 1 := by omega
    simp only [if_pos last, if_neg wraps, Nat.zero_le, if_true]
    cases state : rb.status with
    | full => rw [if_pos (overrun.mpr state)]; rfl
    | empty => rw [if_neg fun wrong => by cases state.symm.trans (overrun.mp wrong)]; rfl
    | halfFull => rw [if_neg fun wrong => by cases state.symm.trans (overrun.mp wrong)]; rfl
  · have stays : size - rb.writeIndex > 1 := by omega
    simp only [if_neg last, if_pos stays]
    cases state : rb.status with
    | full => rw [if_pos (overrun.mpr state)]; rfl
    | empty => rw [if_neg fun wrong => by cases state.symm.trans (overrun.mp wrong)]; rfl
    | halfFull => rw [if_neg fun wrong => by cases state.symm.trans (overrun.mp wrong)]; rfl

/-- **`rt_ringbuffer_getchar`** is `rt_ringbuffer_get` of one byte. -/
theorem getchar_eq (inside : rb.readIndex < size) :
    rb.getchar = (rb.get 1).map fun taken => (taken.1, taken.2.head?) := by
  have one : rb.read rb.readIndex 1 = some [rb.bufferPtr[rb.readIndex]] := by
    rw [RingBuffer.read, if_pos (Nat.succ_le_of_lt inside)]
    simp [List.drop_eq_getElem_cons, inside]
  unfold getchar get
  by_cases none : rb.dataLen = 0
  · rw [if_pos none, if_pos none]
    rfl
  · have whole : ¬ rb.dataLen < 1 := by omega
    rw [if_neg none, if_neg none, Vector.getElem?_eq_getElem inside]
    simp only [if_neg whole]
    by_cases last : rb.readIndex = size - 1
    · have left : size - rb.readIndex = 1 := by omega
      have front : rb.read 0 0 = some [] := by
        rw [RingBuffer.read, if_pos (Nat.zero_le _), List.take_zero]
      rw [if_neg (by omega), left, one]
      simp [last, front]
    · rw [if_pos (by omega), one]
      simp [last]

/-! ### Runs of calls -/

/-- The calls on a ring buffer. -/
inductive Call
  | put (ptr : List UInt8)
  | putForce (ptr : List UInt8)
  | putchar (ch : UInt8)
  | putcharForce (ch : UInt8)
  | get (length : ℕ)
  | getchar
  | dataLen
  | reset

/-- One call: the buffer, and the returned count with the bytes that are handed out. -/
def call (rb : RingBuffer size) : Call → Option (RingBuffer size × ℕ × List UInt8)
  | .put ptr => (rb.put ptr).map fun done => (done.1, done.2, [])
  | .putForce ptr => (rb.putForce ptr).map fun done => (done.1, done.2, [])
  | .putchar ch => (rb.putchar ch).map fun done => (done.1, done.2, [])
  | .putcharForce ch => (rb.putcharForce ch).map fun done => (done.1, done.2, [])
  | .get length => (rb.get length).map fun done => (done.1, done.2.length, done.2)
  | .getchar => rb.getchar.map fun done => (done.1, done.2.toList.length, done.2.toList)
  | .dataLen => some (rb, rb.dataLen, [])
  | .reset => some (rb.reset, 0, [])

/-- The ring buffer as a machine: calls in, answers out. -/
def ringbuffer (size : ℕ) : Machine (RingBuffer size) Call (ℕ × List UInt8) where
  step rb input := (rb.call input).map fun done => (done.1, [done.2])

/-- A bounded queue under the same calls: what the ring buffer is for. -/
def boundedQueue (size : ℕ) : Machine (List UInt8) Call (ℕ × List UInt8) where
  step queue
    | .put ptr => some (queue ++ ptr.take (size - queue.length),
        [(min ptr.length (size - queue.length), [])])
    | .putForce ptr => some ((queue ++ ptr).drop (queue.length + ptr.length - size),
        [(min ptr.length size, [])])
    | .putchar ch => some (queue ++ [ch].take (size - queue.length),
        [(min 1 (size - queue.length), [])])
    | .putcharForce ch => some ((queue ++ [ch]).drop (queue.length + 1 - size), [(1, [])])
    | .get length => some (queue.drop length, [((queue.take length).length, queue.take length)])
    | .getchar => some (queue.drop 1, [(queue.head?.toList.length, queue.head?.toList)])
    | .dataLen => some (queue, [(queue.length, [])])
    | .reset => some ([], [(0, [])])

/-- **One call.** -/
theorem Holds.call (holds : rb.Holds queue) (input : Call) :
    ∃ rb' queue' answer, (ringbuffer size).step rb input = some (rb', answer) ∧
      (boundedQueue size).step queue input = some (queue', answer) ∧ rb'.Holds queue' := by
  have positive : 0 < size := Nat.zero_lt_of_lt holds.fits.reads
  cases input with
  | put ptr =>
    obtain ⟨rb', done, holds'⟩ := holds.put ptr
    exact ⟨rb', _, _, by simp [ringbuffer, RingBuffer.call, done], rfl, holds'⟩
  | putForce ptr =>
    obtain ⟨rb', done, holds'⟩ := holds.putForce ptr
    exact ⟨rb', _, _, by simp [ringbuffer, RingBuffer.call, done], rfl, holds'⟩
  | putchar ch =>
    obtain ⟨rb', done, holds'⟩ := holds.put [ch]
    rw [← putchar_eq holds.fits.writes] at done
    exact ⟨rb', _, _, by simp [ringbuffer, RingBuffer.call, done], rfl, holds'⟩
  | putcharForce ch =>
    obtain ⟨rb', done, holds'⟩ := holds.putForce [ch]
    rw [← putcharForce_eq holds.fits, List.length_singleton, min_eq_left positive] at done
    exact ⟨rb', _, _, by simp [ringbuffer, RingBuffer.call, done], rfl, holds'⟩
  | get length =>
    obtain ⟨rb', done, holds'⟩ := holds.get length
    exact ⟨rb', _, _, by simp [ringbuffer, RingBuffer.call, done], rfl, holds'⟩
  | getchar =>
    obtain ⟨rb', done, holds'⟩ := holds.get 1
    have head : (queue.take 1).head? = queue.head? := by cases queue <;> rfl
    refine ⟨rb', _, _, ?_, rfl, holds'⟩
    simp [ringbuffer, RingBuffer.call, getchar_eq holds.fits.reads, done, head]
  | dataLen =>
    exact ⟨rb, _, _, by simp [ringbuffer, RingBuffer.call, holds.fits.dataLen], rfl, holds⟩
  | reset => exact ⟨rb.reset, _, _, rfl, rfl, holds_reset positive rb⟩

/-- **The ring buffer is a bounded queue.** In any run of calls from the initial buffer no access
leaves the pool, the answers are those of a queue of `size` bytes, and the bytes between the read
and the write index are that queue. -/
theorem ringbuffer_queue (positive : 0 < size) (pool : Vector UInt8 size) (calls : List Call) :
    ∃ answers rb queue, (ringbuffer size).Run (init pool) calls answers rb ∧
      (boundedQueue size).Run [] calls answers queue ∧ rb.Holds queue := by
  have allowed : ∀ input ∈ calls, True := fun _ _ => trivial
  have steps (rb : RingBuffer size) (queue : List UInt8) (input : Call) (holds : rb.Holds queue)
      (_ : True) :
      ∃ rb' queue' answer, (ringbuffer size).step rb (id input) = some (rb', answer) ∧
        (boundedQueue size).step queue input = some (queue', answer) ∧ rb'.Holds queue' :=
    holds.call input
  have both := Machine.Run.forward Holds (fun _ => True) id steps calls
    (holds_init positive pool) allowed
  rwa [List.map_id] at both

/-- A pool of four bytes that is written round its end. -/
theorem ringbuffer_queue_wraps :
    ∃ answers rb queue,
      (ringbuffer 4).Run (init (Vector.replicate 4 0)) [.put [1, 2, 3], .get 2, .put [4, 5, 6]]
        answers rb ∧
      (boundedQueue 4).Run [] [.put [1, 2, 3], .get 2, .put [4, 5, 6]] answers queue ∧
      rb.Holds queue :=
  ringbuffer_queue (by decide) (Vector.replicate 4 0) _

end RingBuffer

end Robocon.Serial
