/-
**The odometry receiver (`drv_action.c`).**

`dataAnalyse` is `Data_Analyse` with its static variables and the six globals that it publishes; a
frame is `0d 0a`, 24 bytes, `0a 0d`. A float is its four bytes, and a write past the end of the 24
bytes is a failed step.

* `gap_run` — bytes without `0d 0a` publish nothing.
* `frame_run` — a frame publishes its six words at its last byte, and nothing before.
* `frames_decoded` — a stream of such bytes and frames, read up to any place, has published the
  frames that end there or before, in order; the globals are those of the last of them.
-/

import Robocon.Lib.Run
import Robocon.Lib.Buffer
import Robocon.Lib.Stream

namespace Robocon.Action

open Lib

/-! ### The receiver -/

/-- The globals of `drv_action.c`. -/
structure Pose where
  posX : FloatBytes
  posY : FloatBytes
  zangle : FloatBytes
  xangle : FloatBytes
  yangle : FloatBytes
  wZ : FloatBytes
  deriving DecidableEq

/-- The static variables of `Data_Analyse`, and the globals. -/
structure Odometry where
  date : Vector UInt8 24
  count : ℕ
  i : ℕ
  pose : Pose

theorem actVal_lt (k : Fin 6) (j : Fin 4) : 4 * k.val + j.val < 24 := by
  have first := k.isLt
  have second := j.isLt
  omega

/-- `posture.ActVal[k]`. -/
def actVal (date : Vector UInt8 24) (k : Fin 6) : FloatBytes :=
  Vector.ofFn fun j => date.get ⟨4 * k.val + j.val, actVal_lt k j⟩

instance neZero_six : NeZero 6 := ⟨by decide⟩

/-- The six words of a frame. -/
def Pose.ofDate (date : Vector UInt8 24) : Pose where
  zangle := actVal date 0
  xangle := actVal date 1
  yangle := actVal date 2
  posX := actVal date 3
  posY := actVal date 4
  wZ := actVal date 5

/-- The zero-initialised variables. -/
def Odometry.initial : Odometry where
  date := Vector.replicate 24 0
  count := 0
  i := 0
  pose := Pose.ofDate (Vector.replicate 24 0)

namespace Odometry

variable (s : Odometry) (ch : UInt8)

/-- `posture.date[i] = ch`. -/
def store : Option Odometry :=
  if inside : s.i < 24 then some { s with date := s.date.set s.i ch inside } else none

/-- `Data_Analyse`: the next variables, and the values that are published. -/
def dataAnalyse : Option (Odometry × List Pose) :=
  match s.count with
  | 0 => some ({ s with count := if ch = 0x0d then 1 else 0 }, [])
  | 1 =>
    if ch = 0x0a then some ({ s with i := 0, count := 2 }, [])
    else if ch = 0x0d then some (s, [])
    else some ({ s with count := 0 }, [])
  | 2 =>
    (s.store ch).map fun s =>
      let s := { s with i := s.i + 1 }
      (if s.i ≥ 24 then { s with i := 0, count := 3 } else s, [])
  | 3 => some ({ s with count := if ch = 0x0a then 4 else 0 }, [])
  | 4 =>
    if ch = 0x0d then
      some ({ s with pose := Pose.ofDate s.date, count := 0 }, [Pose.ofDate s.date])
    else some ({ s with count := 0 }, [])
  | _ => some ({ s with count := 0 }, [])

end Odometry

/-- The receiver: bytes in, published values out. -/
def odometry : Machine Odometry UInt8 Pose where
  step := Odometry.dataAnalyse

/-! ### The stream -/

/-- Bytes without `0d 0a`, and the payload of the frame after them. -/
structure Segment where
  gap : List UInt8
  payload : Vector UInt8 24
  apart : Apart 0x0d 0x0a gap

/-- A frame. -/
def frame (payload : Vector UInt8 24) : List UInt8 :=
  [0x0d, 0x0a] ++ payload.toList ++ [0x0a, 0x0d]

/-- The bytes of a segment. -/
def Segment.bytes (segment : Segment) : List UInt8 := segment.gap ++ frame segment.payload

/-- The frames that end within the first `place` bytes of the segments. -/
def ended : List Segment → ℕ → List Pose
  | [], _ => []
  | segment :: rest, place =>
    if place < segment.bytes.length then []
    else Pose.ofDate segment.payload :: ended rest (place - segment.bytes.length)

variable {s s' : Odometry} {ch : UInt8}

/-! ### One byte -/

theorem store_eq (inside : s.i < 24) (ch : UInt8) :
    s.store ch = some { s with date := s.date.set s.i ch inside } := dif_pos inside

theorem getLastD_append (early late : List Pose) (pose : Pose) :
    (early ++ late).getLastD pose = late.getLastD (early.getLastD pose) := by
  induction early generalizing pose with
  | nil => rfl
  | cons first rest ih =>
    rw [List.cons_append, List.getLastD_cons, List.getLastD_cons]
    exact ih first

/-- A byte keeps the index in range and publishes what the globals then hold. -/
theorem dataAnalyse_keeps {poses : List Pose} (inside : s.i < 24)
    (read : s.dataAnalyse ch = some (s', poses)) :
    s'.i < 24 ∧ s'.pose = poses.getLastD s.pose := by
  have kept {next : Odometry} {out : List Pose} (read : some (next, out) = some (s', poses))
      (index : next.i < 24) (pose : next.pose = out.getLastD s.pose) :
      s'.i < 24 ∧ s'.pose = poses.getLastD s.pose := by
    obtain ⟨rfl, rfl⟩ := Prod.mk.inj (Option.some.inj read)
    exact ⟨index, pose⟩
  unfold Odometry.dataAnalyse at read
  split at read
  · exact kept read inside rfl
  · split at read
    · exact kept read (Nat.succ_pos 23) rfl
    · split at read
      · exact kept read inside rfl
      · exact kept read inside rfl
  · rw [store_eq inside] at read
    by_cases full : s.i + 1 ≥ 24
    · exact kept read ((if_pos full).symm ▸ Nat.succ_pos 23) ((if_pos full).symm ▸ rfl)
    · exact kept read ((if_neg full).symm ▸ not_le.mp full) ((if_neg full).symm ▸ rfl)
  · exact kept read inside rfl
  · split at read
    · exact kept read inside rfl
    · exact kept read inside rfl
  · exact kept read inside rfl

/-- A run keeps the index in range; the globals are what it published last. -/
theorem run_keeps {stream : List UInt8} {poses : List Pose}
    (run : odometry.Run s stream poses s') : s.i < 24 →
      s'.i < 24 ∧ s'.pose = poses.getLastD s.pose := by
  induction run with
  | nil s => exact fun inside => ⟨inside, rfl⟩
  | cons _ read _ ih =>
    intro inside
    obtain ⟨index, pose⟩ := dataAnalyse_keeps inside read
    obtain ⟨last, poses⟩ := ih index
    refine ⟨last, ?_⟩
    rw [poses, pose, getLastD_append]

/-! ### The parts of a frame -/

theorem analyse_idle (idle : s.count = 0) (ch : UInt8) :
    s.dataAnalyse ch = some ({ s with count := if ch = 0x0d then 1 else 0 }, []) := by
  rw [Odometry.dataAnalyse, idle]
  rfl

theorem analyse_opened (opened : s.count = 1) (ch : UInt8) :
    s.dataAnalyse ch =
      if ch = 0x0a then some ({ s with i := 0, count := 2 }, [])
      else if ch = 0x0d then some (s, [])
      else some ({ s with count := 0 }, []) := by
  rw [Odometry.dataAnalyse, opened]
  rfl

theorem analyse_body (body : s.count = 2) (inside : s.i < 24) (ch : UInt8) :
    s.dataAnalyse ch =
      let next : Odometry := { s with date := s.date.set s.i ch inside, i := s.i + 1 }
      some (if s.i + 1 ≥ 24 then { next with i := 0, count := 3 } else next, []) := by
  rw [Odometry.dataAnalyse, body]
  show (s.store ch).map _ = _
  rw [store_eq inside, body]
  rfl

theorem gap_run (gap : List UInt8) (apart : Apart 0x0d 0x0a gap) (idle : s.count = 0) :
    ∃ s', odometry.Run s gap [] s' ∧
      s'.count = if gap.getLast? = some 0x0d then 1 else 0 := by
  induction gap using List.reverseRecOn with
  | nil => exact ⟨s, .nil s, idle⟩
  | append_singleton gap ch ih =>
    obtain ⟨s', run, count⟩ := ih apart.init
    rw [List.getLast?_concat]
    have next {s'' : Odometry} (read : s'.dataAnalyse ch = some (s'', [])) :
        odometry.Run s (gap ++ [ch]) [] s'' := run.append (.single trivial read)
    by_cases ends : gap.getLast? = some 0x0d
    · rw [if_pos ends] at count
      have read := analyse_opened count ch
      rw [if_neg (apart.last_ne ends)] at read
      by_cases opens : ch = 0x0d
      · rw [if_pos opens] at read
        exact ⟨_, next read, count.trans (if_pos (congrArg some opens)).symm⟩
      · rw [if_neg opens] at read
        exact ⟨_, next read, (if_neg (opens ∘ Option.some.inj)).symm⟩
    · rw [if_neg ends] at count
      refine ⟨_, next (analyse_idle count ch), ?_⟩
      by_cases opens : ch = 0x0d
      · exact (if_pos opens).trans (if_pos (congrArg some opens)).symm
      · exact (if_neg opens).trans (if_neg (opens ∘ Option.some.inj)).symm

/-- The first two bytes of a frame open its body. -/
theorem header_run (few : s.count = 0 ∨ s.count = 1) :
    ∃ s', odometry.Run s [0x0d, 0x0a] [] s' ∧ s'.count = 2 ∧ s'.i = 0 := by
  have first : ∃ s₁, s.dataAnalyse 0x0d = some (s₁, []) ∧ s₁.count = 1 := by
    rcases few with idle | opened
    · exact ⟨_, analyse_idle idle 0x0d, rfl⟩
    · exact ⟨s, (analyse_opened opened 0x0d).trans ((if_neg (by decide)).trans (if_pos rfl)),
        opened⟩
  obtain ⟨s₁, read₁, opened⟩ := first
  have read₂ : s₁.dataAnalyse 0x0a = some ({ s₁ with i := 0, count := 2 }, []) :=
    analyse_opened opened 0x0a
  have run : odometry.Run s ([0x0d] ++ [0x0a]) ([] ++ []) { s₁ with i := 0, count := 2 } :=
    (Machine.RunOn.single trivial read₁).append (.single trivial read₂)
  exact ⟨_, run, rfl, rfl⟩

theorem body_run (data : List UInt8) : ∀ {s : Odometry}, s.count = 2 → s.i + data.length < 24 →
    ∃ s', odometry.Run s data [] s' ∧ s'.count = 2 ∧ s'.i = s.i + data.length ∧
      filled s'.date s'.i = filled s.date s.i ++ data := by
  induction data with
  | nil => exact fun body _ => ⟨_, .nil _, body, rfl, (List.append_nil _).symm⟩
  | cons ch data ih =>
    intro s body room
    rw [List.length_cons] at room
    have inside : s.i < 24 := by omega
    have more : ¬ s.i + 1 ≥ 24 := by omega
    have read := analyse_body body inside ch
    simp only [if_neg more] at read
    have left : s.i + 1 + data.length < 24 := by omega
    obtain ⟨s', run, count, index, date⟩ :=
      @ih { s with date := s.date.set s.i ch inside, i := s.i + 1 } body left
    refine ⟨s', .cons trivial read run, count, ?_, ?_⟩
    · rw [index, List.length_cons]
      exact (add_assoc s.i 1 _).trans (congrArg _ (add_comm 1 _))
    · rw [date, filled_set, List.append_assoc]
      rfl

theorem payload_run (payload : Vector UInt8 24) (body : s.count = 2) (start : s.i = 0) :
    ∃ s', odometry.Run s payload.toList [] s' ∧ s'.count = 3 ∧ s'.date = payload := by
  obtain ⟨data, last, split⟩ := (List.eq_nil_or_concat' payload.toList).resolve_left fun empty => by
    have length := payload.length_toList
    rw [empty] at length
    cases length
  have length : data.length = 23 := by
    have whole := payload.length_toList
    rw [split, List.length_append] at whole
    exact Nat.succ.inj whole
  obtain ⟨s₁, run, count, index, date⟩ := body_run data body (by omega)
  have inside : s₁.i < 24 := by omega
  have full : s₁.i + 1 ≥ 24 := by omega
  have read := analyse_body count inside last
  simp only [if_pos full] at read
  refine ⟨_, split ▸ run.append (.single trivial read), rfl, ?_⟩
  have stored := filled_set s₁.date last inside
  rw [show s₁.i + 1 = 24 by omega, filled_full, date, start, filled_zero, List.nil_append,
    ← split] at stored
  exact Vector.toList_inj.mp stored

/-- The bytes of a segment before its last one. -/
def Segment.early (segment : Segment) : List UInt8 :=
  segment.gap ++ ([0x0d, 0x0a] ++ (segment.payload.toList ++ [0x0a]))

theorem Segment.bytes_eq (segment : Segment) : segment.bytes = segment.early ++ [0x0d] := by
  simp [bytes, early, frame]

theorem early_run (segment : Segment) (idle : s.count = 0) :
    ∃ s', odometry.Run s segment.early [] s' ∧ s'.count = 4 ∧ s'.date = segment.payload := by
  obtain ⟨s₁, run₁, count₁⟩ := gap_run segment.gap segment.apart idle
  have few : s₁.count = 0 ∨ s₁.count = 1 := by
    rw [count₁]
    split
    · exact .inr rfl
    · exact .inl rfl
  obtain ⟨s₂, run₂, body, start⟩ := header_run few
  obtain ⟨s₃, run₃, count₃, date⟩ := payload_run segment.payload body start
  have read₄ : s₃.dataAnalyse 0x0a = some ({ s₃ with count := 4 }, []) := by
    rw [Odometry.dataAnalyse, count₃]
    rfl
  exact ⟨_, run₁.append (run₂.append (run₃.append (.single trivial read₄))), rfl, date⟩

/-- **A frame** is published at its last byte. -/
theorem segment_run (segment : Segment) (idle : s.count = 0) :
    ∃ s', odometry.Run s segment.bytes [Pose.ofDate segment.payload] s' ∧ s'.count = 0 := by
  obtain ⟨s₁, run, count, date⟩ := early_run segment idle
  have read : s₁.dataAnalyse 0x0d =
      some ({ s₁ with pose := Pose.ofDate s₁.date, count := 0 }, [Pose.ofDate s₁.date]) := by
    rw [Odometry.dataAnalyse, count]
    rfl
  rw [date] at read
  rw [segment.bytes_eq]
  exact ⟨_, run.append (.single trivial read), rfl⟩

/-! ### Streams -/

theorem silent_take {stream : List UInt8} (run : odometry.Run s stream [] s') (place : ℕ) :
    ∃ s'', odometry.Run s (stream.take place) [] s'' := by
  rw [← List.take_append_drop place stream] at run
  obtain ⟨middle, early, late, split, head, -⟩ := run.split
  rw [(List.append_eq_nil_iff.mp split.symm).1] at head
  exact ⟨middle, head⟩

theorem segments_run (segments : List Segment) {gap : List UInt8} (apart : Apart 0x0d 0x0a gap) :
    ∀ (place : ℕ) {s : Odometry}, s.count = 0 →
      ∃ s', odometry.Run s ((segments.flatMap Segment.bytes ++ gap).take place)
        (ended segments place) s' := by
  induction segments with
  | nil =>
    intro place s idle
    obtain ⟨s', run, -⟩ := gap_run gap apart idle
    exact silent_take run place
  | cons segment rest ih =>
    intro place s idle
    rw [List.flatMap_cons, List.append_assoc, ended]
    by_cases before : place < segment.bytes.length
    · obtain ⟨s', run, -⟩ := early_run segment idle
      have short : place ≤ segment.early.length := by
        rw [segment.bytes_eq, List.length_append, List.length_singleton] at before
        exact Nat.lt_succ_iff.mp before
      rw [if_pos before, List.take_append_of_le_length before.le, segment.bytes_eq,
        List.take_append_of_le_length short]
      exact silent_take run place
    · obtain ⟨s₁, head, idle'⟩ := segment_run segment idle
      obtain ⟨s₂, tail⟩ := ih (place - segment.bytes.length) idle'
      rw [if_neg before, List.take_append, List.take_of_length_le (not_lt.mp before)]
      exact ⟨s₂, head.append tail⟩

/-- **Frames are decoded whole and in order.** Any part of the stream publishes the frames that end
in it, and leaves the globals as the last of them set them; the index of the payload stays in
range. -/
theorem frames_decoded (segments : List Segment) {gap : List UInt8} (apart : Apart 0x0d 0x0a gap)
    (place : ℕ) :
    ∃ s, odometry.Run .initial ((segments.flatMap Segment.bytes ++ gap).take place)
        (ended segments place) s ∧
      s.pose = (ended segments place).getLastD Odometry.initial.pose ∧ s.i < 24 := by
  obtain ⟨s, run⟩ := segments_run segments apart place (s := .initial) rfl
  obtain ⟨inside, pose⟩ := run_keeps run (Nat.succ_pos 23)
  exact ⟨s, run, pose, inside⟩

/-! ### Payloads that look like headers -/

/-- Two frames, each after a byte that could open one. -/
def twoFrames : List Segment :=
  [⟨[0x0d], Vector.ofFn fun i => if i.val % 2 = 0 then 0x0d else 0x0a, by decide⟩,
    ⟨[0x0a, 0x0d, 0x0d], Vector.ofFn fun i => if i.val % 2 = 0 then 0x0a else 0x0d, by decide⟩]

theorem frames_decoded_two :
    ∃ s, odometry.Run .initial ((twoFrames.flatMap Segment.bytes ++ [0x0d]).take 60)
        (twoFrames.map fun segment => Pose.ofDate segment.payload) s ∧
      s.pose = Pose.ofDate (Vector.ofFn fun i => if i.val % 2 = 0 then 0x0a else 0x0d) := by
  have apart : Apart (0x0d : UInt8) 0x0a [0x0d] := by decide
  obtain ⟨s, run, pose, -⟩ := frames_decoded twoFrames apart 60
  exact ⟨s, run, pose⟩

end Robocon.Action
