/-
**What a malformed packet changes.**

* `visual_end` — what the driver does at the end of a packet is `cvparseData`.
* `Kept` — a text that is no packet leaves `aball` and `ball` alone, and so does a packet of a ball
  that `ball` has no entry for; any other packet sets the entry of its ball.
* `Harmless` — the numbers that `sscanf` has stored before a text turns out to be malformed are
  those that `aball` had, and a packet is of a ball that `ball` has an entry for.
* `kept_iff` — the text is handled as it should be exactly if its numbers are harmless.

`sscanf` stores into `aball` as it converts (`malformed_written`), and the entry is set without a
look at the number of the ball.
-/

import Robocon.Vision.Visual

namespace Robocon.Vision

open Lib

/-! ### Packets -/

/-- What a text should leave behind. -/
def Kept (balls balls' : Balls) (text : List UInt8) : Prop :=
  match conversions text with
  | .posY dat =>
    if 0 ≤ dat.id ∧ dat.id < 10 then
      ∀ i : Fin 10, balls'.ball.get i = if (i : ℤ) = dat.id then dat else balls.ball.get i
    else balls'.ball = balls.ball
  | _ => balls' = balls

/-- The numbers are those that `aball` has, or make up a packet of a ball that has an entry. -/
def Conversions.Harmless (aball : CvDat) : Conversions → Prop
  | empty => True
  | color c => c = aball.color
  | id c i => c = aball.color ∧ i = aball.id
  | posX c i x => c = aball.color ∧ i = aball.id ∧ x = aball.posX
  | posY dat => 0 ≤ dat.id ∧ dat.id < 10

/-- **At the end of a packet** the driver does what `cvparseData` does with its text. -/
theorem visual_end (c : Collector) (balls : Balls) :
    visual.step (c, balls) endMark =
      (cvparseData c.b balls c.count).map fun parsed =>
        ((⟨parsed.1, 0, 2⟩, parsed.2), [[cString parsed.1.toList]]) := by
  have other : endMark ≠ startMark := by decide
  simp only [visual, Collector.handle, Collector.finish, cvparseData, other, if_true, if_false]
  cases stored : store c.b c.count 0 with
  | none => rfl
  | some b =>
    cases parsed : balls.parse (cString b.toList) with
    | none => simp [parsed]
    | some balls' => simp [parsed]

/-! ### The conversions -/

theorem conversions_space {text : List UInt8} (blank : text.all isSpace = true) :
    conversions text = .empty := by
  have skipped : text.dropWhile isSpace = [] :=
    List.dropWhile_eq_nil_iff.mpr (List.all_eq_true.mp blank)
  rw [conversions, scanInt, skipped]
  rfl

theorem sscanf_returns {text : List UInt8} (dat : CvDat) (fit : (conversions text).Fit) :
    ∃ returned, sscanf text dat = some (returned, (conversions text).store dat) ∧
      (returned = 4 ↔ (conversions text).count = 4) := by
  refine ⟨_, if_pos fit, ?_⟩
  by_cases blank : text.all isSpace = true
  · rw [if_pos blank, conversions_space blank]
    decide
  · rw [if_neg blank]
    exact Nat.cast_inj (n := 4)

theorem count_eq_four {read : Conversions} : read.count = 4 ↔ ∃ dat, read = .posY dat := by
  cases read <;> simp [Conversions.count]

/-- What is stored before the text is not as the format has it. -/
theorem store_eq_iff {read : Conversions} {dat : CvDat} (part : read.count ≠ 4) :
    read.store dat = dat ↔ read.Harmless dat := by
  obtain ⟨color, id, posX, posY⟩ := dat
  cases read with
  | posY dat => exact absurd rfl part
  | empty => simp [Conversions.store, Conversions.Harmless]
  | color c => simp [Conversions.store, Conversions.Harmless]
  | id c i => simp [Conversions.store, Conversions.Harmless]
  | posX c i x => simp [Conversions.store, Conversions.Harmless]

/-! ### One text -/

theorem kept_part_iff {balls : Balls} {text : List UInt8} (fit : (conversions text).Fit)
    (part : (conversions text).count ≠ 4) :
    (∃ balls', balls.parse text = some balls' ∧ Kept balls balls' text) ↔
      (conversions text).Harmless balls.aball := by
  obtain ⟨returned, scanned, four⟩ := sscanf_returns balls.aball fit
  have parsed : balls.parse text =
      some { balls with aball := (conversions text).store balls.aball } := by
    simp only [Balls.parse, scanned, Option.bind_some, ne_eq, mt four.mp part, not_false_iff,
      if_true]
  have kept : ∀ balls', Kept balls balls' text ↔ balls' = balls := by
    intro balls'
    unfold Kept
    split
    · rename_i dat read
      rw [read] at part
      exact absurd rfl part
    · rfl
  simp only [parsed, Option.some.injEq, exists_eq_left', kept]
  rw [← store_eq_iff part]
  exact ⟨congrArg Balls.aball, fun same => by rw [same]⟩

theorem copy_iff (balls : Balls) :
    (∃ balls', balls.copy = some balls') ↔ 0 ≤ balls.aball.id ∧ balls.aball.id < 10 := by
  unfold Balls.copy store
  split_ifs with sign inside
  · exact iff_of_true ⟨_, rfl⟩ ⟨sign, by omega⟩
  · exact iff_of_false (by simp) (by omega)
  · exact iff_of_false (by simp) (by omega)

theorem copy_get {balls balls' : Balls} (copied : balls.copy = some balls') (i : Fin 10) :
    balls'.ball.get i =
      if (i : ℤ) = balls.aball.id then balls.aball else balls.ball.get i := by
  unfold Balls.copy store at copied
  split_ifs at copied with sign inside
  · obtain rfl := Option.some.inj copied
    have index : (i : ℤ) = balls.aball.id ↔ balls.aball.id.toNat = i := by omega
    simp only [Vector.get_eq_getElem, index]
    rw [Vector.getElem_set]
  · cases copied

theorem kept_packet_iff {balls : Balls} {text : List UInt8} {dat : CvDat}
    (fit : (conversions text).Fit) (packet : conversions text = .posY dat) :
    (∃ balls', balls.parse text = some balls' ∧ Kept balls balls' text) ↔
      0 ≤ dat.id ∧ dat.id < 10 := by
  obtain ⟨returned, scanned, four⟩ := sscanf_returns balls.aball fit
  have whole : returned = 4 := four.mpr (by rw [packet]; rfl)
  have parsed : balls.parse text = { balls with aball := dat }.copy := by
    simp only [Balls.parse, scanned, Option.bind_some, ne_eq, whole, not_true, if_false]
    rw [packet]
    rfl
  rw [parsed]
  constructor
  · rintro ⟨balls', copied, -⟩
    exact (copy_iff { balls with aball := dat }).mp ⟨balls', copied⟩
  · intro known
    obtain ⟨balls', copied⟩ := (copy_iff { balls with aball := dat }).mpr known
    refine ⟨balls', copied, ?_⟩
    simp only [Kept, packet, known, and_self, if_true]
    exact copy_get copied

/-- **One text.** -/
theorem parse_iff (balls : Balls) (text : List UInt8) :
    (∃ balls', balls.parse text = some balls' ∧ Kept balls balls' text) ↔
      (conversions text).Fit ∧ (conversions text).Harmless balls.aball := by
  by_cases fit : (conversions text).Fit
  · rw [and_iff_right fit]
    by_cases whole : (conversions text).count = 4
    · obtain ⟨dat, packet⟩ := count_eq_four.mp whole
      rw [kept_packet_iff fit packet, packet]
      rfl
    · exact kept_part_iff fit whole
  · refine iff_of_false ?_ fun both => fit both.1
    rintro ⟨balls', parsed, -⟩
    rw [Balls.parse, sscanf, if_neg fit] at parsed
    cases parsed

/-- **A packet of `cvparse_data`** changes what it should exactly if it fits into the buffer, its
integers fit into an `int`, and its numbers are harmless. -/
theorem kept_iff (b : Vector UInt8 bufferSize) (balls : Balls) (count : ℕ) :
    (∃ b' balls', cvparseData b balls count = some (b', balls') ∧
      Kept balls balls' (cString (filled b count))) ↔
      count < bufferSize ∧ (conversions (cString (filled b count))).Fit ∧
        (conversions (cString (filled b count))).Harmless balls.aball := by
  rw [← parse_iff]
  unfold cvparseData store
  split_ifs with inside
  · rw [Option.bind_some, cString_set, and_iff_right inside]
    constructor
    · rintro ⟨b', balls', terminated, kept⟩
      obtain ⟨last, parsed, same⟩ := Option.map_eq_some_iff.mp terminated
      obtain ⟨-, rfl⟩ := Prod.mk.inj same
      exact ⟨last, parsed, kept⟩
    · rintro ⟨balls', parsed, kept⟩
      exact ⟨_, balls', by rw [parsed, Option.map_some], kept⟩
  · refine iff_of_false ?_ fun both => inside both.1
    rintro ⟨b', balls', parsed, -⟩
    cases parsed

/-! ### A malformed packet -/

/-- No balls. -/
def Balls.zero : Balls := ⟨⟨0, 0, 0, 0⟩, Vector.replicate 10 ⟨0, 0, 0, 0⟩⟩

/-- **The text `1` between the marks** is no packet, and sets the colour of `aball`. -/
theorem malformed_written : ¬ ∃ b' balls',
    cvparseData (Vector.replicate bufferSize 0x31) .zero 1 = some (b', balls') ∧
      Kept .zero balls' (cString (filled (Vector.replicate bufferSize 0x31) 1)) := by
  have text : filled (Vector.replicate bufferSize (0x31 : UInt8)) 1 = [0x31] := by decide
  have read : conversions [0x31] = .color 1 := by decide
  rintro ⟨b', balls', terminated, kept⟩
  rw [cvparseData, store, dif_pos (by decide), Option.bind_some, cString_set, text] at terminated
  obtain ⟨last, parsed, same⟩ := Option.map_eq_some_iff.mp terminated
  obtain ⟨-, rfl⟩ := Prod.mk.inj same
  rw [text] at kept
  obtain ⟨-, harmless⟩ := (parse_iff .zero [0x31]).mp ⟨last, parsed, kept⟩
  rw [read] at harmless
  exact absurd (show (1 : ℤ) = 0 from harmless) one_ne_zero

end Robocon.Vision
