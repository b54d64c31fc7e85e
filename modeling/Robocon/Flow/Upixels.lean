/-
**The UPIXELS parsers (`up_parse_char` and `upnotof_parse_char` of `flow_decode.c`).**

Two copies of one switch, each with its own static variables and its own structure, here ten bytes.
A frame is `FE 0A`, ten bytes, their exclusive-or and `55`. A store past the end of the structure is
a failed step.

* `Upixels.parseChar` — one byte; `upParseChar` and `upnotofParseChar` are its two copies.
* `Upixels.step` — a byte extends what was read of a frame, completes one, or drops what begins
  none.
* `upixels_recognise` — zero is returned exactly for the frames that are begun in the first state,
  and the two parsers return the same.
* `upixels_resync_iff` — bytes without a header and then a frame are answered with zero exactly if
  the bytes end with an even number of `FE`.
-/

import Robocon.Lib.Buffer
import Robocon.Lib.Recogniser
import Robocon.Lib.Stream

namespace Robocon.Flow

open Lib

/-! ### The parsers -/

/-- The static variables of a parser, and the structure it fills. -/
structure Upixels where
  s : ℕ
  p : ℕ
  xorR : UInt8
  xorC : UInt8
  data : Vector UInt8 10

namespace Upixels

/-- The parser before the first byte. -/
def initial : Upixels where
  s := 0
  p := 0
  xorR := 0
  xorC := 0
  data := Vector.replicate 10 0

/-- One byte, with the value returned. -/
def parseChar (u : Upixels) (ch : UInt8) : Option (Upixels × ℤ) :=
  match u.s with
  | 0 => some (if ch = 0xFE then { u with s := 1 } else u, -1)
  | 1 => some (if ch = 0x0A then { u with s := 2, p := 0, xorC := 0 } else { u with s := 0 }, -1)
  | 2 => (store u.data u.p ch).map fun data =>
    let u := { u with data, p := u.p + 1, xorC := u.xorC ^^^ ch }
    (if u.p = 10 then { u with s := 3, p := 0 } else u, -1)
  | 3 => some ({ u with s := 4, xorR := ch }, -1)
  | 4 => some ({ u with s := 0 }, if ch = 0x55 ∧ u.xorR = u.xorC then 0 else -1)
  | _ => some (u, -1)

end Upixels

/-- The static variables and the structures `up_data` and `up_flow_data` of both parsers. -/
structure Links where
  up : Upixels
  upnotof : Upixels

/-- Both parsers before the first byte. -/
def Links.initial : Links := ⟨.initial, .initial⟩

def upParseChar (links : Links) (ch : UInt8) : Option (Links × ℤ) :=
  (links.up.parseChar ch).map fun (up, ret) => ({ links with up }, ret)

def upnotofParseChar (links : Links) (ch : UInt8) : Option (Links × ℤ) :=
  (links.upnotof.parseChar ch).map fun (upnotof, ret) => ({ links with upnotof }, ret)

/-! ### Frames -/

/-- The exclusive-or of bytes. -/
def xorSum (bytes : List UInt8) : UInt8 := bytes.foldl (· ^^^ ·) 0

theorem xorSum_append (bytes : List UInt8) (ch : UInt8) :
    xorSum (bytes ++ [ch]) = xorSum bytes ^^^ ch := by
  rw [xorSum, List.foldl_append]
  rfl

/-- A frame that carries ten bytes. -/
def upFrame (d : Vector UInt8 10) : List UInt8 :=
  [0xFE, 0x0A] ++ d.toList ++ [xorSum d.toList, 0x55]

theorem upFrame_length (d : Vector UInt8 10) : (upFrame d).length = 14 := by
  simp [upFrame]

theorem upFrame_inj {d e : Vector UInt8 10} (same : upFrame d = upFrame e) : d = e := by
  have front := (List.append_inj' same rfl).1
  exact Vector.toList_inj.mp (List.append_cancel_left front)

namespace Upixels

variable {u : Upixels} {ch : UInt8}

/-- The bytes of a frame that the parser has read. -/
def text (u : Upixels) : List UInt8 :=
  match u.s with
  | 0 => []
  | 1 => [0xFE]
  | 2 => [0xFE, 0x0A] ++ filled u.data u.p
  | 3 => [0xFE, 0x0A] ++ u.data.toList
  | _ => [0xFE, 0x0A] ++ u.data.toList ++ [u.xorR]

/-- What holds between two bytes. -/
structure Sound (u : Upixels) : Prop where
  state : u.s ≤ 4
  index : u.p < 10
  running : u.s = 2 → u.xorC = xorSum (filled u.data u.p)
  whole : 3 ≤ u.s → u.xorC = xorSum u.data.toList

/-- What a parser does with a byte: it extends what it has read of a frame, completes one, or drops
what begins none. -/
def Reads (u : Upixels) (ch : UInt8) : Prop :=
  ∃ u' code, u.parseChar ch = some (u', code) ∧ u'.Sound ∧
    (code = -1 ∧ u'.text = u.text ++ [ch] ∨
      code = 0 ∧ u'.text = [] ∧ u.text ++ [ch] = upFrame u'.data ∨
      code = -1 ∧ u'.text = [] ∧ ∀ d, ¬ u.text ++ [ch] <+: upFrame d)

theorem initial_sound : initial.Sound where
  state := Nat.zero_le 4
  index := Nat.zero_lt_succ 9
  running second := absurd second (by decide)
  whole late := absurd late (by decide)

theorem first_sound (sound : u.Sound) {s : ℕ} (first : s ≤ 1) : { u with s := s }.Sound where
  state := first.trans (by decide)
  index := sound.index
  running second := absurd (second.ge.trans first) (by decide)
  whole late := absurd (late.trans first) (by decide)

theorem parseChar_zero (state : u.s = 0) (ch : UInt8) :
    u.parseChar ch = some (if ch = 0xFE then { u with s := 1 } else u, -1) := by
  simp only [parseChar, state]

theorem parseChar_one (state : u.s = 1) (ch : UInt8) :
    u.parseChar ch = some
      (if ch = 0x0A then { u with s := 2, p := 0, xorC := 0 } else { u with s := 0 }, -1) := by
  simp only [parseChar, state]

theorem reads_zero (sound : u.Sound) (state : u.s = 0) (ch : UInt8) : u.Reads ch := by
  have empty : u.text = [] := by simp only [text, state]
  have read := parseChar_zero state ch
  by_cases opens : ch = 0xFE
  · rw [if_pos opens] at read
    refine ⟨_, _, read, first_sound sound le_rfl, .inl ⟨rfl, ?_⟩⟩
    rw [empty, opens]
    rfl
  · rw [if_neg opens] at read
    refine ⟨_, _, read, sound, .inr (.inr ⟨rfl, empty, fun d begins => ?_⟩)⟩
    rw [empty] at begins
    exact opens (List.cons_prefix_cons.mp begins).1

theorem reads_one (sound : u.Sound) (state : u.s = 1) (ch : UInt8) : u.Reads ch := by
  have one : u.text = [0xFE] := by simp only [text, state]
  have read := parseChar_one state ch
  by_cases header : ch = 0x0A
  · rw [if_pos header] at read
    refine ⟨_, _, read, ⟨show 2 ≤ 4 by decide, Nat.zero_lt_succ 9, fun _ => rfl, fun late => ?_⟩,
      .inl ⟨rfl, ?_⟩⟩
    · exact absurd late (show ¬ 3 ≤ 2 by decide)
    · rw [one, header]
      rfl
  · rw [if_neg header] at read
    refine ⟨_, _, read, first_sound sound (Nat.zero_le 1),
      .inr (.inr ⟨rfl, rfl, fun d begins => ?_⟩)⟩
    rw [one] at begins
    exact header (List.cons_prefix_cons.mp (List.cons_prefix_cons.mp begins).2).1

theorem reads_two (sound : u.Sound) (state : u.s = 2) (ch : UInt8) : u.Reads ch := by
  have part : u.text = [0xFE, 0x0A] ++ filled u.data u.p := by simp only [text, state]
  have index := sound.index
  have stored : filled (u.data.set u.p ch index) (u.p + 1) = filled u.data u.p ++ [ch] :=
    filled_set u.data ch index
  have sum : u.xorC ^^^ ch = xorSum (filled u.data u.p ++ [ch]) := by
    rw [xorSum_append, sound.running state]
  have read : u.parseChar ch = some
      (if u.p + 1 = 10 then
        { u with s := 3, p := 0, xorC := u.xorC ^^^ ch, data := u.data.set u.p ch index }
      else { u with p := u.p + 1, xorC := u.xorC ^^^ ch, data := u.data.set u.p ch index },
        -1) := by
    simp only [parseChar, state, store, dif_pos index, Option.map_some]
  by_cases full : u.p + 1 = 10
  · rw [if_pos full] at read
    rw [full, filled_full] at stored
    refine ⟨_, _, read, ⟨show 3 ≤ 4 by decide, Nat.zero_lt_succ 9, fun second => ?_, fun _ => ?_⟩,
      .inl ⟨rfl, ?_⟩⟩
    · exact absurd second (show 3 ≠ 2 by decide)
    · exact sum.trans (congrArg xorSum stored.symm)
    · rw [part, List.append_assoc, ← stored]
      rfl
  · rw [if_neg full] at read
    have room : u.p + 1 < 10 := by omega
    refine ⟨_, _, read, ⟨sound.state, room, fun _ => ?_, fun late => ?_⟩, .inl ⟨rfl, ?_⟩⟩
    · exact sum.trans (congrArg xorSum stored.symm)
    · exact absurd (state ▸ late) (by decide)
    · rw [part, List.append_assoc, ← stored, text]
      simp only [state]

theorem reads_three (sound : u.Sound) (state : u.s = 3) (ch : UInt8) : u.Reads ch := by
  have part : u.text = [0xFE, 0x0A] ++ u.data.toList := by simp only [text, state]
  have read : u.parseChar ch = some ({ u with s := 4, xorR := ch }, -1) := by
    simp only [parseChar, state]
  refine ⟨_, _, read, ⟨le_rfl, sound.index, fun second => ?_, fun _ => ?_⟩, .inl ⟨rfl, ?_⟩⟩
  · exact absurd second (show 4 ≠ 2 by decide)
  · exact sound.whole state.ge
  · rw [part]
    rfl

theorem reads_four (sound : u.Sound) (state : u.s = 4) (ch : UInt8) : u.Reads ch := by
  have part : u.text = [0xFE, 0x0A] ++ u.data.toList ++ [u.xorR] := by simp only [text, state]
  have read : u.parseChar ch = some
      ({ u with s := 0 }, if ch = 0x55 ∧ u.xorR = u.xorC then 0 else -1) := by
    simp only [parseChar, state]
  have sum := sound.whole (state ▸ by decide)
  by_cases right : ch = 0x55 ∧ u.xorR = u.xorC
  · rw [if_pos right] at read
    refine ⟨_, _, read, first_sound sound (Nat.zero_le 1), .inr (.inl ⟨rfl, rfl, ?_⟩)⟩
    rw [part, right.1, right.2, sum, List.append_assoc]
    rfl
  · rw [if_neg right] at read
    refine ⟨_, _, read, first_sound sound (Nat.zero_le 1),
      .inr (.inr ⟨rfl, rfl, fun d begins => ?_⟩)⟩
    have whole := begins.eq_of_length (by rw [part, upFrame_length]; simp)
    rw [part, List.append_assoc] at whole
    obtain ⟨front, back⟩ := List.append_inj' whole rfl
    have same : u.data.toList = d.toList := List.append_cancel_left front
    simp only [List.cons_append, List.nil_append, List.cons.injEq, and_true] at back
    exact right ⟨back.2, by rw [back.1, sum, same]⟩

/-- **One byte.** -/
theorem step (sound : u.Sound) (ch : UInt8) : u.Reads ch := by
  have state := sound.state
  interval_cases s : u.s
  · exact reads_zero sound s ch
  · exact reads_one sound s ch
  · exact reads_two sound s ch
  · exact reads_three sound s ch
  · exact reads_four sound s ch

theorem text_length (sound : u.Sound) : u.text.length < 14 := by
  have state := sound.state
  have index := sound.index
  unfold text
  interval_cases s : u.s
  · exact Nat.zero_lt_succ 13
  · exact Nat.lt_add_of_pos_left (Nat.zero_lt_succ 12)
  · simp only [List.length_append, filled_length u.data index.le, List.length_cons, List.length_nil]
    omega
  · simp
  · simp

/-- The parser has read nothing of a frame exactly if it is in its first state. -/
theorem text_eq_nil (sound : u.Sound) : u.text = [] ↔ u.s = 0 := by
  have state := sound.state
  rw [text]
  interval_cases s : u.s
  · exact iff_of_true rfl rfl
  · exact iff_of_false (List.cons_ne_nil _ _) (by decide)
  · exact iff_of_false (List.cons_ne_nil _ _) (by decide)
  · exact iff_of_false (List.cons_ne_nil _ _) (by decide)
  · exact iff_of_false (List.cons_ne_nil _ _) (by decide)

end Upixels

/-! ### The two copies -/

/-- A parser of a link, as a machine that answers every byte with the value returned. -/
def linkMachine (parseChar : Links → UInt8 → Option (Links × ℤ)) : Machine Links UInt8 ℤ where
  step links ch := (parseChar links ch).map fun (links, code) => (links, [code])

/-- A copy of the switch, with the static variables that `view` shows. -/
def Copy (parseChar : Links → UInt8 → Option (Links × ℤ)) (view : Links → Upixels) : Prop :=
  ∀ links ch, (parseChar links ch).map (Prod.map view id) = (view links).parseChar ch

theorem up_copy : Copy upParseChar Links.up := by
  intro links ch
  rw [upParseChar, Option.map_map]
  exact Option.map_id'

theorem upnotof_copy : Copy upnotofParseChar Links.upnotof := by
  intro links ch
  rw [upnotofParseChar, Option.map_map]
  exact Option.map_id'

namespace Copy

variable {parseChar : Links → UInt8 → Option (Links × ℤ)} {view : Links → Upixels}
  (copy : Copy parseChar view) {links : Links} {ch : UInt8}
include copy

theorem reads {u' : Upixels} {code : ℤ} (read : (view links).parseChar ch = some (u', code)) :
    ∃ links', (linkMachine parseChar).step links ch = some (links', [code]) ∧ view links' = u' := by
  obtain ⟨⟨links', code'⟩, parsed, same⟩ := Option.map_eq_some_iff.mp ((copy links ch).trans read)
  obtain ⟨rfl, rfl⟩ := Prod.mk.inj same
  refine ⟨links', ?_, rfl⟩
  show (parseChar links ch).map _ = _
  rw [parsed]
  rfl

theorem read {links' : Links} {output : List ℤ}
    (step : (linkMachine parseChar).step links ch = some (links', output)) :
    ∃ code, output = [code] ∧ parseChar links ch = some (links', code) ∧
      (view links).parseChar ch = some (view links', code) := by
  obtain ⟨⟨links'', code⟩, parsed, same⟩ := Option.map_eq_some_iff.mp step
  obtain ⟨rfl, rfl⟩ := Prod.mk.inj same
  refine ⟨code, rfl, parsed, ?_⟩
  rw [← copy, parsed]
  rfl

/-- **A copy recognises frames.** -/
theorem recogniser :
    Recogniser (linkMachine parseChar) (-1) 0 (fun links => (view links).Sound)
      (fun links => (view links).text) upFrame (fun links => (view links).data) where
  apart := by decide
  short links d sound begins :=
    (Upixels.text_length sound).not_ge ((upFrame_length d).symm.trans_le begins.length_le)
  free d e begins := begins.eq_of_length ((upFrame_length d).trans (upFrame_length e).symm)
  step links ch sound := by
    obtain ⟨u', code, parsed, sound', how⟩ := Upixels.step sound ch
    obtain ⟨links', step, rfl⟩ := copy.reads parsed
    exact ⟨links', code, step, sound', how⟩

end Copy

/-- A parser reports exactly the frames that are begun in its first state. -/
structure Recognises (parseChar : Links → UInt8 → Option (Links × ℤ)) (view : Links → Upixels) :
    Prop where
  /-- Every stream is read. -/
  reads : ∀ stream, ∃ codes links, (linkMachine parseChar).Run .initial stream codes links
  /-- The payload index stays below ten. -/
  index : ∀ stream codes links, (linkMachine parseChar).Run .initial stream codes links →
    (view links).p < 10
  /-- Zero is returned, with ten bytes in the structure, exactly on a `55` that completes the frame
  of these bytes, begun in the first state. -/
  reported : ∀ stream codes links ch links' ret,
    (linkMachine parseChar).Run .initial stream codes links →
    parseChar links ch = some (links', ret) → ∀ d,
      (ret = 0 ∧ (view links').data = d ↔
        ch = 0x55 ∧ ∃ early codes' first, stream ++ [ch] = early ++ upFrame d ∧
          (linkMachine parseChar).Run .initial early codes' first ∧ (view first).s = 0)

/-- Two parsers return the same on every stream. -/
def SameResults (first second : Links → UInt8 → Option (Links × ℤ)) : Prop :=
  ∀ stream codes links codes' links', (linkMachine first).Run .initial stream codes links →
    (linkMachine second).Run .initial stream codes' links' → codes = codes'

theorem Copy.recognises {parseChar : Links → UInt8 → Option (Links × ℤ)} {view : Links → Upixels}
    (copy : Copy parseChar view) (begin : view .initial = .initial) :
    Recognises parseChar view := by
  have recogniser := copy.recogniser
  have sound : (view .initial).Sound := begin ▸ Upixels.initial_sound
  have idle : (view .initial).text = [] := begin ▸ rfl
  refine ⟨fun stream => ?_, fun stream codes links run => ?_, ?_⟩
  · obtain ⟨codes, links, run, -⟩ := recogniser.reads sound stream
    exact ⟨codes, links, run⟩
  · exact (recogniser.suffix run sound idle).1.index
  · intro stream codes links ch links' ret run parsed d
    have step : (linkMachine parseChar).step links ch = some (links', [ret]) := by
      show (parseChar links ch).map _ = _
      rw [parsed]
      rfl
    have exactly := recogniser.reported_iff run sound idle step d
    constructor
    · rintro ⟨zero, same⟩
      obtain ⟨early, codes', first, split, run', empty⟩ :=
        exactly.mp ⟨zero, congrArg upFrame same⟩
      refine ⟨?_, early, codes', first, split, run', ?_⟩
      · have ends : stream ++ [ch] = early ++ ([0xFE, 0x0A] ++ d.toList ++ [xorSum d.toList]) ++
            [0x55] := by
          rw [split, upFrame]
          simp
        exact List.singleton_inj.mp (List.append_inj' ends rfl).2
      · exact (Upixels.text_eq_nil (recogniser.suffix run' sound idle).1).mp empty
    · rintro ⟨-, early, codes', first, split, run', state⟩
      have empty := (Upixels.text_eq_nil (recogniser.suffix run' sound idle).1).mpr state
      obtain ⟨zero, same⟩ := exactly.mpr ⟨early, codes', first, split, run', empty⟩
      exact ⟨zero, upFrame_inj same⟩

theorem Copy.sameResults {first second : Links → UInt8 → Option (Links × ℤ)}
    {view view' : Links → Upixels} (copy : Copy first view) (copy' : Copy second view')
    (begin : view .initial = view' .initial) (idle : view .initial = .initial) :
    SameResults first second := by
  intro stream codes links codes' links' run run'
  have sound : (view .initial).Sound := idle ▸ Upixels.initial_sound
  have steps : ∀ (links links' : Links) (ch : UInt8),
      (view links).Sound ∧ view links = view' links' → True →
      ∃ next next' output, (linkMachine first).step links (id ch) = some (next, output) ∧
        (linkMachine second).step links' ch = some (next', output) ∧
        (view next).Sound ∧ view next = view' next' := by
    rintro links links' ch ⟨sound, same⟩ -
    obtain ⟨u', code, parsed, sound', -⟩ := Upixels.step sound ch
    obtain ⟨next, step, state⟩ := copy.reads parsed
    obtain ⟨next', step', state'⟩ := copy'.reads (same ▸ parsed)
    exact ⟨next, next', [code], step, step', state ▸ sound', state.trans state'.symm⟩
  obtain ⟨outs, final, final', left, right, -⟩ :=
    Machine.Run.forward _ _ id steps stream ⟨sound, begin⟩ fun _ _ => trivial
  rw [List.map_id] at left
  exact (Machine.Run.unique left run).1.trans (Machine.Run.unique right run').1.symm

/-- **The UPIXELS parsers.** Both report exactly the frames that are begun in their first state,
each in its structure, and they return the same on every stream. -/
theorem upixels_recognise :
    Recognises upParseChar Links.up ∧ Recognises upnotofParseChar Links.upnotof ∧
      SameResults upParseChar upnotofParseChar :=
  ⟨up_copy.recognises rfl, upnotof_copy.recognises rfl, up_copy.sameResults upnotof_copy rfl rfl⟩

/-! ### A frame after other bytes -/

/-- After bytes without a header the state is the parity of the bytes `FE` at their end. -/
theorem Copy.s_after {parseChar : Links → UInt8 → Option (Links × ℤ)} {view : Links → Upixels}
    (copy : Copy parseChar view) (begin : view .initial = .initial) (stream : List UInt8)
    (apart : Apart 0xFE 0x0A stream) :
    ∃ codes links, (linkMachine parseChar).Run .initial stream codes links ∧
      (view links).s = trailing 0xFE stream % 2 := by
  induction stream using List.reverseRecOn with
  | nil => exact ⟨[], .initial, .nil _, begin ▸ rfl⟩
  | append_singleton stream ch ih =>
    obtain ⟨codes, links, run, state⟩ := ih apart.init
    rw [trailing_append]
    rcases Nat.mod_two_eq_zero_or_one (trailing 0xFE stream) with even | odd
    · obtain ⟨links', step, after⟩ := copy.reads (Upixels.parseChar_zero (state.trans even) ch)
      refine ⟨_, links', run.append (.single trivial step), ?_⟩
      rw [after]
      by_cases opens : ch = 0xFE
      · rw [if_pos opens, if_pos opens, Nat.add_mod, even]
      · rw [if_neg opens, if_neg opens, state, even]
    · have last : stream.getLast? = some 0xFE :=
        getLast_of_trailing fun none => by rw [none] at odd; exact absurd odd (by decide)
      obtain ⟨links', step, after⟩ := copy.reads (Upixels.parseChar_one (state.trans odd) ch)
      refine ⟨_, links', run.append (.single trivial step), ?_⟩
      rw [after, if_neg (apart.last_ne last)]
      split
      · rw [Nat.add_mod, odd]
      · rfl

/-- **Resynchronising.** Bytes without a header and then a frame are answered with zero at the last
byte exactly if the bytes end with an even number of bytes `FE`. -/
theorem upixels_resync_iff {stream : List UInt8} (apart : Apart 0xFE 0x0A stream)
    (d : Vector UInt8 10) :
    ∃ codes code links, (linkMachine upParseChar).Run .initial (stream ++ upFrame d)
      (codes ++ [code]) links ∧ (code = 0 ↔ Even (trailing 0xFE stream)) := by
  have recogniser := up_copy.recogniser
  have sound : Links.initial.up.Sound := Upixels.initial_sound
  obtain ⟨codes₀, rest, run₀, state⟩ := up_copy.s_after rfl stream apart
  have inv := (recogniser.suffix run₀ sound rfl).1
  have split : stream ++ upFrame d =
      stream ++ ([0xFE, 0x0A] ++ d.toList ++ [xorSum d.toList]) ++ [0x55] := by
    simp [upFrame]
  obtain ⟨codes, links, run, inv'⟩ := recogniser.reads sound
    (stream ++ ([0xFE, 0x0A] ++ d.toList ++ [xorSum d.toList]))
  obtain ⟨links', code, step, -⟩ := recogniser.step links 0x55 inv'
  refine ⟨codes, code, links', ?_, ?_⟩
  · rw [split]
    exact run.append (.single trivial step)
  · rw [Nat.even_iff, ← state, ← Upixels.text_eq_nil inv]
    constructor
    · rintro rfl
      obtain ⟨early, codes', first, same, run', empty⟩ :=
        (recogniser.reported_iff run sound rfl step links'.up.data).mp ⟨rfl, rfl⟩
      rw [← split] at same
      have lengths : (upFrame d).length = (upFrame links'.up.data).length := by
        rw [upFrame_length, upFrame_length]
      obtain ⟨rfl, -⟩ := List.append_inj' same lengths
      obtain ⟨-, rfl⟩ := Machine.Run.unique run₀ run'
      exact empty
    · intro empty
      exact ((recogniser.reported_iff run sound rfl step d).mpr
        ⟨stream, codes₀, rest, split.symm, run₀, empty⟩).1

/-- A frame of zeros after two bytes `FE` is answered. -/
theorem upixels_resync_two :
    ∃ codes code links, (linkMachine upParseChar).Run .initial
      ([0xFE, 0xFE] ++ upFrame (Vector.replicate 10 0)) (codes ++ [code]) links ∧ code = 0 := by
  have apart : Apart (0xFE : UInt8) 0x0A [0xFE, 0xFE] := by decide
  obtain ⟨codes, code, links, run, zero⟩ := upixels_resync_iff apart (Vector.replicate 10 0)
  exact ⟨codes, code, links, run, zero.mpr (by decide)⟩

/-- **After one byte `FE` a frame is missed.** -/
theorem upixels_missed :
    Apart (0xFE : UInt8) 0x0A [0xFE] ∧
      ∃ codes code links, (linkMachine upParseChar).Run .initial
        ([0xFE] ++ upFrame (Vector.replicate 10 0)) (codes ++ [code]) links ∧ code ≠ 0 := by
  refine ⟨by decide, ?_⟩
  obtain ⟨outs, links, run, checked⟩ := Machine.exists_run (linkMachine upParseChar)
    (fun _ _ => True) .initial ([0xFE] ++ upFrame (Vector.replicate 10 0))
    (fun _ outs => outs = List.replicate 15 (-1)) (by decide +kernel)
  have outputs : outs = List.replicate 14 (-1) ++ [-1] := of_decide_eq_true checked
  rw [outputs] at run
  exact ⟨_, -1, links, run, by decide⟩

end Robocon.Flow
