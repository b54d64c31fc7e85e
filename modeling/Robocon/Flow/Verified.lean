/-
**The optical-flow parsers publish exactly verified pairs.**

Between two bytes a parser has read some beginning of two frames, `Parser.text`: the bytes of the
states it has passed, and of the state it is in. `Parser.Sound` ties the static buffers and the
check to the structures.

* `ordered` — what stands before each state of the switch: the header before the payload, the
  payload before its check.
* `Part.Reads` — what one case does with a byte, proved case by case.
* `Parser.step` — a step extends the text, completes two frames, or drops a text that begins none.
* `parsers_verified` — so each of the three parsers recognises its pairs of frames.
-/

import Robocon.Flow.Decode
import Robocon.Lib.Recogniser

namespace Robocon.Flow

open Lib

/-! ### The order of the states -/

/-- What stands before a case. -/
def Ready (kind : Kind) (k : Bool) (before : List (Bool × Case)) : Case → Prop
  | .byte _ | .start _ => True
  | .seq => kind = .mavlink ∧ ∀ case, (k, case) ∈ before → ∃ expected, case = .byte expected
  | .payload => ∀ case, (k, case) ∈ before →
    case = .seq ∨ ∃ expected, case = .byte expected ∨ case = .start expected
  | .crcLow => kind = .mavlink ∧ (k, .seq) ∈ before ∧ (k, .payload) ∈ before
  | .crcHigh => (k, .seq) ∈ before ∧ (k, .payload) ∈ before ∧ (k, .crcLow) ∈ before
  | .crc8 => kind = .msp ∧ (k, .payload) ∈ before

/-- Every case is ready. -/
def Ordered (kind : Bool → Kind) : List (Bool × Case) → List (Bool × Case) → Prop
  | _, [] => True
  | before, state :: states =>
    Ready (kind state.1) state.1 before state.2 ∧ Ordered kind (before ++ [state]) states

theorem ordered (f : Format) : Ordered (fun k => (f.message k).kind) [] f.cases := by
  unfold Format.cases Message.cases
  rcases first : (f.message false).kind <;> rcases second : (f.message true).kind
  · simp [Ordered, Ready, first, second]
  · simp [Ordered, Ready, first, second]
  · simp [Ordered, Ready, first, second]
  · simp [Ordered, Ready, first, second]

theorem Ordered.get {kind : Bool → Kind} {states : List (Bool × Case)} :
    ∀ {before : List (Bool × Case)}, Ordered kind before states →
      ∀ {s : ℕ} {k : Bool} {case : Case}, states[s]? = some (k, case) →
        Ready (kind k) k (before ++ states.take s) case := by
  induction states with
  | nil => exact fun _ _ _ _ found => nomatch found
  | cons state states ih =>
    rintro before ⟨here, later⟩ (_ | s) k case found
    · obtain rfl := Option.some.inj found
      rwa [List.take_zero, List.append_nil]
    · have ready := ih later found
      rwa [List.append_assoc, List.singleton_append] at ready

theorem ready {f : Format} {s : ℕ} {k : Bool} {case : Case} (found : f.cases[s]? = some (k, case)) :
    Ready (f.message k).kind k (f.cases.take s) case := (ordered f).get found

/-! ### One case -/

namespace Part

variable {m : Message} {part : Part m} {p : ℕ} {ch : UInt8} {case : Case}

/-- The sequence number in the static buffer. -/
def seq (part : Part m) : UInt8 := cell part.crc 1

/-- The bytes of a frame that a case reads, as the part has them. -/
def text (part : Part m) (case : Case) : List UInt8 := m.text part.seq part.data.toList case

/-- The header in the static buffer is whole. -/
def Headed (part : Part m) : Prop := filled part.crc 5 = m.head part.seq

/-- The last check is the one of the structure. -/
def Checked (part : Part m) : Prop :=
  part.sum = mavlinkCrc (m.head part.seq ++ part.data.toList) (crcExtra m.messageId)

theorem seq_of_head {crc : Vector UInt8 (5 + m.size + m.spare)} {seq : UInt8}
    (same : filled crc 5 = m.head seq) : cell crc 1 = (m.head seq).getD 1 0 := by
  rw [cell_filled crc (show 1 < 5 by decide), same]

/-- A header that is whole carries the sequence number of the buffer. -/
theorem headed_of_head {part' : Part m} {seq : UInt8} (same : filled part'.crc 5 = m.head seq) :
    part'.Headed := by
  have number : part'.seq = _ := seq_of_head same
  rw [Headed, same]
  unfold Message.head at *
  cases kind : m.kind
  · simp only [kind] at number
    rw [number]
    rfl
  · rfl

theorem initial_headed (m : Message) : (initial m).Headed := by
  have head : filled (initial m).crc 5 = m.head 0 := by
    rw [filled]
    show (m.head 0 ++ _).take 5 = _
    rw [← m.head_length 0, List.take_left]
  exact headed_of_head head

theorem low_iff {sum : UInt16} : ch.toUInt16 = sum &&& 0x00ff ↔ [sum.toUInt8] = [ch] := by
  have mask : (0x00ff : UInt16).toNat = 2 ^ 8 - 1 := rfl
  rw [List.singleton_inj, eq_comm, ← UInt16.toNat_inj, ← UInt8.toNat_inj, UInt16.toNat_and, mask,
    Nat.and_two_pow_sub_one_eq_mod, UInt16.toNat_toUInt8, UInt8.toNat_toUInt16]

theorem high_iff {sum : UInt16} :
    ch.toUInt16 = (sum &&& 0xff00) >>> 8 ↔ [(sum >>> 8).toUInt8] = [ch] := by
  have moved : (sum &&& 0xff00) >>> 8 = (sum >>> 8) &&& 0x00ff := by
    apply UInt16.toBitVec_inj.mp
    exact BitVec.ushiftRight_and_distrib _ _ _
  rw [moved, low_iff]

/-- What a case leaves of a part. -/
structure Kept (part part' : Part m) (case : Case) : Prop where
  headed : part'.Headed
  seq : case ≠ .seq → part'.seq = part.seq
  data : case ≠ .payload → part'.data = part.data
  sum : case ≠ .crcLow → part'.sum = part.sum
  checked : case = .crcLow → part'.Checked

/-- What a case does with a byte. -/
def Reads (part : Part m) (p : ℕ) (ch : UInt8) (case : Case) : Prop :=
  ∃ part' p' verdict, part.read p ch case = some (part', p', verdict) ∧ Kept part part' case ∧
    match verdict with
    | .stay => p' = p + 1 ∧ p + 1 < (part'.text case).length ∧
        (part'.text case).take (p + 1) = (part.text case).take p ++ [ch]
    | .next => p' = 0 ∧ part'.text case = (part.text case).take p ++ [ch]
    | .fail => p = 0 ∧ p' = 0 ∧ case ≠ .seq ∧ case ≠ .payload ∧ part.text case ≠ [ch]

theorem Kept.text {part' : Part m} (kept : Kept part part' case) (other : case ≠ .seq)
    (outside : case ≠ .payload) : part'.text = part.text := by
  unfold Part.text
  rw [kept.seq other, kept.data outside]

theorem text_single (part : Part m) (outside : case ≠ .payload) :
    ∃ value, part.text case = [value] := by
  cases case with
  | payload => exact absurd rfl outside
  | _ => exact ⟨_, rfl⟩

theorem reads_compare {part' : Part m} {accepts : Prop} [Decidable accepts] {p' : ℕ}
    (read : part.read p ch case = some (part', p', .ofMatch accepts)) (kept : Kept part part' case)
    (zero : p = 0) (zero' : p' = 0) (other : case ≠ .seq) (outside : case ≠ .payload)
    (exactly : accepts ↔ part.text case = [ch]) : part.Reads p ch case := by
  refine ⟨part', p', _, read, kept, ?_⟩
  unfold Verdict.ofMatch
  by_cases accepted : accepts
  · rw [if_pos accepted]
    refine ⟨zero', ?_⟩
    rw [kept.text other outside, exactly.mp accepted, zero]
    rfl
  · rw [if_neg accepted]
    exact ⟨zero, zero', other, outside, mt exactly.mpr accepted⟩

theorem Kept.refl (headed : part.Headed) (other : case ≠ .crcLow) : Kept part part case :=
  ⟨headed, fun _ => rfl, fun _ => rfl, fun _ => rfl, fun low => absurd low other⟩

theorem reads_byte (headed : part.Headed) {expected : UInt8} :
    part.Reads 0 ch (.byte expected) :=
  reads_compare rfl (.refl headed nofun) rfl rfl nofun nofun
    ⟨fun same => same ▸ rfl, fun same => (List.singleton_inj.mp same).symm⟩

theorem reads_start (headed : part.Headed) {expected : UInt8} :
    part.Reads 0 ch (.start expected) :=
  reads_compare rfl (.refl headed nofun) rfl (ite_self 0) nofun nofun
    ⟨fun same => same ▸ rfl, fun same => (List.singleton_inj.mp same).symm⟩

theorem reads_seq (headed : part.Headed) (kind : m.kind = .mavlink) : part.Reads 0 ch .seq := by
  have stored : filled (part.crc.setIfInBounds 1 ch) 5 = m.head ch := by
    rw [filled, Vector.toList_setIfInBounds, List.take_set, ← filled, headed]
    unfold Message.head
    rw [kind]
    rfl
  have every : ch ≥ 0x00 ∧ ch ≤ 0xff := ⟨UInt8.le_iff_toNat_le.mpr (Nat.zero_le _),
    UInt8.le_iff_toNat_le.mpr (Nat.le_of_lt_succ ch.toNat_lt)⟩
  refine ⟨{ part with crc := part.crc.setIfInBounds 1 ch }, 0, .next, if_pos every,
    ⟨headed_of_head stored, fun other => absurd rfl other, fun _ => rfl, fun _ => rfl,
      fun same => by cases same⟩, rfl, ?_⟩
  show [Part.seq _] = [ch]
  rw [Part.seq, seq_of_head stored]
  unfold Message.head
  rw [kind]
  rfl

theorem reads_payload (headed : part.Headed) (inside : p < m.size) :
    part.Reads p ch .payload := by
  have read : part.read p ch .payload =
      some (if p + 1 = m.size then ({ part with data := part.data.set p ch inside }, 0, .next)
        else ({ part with data := part.data.set p ch inside }, p + 1, .stay)) := dif_pos inside
  have kept : Kept part { part with data := part.data.set p ch inside } .payload :=
    ⟨headed, fun _ => rfl, nofun, fun _ => rfl, nofun⟩
  have stored : filled (part.data.set p ch inside) (p + 1) = filled part.data p ++ [ch] :=
    filled_set part.data ch inside
  by_cases full : p + 1 = m.size
  · rw [if_pos full] at read
    refine ⟨_, _, _, read, kept, rfl, ?_⟩
    rwa [full, filled_full] at stored
  · rw [if_neg full] at read
    have room : p + 1 < (part.data.set p ch inside).toList.length := by
      rw [Vector.length_toList]
      omega
    exact ⟨_, _, _, read, kept, rfl, room, stored⟩

/-- The static buffer with the payload copied into it. -/
theorem copied (headed : part.Headed) : (memcpy 5 part.crc part.data).toList =
    m.head part.seq ++ part.data.toList ++ part.crc.toList.drop (5 + m.size) := by
  rw [← headed]
  rfl

/-- A buffer that begins with the header of a part has its header. -/
theorem kept_head {crc : Vector UInt8 (5 + m.size + m.spare)} {late : List UInt8}
    (whole : crc.toList = m.head part.seq ++ late) : filled crc 5 = m.head part.seq := by
  rw [filled, whole, ← m.head_length part.seq, List.take_left]

theorem same_seq {crc : Vector UInt8 (5 + m.size + m.spare)} (headed : part.Headed)
    (whole : filled crc 5 = m.head part.seq) : cell crc 1 = part.seq := by
  rw [seq_of_head whole, ← seq_of_head headed]
  rfl

theorem reads_crcLow (headed : part.Headed) (kind : m.kind = .mavlink) :
    part.Reads 0 ch .crcLow := by
  have spare : m.spare = 1 := by
    unfold Message.spare
    rw [kind]
  obtain ⟨last, rest⟩ : ∃ last, part.crc.toList.drop (5 + m.size) = [last] := by
    rw [← List.length_eq_one_iff, List.length_drop, Vector.length_toList, spare]
    omega
  have whole := rest ▸ copied headed
  obtain ⟨buffer, checked⟩ := hexinCrc16Compute_eq whole m.messageId
  rcases computed : hexinCrc16Compute (memcpy 5 part.crc part.data) m.messageId 0xffff with
    ⟨crc, sum⟩
  rw [computed] at buffer checked
  simp only at buffer checked
  rw [List.append_assoc] at buffer
  have head := kept_head buffer
  have same := same_seq headed head
  have read : part.read 0 ch .crcLow =
      some ({ part with crc, sum }, 0, .ofMatch (ch.toUInt16 = sum &&& 0x00ff)) := by
    rw [Part.read, computed]
  have kept : Kept part { part with crc, sum } .crcLow := by
    refine ⟨headed_of_head head, fun _ => same, fun _ => rfl, absurd rfl, fun _ => ?_⟩
    rw [Checked, Part.seq, same]
    exact checked
  refine reads_compare read kept rfl rfl nofun nofun ?_
  rw [low_iff, checked]
  rfl

theorem reads_crcHigh (headed : part.Headed) (checked : part.Checked) :
    part.Reads 0 ch .crcHigh := by
  refine reads_compare rfl (.refl headed nofun) rfl rfl nofun nofun ?_
  rw [checked]
  exact high_iff

theorem reads_crc8 (headed : part.Headed) (kind : m.kind = .msp) : part.Reads 0 ch .crc8 := by
  have spare : m.spare = 0 := by
    unfold Message.spare
    rw [kind]
  have rest : part.crc.toList.drop (5 + m.size) = [] := by
    rw [List.drop_eq_nil_iff, Vector.length_toList, spare, Nat.add_zero]
  have whole := rest ▸ copied headed
  rw [List.append_nil] at whole
  have kept : Kept part { part with crc := memcpy 5 part.crc part.data } .crc8 :=
    ⟨headed_of_head (kept_head whole), fun _ => same_seq headed (kept_head whole), fun _ => rfl,
      fun _ => rfl, nofun⟩
  refine reads_compare rfl kept rfl rfl nofun nofun ?_
  rw [crc8_eq, whole]
  exact List.singleton_inj.symm

end Part

/-! ### The parser -/

namespace Parser

variable {f : Format} {parser : Parser f} {ch : UInt8} {k : Bool} {case : Case}

/-- What the parser holds of two frames. -/
def pair (parser : Parser f) : Pair f where
  seq k := (parser.parts k).seq
  payload k := (parser.parts k).data

/-- The bytes of a frame that the parser has read. -/
def text (parser : Parser f) : List UInt8 :=
  (f.cases.take parser.s).flatMap parser.pair.text ++
    (f.cases[parser.s]?.elim [] parser.pair.text).take parser.p

/-- What holds between two bytes. -/
structure Sound (parser : Parser f) : Prop where
  inside : parser.s < f.cases.length
  headed : ∀ k, (parser.parts k).Headed
  checked : ∀ k, (k, .crcLow) ∈ f.cases.take parser.s → (parser.parts k).Checked
  index : ∀ state, f.cases[parser.s]? = some state → parser.p < (parser.pair.text state).length

theorem text_length (v : Pair f) (state : Bool × Case) : 0 < (v.text state).length := by
  obtain ⟨k, case⟩ := state
  cases case with
  | payload => exact (Vector.length_toList ..).symm ▸ (f.message k).positive
  | _ => exact Nat.one_pos

theorem cases_pos (f : Format) : 0 < f.cases.length := by
  have first : 0 < (f.message false).cases.length := by
    unfold Message.cases
    cases (f.message false).kind
    · exact Nat.succ_pos _
    · exact Nat.succ_pos _
  rw [Format.cases, List.length_append, List.length_map]
  exact Nat.add_pos_left first _

theorem first_sound {parts : ∀ k, Part (f.message k)} (headed : ∀ k, (parts k).Headed) :
    ({ s := 0, p := 0, parts } : Parser f).Sound where
  inside := cases_pos f
  headed := headed
  checked _ low := absurd low List.not_mem_nil
  index state _ := text_length _ state

theorem initial_sound : (initial : Parser f).Sound := first_sound fun _ => Part.initial_headed _

/-- A case does to its part what `Part.Reads` says. -/
theorem Sound.reads (sound : parser.Sound) (ch : UInt8)
    (found : f.cases[parser.s]? = some (k, case)) :
    (parser.parts k).Reads parser.p ch case := by
  have index := sound.index _ found
  have before := ready found
  have headed := sound.headed k
  cases case with
  | payload =>
    exact Part.reads_payload headed (index.trans_eq (parser.parts k).data.length_toList)
  | byte expected =>
    rw [Nat.lt_one_iff.mp index]
    exact Part.reads_byte headed
  | start expected =>
    rw [Nat.lt_one_iff.mp index]
    exact Part.reads_start headed
  | seq =>
    rw [Nat.lt_one_iff.mp index]
    exact Part.reads_seq headed before.1
  | crcLow =>
    rw [Nat.lt_one_iff.mp index]
    exact Part.reads_crcLow headed before.1
  | crcHigh =>
    rw [Nat.lt_one_iff.mp index]
    exact Part.reads_crcHigh headed (sound.checked k before.2.2)
  | crc8 =>
    rw [Nat.lt_one_iff.mp index]
    exact Part.reads_crc8 headed before.1

/-- A case leaves the bytes alone that the states before it have read. -/
theorem text_kept {part' : Part (f.message k)} (found : f.cases[parser.s]? = some (k, case))
    (kept : (parser.parts k).Kept part' case) (s' p' : ℕ) :
    ∀ state ∈ f.cases.take parser.s,
      Pair.text (pair ⟨s', p', Function.update parser.parts k part'⟩) state =
        parser.pair.text state := by
  rintro ⟨j, earlier⟩ inside
  show (Function.update parser.parts k part' j).text earlier = (parser.parts j).text earlier
  by_cases same : j = k
  · subst same
    rw [Function.update_self]
    have before := ready found
    cases case with
    | seq =>
      obtain ⟨expected, rfl⟩ := before.2 earlier inside
      rfl
    | payload =>
      obtain rfl | ⟨expected, rfl | rfl⟩ := before earlier inside
      · exact congrArg (fun seq => [seq]) (kept.seq nofun)
      · rfl
      · rfl
    | _ => exact congrFun (kept.text nofun nofun) earlier
  · rw [Function.update_of_ne same]

theorem headed_update (sound : parser.Sound) {part' : Part (f.message k)} (headed : part'.Headed)
    (j : Bool) : (Function.update parser.parts k part' j).Headed := by
  by_cases same : j = k
  · subst same
    rwa [Function.update_self]
  · rw [Function.update_of_ne same]
    exact sound.headed j

/-- The checks that have been computed before a case stay those of their structures. -/
theorem checked_update (sound : parser.Sound) (found : f.cases[parser.s]? = some (k, case))
    {part' : Part (f.message k)} (kept : (parser.parts k).Kept part' case) {j : Bool}
    (low : (j, .crcLow) ∈ f.cases.take parser.s) :
    (Function.update parser.parts k part' j).Checked := by
  have checked := sound.checked j low
  by_cases same : j = k
  · subst same
    rw [Function.update_self]
    have before := ready found
    cases case with
    | seq =>
      obtain ⟨expected, other⟩ := before.2 _ low
      exact nomatch other
    | payload =>
      obtain other | ⟨expected, other | other⟩ := before _ low
      · exact nomatch other
      · exact nomatch other
      · exact nomatch other
    | crcLow => exact kept.checked rfl
    | _ =>
      rw [Part.Checked, kept.seq nofun, kept.data nofun, kept.sum nofun]
      exact checked
  · rwa [Function.update_of_ne same]

/-- A case that compares expects the byte of every two frames that agree with the text. -/
theorem text_agrees (found : f.cases[parser.s]? = some (k, case)) (other : case ≠ .seq)
    (outside : case ≠ .payload) {v : Pair f}
    (same : ∀ state ∈ f.cases.take parser.s, parser.pair.text state = v.text state) :
    (parser.parts k).text case = v.text (k, case) := by
  have before := ready found
  have data (inside : (k, .payload) ∈ f.cases.take parser.s) :
      (parser.parts k).data.toList = (v.payload k).toList :=
    same (k, .payload) inside
  have seq (inside : (k, .seq) ∈ f.cases.take parser.s) : (parser.parts k).seq = v.seq k :=
    List.singleton_inj.mp (same (k, .seq) inside)
  unfold Part.text Pair.text Message.text
  cases case with
  | seq => exact absurd rfl other
  | payload => exact absurd rfl outside
  | byte expected => rfl
  | start expected => rfl
  | crcLow => simp only [data before.2.2, seq before.2.1]
  | crcHigh => simp only [data before.2.1, seq before.1]
  | crc8 =>
    have head (first second : UInt8) : (f.message k).head first = (f.message k).head second := by
      unfold Message.head
      rw [before.1]
    simp only [data before.2, head (parser.parts k).seq (v.seq k)]

theorem take_succ (found : f.cases[parser.s]? = some (k, case)) :
    f.cases.take (parser.s + 1) = f.cases.take parser.s ++ [(k, case)] := by
  rw [List.take_add_one, found]
  rfl

theorem text_eq (found : f.cases[parser.s]? = some (k, case)) :
    parser.text = (f.cases.take parser.s).flatMap parser.pair.text ++
      ((parser.parts k).text case).take parser.p := by
  rw [text, found]
  rfl

theorem parseChar_eq (found : f.cases[parser.s]? = some (k, case)) {part' : Part (f.message k)}
    {p' : ℕ} {verdict : Verdict}
    (read : (parser.parts k).read parser.p ch case = some (part', p', verdict)) :
    parser.parseChar ch = some
      ({ parser with p := p', parts := Function.update parser.parts k part' : Parser f }.settle
        verdict) := by
  unfold parseChar
  simp only [found, read, Option.map_some]

theorem text_passed (found : f.cases[parser.s]? = some (k, case)) {part' : Part (f.message k)}
    (kept : (parser.parts k).Kept part' case)
    (whole : part'.text case = ((parser.parts k).text case).take parser.p ++ [ch])
    (s' p' : ℕ) :
    (f.cases.take (parser.s + 1)).flatMap
      (Pair.text (pair ⟨s', p', Function.update parser.parts k part'⟩)) = parser.text ++ [ch] := by
  have here : Pair.text (pair ⟨s', p', Function.update parser.parts k part'⟩) (k, case) =
      part'.text case := by
    show (Function.update parser.parts k part' k).text case = _
    rw [Function.update_self]
  rw [take_succ found, List.flatMap_append, List.flatMap_singleton, here, whole, text_eq found,
    List.flatMap_congr (text_kept found kept s' p'), List.append_assoc]

/-- A text that a case drops begins no two frames. -/
theorem not_begins (found : f.cases[parser.s]? = some (k, case)) (zero : parser.p = 0)
    (other : case ≠ .seq) (outside : case ≠ .payload) (wrong : (parser.parts k).text case ≠ [ch])
    (v : Pair f) : ¬ parser.text ++ [ch] <+: v.bytes := by
  intro begins
  have split : f.cases = f.cases.take (parser.s + 1) ++ f.cases.drop (parser.s + 1) :=
    (List.take_append_drop _ _).symm
  rw [← v.bytes_eq, split, take_succ found, text_eq found, zero, List.take_zero, List.append_nil,
    List.flatMap_append, List.flatMap_append, List.flatMap_singleton, List.append_assoc] at begins
  have same := flatMap_injOn _ (fun state _ => Pair.text_length _ _ state)
    ((List.prefix_append _ _).trans begins)
  rw [List.flatMap_congr same, List.prefix_append_right_inj,
    ← text_agrees found other outside same] at begins
  obtain ⟨value, single⟩ := (parser.parts k).text_single outside
  rw [single, List.singleton_append, List.cons_prefix_cons] at begins
  exact wrong (begins.1 ▸ single)

/-- A step extends the text, completes two frames, or drops a text that begins no two frames. -/
theorem step (sound : parser.Sound) (ch : UInt8) :
    ∃ parser' code, parser.parseChar ch = some (parser', code) ∧ parser'.Sound ∧
      (code = -1 ∧ parser'.text = parser.text ++ [ch] ∨
        code = 0 ∧ parser'.text = [] ∧ parser.text ++ [ch] = parser'.pair.bytes ∨
        code = -1 ∧ parser'.text = [] ∧ ∀ v : Pair f, ¬ parser.text ++ [ch] <+: v.bytes) := by
  obtain ⟨⟨k, case⟩, found⟩ : ∃ state, f.cases[parser.s]? = some state :=
    ⟨_, List.getElem?_eq_getElem sound.inside⟩
  obtain ⟨part', p', verdict, read, kept, how⟩ := sound.reads ch found
  have steps := parseChar_eq found read
  have headed := headed_update sound kept.headed
  cases verdict with
  | stay =>
    obtain ⟨rfl, room, more⟩ := how
    refine ⟨_, _, steps, ⟨sound.inside, headed, fun j low => checked_update sound found kept low,
      fun state here => ?_⟩, .inl ⟨rfl, ?_⟩⟩
    · obtain rfl := Option.some.inj (found.symm.trans here)
      show _ < ((Function.update parser.parts k part' k).text case).length
      rwa [Function.update_self]
    · have later : text ⟨parser.s, parser.p + 1, Function.update parser.parts k part'⟩ = _ :=
        text_eq found
      rw [later, List.flatMap_congr (text_kept found kept parser.s (parser.p + 1))]
      show _ ++ ((Function.update parser.parts k part' k).text case).take (parser.p + 1) = _
      rw [Function.update_self, more, text_eq found, List.append_assoc]
  | next =>
    obtain ⟨rfl, whole⟩ := how
    rw [settle] at steps
    by_cases last : parser.s + 1 = f.cases.length
    · rw [if_pos last] at steps
      refine ⟨_, _, steps, first_sound headed, .inr (.inl ⟨rfl, rfl, ?_⟩)⟩
      rw [← text_passed found kept whole 0 0, ← Pair.bytes_eq, last, List.take_length]
    · rw [if_neg last] at steps
      refine ⟨_, _, steps, ⟨?_, headed, fun j low => ?_, fun state _ => text_length _ state⟩,
        .inl ⟨rfl, ?_⟩⟩
      · have inside := sound.inside
        simp only
        omega
      · rw [take_succ found, List.mem_append, List.mem_singleton] at low
        obtain earlier | here := low
        · exact checked_update sound found kept earlier
        · obtain ⟨rfl, rfl⟩ := Prod.mk.inj here
          show (Function.update parser.parts j part' j).Checked
          rw [Function.update_self]
          exact kept.checked rfl
      · rw [← text_passed found kept whole (parser.s + 1) 0]
        exact List.append_nil _
  | fail =>
    obtain ⟨zero, rfl, other, outside, wrong⟩ := how
    exact ⟨_, _, steps, first_sound headed,
      .inr (.inr ⟨rfl, rfl, not_begins found zero other outside wrong⟩)⟩

end Parser

/-! ### Two frames -/

namespace Pair

variable {f : Format} {v w : Pair f}

theorem bytes_length (v w : Pair f) : v.bytes.length = w.bytes.length := by
  rw [← bytes_eq, ← bytes_eq, List.length_flatMap, List.length_flatMap]
  congr 2
  funext state
  exact v.text_length w state

theorem payload_of_bytes (same : v.bytes = w.bytes) (k : Bool) : v.payload k = w.payload k := by
  have inside : (k, Case.payload) ∈ f.cases := by
    unfold Format.cases Message.cases
    cases k
    · cases (f.message false).kind <;> simp
    · cases (f.message true).kind <;> simp
  have begins : f.cases.flatMap v.text <+: f.cases.flatMap w.text ++ [] := by
    rw [bytes_eq, bytes_eq, same, List.append_nil]
  exact Vector.toList_inj.mp
    (flatMap_injOn f.cases (fun state _ => v.text_length w state) begins _ inside)

end Pair

/-- A parser, as a machine that answers every byte with the value returned. -/
def machine {f : Format} (parseChar : Parser f → UInt8 → Option (Parser f × ℤ)) :
    Machine (Parser f) UInt8 ℤ where
  step parser ch := (parseChar parser ch).map fun (parser, code) => (parser, [code])

namespace Parser

variable {f : Format} {parser : Parser f}

theorem text_short (sound : parser.Sound) (v : Pair f) : parser.text.length < v.bytes.length := by
  obtain ⟨⟨k, case⟩, found⟩ : ∃ state, f.cases[parser.s]? = some state :=
    ⟨_, List.getElem?_eq_getElem sound.inside⟩
  have index : parser.p < ((parser.parts k).text case).length := sound.index _ found
  have split : f.cases = f.cases.take (parser.s + 1) ++ f.cases.drop (parser.s + 1) :=
    (List.take_append_drop _ _).symm
  have whole : ((parser.parts k).text case).length = (parser.pair.text (k, case)).length := rfl
  rw [v.bytes_length parser.pair, ← Pair.bytes_eq, split, take_succ found, text_eq found,
    List.flatMap_append, List.flatMap_append, List.flatMap_singleton]
  simp only [List.length_append, List.length_take]
  omega

/-- In its first state the parser has read nothing of a frame. -/
theorem text_first (sound : parser.Sound) (first : parser.s = 0) : parser.text = [] := by
  obtain ⟨expected, found⟩ : ∃ expected, f.cases[parser.s]? = some (false, .byte expected) := by
    rw [first]
    unfold Format.cases Message.cases
    cases (f.message false).kind
    · exact ⟨_, rfl⟩
    · exact ⟨_, rfl⟩
  have zero : parser.p = 0 := Nat.lt_one_iff.mp (sound.index _ found)
  rw [text_eq found, first, zero]
  rfl

/-- **The parser recognises two frames.** -/
theorem recogniser (f : Format) :
    Recogniser (machine parseChar) (-1) 0 Sound text Pair.bytes (pair : Parser f → Pair f) where
  apart := by decide
  short parser v sound begins := (text_short sound v).not_ge begins.length_le
  free v w begins := begins.eq_of_length (v.bytes_length w)
  step parser ch sound := by
    obtain ⟨parser', code, steps, sound', how⟩ := step sound ch
    refine ⟨parser', code, ?_, sound', how⟩
    show (parser.parseChar ch).map _ = _
    rw [steps]
    rfl

end Parser

/-! ### Verified pairs -/

/-- A parser publishes exactly the verified pairs. -/
structure Verified {f : Format} (parseChar : Parser f → UInt8 → Option (Parser f × ℤ)) : Prop where
  /-- Whenever zero is returned, the bytes end with two frames back to back, and the structures hold
  their payloads. -/
  sound : ∀ stream codes parser ch parser', (machine parseChar).Run .initial stream codes parser →
    parseChar parser ch = some (parser', 0) →
    ∃ seq seq' : UInt8,
      (f.message false).frame seq (parser'.parts false).data.toList ++
        (f.message true).frame seq' (parser'.parts true).data.toList <:+ stream ++ [ch]
  /-- Two frames that are read from `s = 0` are published at their last byte, and not before. -/
  complete : ∀ stream codes parser, (machine parseChar).Run .initial stream codes parser →
    parser.s = 0 → ∀ pair : Pair f,
      ∃ parser', (machine parseChar).Run parser pair.bytes
          (List.replicate (pair.bytes.length - 1) (-1) ++ [0]) parser' ∧
        ∀ k, (parser'.parts k).data = pair.payload k
  /-- Every stream is read. -/
  reads : ∀ stream, ∃ codes parser, (machine parseChar).Run .initial stream codes parser
  /-- The next store is inside the structure. -/
  index : ∀ stream codes parser, (machine parseChar).Run .initial stream codes parser →
    ∀ k, f.cases[parser.s]? = some (k, .payload) → parser.p < (f.message k).size

theorem Parser.verified (f : Format) : Verified (parseChar : Parser f → _) := by
  have recogniser := Parser.recogniser f
  have idle : (initial : Parser f).text = [] := rfl
  refine ⟨?_, ?_, ?_, ?_⟩
  · intro stream codes parser ch parser' run read
    have steps : (machine parseChar).step parser ch = some (parser', [0]) := by
      show (parser.parseChar ch).map _ = _
      rw [read]
      rfl
    exact ⟨_, _, recogniser.sound run initial_sound idle steps⟩
  · intro stream codes parser run first pair
    obtain ⟨sound, -⟩ := recogniser.suffix run initial_sound idle
    obtain ⟨parser', run', same⟩ := recogniser.complete sound (text_first sound first) pair
    exact ⟨parser', run', Pair.payload_of_bytes same⟩
  · intro stream
    obtain ⟨codes, parser, run, -⟩ := recogniser.reads initial_sound stream
    exact ⟨codes, parser, run⟩
  · intro stream codes parser run k here
    obtain ⟨sound, -⟩ := recogniser.suffix run initial_sound idle
    exact (sound.index _ here).trans_eq (parser.parts k).data.length_toList

/-- **Exactly the verified pairs are published**, by all three parsers. -/
theorem parsers_verified :
    Verified px4ParseChar ∧ Verified apmParseChar ∧ Verified mspParseChar :=
  ⟨Parser.verified px4, Parser.verified apm, Parser.verified msp⟩

end Robocon.Flow
