/-
**Recognisers of frames.**

A `Recogniser` is a machine that reads a stream and answers `yes` or `no` after every input. In each
of its states it is after some `text`; a step extends the text, completes a frame with it, or drops
it because no frame begins so.

* `suffix` — the text is what the stream ends with; `sound`: whenever the answer is `yes`, the
  stream ends with the frame.
* `complete` — a frame that is read with no text before it is answered at its end, and not before.
* `reported_iff` — both: a frame is reported exactly when it has been read with no text before it.
* `flatMap_injOn` — a text that is laid out in parts of known lengths fixes the parts.
-/

import Robocon.Lib.Run

namespace Robocon.Lib

/-! ### Layouts -/

/-- A text that is laid out in parts of the same lengths as another one has the same parts. -/
theorem flatMap_injOn {α β : Type*} {first second : α → List β} {rest : List β} (parts : List α)
    (same : ∀ part ∈ parts, (first part).length = (second part).length)
    (begins : parts.flatMap first <+: parts.flatMap second ++ rest) :
    ∀ part ∈ parts, first part = second part := by
  induction parts with
  | nil => exact fun _ inside => absurd inside List.not_mem_nil
  | cons part parts ih =>
    obtain ⟨length, lengths⟩ := List.forall_mem_cons.mp same
    obtain ⟨late, equal⟩ := begins
    rw [List.flatMap_cons, List.flatMap_cons, List.append_assoc, List.append_assoc] at equal
    obtain ⟨here, there⟩ := List.append_inj equal length
    exact List.forall_mem_cons.mpr ⟨here, ih lengths ⟨late, there⟩⟩

/-! ### Recognisers -/

section Recogniser

variable {State Input Output Value : Type*}

/-- A machine that recognises frames. -/
structure Recogniser (machine : Machine State Input Output) (no yes : Output) (Inv : State → Prop)
    (text : State → List Input) (frame : Value → List Input) (value : State → Value) : Prop where
  apart : no ≠ yes
  /-- The text is not yet a frame. -/
  short : ∀ state v, Inv state → ¬ frame v <+: text state
  /-- No frame is the beginning of another one. -/
  free : ∀ v w, frame v <+: frame w → frame v = frame w
  /-- A step extends the text, completes a frame, or drops a text that begins no frame. -/
  step : ∀ state input, Inv state →
    ∃ next code, machine.step state input = some (next, [code]) ∧ Inv next ∧
      (code = no ∧ text next = text state ++ [input] ∨
        code = yes ∧ text next = [] ∧ text state ++ [input] = frame (value next) ∨
        code = no ∧ text next = [] ∧ ∀ v, ¬ text state ++ [input] <+: frame v)

namespace Recogniser

variable {machine : Machine State Input Output} {no yes : Output} {Inv : State → Prop}
  {text : State → List Input} {frame : Value → List Input} {value : State → Value}
  (recogniser : Recogniser machine no yes Inv text frame value) {start state next : State}
  {stream : List Input} {codes : List Output} {input : Input}
include recogniser

theorem kept {code : List Output} (inv : Inv state)
    (reads : machine.step state input = some (next, code)) :
    Inv next ∧ (text next = text state ++ [input] ∨ text next = []) := by
  obtain ⟨next', code', step, inv', how⟩ := recogniser.step state input inv
  obtain ⟨rfl, rfl⟩ := Machine.step_unique step reads
  refine ⟨inv', ?_⟩
  obtain ⟨-, more⟩ | ⟨-, done, -⟩ | ⟨-, dropped, -⟩ := how
  · exact .inl more
  · exact .inr done
  · exact .inr dropped

theorem suffix (run : machine.Run start stream codes state) (begin : Inv start)
    (idle : text start = []) : Inv state ∧ text state <:+ stream := by
  have ends := Machine.RunOn.history (fun past state => Inv state ∧ text state <:+ past)
    (fun past state input next output _ both reads => ?_) run [] ⟨begin, idle ▸ List.nil_suffix⟩
  · simpa using ends
  · obtain ⟨inv, front, same⟩ := both
    obtain ⟨inv', more | none⟩ := recogniser.kept inv reads
    · refine ⟨inv', front, ?_⟩
      rw [more, ← List.append_assoc, same]
    · exact ⟨inv', none ▸ List.nil_suffix⟩

/-- **Soundness.** Whenever a frame is reported, the stream ends with it. -/
theorem sound (run : machine.Run start stream codes state) (begin : Inv start)
    (idle : text start = []) (reads : machine.step state input = some (next, [yes])) :
    frame (value next) <:+ stream ++ [input] := by
  obtain ⟨inv, front, same⟩ := recogniser.suffix run begin idle
  obtain ⟨next', code, step, -, how⟩ := recogniser.step state input inv
  obtain ⟨rfl, codes⟩ := Machine.step_unique step reads
  have reported : code = yes := List.singleton_inj.mp codes
  obtain ⟨other, -⟩ | ⟨-, -, whole⟩ | ⟨other, -⟩ := how
  · exact absurd (other.symm.trans reported) recogniser.apart
  · refine ⟨front, ?_⟩
    rw [← whole, ← List.append_assoc, same]
  · exact absurd (other.symm.trans reported) recogniser.apart

/-- The bytes of a frame before its last one only extend the text. -/
theorem reads_part {v : Value} {rest : List Input} (more : rest ≠ []) (late : List Input) :
    ∀ {early : List Input} {state : State}, Inv state → text state = early →
      early ++ late ++ rest = frame v →
      ∃ next, machine.Run state late (List.replicate late.length no) next ∧ Inv next ∧
        text next = early ++ late := by
  induction late with
  | nil =>
    intro early state inv same _
    exact ⟨state, .nil state, inv, same.trans (List.append_nil early).symm⟩
  | cons input late ih =>
    intro early state inv same whole
    have split : early ++ [input] ++ (late ++ rest) = frame v := by
      rw [← whole]
      simp
    have begins : text state ++ [input] <+: frame v := ⟨late ++ rest, by rw [same, split]⟩
    obtain ⟨next, code, step, inv', how⟩ := recogniser.step state input inv
    obtain ⟨rfl, extended⟩ | ⟨-, -, done⟩ | ⟨-, -, dropped⟩ := how
    · have seam : early ++ [input] ++ late ++ rest = frame v := by rw [← split, List.append_assoc]
      rw [same] at extended
      obtain ⟨final, run, inv'', text'⟩ := ih inv' extended seam
      refine ⟨final, .cons trivial step run, inv'', ?_⟩
      rw [text', List.append_assoc, List.singleton_append]
    · have equal := recogniser.free _ _ (done ▸ begins)
      rw [← done, ← split, same] at equal
      exact absurd (List.append_eq_nil_iff.mp (List.self_eq_append_right.mp equal)).2 more
    · exact absurd begins (dropped v)

/-- **Completeness.** A frame that is read with no text before it is reported at its end, and not
before. -/
theorem complete (inv : Inv state) (idle : text state = []) (v : Value) :
    ∃ next, machine.Run state (frame v) (List.replicate ((frame v).length - 1) no ++ [yes]) next ∧
      frame (value next) = frame v := by
  rcases List.eq_nil_or_concat (frame v) with empty | ⟨front, last, whole⟩
  · exact absurd (empty ▸ List.nil_prefix) (recogniser.short state v inv)
  · rw [List.concat_eq_append] at whole
    obtain ⟨middle, run, inv', read⟩ :=
      recogniser.reads_part (List.cons_ne_nil last []) front inv idle whole.symm
    rw [List.nil_append] at read
    have begins : text middle ++ [last] <+: frame v := by rw [read, whole]
    obtain ⟨next, code, step, inv'', how⟩ := recogniser.step middle last inv'
    rw [whole, List.length_append, List.length_singleton, Nat.add_sub_cancel]
    obtain ⟨-, extended⟩ | ⟨rfl, -, done⟩ | ⟨-, -, dropped⟩ := how
    · have begun : frame v <+: text next := by rw [extended, read, whole]
      exact absurd begun (recogniser.short next v inv'')
    · exact ⟨next, run.append (.single trivial step), by rw [← done, read]⟩
    · exact absurd begins (dropped v)

/-- The stream ends with the text, and before it the machine had no text. -/
theorem begun (run : machine.Run start stream codes state) (begin : Inv start)
    (idle : text start = []) :
    ∃ early codes' rest, stream = early ++ text state ∧ machine.Run start early codes' rest ∧
      text rest = [] := by
  have all := Machine.RunOn.history
    (fun past state => Inv state ∧ (∃ codes, machine.Run start past codes state) ∧
      ∃ early codes' rest, past = early ++ text state ∧ machine.Run start early codes' rest ∧
        text rest = [])
    (fun past state input next output _ before reads => ?_) run []
    ⟨begin, ⟨[], .nil start⟩, [], [], start, by rw [idle]; rfl, .nil start, idle⟩
  · exact all.2.2
  · obtain ⟨inv, ⟨codes', past'⟩, early, early', rest, same, run', empty⟩ := before
    obtain ⟨inv', more | none⟩ := recogniser.kept inv reads
    · refine ⟨inv', ⟨_, past'.append (.single trivial reads)⟩, early, early', rest, ?_, run', empty⟩
      rw [more, same, List.append_assoc]
    · refine ⟨inv', ⟨_, past'.append (.single trivial reads)⟩, past ++ [input], _, next, ?_,
        past'.append (.single trivial reads), none⟩
      rw [none, List.append_nil]

/-- **Exactly the frames are reported**: a frame is reported at an input exactly if the stream ends
with it there and the machine had no text before it. -/
theorem reported_iff (run : machine.Run start stream codes state) (begin : Inv start)
    (idle : text start = []) {code : Output}
    (reads : machine.step state input = some (next, [code])) (v : Value) :
    code = yes ∧ frame (value next) = frame v ↔
      ∃ early codes' rest, stream ++ [input] = early ++ frame v ∧
        machine.Run start early codes' rest ∧ text rest = [] := by
  obtain ⟨inv, -⟩ := recogniser.suffix run begin idle
  constructor
  · rintro ⟨rfl, same⟩
    obtain ⟨early, codes', rest, split, run', empty⟩ := recogniser.begun run begin idle
    refine ⟨early, codes', rest, ?_, run', empty⟩
    obtain ⟨next', code', step, -, how⟩ := recogniser.step state input inv
    obtain ⟨rfl, codes⟩ := Machine.step_unique step reads
    obtain rfl := List.singleton_inj.mp codes
    obtain ⟨other, -⟩ | ⟨-, -, whole⟩ | ⟨other, -⟩ := how
    · exact absurd other.symm recogniser.apart
    · rw [← same, ← whole, split, List.append_assoc]
    · exact absurd other.symm recogniser.apart
  · rintro ⟨early, codes', rest, split, run', empty⟩
    obtain ⟨inv', -⟩ := recogniser.suffix run' begin idle
    obtain ⟨final, last, same⟩ := recogniser.complete inv' empty v
    have whole := run'.append last
    rw [← split] at whole
    obtain ⟨outputs, rfl⟩ := Machine.Run.unique whole (run.append (.single trivial reads))
    rw [← List.append_assoc] at outputs
    exact ⟨List.singleton_inj.mp (List.append_inj' outputs rfl).2, same⟩

theorem reads (begin : Inv start) (stream : List Input) :
    ∃ codes state, machine.Run start stream codes state ∧ Inv state := by
  refine Machine.Run.progress machine Inv (fun state input inv => ?_) stream begin
  obtain ⟨next, code, step, inv', -⟩ := recogniser.step state input inv
  exact ⟨next, [code], step, inv'⟩

end Recogniser

end Recogniser

end Robocon.Lib
