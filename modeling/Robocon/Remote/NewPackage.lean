/-
**What `new_pkg` announces.**

A consumer reads the channels when `new_pkg` is set, and clears it. `reader` is the parser and the
consumer as one machine, with the correct packets that the bytes have completed since the last
clearing; these are read off the bytes by the framing alone.

* `Announced` — what the consumer is promised: a correct packet since the last clearing, and its
  channels.
* `Follows.next` — one step keeps the promise exactly if it completes no incorrect packet while
  `new_pkg` is clear.
* `announced_iff` — a run keeps the promise in all its states exactly if all its steps are such.

The end of a packet sets `new_pkg` after a wrong checksum too (`rejected_announced`).
-/

import Robocon.Lib.Run
import Robocon.Remote.Decoding

namespace Robocon.Remote

open Lib

/-! ### Parser and consumer -/

/-- The parser, the packet that the bytes are in, and the correct packets since the last clearing.
Only the first is part of the program. -/
structure Reader where
  rc : Rc
  reading : List UInt8
  correct : List (List UInt8)

/-- A byte for `ibus_in`, or the consumer clearing `new_pkg`. -/
inductive Act
  | byte (data : UInt8)
  | clear

/-- Parser and consumer as a machine. -/
def reader : Machine Reader Act Unit where
  step s
    | .byte data => (s.rc.ibusIn data).map fun rc =>
      ({ rc := rc
         reading := (frame s.reading data).1
         correct := s.correct ++ (frame s.reading data).2.toList.filter fun b => Correct b }, [])
    | .clear => some ({ s with rc := { s.rc with newPkg := 0 }, correct := [] }, [])

/-- The zero-initialised parser. -/
def Reader.initial : Reader := ⟨Rc.initial, [], []⟩

/-- **The promise.** If `new_pkg` is set, a correct packet has been completed since it was cleared,
and the channels are those of the last one. -/
def Announced (s : Reader) : Prop :=
  s.rc.newPkg = 1 → ∃ b, s.correct.getLast? = some b ∧ s.rc.chs = channels b

/-- The promise holds after a step. -/
def Announces (s : Reader) (act : Act) : Prop :=
  ∀ next outs, reader.step s act = some (next, outs) → Announced next

/-- **The condition on a step.** It completes no incorrect packet while `new_pkg` is clear. -/
def Suits (s : Reader) : Act → Prop
  | .byte data => s.rc.newPkg = 0 → ∀ b, (frame s.reading data).2 = some b → Correct b
  | .clear => True

/-! ### One step -/

/-- What a byte does besides the framing: nothing, or a packet is completed that is correct, or one
that is not. -/
inductive Completes (s next : Reader) (data : UInt8) : Prop
  | none (unfinished : (frame s.reading data).2 = none) (chs : next.rc.chs = s.rc.chs)
      (newPkg : next.rc.newPkg = s.rc.newPkg) (correct : next.correct = s.correct)
  | right (b : List UInt8) (completed : (frame s.reading data).2 = some b) (right : Correct b)
      (chs : next.rc.chs = channels b) (newPkg : next.rc.newPkg = 1)
      (correct : next.correct = s.correct ++ [b])
  | wrong (b : List UInt8) (completed : (frame s.reading data).2 = some b) (wrong : ¬ Correct b)
      (chs : next.rc.chs = s.rc.chs) (newPkg : next.rc.newPkg = 1)
      (correct : next.correct = s.correct)

/-- **A byte** is read inside the buffer, along the framing. -/
theorem byte_cases {s : Reader} (inside : s.rc.flag ≤ 31) (reading : s.reading = s.rc.reading)
    (data : UInt8) :
    ∃ next, reader.step s (.byte data) = some (next, []) ∧ next.rc.flag ≤ 31 ∧
      next.reading = next.rc.reading ∧ Completes s next data := by
  obtain ⟨rc', read, inside', reading', effect⟩ := Rc.ibusIn_frame inside data
  rw [← reading] at reading' effect
  refine ⟨_, Option.map_eq_some_iff.mpr ⟨rc', read, rfl⟩, inside', reading'.symm, ?_⟩
  cases completed : (frame s.reading data).2 with
  | none =>
    rw [completed] at effect
    exact .none completed effect.1 effect.2 (List.append_nil _)
  | some b =>
    rw [completed] at effect
    by_cases right : Correct b
    · refine .right b completed right (effect.1.trans (if_pos right)) effect.2 ?_
      exact congrArg (s.correct ++ ·) (List.filter_cons_of_pos (decide_eq_true right))
    · refine .wrong b completed right (effect.1.trans (if_neg right)) effect.2 ?_
      have dropped : [b].filter (fun b => Correct b) = [] :=
        List.filter_cons_of_neg fun same => right (of_decide_eq_true same)
      exact (congrArg (s.correct ++ ·) dropped).trans (List.append_nil _)

/-- The parser follows the framing of the bytes, and the promise is kept. -/
structure Follows (s : Reader) : Prop where
  inside : s.rc.flag ≤ 31
  reading : s.reading = s.rc.reading
  promise : s.rc.newPkg = 0 ∧ s.correct = [] ∨
    s.rc.newPkg = 1 ∧ ∃ b, s.correct.getLast? = some b ∧ s.rc.chs = channels b

theorem Follows.announced {s : Reader} (follows : Follows s) : Announced s := by
  intro set
  rcases follows.promise with ⟨clear, -⟩ | ⟨-, kept⟩
  · rw [clear] at set
    cases set
  · exact kept

/-- **One step** keeps the promise exactly if it suits. -/
theorem Follows.next {s next : Reader} {act : Act} {outs : List Unit} (follows : Follows s)
    (step : reader.step s act = some (next, outs)) :
    (Announces s act ↔ Suits s act) ∧ (Suits s act → Follows next) := by
  have exactly : Announces s act ↔ Announced next := Machine.forall_step_iff step
  have enough (keeps : Suits s act → Follows next) (needs : Announced next → Suits s act) :
      (Announces s act ↔ Suits s act) ∧ (Suits s act → Follows next) :=
    ⟨exactly.trans ⟨needs, fun suits => (keeps suits).announced⟩, keeps⟩
  cases act with
  | clear =>
    obtain ⟨rfl, -⟩ := Prod.mk.inj (Option.some.inj step)
    exact enough (fun _ => ⟨follows.inside, follows.reading, Or.inl ⟨rfl, rfl⟩⟩) fun _ => trivial
  | byte data =>
    obtain ⟨next', step', inside, reading, completes⟩ :=
      byte_cases follows.inside follows.reading data
    obtain ⟨rfl, -⟩ := Machine.step_unique step step'
    cases completes with
    | none unfinished chs newPkg correct =>
      refine enough (fun _ => ⟨inside, reading, ?_⟩) fun _ _ b completed => ?_
      · rw [chs, newPkg, correct]
        exact follows.promise
      · rw [unfinished] at completed
        cases completed
    | right b completed right chs newPkg correct =>
      refine enough (fun _ => ⟨inside, reading, Or.inr ⟨newPkg, b, ?_, chs⟩⟩)
        fun _ _ b' completed' => ?_
      · rw [correct, List.getLast?_concat]
      · rw [completed] at completed'
        rw [← Option.some.inj completed']
        exact right
    | wrong b completed wrong chs newPkg correct =>
      refine enough (fun suits => ⟨inside, reading, ?_⟩) fun announced clear => ?_
      · rcases follows.promise with ⟨clear, -⟩ | ⟨-, kept⟩
        · exact absurd (suits clear b completed) wrong
        · rw [chs, correct]
          exact Or.inr ⟨newPkg, kept⟩
      · -- nothing correct has come since the last clearing
        rcases follows.promise with ⟨-, nothing⟩ | ⟨set, -⟩
        · obtain ⟨b', last, -⟩ := announced newPkg
          rw [correct, nothing] at last
          cases last
        · rw [clear] at set
          cases set

/-! ### Runs -/

/-- **The announcement of packets.** Every sequence of bytes and clearings is read, and the promise
holds in all its states exactly if none of its steps completes an incorrect packet while `new_pkg`
is clear. -/
theorem announced_iff (acts : List Act) :
    ∃ outs final, reader.Run Reader.initial acts outs final ∧
      (reader.RunOn Announces Reader.initial acts outs final ↔
        reader.RunOn Suits Reader.initial acts outs final) := by
  have start : Follows Reader.initial :=
    ⟨Nat.zero_le _, (filled_zero _).symm, Or.inl ⟨rfl, rfl⟩⟩
  obtain ⟨outs, final, run, -⟩ := Machine.Run.progress reader
    (fun s => s.rc.flag ≤ 31 ∧ s.reading = s.rc.reading)
    (fun s act inv => by
      cases act with
      | clear => exact ⟨_, _, rfl, inv⟩
      | byte data =>
        obtain ⟨next, step, inside, reading, -⟩ := byte_cases inv.1 inv.2 data
        exact ⟨next, [], step, inside, reading⟩)
    acts ⟨start.inside, start.reading⟩
  exact ⟨outs, final, run, run.agree_iff_of_met Follows
    (fun _ _ _ _ _ follows step => follows.next step) start⟩

/-- **A rejected packet is announced.** A packet of zeros has a wrong checksum; after it `new_pkg`
is set, and nothing correct has come. -/
theorem rejected_announced :
    ¬ Correct (0x20 :: 0x40 :: List.replicate 30 0) ∧
      ∃ outs final, reader.Run Reader.initial
        ((0x20 :: 0x40 :: List.replicate 30 0).map Act.byte) outs final ∧ ¬ Announced final := by
  obtain ⟨outs, final, run, checked⟩ := Machine.exists_run reader (fun _ _ => True) Reader.initial
    ((0x20 :: 0x40 :: List.replicate 30 0).map Act.byte)
    (fun final _ => final.rc.newPkg = 1 ∧ final.correct = []) (by decide +kernel)
  obtain ⟨set, nothing⟩ := of_decide_eq_true checked
  refine ⟨by decide +kernel, outs, final, run, fun announced => ?_⟩
  obtain ⟨b, last, -⟩ := announced set
  rw [nothing] at last
  cases last

end Robocon.Remote
