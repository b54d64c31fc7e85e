/-
**Which responses are received.**

The loop of `FSUS_RecvPackage` takes its bytes one by one; `Receiver.taken` counts them. The
checksum here is the byte sum, so that `FSUS_CalcChecksum` starts from zero.

* `recvPackage_response` — a response with a content is received, and its bytes are taken.
* `run_starved`, `run_overflows` — with a size of `0` the loop waits for an index that it has passed
  already: it takes up to fifty more bytes, and writes the next one past the content.
* `accepts_iff` — the loop stays in its buffer and receives a response at the head of the stream
  exactly if it is not sent down that path.
-/

import Robocon.Servo.Checksum

namespace Robocon.Servo

open Lib

/-! ### The bytes that are taken -/

/-- The number of bytes that the loop of `FSUS_RecvPackage` takes. -/
def Receiver.taken (start : UInt8) : Receiver → List UInt8 → ℕ
  | _, [] => 0
  | r, tmpdata :: bytes =>
    match r.byte start tmpdata with
    | some (.inl r) => r.taken start bytes + 1
    | _ => 1

/-- The number of bytes that `FSUS_RecvPackage` takes. -/
def taken (start : UInt8) (pkg : Package) (bytes : List UInt8) : ℕ :=
  Receiver.taken start ⟨{ pkg with status := 0 }, 0, 0⟩ bytes

section Taken

variable {start : UInt8} {r : Receiver} {pkg' : Package}

theorem byte_returns {tmpdata : UInt8} :
    r.byte start tmpdata ≠ some (.inr (.timeout, pkg')) := by
  intro returned
  unfold Receiver.byte at returned
  simp only at returned
  split_ifs at returned <;> cases returned

/-- After bytes on which the loop goes on, it is as if it began with the next one. -/
theorem run_append {init : List UInt8} : ∀ {r : Receiver},
    Receiver.run start r init = some (.timeout, pkg') →
      ∃ r', ∀ rest, Receiver.run start r (init ++ rest) = Receiver.run start r' rest ∧
        Receiver.taken start r (init ++ rest) = init.length + Receiver.taken start r' rest := by
  induction init with
  | nil => exact fun {r} _ => ⟨r, fun rest => ⟨rfl, (Nat.zero_add _).symm⟩⟩
  | cons tmpdata init ih =>
    intro r timeout
    rw [Receiver.run] at timeout
    cases step : r.byte start tmpdata with
    | none =>
      rw [step] at timeout
      cases timeout
    | some next =>
      rw [step] at timeout
      cases next with
      | inr returned =>
        obtain rfl : returned = (.timeout, pkg') := Option.some.inj timeout
        exact absurd step byte_returns
      | inl middle =>
        obtain ⟨last, goesOn⟩ := ih timeout
        refine ⟨last, fun rest => ?_⟩
        obtain ⟨run, count⟩ := goesOn rest
        rw [List.cons_append, Receiver.run, Receiver.taken, step, List.length_cons]
        refine ⟨run, ?_⟩
        show Receiver.taken start middle (init ++ rest) + 1 = _
        rw [count, Nat.add_right_comm]

theorem taken_last {status : Status} {tmpdata : UInt8} (ends : status ≠ .timeout)
    (returns : Receiver.run start r [tmpdata] = some (status, pkg')) (rest : List UInt8) :
    Receiver.taken start r (tmpdata :: rest) = 1 := by
  rw [Receiver.run] at returns
  rw [Receiver.taken]
  cases step : r.byte start tmpdata with
  | none => rfl
  | some next =>
    rw [step] at returns
    cases next with
    | inl middle =>
      obtain ⟨timeout, -⟩ := Prod.mk.inj (Option.some.inj returns)
      exact absurd timeout.symm ends
    | inr returned => rfl

end Taken

/-! ### Responses -/

/-- A response: the header, the command, the size, the content and the byte sum. -/
def response (cmdId : UInt8) (content : List UInt8) : List UInt8 :=
  [0x05, 0x1C, cmdId, UInt8.ofNat content.length] ++ content ++
    [byteSum ([0x05, 0x1C, cmdId, UInt8.ofNat content.length] ++ content)]

section Responses

variable {pkg : Package} {cmdId : UInt8} {content : List UInt8}

theorem sum_zero (cmdId size : UInt8) (content : List UInt8) :
    sum 0 cmdId size responseHeader content = byteSum ([0x05, 0x1C, cmdId, size] ++ content) := by
  rw [sum_eq, UInt8.zero_add]
  rfl

theorem response_append (cmdId : UInt8) (content rest : List UInt8) :
    response cmdId content ++ rest = 0x05 :: 0x1C :: cmdId :: UInt8.ofNat content.length ::
      (content ++ sum 0 cmdId (UInt8.ofNat content.length) responseHeader content :: rest) := by
  rw [sum_zero, response]
  simp

/-- **A response with a content is received.** -/
theorem recvPackage_response (pkg : Package) (known : cmdId ≤ cmdNum) (some : 0 < content.length)
    (fits : content.length ≤ responseMaxSize - 5) (rest : List UInt8) :
    ∃ pkg', recvPackage 0 pkg (response cmdId content ++ rest) = .some (.success, pkg') ∧
      Holds pkg cmdId content pkg' ∧
      taken 0 pkg (response cmdId content ++ rest) = content.length + 5 := by
  rw [response_append]
  have small : content.length < 256 := lt_of_le_of_lt fits (by decide)
  have length : content.length = (UInt8.ofNat content.length).toNat :=
    (UInt8.toNat_ofNat_of_lt' small).symm
  generalize UInt8.ofNat content.length = size at length
  have some' : 0 < size.toNat := length ▸ some
  have fits' : size.toNat ≤ responseMaxSize - 5 := length ▸ fits
  have entered := fun bytes => (run_size 0 pkg .nil cmdId size bytes).2 known fits'
  have received := fun rest =>
    run_content 0 pkg cmdId length some' fits' (sum 0 cmdId size responseHeader content) rest
  obtain ⟨_, timeout⟩ := run_breaks 0 pkg cmdId some' fits' length.le
  rw [← entered] at timeout
  obtain ⟨r', goesOn⟩ := run_append timeout
  obtain ⟨_, _, last⟩ := received []
  rw [if_pos rfl, ← entered] at last
  have ends := (goesOn [_]).1.symm.trans last
  have count := (goesOn (sum 0 cmdId size responseHeader content :: rest)).2
  rw [taken_last (by decide) ends] at count
  obtain ⟨pkg', holds, run⟩ := received rest
  rw [if_pos rfl, ← entered] at run
  exact ⟨pkg', run, holds, count⟩

/-- What the loop does on the bytes that arrive: it stays in the content, what it receives is a
response, and it receives a response at the head of the bytes. -/
structure Accepts (pkg : Package) (bytes : List UInt8) : Prop where
  inside : (recvPackage 0 pkg bytes).isSome
  sound : ∀ pkg', recvPackage 0 pkg bytes = some (.success, pkg') →
    ∃ noise cmdId content rest, Noise noise ∧ bytes = noise ++ response cmdId content ++ rest ∧
      cmdId ≤ cmdNum ∧ content.length ≤ responseMaxSize - 5 ∧
      filled pkg'.content content.length = content
  complete : ∀ cmdId content rest, bytes = response cmdId content ++ rest → cmdId ≤ cmdNum →
    content.length ≤ responseMaxSize - 5 →
    ∃ pkg', recvPackage 0 pkg bytes = some (.success, pkg') ∧ Holds pkg cmdId content pkg' ∧
      taken 0 pkg bytes = content.length + 5

/-- The first package is announced with a size of `0`, and more than fifty bytes follow it, or the
bytes begin with it and it is complete. -/
def Starves (bytes : List UInt8) : Prop :=
  ∃ noise cmdId rest, Noise noise ∧ bytes = noise ++ 0x05 :: 0x1C :: cmdId :: 0x00 :: rest ∧
    cmdId ≤ cmdNum ∧ (responseMaxSize < rest.length ∨
      noise = [] ∧ rest.head? = some (byteSum [0x05, 0x1C, cmdId, 0x00]))

theorem recvPackage_empty (pkg : Package) {noise : List UInt8} (quiet : Noise noise)
    (known : cmdId ≤ cmdNum) (rest : List UInt8) :
    recvPackage 0 pkg (noise ++ 0x05 :: 0x1C :: cmdId :: 0x00 :: rest) =
      Receiver.run 0 (.sized pkg cmdId 0) rest :=
  (run_size 0 pkg quiet cmdId 0 rest).2 known (Nat.zero_le _)

/-- A loop that is not starved stays in the content. -/
theorem recvPackage_inside (pkg : Package) {bytes : List UInt8} (fed : ¬ Starves bytes) :
    (recvPackage 0 pkg bytes).isSome := by
  have zero : ({ pkg with status := 0 } : Package).status = 0 := rfl
  obtain ⟨noise, rest, quiet, rfl⟩ | ⟨noise, quiet, rfl | rfl⟩ := noise_or_header bytes
  case inr.inl =>
    rw [recvPackage, (run_quiet zero quiet).1]
    rfl
  case inr.inr =>
    rw [recvPackage, (run_quiet zero quiet).2]
    rfl
  rcases rest with _ | ⟨cmdId, _ | ⟨size, rest⟩⟩
  · rw [recvPackage, run_header zero quiet]
    rfl
  · rw [recvPackage, run_header zero quiet, Receiver.run, byte_cmdId rfl]
    split_ifs <;> rfl
  · obtain ⟨wrong, right⟩ := run_size 0 pkg quiet cmdId size rest
    by_cases checked : cmdNum < cmdId ∨ responseMaxSize - 5 < size.toNat
    · obtain ⟨status, last, -, returned⟩ := wrong checked
      rw [returned]
      rfl
    obtain ⟨known, fits⟩ := not_or.mp checked
    rw [right (UInt8.not_lt.mp known) (Nat.not_lt.mp fits)]
    by_cases empty : size = 0
    · subst empty
      have short : rest.length ≤ responseMaxSize := by
        refine Nat.not_lt.mp fun long => fed ?_
        exact ⟨noise, cmdId, rest, quiet, rfl, UInt8.not_lt.mp known, Or.inl long⟩
      obtain ⟨last, timeout⟩ := run_starved (r := .sized pkg cmdId 0) rfl rfl
        ((Nat.zero_add _).trans_le short)
      rw [timeout]
      rfl
    · have some : 0 < size.toNat := Nat.pos_of_ne_zero fun zero => empty (UInt8.toNat.inj zero)
      rcases Nat.lt_or_ge size.toNat rest.length with long | short
      · obtain ⟨value, after, ends⟩ := List.exists_cons_of_length_pos
          (show 0 < (rest.drop size.toNat).length by rw [List.length_drop]; omega)
        obtain ⟨last, -, run⟩ := run_content 0 pkg cmdId (List.length_take_of_le long.le) some
          (Nat.not_lt.mp fits) value after
        rw [← ends, List.take_append_drop] at run
        rw [run]
        split_ifs <;> rfl
      · obtain ⟨last, timeout⟩ := run_breaks 0 pkg cmdId some (Nat.not_lt.mp fits) short
        rw [timeout]
        rfl

/-- **The receiver accepts the responses** exactly if it is not starved. -/
theorem accepts_iff (pkg : Package) (bytes : List UInt8) : Accepts pkg bytes ↔ ¬ Starves bytes := by
  constructor
  · rintro ⟨inside, -, complete⟩ ⟨noise, cmdId, rest, quiet, rfl, known, long | ⟨rfl, sum⟩⟩
    · rw [recvPackage_empty pkg quiet known, run_overflows rfl rfl ((Nat.zero_add _).symm ▸ long)
        (Nat.zero_le _)] at inside
      cases inside
    · obtain ⟨rest, rfl⟩ := List.head?_eq_some_iff.mp sum
      obtain ⟨pkg', received, -⟩ := complete cmdId [] rest rfl known (Nat.zero_le _)
      rw [recvPackage_empty pkg .nil known] at received
      exact run_empty rfl rfl (Nat.zero_le _) _ pkg' received
  · intro fed
    refine ⟨recvPackage_inside pkg fed, fun pkg' success => ?_,
      fun cmdId content rest head known fits => ?_⟩
    · obtain ⟨cmdId, content, arrives, received⟩ := recvPackage_sound success
      obtain ⟨noise, rest, size, quiet, length, split, known, -, fits⟩ := arrives
      refine ⟨noise, cmdId, content, rest, quiet, ?_, known, fits, received⟩
      rw [List.append_assoc, response_append, ← length, UInt8.ofNat_toNat, split]
    · subst head
      by_cases empty : content = []
      · subst empty
        exact absurd ⟨[], cmdId, _, .nil, rfl, known, Or.inr ⟨rfl, rfl⟩⟩ fed
      · exact recvPackage_response pkg known (List.length_pos_iff.mpr empty) fits rest

end Responses

/-- **A response without a content**: it is not received. -/
theorem starved : ∃ pkg : Package, ∀ pkg',
    recvPackage 0 pkg (response 1 []) ≠ some (.success, pkg') := by
  refine ⟨⟨0, 0, 0, Vector.replicate responseMaxSize 0, 0, 0⟩, fun pkg' => ?_⟩
  have announced : response 1 [] = [] ++ 0x05 :: 0x1C :: 1 :: 0x00 ::
      [byteSum [0x05, 0x1C, 1, 0x00]] := rfl
  rw [announced, recvPackage_empty _ .nil (by decide)]
  exact run_empty rfl rfl (Nat.zero_le _) _ pkg'

end Robocon.Servo
