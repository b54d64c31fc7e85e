/-
**Replies and their requests.**

The operations that expect a reply look at fixed places of the package that arrives. An `Inquiry` is
such an operation; `pkg` of its exchange is what the memory of the package held before.

* `op_run` — an inquiry is a call of the driver.
* `run_answer` — the outcome of an inquiry is what it makes of the package (`Inquiry.judge`).
* `matched_iff` — which replies an inquiry may get, so that it reports success only on its own
  reply, and says nothing that was not in it.

No operation looks at the command of a reply, and only `FSUS_Ping` and the two queries look at the
servo. A reply can be too short for the place that is looked at, and the `uint8_t` size of
`FSUS_ReadData` wraps around below two (`ping_of_another_command`).
-/

import Robocon.Lib.Words
import Robocon.Servo.Driver

namespace Robocon.Servo

open Lib Driver

/-! ### The reply -/

/-- The bytes of a reply, with the checksum that `FSUS_RecvPackage` compares with. -/
def replyBytes (start cmdId : UInt8) (content : List UInt8) : List UInt8 :=
  [0x05, 0x1C, cmdId, UInt8.ofNat content.length] ++ content ++
    [sum start cmdId (UInt8.ofNat content.length) responseHeader content]

/-- The exchange in which a reply arrives. `pkg` is what the memory of the package held before. -/
def Exchange.replied (x : Exchange) (pkg : Package) (cmdId : UInt8) (content : List UInt8) :
    Exchange :=
  { x with pkg := pkg, bytes := replyBytes x.recvStart cmdId content }

section Reply

variable {start cmdId : UInt8} {content : List UInt8} (pkg : Package)

theorem recv_empty (start : UInt8) (known : cmdId ≤ cmdNum) :
    ∃ pkg', recvPackage start pkg (replyBytes start cmdId []) = some (.timeout, pkg') := by
  have announced : recvPackage start pkg (replyBytes start cmdId []) =
      Receiver.run start (.sized pkg cmdId 0) [sum start cmdId 0 responseHeader []] :=
    (run_size start pkg .nil cmdId 0 _).2 known (Nat.zero_le _)
  rw [announced]
  exact run_starved rfl rfl (show 0 + 1 ≤ responseMaxSize by decide)

theorem recv_content (start : UInt8) (known : cmdId ≤ cmdNum) (some : content ≠ [])
    (fits : content.length ≤ responseMaxSize - 5) :
    ∃ pkg', Holds pkg cmdId content pkg' ∧
      recvPackage start pkg (replyBytes start cmdId content) = .some (.success, pkg') := by
  have small : content.length < 256 := lt_of_le_of_lt fits (by decide)
  have length : content.length = (UInt8.ofNat content.length).toNat :=
    (UInt8.toNat_ofNat_of_lt' small).symm
  have some' : 0 < content.length := List.length_pos_iff.mpr some
  rw [replyBytes]
  generalize UInt8.ofNat content.length = size at length
  rw [length] at some' fits
  obtain ⟨pkg', holds, run⟩ := run_content start pkg cmdId length some' fits
    (sum start cmdId size responseHeader content) []
  refine ⟨pkg', holds, ?_⟩
  rw [if_pos rfl, ← (run_size start pkg .nil cmdId size _).2 known fits] at run
  rw [← run]
  simp

end Reply

/-! ### The operations -/

/-- `echoAngle` of `FSUS_QueryServoAngle`. -/
def echo16 (pkg : Package) : UInt16 :=
  (cell pkg.content 1).toUInt16 ||| (cell pkg.content 2).toUInt16 <<< 8

/-- `echoAngle` of `FSUS_QueryServoAngleMTurn`. -/
def echo32 (pkg : Package) : UInt32 :=
  (cell pkg.content 1).toUInt32 ||| (cell pkg.content 2).toUInt32 <<< 8 |||
    (cell pkg.content 3).toUInt32 <<< 16 ||| (cell pkg.content 4).toUInt32 <<< 24

/-- `FSUS_QueryServoAngle`, up to the division of `echoAngle` by ten. -/
def queryEcho (x : Exchange) (servoId : UInt8) : Driver (Status × Option UInt16) := do
  match ← ask x 10 [servoId] with
  | none => return (.timeout, none)
  | some (statusCode, pkg) =>
    if statusCode = .success then
      if cell pkg.content 0 ≠ servoId then return (.idNotMatch, none)
      else return (statusCode, some (echo16 pkg))
    else return (statusCode, none)

/-- `FSUS_QueryServoAngleMTurn`, up to the division of `echoAngle` by ten. -/
def queryEchoMTurn (x : Exchange) (servoId : UInt8) : Driver (Status × Option UInt32) := do
  if ← take x then
    let (statusCode, pkg) ← transact x 16 1 [servoId]
    if statusCode = .success then
      if cell pkg.content 0 ≠ servoId then return (.idNotMatch, none)
      else
        release
        return (statusCode, some (echo32 pkg))
    else
      release
      return (statusCode, none)
  else
    return (.timeout, none)

/-- The angle of `FSUS_QueryServoAngle` is that of its echo. -/
theorem queryServoAngle_echo (x : Exchange) (servoId : UInt8) :
    queryServoAngle x servoId = Prod.map id (Option.map fun echoAngle =>
      (echoAngle.toInt16.toFloat / 10.0).toFloat32) <$> queryEcho x servoId := by
  rw [queryServoAngle, queryEcho, map_bind]
  congr 1
  funext answer
  rcases answer with _ | ⟨statusCode, pkg⟩
  · rfl
  · simp only
    split_ifs <;> rfl

/-- The angle of `FSUS_QueryServoAngleMTurn` is that of its echo. -/
theorem queryServoAngleMTurn_echo (x : Exchange) (servoId : UInt8) :
    queryServoAngleMTurn x servoId = Prod.map id (Option.map fun echoAngle =>
      (echoAngle.toInt32.toFloat / 10.0).toFloat32) <$> queryEchoMTurn x servoId := by
  rw [queryServoAngleMTurn, queryEchoMTurn, map_bind]
  congr 1
  funext taken
  cases taken with
  | false => rfl
  | true =>
    simp only [if_true, map_bind]
    congr 1
    funext answer
    split_ifs <;> rfl

/-! ### Inquiries -/

/-- The operations that expect a reply. -/
inductive Inquiry
  | ping (servoId : UInt8)
  | resetUserData (servoId : UInt8)
  | readData (servoId address : UInt8)
  | writeData (servoId address : UInt8) (value : List UInt8) (size : UInt8)
  | queryServoAngle (servoId : UInt8)
  | queryServoAngleMTurn (servoId : UInt8)

/-- What an inquiry sets besides its status: the data, or an angle in tenths. -/
inductive Output
  | data (value : List UInt8)
  | angle (tenths : UInt16)
  | angleMTurn (tenths : UInt32)

/-- An inquiry. -/
def Inquiry.run (x : Exchange) : Inquiry → Driver (Status × Option Output)
  | ping servoId => (·, none) <$> Servo.ping x servoId
  | resetUserData servoId => (·, none) <$> Servo.resetUserData x servoId
  | readData servoId address =>
    Prod.map id (Option.map .data) <$> Servo.readData x servoId address
  | writeData servoId address value size =>
    (·, none) <$> Servo.writeData x servoId address value size
  | queryServoAngle servoId => Prod.map id (Option.map .angle) <$> queryEcho x servoId
  | queryServoAngleMTurn servoId =>
    Prod.map id (Option.map .angleMTurn) <$> queryEchoMTurn x servoId

/-- The call of the driver. -/
def Inquiry.op : Inquiry → Op
  | ping servoId => .ping servoId
  | resetUserData servoId => .resetUserData servoId
  | readData servoId address => .readData servoId address
  | writeData servoId address value size => .writeData servoId address value size
  | queryServoAngle servoId => .queryServoAngle servoId
  | queryServoAngleMTurn servoId => .queryServoAngleMTurn servoId

/-- **An inquiry is a call of the driver**, which gives its status. -/
theorem op_run (inquiry : Inquiry) :
    inquiry.op.run = exchange >>= fun x => Prod.fst <$> inquiry.run x := by
  cases inquiry <;>
    simp [Inquiry.op, Op.run, Inquiry.run, queryServoAngle_echo, queryServoAngleMTurn_echo]

/-- The command of the request, which is that of its reply. -/
def Inquiry.cmdId : Inquiry → UInt8
  | ping _ => 1
  | resetUserData _ => 2
  | readData _ _ => 3
  | writeData _ _ _ _ => 4
  | queryServoAngle _ => 10
  | queryServoAngleMTurn _ => 16

/-- The servo that is asked. -/
def Inquiry.servoId : Inquiry → UInt8
  | ping servoId => servoId
  | resetUserData servoId => servoId
  | readData servoId _ => servoId
  | writeData servoId _ _ _ => servoId
  | queryServoAngle servoId => servoId
  | queryServoAngleMTurn servoId => servoId

/-- The request goes out: the mutex is taken, and the data to write are there and fit. -/
def Inquiry.Asked (w : World) (x : Exchange) : Inquiry → Prop
  | readData _ _ => True
  | writeData _ _ value size =>
    size.toNat ≤ value.length ∧ (size + 2).toNat ≤ responseMaxSize
  | _ => (mutexTake w.holds x.granted).isSome = true

/-- What an inquiry makes of a package that is received. It fails where it goes past the package. -/
def Inquiry.judge (pkg : Package) : Inquiry → Option (Status × Option Output)
  | ping servoId => if cell pkg.content 0 ≠ servoId then some (.idNotMatch, none)
    else some (.success, none)
  | resetUserData _ => some (if cell pkg.content 1 = 1 then .success else .fail, none)
  | readData _ _ => (readValue pkg).map fun value => (.success, some (.data value))
  | writeData _ _ _ _ => some (if cell pkg.content 2 = 1 then .success else .fail, none)
  | queryServoAngle servoId => if cell pkg.content 0 ≠ servoId then some (.idNotMatch, none)
    else some (.success, some (.angle (echo16 pkg)))
  | queryServoAngleMTurn servoId => if cell pkg.content 0 ≠ servoId then some (.idNotMatch, none)
    else some (.success, some (.angleMTurn (echo32 pkg)))

/-- The outcome on an answer. -/
def Inquiry.outcome (inquiry : Inquiry) : Status × Package → Option (Status × Option Output)
  | (.success, pkg) => inquiry.judge pkg
  | (statusCode, _) => some (statusCode, none)

section Outcome

variable {x : Exchange} {w : World} {answer : Status × Package}

theorem transact_answered (cmdId : UInt8) {size : UInt8} {content : List UInt8}
    (fits : size.toNat ≤ responseMaxSize) (whole : size.toNat ≤ content.length)
    (received : recvPackage x.recvStart x.pkg x.bytes = some answer) (w : World) :
    ∃ w', transact x cmdId size content w = some (answer, w') := by
  obtain ⟨bytes, sent⟩ : ∃ bytes, sendPackage x.sendStart cmdId size content = some bytes :=
    ⟨_, if_pos ⟨fits, whole⟩⟩
  have send : send x cmdId size content w =
      some ((), { w with events := w.events ++ [.sent w.holds bytes] }) := by
    rw [Driver.send, sent, Option.map_some]
  refine ⟨{ w with events := w.events ++ [.sent w.holds bytes] ++ [.receive w.holds] }, ?_⟩
  rw [transact, bind_of_some _ send, recv, received, Option.map_some]

theorem take_asked (asked : (mutexTake w.holds x.granted).isSome = true) :
    ∃ w', take x w = some (true, w') := by
  obtain ⟨holds, took⟩ := Option.isSome_iff_exists.mp asked
  exact ⟨_, by rw [take, took]⟩

theorem ask_answered (asked : (mutexTake w.holds x.granted).isSome = true)
    (received : recvPackage x.recvStart x.pkg x.bytes = some answer) (cmdId servoId : UInt8) :
    ∃ w', ask x cmdId [servoId] w = some (some answer, w') := by
  obtain ⟨middle, took⟩ := take_asked asked
  obtain ⟨last, answered⟩ :
      ∃ last, transact x cmdId (UInt8.ofNat [servoId].length) [servoId] middle =
        some (answer, last) :=
    transact_answered cmdId (show (UInt8.ofNat 1).toNat ≤ responseMaxSize by decide) le_rfl
      received middle
  refine ⟨{ last with holds := mutexRelease last.holds }, ?_⟩
  rw [ask, bind_of_some _ took, if_pos rfl, bind_of_some _ answered]
  rfl

/-- **The outcome of an inquiry** is what it makes of the answer. -/
theorem run_answer {inquiry : Inquiry} (asked : inquiry.Asked w x)
    (received : recvPackage x.recvStart x.pkg x.bytes = some answer) :
    (inquiry.run x w).map Prod.fst = inquiry.outcome answer := by
  obtain ⟨statusCode, pkg⟩ := answer
  cases inquiry with
  | ping servoId =>
    obtain ⟨w', got⟩ := ask_answered asked received 1 servoId
    show ((_ <$> ping x servoId) w).map _ = _
    rw [ping, map_bind, bind_of_some _ got]
    cases statusCode <;> try rfl
    simp only [Inquiry.outcome, Inquiry.judge, true_and]
    split_ifs <;> rfl
  | resetUserData servoId =>
    obtain ⟨w', got⟩ := ask_answered asked received 2 servoId
    show ((_ <$> resetUserData x servoId) w).map _ = _
    rw [resetUserData, map_bind, bind_of_some _ got]
    cases statusCode <;> rfl
  | readData servoId address =>
    obtain ⟨w', got⟩ : ∃ w', transact x 3 2 [servoId, address] w = some ((statusCode, pkg), w') :=
      transact_answered 3 (show (2 : UInt8).toNat ≤ responseMaxSize by decide) le_rfl received w
    show ((_ <$> readData x servoId address) w).map _ = _
    rw [readData, map_bind, bind_of_some _ got]
    cases statusCode <;> try rfl
    simp only [Inquiry.outcome, Inquiry.judge, if_true, map_bind]
    cases readValue pkg <;> rfl
  | writeData servoId address value size =>
    obtain ⟨whole, fits⟩ := asked
    have length : (size + 2).toNat ≤ (servoId :: address :: value.take size.toNat).length := by
      rw [List.length_cons, List.length_cons, List.length_take_of_le whole, UInt8.toNat_add]
      exact Nat.mod_le _ _
    obtain ⟨w', got⟩ := transact_answered 4 fits length received w
    show ((_ <$> writeData x servoId address value size) w).map _ = _
    rw [writeData, if_pos whole, map_bind, bind_of_some _ got]
    cases statusCode <;> rfl
  | queryServoAngle servoId =>
    obtain ⟨w', got⟩ := ask_answered asked received 10 servoId
    show ((_ <$> queryEcho x servoId) w).map _ = _
    rw [queryEcho, map_bind, bind_of_some _ got]
    cases statusCode <;> try rfl
    simp only [Inquiry.outcome, Inquiry.judge, if_true]
    split_ifs <;> rfl
  | queryServoAngleMTurn servoId =>
    obtain ⟨middle, took⟩ := take_asked asked
    obtain ⟨w', got⟩ : ∃ w', transact x 16 1 [servoId] middle = some ((statusCode, pkg), w') :=
      transact_answered 16 (show (1 : UInt8).toNat ≤ responseMaxSize by decide) le_rfl received
        middle
    show ((_ <$> queryEchoMTurn x servoId) w).map _ = _
    rw [queryEchoMTurn, map_bind, bind_of_some _ took, if_pos rfl, map_bind, bind_of_some _ got]
    cases statusCode <;> try rfl
    simp only [Inquiry.outcome, Inquiry.judge, if_true]
    split_ifs <;> rfl

end Outcome

/-! ### What a reply decides -/

/-- An inquiry reports success only on its own reply, it has its outcome from the reply alone, and
it reports no more data than the reply has. -/
def Inquiry.Matched (w : World) (x : Exchange) (cmdId : UInt8) (content : List UInt8)
    (inquiry : Inquiry) : Prop :=
  ∃ status output,
    (∀ pkg, (inquiry.run (x.replied pkg cmdId content) w).map Prod.fst = some (status, output)) ∧
    (status = .success → cmdId = inquiry.cmdId ∧ content.head? = some inquiry.servoId ∧
      ∀ value, output = some (.data value) → value.length + 2 ≤ content.length)

/-- The same of what the inquiry makes of a package. -/
def Inquiry.Judged (cmdId : UInt8) (content : List UInt8) (inquiry : Inquiry) : Prop :=
  ∃ status output,
    (∀ old pkg', Holds old cmdId content pkg' → inquiry.judge pkg' = some (status, output)) ∧
    (status = .success → cmdId = inquiry.cmdId ∧ content.head? = some inquiry.servoId ∧
      ∀ value, output = some (.data value) → value.length + 2 ≤ content.length)

section Judged

variable {cmdId : UInt8} {content : List UInt8} {inquiry : Inquiry}

/-- A package is what is received and what its memory held before. -/
theorem Holds.cell_lt {old pkg' : Package} (holds : Holds old cmdId content pkg') {index : ℕ}
    (inside : index < content.length) : cell pkg'.content index = content.getD index 0 := by
  rw [cell_eq, holds.content, List.getD_append _ _ _ _ inside]

theorem Holds.first {old pkg' : Package} {first : UInt8} {rest : List UInt8}
    (holds : Holds old cmdId (first :: rest) pkg') : cell pkg'.content 0 = first :=
  holds.cell_lt (Nat.succ_pos _)

theorem Holds.cell_ge {old pkg' : Package} (holds : Holds old cmdId content pkg') {index : ℕ}
    (outside : content.length ≤ index) : cell pkg'.content index = cell old.content index := by
  rw [cell_eq, cell_eq, holds.content, List.getD_append_right _ _ _ _ outside,
    List.getD_eq_getElem?_getD, List.getD_eq_getElem?_getD, List.getElem?_drop,
    Nat.add_sub_cancel' outside]

/-- A package whose memory held one byte everywhere. -/
def stalePackage (value : UInt8) : Package :=
  ⟨0, 0, 0, Vector.replicate responseMaxSize value, 0, 0⟩

theorem cell_stale (value : UInt8) {index : ℕ} (inside : index < responseMaxSize) :
    cell (stalePackage value).content index = value := by
  simp [cell, stalePackage, inside]

/-- An outcome that is the same for all packages. -/
theorem judged_const (received : ∀ old, ∃ pkg', Holds old cmdId content pkg')
    {status : Status} {output : Option Output}
    (same : ∀ old pkg', Holds old cmdId content pkg' →
      inquiry.judge pkg' = some (status, output)) :
    inquiry.Judged cmdId content ↔
      (status = .success → cmdId = inquiry.cmdId ∧ content.head? = some inquiry.servoId ∧
        ∀ value, output = some (.data value) → value.length + 2 ≤ content.length) := by
  refine ⟨fun ⟨status', output', same', own⟩ => ?_, fun own => ⟨status, output, same, own⟩⟩
  obtain ⟨pkg', holds⟩ := received (stalePackage 0)
  have unique := (same _ _ holds).symm.trans (same' _ _ holds)
  obtain ⟨rfl, rfl⟩ := Prod.mk.inj (Option.some.inj unique)
  exact own

/-- An outcome that differs with what the memory held. -/
theorem not_judged (received : ∀ old, ∃ pkg', Holds old cmdId content pkg')
    (differs : ∀ pkg pkg', Holds (stalePackage 0) cmdId content pkg →
      Holds (stalePackage 1) cmdId content pkg' → inquiry.judge pkg ≠ inquiry.judge pkg') :
    ¬ inquiry.Judged cmdId content := by
  rintro ⟨status, output, same, -⟩
  obtain ⟨pkg, holds⟩ := received (stalePackage 0)
  obtain ⟨pkg', holds'⟩ := received (stalePackage 1)
  exact differs pkg pkg' holds holds' ((same _ _ holds).trans (same _ _ holds').symm)

/-- An inquiry whose reply has a result at some place. -/
theorem judged_result (received : ∀ old, ∃ pkg', Holds old cmdId content pkg') {place : ℕ}
    (inside : place < responseMaxSize)
    (result : ∀ pkg, inquiry.judge pkg =
      some (if cell pkg.content place = 1 then .success else .fail, none)) :
    inquiry.Judged cmdId content ↔ place < content.length ∧
      (content[place]? = some 1 → cmdId = inquiry.cmdId ∧
        content.head? = some inquiry.servoId) := by
  rcases Nat.lt_or_ge place content.length with long | short
  · have there : content[place]? = some (content.getD place 0) := by
      rw [List.getD_eq_getElem?_getD, List.getElem?_eq_getElem long, Option.getD_some]
    have same : ∀ old pkg', Holds old cmdId content pkg' → inquiry.judge pkg' =
        some (if content.getD place 0 = 1 then .success else .fail, none) := by
      intro old pkg' holds
      rw [result, holds.cell_lt long]
    rw [judged_const received same, there, Option.some.injEq, and_iff_right long]
    simp
  · refine iff_of_false (not_judged received fun pkg pkg' holds holds' => ?_)
      fun there => absurd there.1 (Nat.not_lt.mpr short)
    rw [result, result, holds.cell_ge short, holds'.cell_ge short, cell_stale 0 inside,
      cell_stale 1 inside]
    simp

/-- An inquiry whose reply has the servo in front of a value. -/
theorem judged_value (received : ∀ old, ∃ pkg', Holds old cmdId content pkg') {size : ℕ}
    {value : Package → Output} (some : content ≠ [])
    (judge : ∀ pkg, inquiry.judge pkg = if cell pkg.content 0 ≠ inquiry.servoId then
      .some (.idNotMatch, none) else .some (.success, .some (value pkg)))
    (noData : ∀ pkg data, value pkg ≠ .data data)
    (whole : size ≤ content.length → ∃ output, ∀ old pkg', Holds old cmdId content pkg' →
      value pkg' = output)
    (stale : content.length < size → ∀ pkg pkg', Holds (stalePackage 0) cmdId content pkg →
      Holds (stalePackage 1) cmdId content pkg' → value pkg ≠ value pkg') :
    inquiry.Judged cmdId content ↔
      (content.head? = .some inquiry.servoId → cmdId = inquiry.cmdId ∧ size ≤ content.length) := by
  obtain ⟨first, rest, rfl⟩ := List.exists_cons_of_ne_nil some
  rw [List.head?_cons, Option.some.injEq]
  by_cases own : first = inquiry.servoId
  · have judge' : ∀ old pkg', Holds old cmdId (first :: rest) pkg' →
        inquiry.judge pkg' = .some (.success, .some (value pkg')) := by
      intro old pkg' holds
      rw [judge, holds.first, if_neg (not_not.mpr own)]
    rcases Nat.lt_or_ge (first :: rest).length size with short | long
    · refine iff_of_false (not_judged received fun pkg pkg' holds holds' => ?_)
        fun there => absurd (there own).2 (Nat.not_le.mpr short)
      rw [judge' _ _ holds, judge' _ _ holds']
      simpa using stale short pkg pkg' holds holds'
    · obtain ⟨output, same⟩ := whole long
      obtain ⟨pkg', holds⟩ := received (stalePackage 0)
      have noData' : ∀ data, output ≠ .data data := by
        rw [← same _ _ holds]
        exact noData pkg'
      have const : ∀ old pkg', Holds old cmdId (first :: rest) pkg' →
          inquiry.judge pkg' = .some (.success, .some output) := by
        intro old pkg' holds
        rw [judge' _ _ holds, same _ _ holds]
      have long' : size ≤ rest.length + 1 := long
      rw [judged_const received const]
      simp [own, noData', long']
  · have const : ∀ old pkg', Holds old cmdId (first :: rest) pkg' →
        inquiry.judge pkg' = .some (.idNotMatch, none) := by
      intro old pkg' holds
      rw [judge, holds.first, if_pos own]
    rw [judged_const received const]
    exact iff_of_true (fun success => by cases success) fun same => absurd same own

theorem readValue_whole {old pkg' : Package} (holds : Holds old cmdId content pkg')
    (long : 2 ≤ content.length) (fits : content.length ≤ responseMaxSize) :
    readValue pkg' = some (content.drop 2) := by
  have rest : (pkg'.size - 2).toNat = content.length - 2 := by
    rw [UInt8.toNat_sub_of_le _ _ (by rw [UInt8.le_iff_toNat_le, holds.size]; exact long),
      holds.size]
    rfl
  have inside : (pkg'.size - 2).toNat + 2 ≤ responseMaxSize := by
    rw [rest]
    omega
  have length : (content.drop 2).length = content.length - 2 := List.length_drop
  rw [readValue, if_pos inside, rest, holds.content, List.drop_append_of_le_length long, ← length,
    List.take_left]

/-- A reply of one byte: its size minus two wraps around. -/
theorem readValue_short {old pkg' : Package} (holds : Holds old cmdId content pkg')
    (short : content.length = 1) : readValue pkg' = none := by
  have one : pkg'.size = 1 := UInt8.toNat.inj (holds.size.trans short)
  rw [readValue, one]
  rfl

theorem judged_data (received : ∀ old, ∃ pkg', Holds old cmdId content pkg')
    (some : content ≠ []) (fits : content.length ≤ responseMaxSize) (servoId address : UInt8) :
    (Inquiry.readData servoId address).Judged cmdId content ↔
      2 ≤ content.length ∧ cmdId = 3 ∧ content.head? = .some servoId := by
  rcases Nat.lt_or_ge content.length 2 with short | long
  · have one : content.length = 1 := by
      have positive := List.length_pos_iff.mpr some
      omega
    refine iff_of_false (fun ⟨status, output, same, _⟩ => ?_)
      fun there => absurd there.1 (Nat.not_le.mpr short)
    obtain ⟨pkg', holds⟩ := received (stalePackage 0)
    have judged := same _ _ holds
    rw [Inquiry.judge, readValue_short holds one] at judged
    cases judged
  · have same : ∀ old pkg', Holds old cmdId content pkg' →
        (Inquiry.readData servoId address).judge pkg' =
          .some (.success, .some (.data (content.drop 2))) := by
      intro old pkg' holds
      rw [Inquiry.judge, readValue_whole holds long fits, Option.map_some]
    have count : content.length - 2 + 2 = content.length := Nat.sub_add_cancel long
    rw [judged_const received same, and_iff_right long]
    simp [Inquiry.cmdId, Inquiry.servoId, count]

/-- The top byte of an echo is not in a shorter reply. -/
theorem echo16_differs (short : content.length < 3) {pkg pkg' : Package}
    (holds : Holds (stalePackage 0) cmdId content pkg)
    (holds' : Holds (stalePackage 1) cmdId content pkg') : echo16 pkg ≠ echo16 pkg' := by
  intro same
  have number := congrArg UInt16.toNat same
  have bound := (cell pkg.content 1).toNat_lt
  rw [echo16, echo16, toNat_bytes16, toNat_bytes16, holds.cell_ge (Nat.le_of_lt_succ short),
    holds'.cell_ge (Nat.le_of_lt_succ short), cell_stale 0 (by decide), cell_stale 1 (by decide),
    UInt8.toNat_zero, UInt8.toNat_one] at number
  omega

theorem echo32_differs (short : content.length < 5) {pkg pkg' : Package}
    (holds : Holds (stalePackage 0) cmdId content pkg)
    (holds' : Holds (stalePackage 1) cmdId content pkg') : echo32 pkg ≠ echo32 pkg' := by
  intro same
  have number := congrArg UInt32.toNat same
  have bound := (cell pkg.content 1).toNat_lt
  have bound' := (cell pkg.content 2).toNat_lt
  have bound'' := (cell pkg.content 3).toNat_lt
  have top := holds.cell_ge (Nat.le_of_lt_succ short)
  have top' := holds'.cell_ge (Nat.le_of_lt_succ short)
  rw [echo32, echo32, toNat_bytes32, toNat_bytes32, top, top', cell_stale 0 (by decide),
    cell_stale 1 (by decide), UInt8.toNat_zero, UInt8.toNat_one] at number
  omega

end Judged

/-! ### The condition -/

/-- The replies that an inquiry may get: where it reports success, it is its own, and every place
that it looks at is in it. -/
def Inquiry.Heeds (cmdId : UInt8) (content : List UInt8) : Inquiry → Prop
  | ping servoId => content.head? = some servoId → cmdId = 1
  | resetUserData servoId => content = [] ∨ 1 < content.length ∧
    (content[1]? = some 1 → cmdId = 2 ∧ content.head? = some servoId)
  | readData servoId _ => content = [] ∨
    2 ≤ content.length ∧ cmdId = 3 ∧ content.head? = some servoId
  | writeData servoId _ _ _ => content = [] ∨ 2 < content.length ∧
    (content[2]? = some 1 → cmdId = 4 ∧ content.head? = some servoId)
  | queryServoAngle servoId => content.head? = some servoId → cmdId = 10 ∧ 3 ≤ content.length
  | queryServoAngleMTurn servoId => content.head? = some servoId → cmdId = 16 ∧ 5 ≤ content.length

/-- What the inquiries make of a reply with a content. -/
theorem judged_iff {cmdId : UInt8} {content : List UInt8}
    (received : ∀ old, ∃ pkg', Holds old cmdId content pkg') (some : content ≠ [])
    (fits : content.length ≤ responseMaxSize) (inquiry : Inquiry) :
    inquiry.Judged cmdId content ↔ inquiry.Heeds cmdId content := by
  cases inquiry with
  | ping servoId =>
    obtain ⟨first, rest, rfl⟩ := List.exists_cons_of_ne_nil some
    rw [Inquiry.Heeds, List.head?_cons, Option.some.injEq]
    by_cases own : first = servoId
    · have same : ∀ old pkg', Holds old cmdId (first :: rest) pkg' →
          (Inquiry.ping servoId).judge pkg' = .some (.success, none) := by
        intro old pkg' holds
        rw [Inquiry.judge, holds.first, if_neg (not_not.mpr own)]
      rw [judged_const received same]
      simp [Inquiry.cmdId, Inquiry.servoId, own]
    · have same : ∀ old pkg', Holds old cmdId (first :: rest) pkg' →
          (Inquiry.ping servoId).judge pkg' = .some (.idNotMatch, none) := by
        intro old pkg' holds
        rw [Inquiry.judge, holds.first, if_pos own]
      rw [judged_const received same]
      exact iff_of_true (fun success => by cases success) fun same => absurd same own
  | resetUserData servoId =>
    rw [judged_result received (show 1 < responseMaxSize by decide) fun pkg => rfl]
    exact (or_iff_right some).symm
  | readData servoId address =>
    rw [judged_data received some fits]
    exact (or_iff_right some).symm
  | writeData servoId address value size =>
    rw [judged_result received (show 2 < responseMaxSize by decide) fun pkg => rfl]
    exact (or_iff_right some).symm
  | queryServoAngle servoId =>
    refine judged_value received some (fun pkg => rfl) (fun pkg data => by simp)
      (fun long => ?_) fun short pkg pkg' holds holds' => ?_
    · refine ⟨.angle ((content.getD 1 0).toUInt16 ||| (content.getD 2 0).toUInt16 <<< 8), ?_⟩
      intro old pkg' holds
      rw [echo16, holds.cell_lt (by omega), holds.cell_lt (by omega)]
    · simpa using echo16_differs short holds holds'
  | queryServoAngleMTurn servoId =>
    refine judged_value received some (fun pkg => rfl) (fun pkg data => by simp)
      (fun long => ?_) fun short pkg pkg' holds holds' => ?_
    · refine ⟨.angleMTurn ((content.getD 1 0).toUInt32 ||| (content.getD 2 0).toUInt32 <<< 8 |||
        (content.getD 3 0).toUInt32 <<< 16 ||| (content.getD 4 0).toUInt32 <<< 24), ?_⟩
      intro old pkg' holds
      rw [echo32, holds.cell_lt (by omega), holds.cell_lt (by omega), holds.cell_lt (by omega),
        holds.cell_lt (by omega)]
    · simpa using echo32_differs short holds holds'

/-! ### Every inquiry -/

section Inquiries

variable {inquiry : Inquiry} {w : World} {x : Exchange} {cmdId : UInt8} {content : List UInt8}

/-- Only the content and the size of a package are looked at. -/
theorem judge_congr {pkg pkg' : Package} (content : pkg.content = pkg'.content)
    (size : pkg.size = pkg'.size) : inquiry.judge pkg = inquiry.judge pkg' := by
  cases inquiry <;> simp only [Inquiry.judge, readValue, echo16, echo32, content, size]

/-- The memory of the package does not change what is asked. -/
theorem asked_replied (asked : inquiry.Asked w x) (pkg : Package) :
    inquiry.Asked w (x.replied pkg cmdId content) := by
  cases inquiry <;> exact asked

theorem matched_empty (asked : inquiry.Asked w x) (known : cmdId ≤ cmdNum) :
    inquiry.Matched w x cmdId [] := by
  refine ⟨.timeout, none, fun pkg => ?_, fun success => by cases success⟩
  obtain ⟨pkg', received⟩ := recv_empty pkg x.recvStart known
  exact run_answer (asked_replied asked pkg) received

theorem matched_judged (asked : inquiry.Asked w x) (known : cmdId ≤ cmdNum) (some : content ≠ [])
    (fits : content.length ≤ responseMaxSize - 5) :
    inquiry.Matched w x cmdId content ↔ inquiry.Judged cmdId content := by
  have ran : ∀ old, ∃ pkg', Holds old cmdId content pkg' ∧
      (inquiry.run (x.replied old cmdId content) w).map Prod.fst = inquiry.judge pkg' := by
    intro old
    obtain ⟨pkg', holds, received⟩ := recv_content old x.recvStart known some fits
    exact ⟨pkg', holds, run_answer (asked_replied asked old) received⟩
  constructor
  · rintro ⟨status, output, same, own⟩
    refine ⟨status, output, fun old pkg' holds => ?_, own⟩
    obtain ⟨pkg'', holds', run⟩ := ran old
    rw [← same old, run]
    refine judge_congr ?_ (UInt8.toNat.inj (holds.size.trans holds'.size.symm))
    exact Vector.toList_inj.mp (holds.content.trans holds'.content.symm)
  · rintro ⟨status, output, same, own⟩
    refine ⟨status, output, fun pkg => ?_, own⟩
    obtain ⟨pkg', holds, run⟩ := ran pkg
    rw [run, same pkg pkg' holds]

theorem matched_heeds (asked : inquiry.Asked w x) (known : cmdId ≤ cmdNum) (some : content ≠ [])
    (fits : content.length ≤ responseMaxSize - 5) :
    inquiry.Matched w x cmdId content ↔ inquiry.Heeds cmdId content := by
  have received : ∀ old, ∃ pkg', Holds old cmdId content pkg' := by
    intro old
    obtain ⟨pkg', holds, -⟩ := recv_content old x.recvStart known some fits
    exact ⟨pkg', holds⟩
  rw [matched_judged asked known some fits,
    judged_iff received some (fits.trans (Nat.sub_le _ _))]

/-- **A reply is matched to its request** exactly if the inquiry heeds it. -/
theorem matched_iff (asked : inquiry.Asked w x) (known : cmdId ≤ cmdNum)
    (fits : content.length ≤ responseMaxSize - 5) :
    inquiry.Matched w x cmdId content ↔ inquiry.Heeds cmdId content := by
  by_cases empty : content = []
  · subst empty
    refine iff_of_true (matched_empty asked known) ?_
    cases inquiry <;> simp [Inquiry.Heeds]
  · exact matched_heeds asked known empty fits

end Inquiries

/-! ### A reply to another request -/

/-- The reply to a ping: the condition of the exact statement. -/
theorem matched_iff_ping : (Inquiry.ping 1).Matched ⟨0, [], []⟩ (reply 1) 1 [1] ↔
    (Inquiry.ping 1).Heeds 1 [1] :=
  matched_iff rfl (by decide) (by decide)

/-- **A ping gets the reply to a query**, and takes it for its own. -/
theorem ping_of_another_command :
    ¬ (Inquiry.ping 1).Matched ⟨0, [], []⟩ (reply 1) 10 [1, 0, 0] := by
  have asked : (Inquiry.ping 1).Asked ⟨0, [], []⟩ (reply 1) := rfl
  rw [matched_heeds asked (by decide) (List.cons_ne_nil _ _) (by decide)]
  intro heeds
  exact absurd (heeds rfl) (by decide)

end Robocon.Servo
