/-
**A stepper command gives the bus back.**

`emmV5` is a whole function `Emm_V5_*`: what it does to the mutex and on the bus, for everything
that it can see while it waits for the answer.

* `Observation` — the read finds a byte, or it finds none and the semaphore is released. The list
  ends where the read finds none and the semaphore times out.
* `emmV5_gives_back` — the mutex is taken once, at the start, and released once, at the end; no more
  than eight bytes are read, and no buffer is left.
* `emmV5_line` — on the line of `stepperLine`, the function does what that machine does.
-/

import Robocon.Stepper.Line

namespace Robocon.Stepper

open Lib

/-! ### The functions -/

/-- What `emm_wait_for_ack` sees. -/
inductive Observation
  | byte (ch : UInt8)
  | woken

/-- What a function does: it takes and releases the mutex, sends, reads a byte, sets a field. -/
inductive Action (K : Type*)
  | take
  | sent (bytes : List UInt8)
  | read (ch : UInt8)
  | set (event : Event K)
  | release

/-- The action takes the mutex. -/
def Action.Takes {K : Type*} : Action K → Bool
  | take => true
  | _ => false

/-- The action releases the mutex. -/
def Action.Releases {K : Type*} : Action K → Bool
  | release => true
  | _ => false

/-- The action reads a byte. -/
def Action.Reads {K : Type*} : Action K → Bool
  | read _ => true
  | _ => false

/-- The motors and `Emm_rx_buf`. -/
structure Memory (K : Type*) where
  motors : Pointer → StepperMotor K
  rxBuf : Vector UInt8 64

/-- The size of `cmd`. -/
def Command.bufferSize : Command → ℕ
  | originModifyParams .. => 32
  | _ => 16

section Functions

variable {K : Type*} [Field K] [LinearOrder K] [FloorRing K]

/-- `emm_wait_for_ack`, from an index on. A byte outside of `Emm_rx_buf` fails. -/
def emmWaitForAck (motor : Pointer) (cmd : UInt8) :
    Memory K → ℕ → List Observation → Option (Memory K × List (Action K))
  | mem, _, [] => some (mem, [.release])
  | mem, index, .woken :: seen => emmWaitForAck motor cmd mem index seen
  | mem, index, .byte ch :: seen =>
    (store mem.rxBuf index ch).bind fun rxBuf =>
      if index + 1 ≥ emmGetCmdReceiveSize cmd then
        let events := emmCmdAna motor cmd (cell rxBuf)
        some (⟨events.foldl record mem.motors, rxBuf⟩,
          .read ch :: (events.map .set ++ [.release]))
      else
        (emmWaitForAck motor cmd ⟨mem.motors, rxBuf⟩ (index + 1) seen).map fun done =>
          (done.1, .read ch :: done.2)

/-- A function `Emm_V5_*`. A byte outside of `cmd` fails. -/
def emmV5 (motor : Pointer) (c : Command) (mem : Memory K) (seen : List Observation) :
    Option (Memory K × List (Action K)) :=
  let load := (mem.motors motor).stepperMotorId :: c.load
  (storeAll (Vector.replicate c.bufferSize 0) 0 load).bind fun cmd =>
    (emmWaitForAck motor (cell cmd 1) mem 0 seen).map fun done =>
      (done.1, .take :: .sent (filled cmd load.length) :: done.2)

end Functions

/-! ### The command -/

theorem load_length (c : Command) : c.load.length + 1 ≤ c.bufferSize := by
  cases c with
  | readSysParams s => cases s <;> decide
  | _ => simp [Command.load, Command.bufferSize, bytesOf16, bytesOf32]

theorem load_pos (c : Command) : 0 < c.load.length := by
  cases c with
  | readSysParams s => cases s <;> decide
  | _ => simp [Command.load]

theorem command_loaded (id : UInt8) (c : Command) :
    ∃ cmd, storeAll (Vector.replicate c.bufferSize (0 : UInt8)) 0 (id :: c.load) = some cmd ∧
      filled cmd (id :: c.load).length = id :: c.load :=
  storeAll_front _ (load_length c)

/-! ### The waiting -/

section Waiting

variable {K : Type*} [Field K] [LinearOrder K] [FloorRing K]

theorem emmWaitForAck_byte {motor : Pointer} {cmd ch : UInt8} {mem : Memory K} {index : ℕ}
    {seen : List Observation} (inside : index < 64) :
    emmWaitForAck motor cmd mem index (.byte ch :: seen) =
      if index + 1 ≥ emmGetCmdReceiveSize cmd then
        let events := emmCmdAna motor cmd (cell (mem.rxBuf.set index ch inside))
        some (⟨events.foldl record mem.motors, mem.rxBuf.set index ch inside⟩,
          .read ch :: (events.map .set ++ [.release]))
      else
        (emmWaitForAck motor cmd ⟨mem.motors, mem.rxBuf.set index ch inside⟩ (index + 1) seen).map
          fun done => (done.1, .read ch :: done.2) := by
  rw [emmWaitForAck, store, dif_pos inside, Option.bind_some]

/-- A function that waits: it neither takes nor releases the mutex before it returns. -/
theorem emmWaitForAck_releases (motor : Pointer) (cmd : UInt8) (seen : List Observation) :
    ∀ (mem : Memory K) {index : ℕ}, index < emmGetCmdReceiveSize cmd →
      ∃ mem' actions, emmWaitForAck motor cmd mem index seen = some (mem', actions ++ [.release]) ∧
        (∀ action ∈ actions, action.Takes = false ∧ action.Releases = false) ∧
        index + actions.countP Action.Reads ≤ emmGetCmdReceiveSize cmd := by
  induction seen with
  | nil =>
    intro mem index less
    exact ⟨mem, [], rfl, by simp, by simpa using less.le⟩
  | cons first seen ih =>
    intro mem index less
    cases first with
    | woken =>
      rw [emmWaitForAck]
      exact ih mem less
    | byte ch =>
      have inside : index < 64 := by
        have short := size_le cmd
        omega
      rw [emmWaitForAck_byte inside]
      by_cases complete : index + 1 ≥ emmGetCmdReceiveSize cmd
      · rw [if_pos complete]
        refine ⟨_, .read ch :: (emmCmdAna motor cmd _).map .set, rfl, ?_, ?_⟩
        · simp [Action.Takes, Action.Releases]
        · have none : (emmCmdAna (K := K) motor cmd
              (cell (mem.rxBuf.set index ch inside))).countP (fun event =>
                (Action.set event).Reads) = 0 := by
            simp [Action.Reads]
          simp only [List.countP_cons, List.countP_map, Function.comp_def, none]
          simp only [Action.Reads, if_true]
          omega
      · rw [if_neg complete]
        obtain ⟨mem', actions, waited, quiet, few⟩ :=
          ih ⟨mem.motors, mem.rxBuf.set index ch inside⟩ (not_le.mp complete)
        refine ⟨mem', .read ch :: actions, ?_, ?_, ?_⟩
        · rw [waited]
          rfl
        · simpa [Action.Takes, Action.Releases] using quiet
        · simp only [List.countP_cons, Action.Reads, if_true]
          omega

/-- **Every command gives the bus back**: it takes the mutex once, at the start, and releases it
once, at the end, reads no more than eight bytes, and stays in its buffers. -/
theorem emmV5_gives_back (motor : Pointer) (c : Command) (mem : Memory K)
    (seen : List Observation) :
    ∃ mem' actions, emmV5 motor c mem seen = some (mem', actions) ∧
      actions.head? = some .take ∧ actions.countP Action.Takes = 1 ∧
      actions.getLast? = some .release ∧ actions.countP Action.Releases = 1 ∧
      actions.countP Action.Reads ≤ 8 := by
  obtain ⟨cmd, stored, loaded⟩ := command_loaded (mem.motors motor).stepperMotorId c
  obtain ⟨mem', actions, waited, quiet, few⟩ :=
    emmWaitForAck_releases motor (cell cmd 1) seen mem (size_pos (cell cmd 1))
  have taken : actions.countP Action.Takes = 0 :=
    List.countP_eq_zero.mpr fun action member => by simp [(quiet action member).1]
  have released : actions.countP Action.Releases = 0 :=
    List.countP_eq_zero.mpr fun action member => by simp [(quiet action member).2]
  have short := size_le (cell cmd 1)
  refine ⟨mem', .take :: .sent (filled cmd (c.load.length + 1)) :: (actions ++ [.release]),
    ?_, rfl, ?_, ?_, ?_, ?_⟩
  · rw [emmV5, stored, Option.bind_some, waited]
    rfl
  · simp only [List.countP_cons, List.countP_append, taken]
    rfl
  · rw [← List.cons_append, ← List.cons_append, List.getLast?_concat]
  · simp only [List.countP_cons, List.countP_append, released]
    rfl
  · simp only [List.countP_cons, List.countP_append, List.countP_nil, Action.Reads,
      Bool.false_eq_true, if_false]
    omega

/-! ### The waiting on the line -/

/-- The event of an action. -/
def Action.event : Action K → Option (Event K)
  | sent bytes => some (.sent bytes)
  | set event => some event
  | _ => none

/-- The bytes that are seen. -/
def Observation.ch : Observation → Option UInt8
  | byte ch => some ch
  | woken => none

/-- The line gives these bytes. -/
inductive Offers : Line K → List UInt8 → Prop
  | nil (l : Line K) : Offers l []
  | cons {l l' : Line K} {ch : UInt8} {bytes : List UInt8} (taken : l.read = some (ch, l'))
      (rest : Offers l' bytes) : Offers l (ch :: bytes)

omit [Field K] [LinearOrder K] [FloorRing K] in
/-- What the line gives does not depend on the reader. -/
theorem Offers.congr {l : Line K} {bytes : List UInt8} (offers : Offers l bytes) :
    ∀ {m : Line K}, m.replies = l.replies → m.passed = l.passed → Offers m bytes := by
  induction offers with
  | nil l => exact fun _ _ => .nil _
  | @cons l l' ch bytes taken rest ih =>
    intro m replies passed
    obtain ⟨r, others, first, here, rfl⟩ := read_eq taken
    rw [← replies] at first
    rw [← passed] at here
    have taken' : m.read = some (ch, if m.passed + 1 < r.bytes.length then
        { m with passed := m.passed + 1 } else { m with replies := others, passed := 0 }) := by
      simp [Line.read, first, here]
    refine .cons taken' (ih ?_ ?_)
    · rw [passed]
      split_ifs
      · exact replies
      · rfl
    · rw [passed]
      split_ifs <;> rfl

omit [Field K] [LinearOrder K] [FloorRing K] in
theorem set_events (ch : UInt8) (events : List (Event K)) :
    (Action.read ch :: (events.map .set ++ [.release])).filterMap Action.event = events := by
  have all : (fun event : Event K => (Action.set event).event) = some := rfl
  simp only [List.filterMap_cons, List.filterMap_append, List.filterMap_map, Action.event]
  simp [all]

/-- **The waiting** is a run of the line. -/
theorem emmWaitForAck_line {motor : Pointer} {cmd : UInt8} {seen : List Observation} :
    ∀ {l : Line K} {index : ℕ} {mem' : Memory K} {actions : List (Action K)},
      l.reader = some ⟨motor, cmd, index⟩ → Offers l (seen.filterMap Observation.ch) →
      emmWaitForAck motor cmd ⟨l.motors, l.rxBuf⟩ index seen = some (mem', actions) →
      ∃ inputs l', stepperLine.Run l inputs (actions.filterMap Action.event) l' ∧
        l'.reader = none ∧ mem' = ⟨l'.motors, l'.rxBuf⟩ := by
  induction seen with
  | nil =>
    intro l index mem' actions reading _ waited
    obtain ⟨rfl, rfl⟩ := Prod.mk.inj (Option.some.inj waited)
    have step : stepperLine.step l .timeout = some ({ l with reader := none }, []) := by
      simp [stepperLine, reading]
    exact ⟨[.timeout], _, .single trivial step, rfl, rfl⟩
  | cons first seen ih =>
    intro l index mem' actions reading offers waited
    cases first with
    | woken => exact ih reading offers waited
    | byte ch =>
      cases offers with
      | @cons _ l₁ _ _ taken rest =>
        obtain ⟨r, others, -, -, same⟩ := read_eq taken
        have kept : l₁.motors = l.motors ∧ l₁.rxBuf = l.rxBuf := by
          rw [same]
          split_ifs <;> exact ⟨rfl, rfl⟩
        have step : stepperLine.step l .take = l₁.received ⟨motor, cmd, index⟩ ch := by
          simp [stepperLine, reading, taken]
        by_cases inside : index < 64
        · rw [received_eq inside, kept.1, kept.2] at step
          rw [emmWaitForAck_byte inside] at waited
          by_cases complete : index + 1 ≥ emmGetCmdReceiveSize cmd
          · rw [if_pos complete] at waited step
            obtain ⟨rfl, rfl⟩ := Prod.mk.inj (Option.some.inj waited)
            have run : stepperLine.Run l [.take] _ _ := .single trivial step
            exact ⟨[.take], _, by rw [set_events]; exact run, rfl, rfl⟩
          · rw [if_neg complete] at waited step
            obtain ⟨⟨mem₂, later⟩, more, same'⟩ := Option.map_eq_some_iff.mp waited
            obtain ⟨rfl, rfl⟩ := Prod.mk.inj same'
            rw [← kept.1] at more
            obtain ⟨inputs, l', run, idle, memory⟩ :=
              ih (l := { l₁ with
                rxBuf := l.rxBuf.set index ch inside
                reader := some ⟨motor, cmd, index + 1⟩ }) rfl (rest.congr rfl rfl) more
            rw [← kept.1] at step
            exact ⟨.take :: inputs, l', .cons trivial step run, idle, memory⟩
        · rw [emmWaitForAck, store, dif_neg inside] at waited
          cases waited

/-- **A command** is a run of the line. -/
theorem emmV5_line {motor : Pointer} {c : Command} {seen : List Observation} {l : Line K}
    {mem' : Memory K} {actions : List (Action K)} (free : l.reader = none)
    (offers : Offers l (seen.filterMap Observation.ch))
    (done : emmV5 motor c ⟨l.motors, l.rxBuf⟩ seen = some (mem', actions)) :
    ∃ inputs l', stepperLine.Run l inputs (actions.filterMap Action.event) l' ∧
      l'.reader = none ∧ mem' = ⟨l'.motors, l'.rxBuf⟩ := by
  obtain ⟨cmd, stored, loaded⟩ := command_loaded (l.motors motor).stepperMotorId c
  rw [emmV5] at done
  simp only [stored, Option.bind_some] at done
  obtain ⟨⟨mem₂, later⟩, waited, same⟩ := Option.map_eq_some_iff.mp done
  obtain ⟨rfl, rfl⟩ := Prod.mk.inj same
  have second : cell cmd 1 = (l.bytes motor c).getD 1 0 := by
    have more : 1 < (l.bytes motor c).length := by
      simpa [Line.bytes] using load_pos c
    rw [cell_filled cmd more]
    exact congrArg (fun bytes => List.getD bytes 1 0) loaded
  have step : stepperLine.step l (.command motor c) =
      some ({ l with reader := some ⟨motor, cell cmd 1, 0⟩ }, [.sent (l.bytes motor c)]) := by
    simp [stepperLine, Line.emmTransmit, free, second]
  obtain ⟨inputs, l', run, idle, memory⟩ :=
    emmWaitForAck_line (l := { l with reader := some ⟨motor, cell cmd 1, 0⟩ }) rfl
      (offers.congr rfl rfl) waited
  refine ⟨.command motor c :: inputs, l', ?_, idle, memory⟩
  rw [show filled cmd _ = l.bytes motor c from loaded]
  exact .cons trivial step run

end Waiting

end Robocon.Stepper
