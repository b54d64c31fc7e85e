/-
**Waiting for a servo.**

`FSUS_Wait` queries the angle until it is near the target. It does not look at the status of a
query, and `angle_read` has no value until one succeeds.

* `Queries` — the queries that take place between two states, one after the other.
* `waitTurns_queries` — a success means a query near the target, or no query at all that succeeded
  and a leftover near the target.
* `honest_iff` — a success of `FSUS_Wait` means the former, exactly if there is no such leftover.
-/

import Robocon.Servo.Driver

namespace Robocon.Servo

open Lib Driver

/-! ### The queries -/

/-- A query: what was in `angle_read` if nothing had been read yet, the status, and the angle that
was read. -/
structure Query where
  stale : Float32
  status : Status
  angle : Option Float32

/-- The queries between two states. -/
inductive Queries (servoId isMturn : UInt8) : World → List Query → World → Prop
  | nil (w : World) : Queries servoId isMturn w [] w
  | cons {w middle w' : World} {x : Exchange} {exchanges : List Exchange} {status : Status}
      {angle : Option Float32} {queries : List Query} (next : w.exchanges = x :: exchanges)
      (query : waitQuery x servoId isMturn { w with exchanges := exchanges } =
        some ((status, angle), middle))
      (rest : Queries servoId isMturn middle queries w') :
      Queries servoId isMturn w (⟨x.stale, status, angle⟩ :: queries) w'

/-- Within `FSUS_ANGLE_DEADAREA`. -/
def Near (targetAngle angle : Float32) : Prop := (targetAngle - angle).abs ≤ 1.0

instance (targetAngle angle : Float32) : Decidable (Near targetAngle angle) :=
  inferInstanceAs (Decidable ((targetAngle - angle).abs ≤ 1.0))

/-- A query that succeeded, near the target. -/
def Query.Reached (targetAngle : Float32) (q : Query) : Prop :=
  q.status = .success ∧ ∃ angle, q.angle = some angle ∧ Near targetAngle angle

section Queries

variable {servoId isMturn : UInt8}

theorem pure_reads {answer : Status × Option Float32} {status : Status} {angle : Option Float32}
    {w w' : World} (reads : answer.2.isSome = true ↔ answer.1 = .success)
    (step : (pure answer : Driver (Status × Option Float32)) w = some ((status, angle), w')) :
    angle.isSome = true ↔ status = .success := by
  obtain ⟨rfl, -⟩ := pure_eq_some.mp step
  exact reads

/-- A query reads an angle exactly if it succeeds. -/
theorem queryServoAngle_reads {x : Exchange} {status : Status} {angle : Option Float32}
    {w w' : World} (query : queryServoAngle x servoId w = some ((status, angle), w')) :
    angle.isSome = true ↔ status = .success := by
  obtain ⟨answer, middle, -, rest⟩ := bind_eq_some.mp query
  rcases answer with _ | ⟨statusCode, pkg⟩
  · exact pure_reads (by simp) rest
  · simp only at rest
    split_ifs at rest with success differs
    · exact pure_reads (by simp) rest
    · exact pure_reads (by simp [success]) rest
    · exact pure_reads (by simp [success]) rest

theorem queryServoAngleMTurn_reads {x : Exchange} {status : Status} {angle : Option Float32}
    {w w' : World} (query : queryServoAngleMTurn x servoId w = some ((status, angle), w')) :
    angle.isSome = true ↔ status = .success := by
  obtain ⟨taken, middle, -, rest⟩ := bind_eq_some.mp query
  cases taken with
  | false => exact pure_reads (by simp) rest
  | true =>
    obtain ⟨⟨statusCode, pkg⟩, last, -, rest⟩ := bind_eq_some.mp rest
    simp only at rest
    split_ifs at rest with success differs
    · exact pure_reads (by simp) rest
    · obtain ⟨_, final, -, done⟩ := bind_eq_some.mp rest
      exact pure_reads (by simp [success]) done
    · obtain ⟨_, final, -, done⟩ := bind_eq_some.mp rest
      exact pure_reads (by simp [success]) done

/-- A query of the loop reads an angle exactly if it succeeds. -/
theorem waitQuery_reads {x : Exchange} {status : Status} {angle : Option Float32} {w w' : World}
    (query : waitQuery x servoId isMturn w = some ((status, angle), w')) :
    angle.isSome = true ↔ status = .success := by
  unfold waitQuery at query
  split_ifs at query
  · exact queryServoAngleMTurn_reads query
  · exact queryServoAngle_reads query

theorem Queries.length {w w' : World} {queries : List Query}
    (made : Queries servoId isMturn w queries w') :
    w.exchanges.length = queries.length + w'.exchanges.length := by
  induction made with
  | nil => exact (Nat.zero_add _).symm
  | cons next query rest ih =>
    rw [next, List.length_cons, List.length_cons, Nat.add_right_comm, ← ih, (turn_cases query).1]

/-- The queries between two states are determined. -/
theorem Queries.unique {w w' : World} {queries : List Query}
    (made : Queries servoId isMturn w queries w') : ∀ {queries' : List Query},
      Queries servoId isMturn w queries' w' → queries = queries' := by
  induction made with
  | nil w =>
    intro queries' made'
    have none := made'.length
    exact (List.eq_nil_of_length_eq_zero (by omega)).symm
  | @cons w middle w' x exchanges status angle queries next query rest ih =>
    intro queries' made'
    cases made' with
    | nil =>
      have none := rest.length
      have left := (turn_cases query).1
      rw [left, next, List.length_cons] at none
      exact absurd none (by simp; omega)
    | cons next' query' rest' =>
      obtain ⟨rfl, rfl⟩ := List.cons.inj (next.symm.trans next')
      obtain ⟨same, rfl⟩ := Prod.mk.inj (Option.some.inj (query.symm.trans query'))
      obtain ⟨rfl, rfl⟩ := Prod.mk.inj same
      rw [ih rest']

/-! ### The loop -/

variable {targetAngle : Float32}

/-- All queries failed, and at the last one `angle_read` happened to be near the target. -/
def Leftover (targetAngle : Float32) (queries : List Query) : Prop :=
  (∀ q ∈ queries, q.status ≠ .success) ∧
    ∃ q, queries.getLast? = some q ∧ Near targetAngle q.stale

theorem Leftover.cons {q : Query} {queries : List Query} (failed : q.status ≠ .success)
    (rest : Leftover targetAngle queries) : Leftover targetAngle (q :: queries) := by
  obtain ⟨all, last, ends, near⟩ := rest
  refine ⟨List.forall_mem_cons.mpr ⟨failed, all⟩, last, ?_, near⟩
  rw [List.getLast?_cons, ends, Option.getD_some]

theorem waitTurns_succ (targetAngle : Float32) {w middle : World} {x : Exchange}
    {exchanges : List Exchange} {status : Status} {angle : Option Float32}
    (next : w.exchanges = x :: exchanges)
    (query : waitQuery x servoId isMturn { w with exchanges := exchanges } =
      some ((status, angle), middle)) (turns : ℕ) (angleRead : Option Float32) :
    (Near targetAngle ((angle <|> angleRead).getD x.stale) ∧
      waitTurns servoId targetAngle isMturn (turns + 1) angleRead w = some (.success, middle)) ∨
    (¬ Near targetAngle ((angle <|> angleRead).getD x.stale) ∧
      waitTurns servoId targetAngle isMturn (turns + 1) angleRead w =
        waitTurns servoId targetAngle isMturn turns (angle <|> angleRead) middle) := by
  have first : exchange w = some (x, { w with exchanges := exchanges }) := by
    rw [exchange, next]
  have whole : waitTurns servoId targetAngle isMturn (turns + 1) angleRead w =
      (if Near targetAngle ((angle <|> angleRead).getD x.stale) then return .success
        else waitTurns servoId targetAngle isMturn turns (angle <|> angleRead) :
          Driver Status) middle := by
    rw [waitTurns, bind_of_some _ first, bind_of_some _ query]
    rfl
  by_cases near : Near targetAngle ((angle <|> angleRead).getD x.stale)
  · rw [if_pos near] at whole
    exact Or.inl ⟨near, whole⟩
  · rw [if_neg near] at whole
    exact Or.inr ⟨near, whole⟩

/-- **The queries of the loop.** A success comes from a query that reached the target, or from what
was left in `angle_read` before any query succeeded. -/
theorem waitTurns_queries {turns : ℕ} : ∀ {angleRead : Option Float32} {status : Status}
    {w w' : World}, (∀ angle, angleRead = some angle → ¬ Near targetAngle angle) →
    waitTurns servoId targetAngle isMturn turns angleRead w = some (status, w') →
      ∃ queries, Queries servoId isMturn w queries w' ∧ queries.length ≤ turns ∧
        (status = .success → (∃ q ∈ queries, q.Reached targetAngle) ∨
          angleRead = none ∧ Leftover targetAngle queries) := by
  induction turns with
  | zero =>
    intro angleRead status w w' _ run
    obtain ⟨rfl, rfl⟩ := pure_eq_some.mp run
    exact ⟨[], .nil w, le_rfl, fun success => by cases success⟩
  | succ turns ih =>
    intro angleRead status w w' far run
    obtain ⟨x, exchanges, next, step⟩ := exchange_bind run
    obtain ⟨⟨queried, angle⟩, middle, query, -⟩ := bind_eq_some.mp step
    have reads := waitQuery_reads query
    obtain ⟨near, same⟩ | ⟨far', same⟩ := waitTurns_succ targetAngle next query turns angleRead
    · rw [same] at run
      obtain ⟨rfl, rfl⟩ := Prod.mk.inj (Option.some.inj run)
      refine ⟨[⟨x.stale, queried, angle⟩], .cons next query (.nil middle), Nat.succ_pos _,
        fun _ => ?_⟩
      cases angle with
      | some angle =>
        exact Or.inl ⟨_, List.mem_singleton_self _, reads.mp rfl, angle, rfl, near⟩
      | none =>
        cases angleRead with
        | some last => exact absurd near (far last rfl)
        | none =>
          have failed : queried ≠ .success := fun success => by simpa using reads.mpr success
          refine Or.inr ⟨rfl, ?_, _, rfl, near⟩
          simpa using failed
    · rw [same] at run
      have far'' : ∀ last, (angle <|> angleRead) = some last → ¬ Near targetAngle last := by
        intro last read
        rw [read] at far'
        exact far'
      obtain ⟨queries, made, few, success⟩ := ih far'' run
      refine ⟨_, .cons next query made, Nat.succ_le_succ few, fun ends => ?_⟩
      obtain ⟨q, member, reached⟩ | ⟨none, leftover⟩ := success ends
      · exact Or.inl ⟨q, List.mem_cons_of_mem _ member, reached⟩
      · obtain ⟨rfl, rfl⟩ : angle = .none ∧ angleRead = .none := by
          cases angle with
          | some angle => cases none
          | none => exact ⟨rfl, none⟩
        have failed : queried ≠ .success := fun success => by simpa using reads.mpr success
        exact Or.inr ⟨rfl, leftover.cons failed⟩

/-- **A leftover near the target** makes the loop succeed, and no query did. -/
theorem waitTurns_leftover {turns : ℕ} {w w' : World} {queries : List Query}
    (made : Queries servoId isMturn w queries w') : queries.length ≤ turns →
    Leftover targetAngle queries → ∃ early last,
      waitTurns servoId targetAngle isMturn turns none w = some (.success, last) ∧
        Queries servoId isMturn w early last ∧ ∀ q ∈ early, q.status ≠ .success := by
  induction made generalizing turns with
  | nil =>
    rintro - ⟨-, q, ends, -⟩
    cases ends
  | @cons w middle w' x exchanges status angle queries next query rest ih =>
    rintro few ⟨failed, last, ends, near⟩
    obtain ⟨failed, others⟩ := List.forall_mem_cons.mp failed
    obtain ⟨turns, rfl⟩ : ∃ rest, turns = rest + 1 :=
      Nat.exists_eq_succ_of_ne_zero (Nat.ne_of_gt (lt_of_lt_of_le (Nat.succ_pos _) few))
    obtain rfl : angle = none := by
      rw [← Option.not_isSome_iff_eq_none, waitQuery_reads query]
      exact failed
    obtain ⟨-, run⟩ | ⟨far, run⟩ := waitTurns_succ targetAngle next query turns none
    · exact ⟨_, middle, run, .cons next query (.nil middle), by simpa using failed⟩
    · have more : queries.getLast? = some last := by
        rw [List.getLast?_cons] at ends
        cases late : queries.getLast? with
        | none =>
          rw [late] at ends
          obtain rfl := Option.some.inj ends
          exact absurd near far
        | some q =>
          rw [late] at ends
          exact ends
      obtain ⟨early, last, run', made, failed'⟩ :=
        ih (Nat.le_of_succ_le_succ few) ⟨others, last, more, near⟩
      exact ⟨_, last, run.trans run', .cons next query made,
        List.forall_mem_cons.mpr ⟨failed, failed'⟩⟩

end Queries

/-! ### Honesty -/

/-- `FSUS_Wait` makes a bounded number of queries, and succeeds only if one of them reached the
target. -/
def Honest (servoId : UInt8) (targetAngle : Float32) (isMturn : UInt8) (w : World) : Prop :=
  ∀ status w', wait servoId targetAngle isMturn w = some (status, w') →
    ∃ queries, Queries servoId isMturn w queries w' ∧ queries.length ≤ waitCountMax ∧
      (status = .success → ∃ q ∈ queries, q.Reached targetAngle)

/-- The first queries all fail, and at one of them `angle_read` happens to be near the target. -/
def Misled (servoId : UInt8) (targetAngle : Float32) (isMturn : UInt8) (w : World) : Prop :=
  ∃ queries w', Queries servoId isMturn w queries w' ∧ queries.length ≤ waitCountMax ∧
    Leftover targetAngle queries

section Honest

variable {servoId isMturn : UInt8} {targetAngle : Float32} {w : World}

theorem Misled.not_honest (misled : Misled servoId targetAngle isMturn w) :
    ¬ Honest servoId targetAngle isMturn w := by
  intro honest
  obtain ⟨queries, w', made, few, leftover⟩ := misled
  obtain ⟨early, last, run, made', failed⟩ := waitTurns_leftover made few leftover
  obtain ⟨queries', made'', -, success⟩ := honest _ _ run
  obtain ⟨q, member, reached, -⟩ := success rfl
  rw [made''.unique made'] at member
  exact failed q member reached

/-- **Waiting is honest** exactly if no leftover misleads it. -/
theorem honest_iff (servoId : UInt8) (targetAngle : Float32) (isMturn : UInt8) (w : World) :
    Honest servoId targetAngle isMturn w ↔ ¬ Misled servoId targetAngle isMturn w := by
  refine ⟨fun honest misled => misled.not_honest honest, fun led status w' run => ?_⟩
  obtain ⟨queries, made, few, success⟩ := waitTurns_queries (fun _ none => by cases none) run
  refine ⟨queries, made, few, fun ends => ?_⟩
  exact (success ends).resolve_right fun ⟨_, leftover⟩ =>
    led ⟨queries, w', made, few, leftover⟩

end Honest

/-- **The mutex is not free**, and what is left in `angle_read` is the target. -/
theorem misled_by_leftover :
    ¬ Honest 1 0.0 0 ⟨0, [{ reply 1 with granted := false }], []⟩ := by
  have failed : waitQuery { reply 1 with granted := false } 1 0 ⟨0, [], []⟩ =
      some ((.timeout, none), ⟨0, [], []⟩) := rfl
  refine Misled.not_honest ⟨_, _, .cons rfl failed (.nil _), ?_, ?_, _, rfl, ?_⟩
  · decide
  · simp
  · decide +kernel

end Robocon.Servo
