/-
**When a state machine is finished.**

* `Ends sm responses` — an update should finish the machine: the function of the current state
  returns `stateFinish`, or the current state is the default finish state.
* `Finishing sm input` — the step finishes the machine if and only if it should, and calls no
  function of the user once it is finished, until `aStateMachine_restart`.
* `finishing_iff` — a step does so exactly if it is no update in the default finish state, and
  none in a state that returns `stateFinish` and has transitions (`Sane`).
* `finished_final_iff` — the same for whole runs.

The default finish state is set up without `defaultFinishState_excution`, so an update there does
not finish the machine (`finish_missed`). The transitions of a state are looked through after the
machine has been finished.
-/

import Robocon.StateMachine.Control

namespace Robocon.StateMachine

open Lib

variable {V : Type → Type} {vec : CVector V}

/-! ### What every reachable machine satisfies -/

variable (vec) in
/-- `aState_Init` has set up every state. -/
def Fresh (memory : Ref → AState V) : Prop :=
  ∀ s, ∃ name excution entry exit, memory s = aStateInit vec name excution entry exit

variable (vec) in
/-- The default finish state has no function, every transition is triggered, and a finished machine
has been started. -/
structure Sound (sm : AStateMachine V) : Prop where
  finish : (sm.memory .finish).excution = none
  triggered : ∀ s, ∀ t ∈ vec.toList (sm.memory s).transitions, t.trigger = true
  started : sm.finished = true → sm.started = true

theorem sound_init {memory : Ref → AState V} (fresh : Fresh vec memory) (address : ℕ) :
    Sound vec (.init vec memory address) := by
  have finish : (AStateMachine.init vec memory address).memory .finish =
      aStateInit vec ⟨address, "finish"⟩ none none none := by
    show Function.update memory .finish _ .finish = _
    exact Function.update_self _ _ _
  refine ⟨by rw [finish]; rfl, fun s t member => ?_, Bool.noConfusion⟩
  have empty : vec.toList ((AStateMachine.init vec memory address).memory s).transitions = [] := by
    by_cases apart : s = .finish
    · rw [apart, finish]
      exact vec.toList_create
    · obtain ⟨name, excution, entry, exit, set⟩ := fresh s
      show vec.toList (Function.update memory .finish _ s).transitions = []
      rw [Function.update_of_ne apart, set]
      exact vec.toList_create
  rw [empty] at member
  cases member

variable {sm sm' : AStateMachine V}

theorem Sound.addTransition1 (sound : Sound vec sm) (source target : Option Ref)
    (condition : Option Function) : Sound vec (sm.addTransition1 vec source target condition) := by
  cases source with
  | none => exact sound
  | some source =>
    unfold AStateMachine.addTransition1
    simp only
    split
    · refine ⟨?_, fun s t member => ?_, sound.started⟩
      · show (Function.update sm.memory source _ .finish).excution = none
        by_cases self : Ref.finish = source
        · rw [self, Function.update_self]
          exact self ▸ sound.finish
        · rw [Function.update_of_ne self]
          exact sound.finish
      · simp only at member
        by_cases self : s = source
        · rw [self, Function.update_self, AState.addTransition, vec.toList_pushback] at member
          rcases List.mem_append.mp member with old | last
          · exact sound.triggered source t old
          · rw [List.mem_singleton.mp last]
            rfl
        · rw [Function.update_of_ne self] at member
          exact sound.triggered s t member
    · exact sound

/-! ### The loop of an update -/

/-- The loop moves `current` and `previous` only. -/
theorem scan_keeps {conditions : ℕ → Bool} {events : List Event} :
    ∀ {fuel i : ℕ}, AStateMachine.scan vec conditions fuel i sm = some (sm', events) →
      ∃ current previous, sm' = { sm with current := current, previous := previous } := by
  intro fuel
  induction fuel generalizing events with
  | zero => exact fun scanned => nomatch scanned
  | succ fuel ih =>
    intro i scanned
    unfold AStateMachine.scan at scanned
    obtain ⟨current, -, scanned⟩ := Option.bind_eq_some_iff.mp scanned
    split at scanned
    · obtain ⟨t, -, scanned⟩ := Option.bind_eq_some_iff.mp scanned
      split at scanned
      · obtain ⟨condition, -, scanned⟩ := Option.bind_eq_some_iff.mp scanned
        split at scanned
        · obtain ⟨rfl, -⟩ := Prod.mk.inj (Option.some.inj scanned)
          exact ⟨_, _, rfl⟩
        · obtain ⟨next, later, same⟩ := Option.map_eq_some_iff.mp scanned
          obtain ⟨rfl, -⟩ := Prod.mk.inj same
          exact ih later
      · exact ih scanned
    · obtain ⟨rfl, -⟩ := Prod.mk.inj (Option.some.inj scanned)
      exact ⟨_, _, rfl⟩

theorem scan_of_empty {current : Ref} (here : sm.current = some current)
    (empty : vec.toList (sm.memory current).transitions = []) (conditions : ℕ → Bool)
    (fuel : ℕ) : AStateMachine.scan vec conditions (fuel + 1) 0 sm = some (sm, []) := by
  have past : ¬ 0 < vec.length (sm.memory current).transitions := by
    rw [vec.length_eq, empty]
    exact lt_irrefl 0
  rw [AStateMachine.scan, here, Option.bind_some, if_neg past]

/-- With a transition the loop asks for its condition. -/
theorem scan_asks {current : Ref} (here : sm.current = some current)
    (triggered : ∀ t ∈ vec.toList (sm.memory current).transitions, t.trigger = true)
    (some_transition : vec.toList (sm.memory current).transitions ≠ [])
    {conditions : ℕ → Bool} {fuel : ℕ} {events : List Event}
    (scanned : AStateMachine.scan vec conditions fuel 0 sm = some (sm', events)) : events ≠ [] := by
  obtain ⟨t, rest, split⟩ := List.exists_cons_of_ne_nil some_transition
  have inside : 0 < vec.length (sm.memory current).transitions := by
    rw [vec.length_eq, split]
    exact Nat.succ_pos _
  have first : vec.get (sm.memory current).transitions 0 = some t := by
    rw [vec.get_eq, split]
    rfl
  have trigger : t.trigger = true := triggered t (split ▸ List.mem_cons_self)
  cases fuel with
  | zero => exact nomatch scanned
  | succ fuel =>
    rw [AStateMachine.scan, here, Option.bind_some, if_pos inside, first, Option.bind_some,
      if_pos trigger] at scanned
    obtain ⟨condition, -, scanned⟩ := Option.bind_eq_some_iff.mp scanned
    split at scanned
    · obtain ⟨-, rfl⟩ := Prod.mk.inj (Option.some.inj scanned)
      exact List.cons_ne_nil _ _
    · obtain ⟨next, -, same⟩ := Option.map_eq_some_iff.mp scanned
      obtain ⟨-, rfl⟩ := Prod.mk.inj same
      exact List.cons_ne_nil _ _

/-! ### One update -/

theorem update_of_unstarted (unstarted : sm.started = false) (responses : Responses) :
    sm.update vec responses = some (sm, []) := if_pos unstarted

theorem update_of_finished (finished : sm.finished = true) (responses : Responses) :
    sm.update vec responses = some (sm, []) := by
  rw [AStateMachine.update, if_pos finished, ite_self]

theorem update_of_running {current : Ref} (started : sm.started = true)
    (unfinished : sm.finished = false) (here : sm.current = some current)
    (responses : Responses) :
    sm.update vec responses =
      (AStateMachine.scan vec responses.conditions
        (vec.length (sm.memory current).transitions + 1) 0
        (if (sm.memory current).excution.isSome ∧ responses.excution = stateFinish then sm.finish
          else sm)).map fun last =>
        (last.1, (sm.memory current).callExcution current ++ last.2) := by
  have going : ¬ sm.started = false := by
    rw [started]
    exact Bool.noConfusion
  have ongoing : ¬ sm.finished = true := by
    rw [unfinished]
    exact Bool.noConfusion
  rw [AStateMachine.update, if_neg going, if_neg ongoing, here]

/-- An update moves a started machine only, and leaves its states alone. -/
theorem update_keeps {responses : Responses} {events : List Event}
    (updated : sm.update vec responses = some (sm', events)) :
    sm' = sm ∨ sm.started = true ∧ ∃ current previous finished,
      sm' = { sm with current := current, previous := previous, finished := finished } := by
  unfold AStateMachine.update at updated
  split at updated
  · obtain ⟨rfl, -⟩ := Prod.mk.inj (Option.some.inj updated)
    exact .inl rfl
  · rename_i going
    have started : sm.started = true := Bool.eq_true_of_not_eq_false going
    split at updated
    · obtain ⟨rfl, -⟩ := Prod.mk.inj (Option.some.inj updated)
      exact .inl rfl
    · split at updated
      · obtain ⟨last, scanned, same⟩ := Option.map_eq_some_iff.mp updated
        obtain ⟨rfl, -⟩ := Prod.mk.inj same
        obtain ⟨current, previous, moved⟩ := scan_keeps scanned
        refine .inr ⟨started, current, previous, ?_⟩
        rw [moved]
        split
        · exact ⟨true, rfl⟩
        · exact ⟨sm.finished, rfl⟩
      · obtain ⟨rfl, -⟩ := Prod.mk.inj (Option.some.inj updated)
        exact .inl rfl

/-! ### What finishing means -/

/-- The update finishes the machine: its current state returns `stateFinish`, or is the default
finish state. -/
def Ends (sm : AStateMachine V) (responses : Responses) : Prop :=
  sm.started = true ∧ ∃ current, sm.current = some current ∧
    ((sm.memory current).excution.isSome ∧ responses.excution = stateFinish ∨ current = .finish)

/-- The machine is finished by the step if and only if the step is an update that ends it, which
calls no function after that; once finished, it stays so and calls nothing until it is restarted. -/
structure Finishing (sm : AStateMachine V) (input : Input) (next : AStateMachine V)
    (events : List Event) : Prop where
  reached : sm.finished = false →
    (next.finished = true ↔ ∃ responses, input = .update responses ∧ Ends sm responses)
  silent : sm.finished = false → ∀ responses, input = .update responses → Ends sm responses →
    next.current = sm.current ∧
      ∀ current, sm.current = some current → events = (sm.memory current).callExcution current
  final : sm.finished = true → (∀ s, input ≠ .restart s) →
    next.finished = true ∧ events = [] ∧ next.current = sm.current

variable (vec) in
/-- Whatever the step does, it finishes the machine as it should. -/
def FinishesRight (sm : AStateMachine V) (input : Input) : Prop :=
  ∀ next events, (control vec).step sm input = some (next, events) →
    Finishing sm input next events

variable (vec) in
/-- No running machine is updated in the default finish state, or in a state that returns
`stateFinish` and has transitions. -/
def Sane (sm : AStateMachine V) : Input → Prop
  | .update responses => sm.started = true → sm.finished = false → ∀ current ∈ sm.current,
    current ≠ .finish ∧ ((sm.memory current).excution.isSome → responses.excution = stateFinish →
      vec.toList (sm.memory current).transitions = [])
  | _ => True

/-! ### One step -/

variable {input : Input} {events : List Event}

theorem sane_of_other (other : ∀ responses, input ≠ .update responses) : Sane vec sm input := by
  cases input with
  | update responses => exact absurd rfl (other responses)
  | _ => trivial

/-- A call that is no update and changes no more than the graph. -/
theorem Finishing.of_same (other : ∀ responses, input ≠ .update responses)
    (finished : sm'.finished = sm.finished) (current : sm'.current = sm.current)
    (quiet : events = []) : Finishing sm input sm' events := by
  refine ⟨fun unfinished => ?_, fun _ responses same => absurd same (other responses),
    fun done _ => ⟨finished.trans done, quiet, current⟩⟩
  rw [finished, unfinished]
  exact ⟨Bool.noConfusion, fun ⟨responses, same, _⟩ => absurd same (other responses)⟩

theorem Finishing.of_opened (other : ∀ responses, input ≠ .update responses)
    (finished : sm'.finished = false)
    (unfinished : (∀ s, input ≠ .restart s) → sm.finished = false) :
    Finishing sm input sm' events := by
  refine ⟨fun _ => ?_, fun _ responses same => absurd same (other responses), fun done stays => ?_⟩
  · rw [finished]
    exact ⟨Bool.noConfusion, fun ⟨responses, same, _⟩ => absurd same (other responses)⟩
  · rw [unfinished stays] at done
    cases done

/-- A call that builds leaves the machine where it is. -/
theorem build_keeps (sm : AStateMachine V) (call : Build) :
    (sm.build vec call).started = sm.started ∧ (sm.build vec call).finished = sm.finished ∧
      (sm.build vec call).current = sm.current := by
  cases call with
  | addState s => exact ⟨rfl, rfl, rfl⟩
  | addTransition1 source target condition =>
    cases source with
    | none => exact ⟨rfl, rfl, rfl⟩
    | some source =>
      unfold AStateMachine.build AStateMachine.addTransition1
      simp only
      split
      · exact ⟨rfl, rfl, rfl⟩
      · exact ⟨rfl, rfl, rfl⟩

variable (vec) in
/-- A call either builds, starts, restarts or updates the machine. -/
theorem builds_or (sm : AStateMachine V) (input : Input) :
    (∃ call, (control vec).step sm input = some (sm.build vec call, []) ∧
        ∀ responses, input ≠ .update responses) ∨
      (∃ s, input = .start s) ∨ (∃ s, input = .restart s) ∨
        ∃ responses, input = .update responses := by
  cases input with
  | build call => exact .inl ⟨call, rfl, fun _ => Input.noConfusion⟩
  | addTransition2 fromName toName condition =>
    exact .inl ⟨.addTransition1 (sm.convertState vec fromName) (sm.convertState vec toName)
      condition, rfl, fun _ => Input.noConfusion⟩
  | addTransition3 source toName condition =>
    exact .inl ⟨.addTransition1 source (sm.convertState vec toName) condition, rfl,
      fun _ => Input.noConfusion⟩
  | addTransition4 fromName target condition =>
    exact .inl ⟨.addTransition1 (sm.convertState vec fromName) target condition, rfl,
      fun _ => Input.noConfusion⟩
  | start s => exact .inr (.inl ⟨s, rfl⟩)
  | restart s => exact .inr (.inr (.inl ⟨s, rfl⟩))
  | update responses => exact .inr (.inr (.inr ⟨responses, rfl⟩))

theorem sane_update_iff {current : Ref} (started : sm.started = true)
    (unfinished : sm.finished = false) (here : sm.current = some current)
    (responses : Responses) :
    Sane vec sm (.update responses) ↔ current ≠ .finish ∧
      ((sm.memory current).excution.isSome → responses.excution = stateFinish →
        vec.toList (sm.memory current).transitions = []) := by
  refine ⟨fun sane => sane started unfinished current here, fun condition _ _ place found => ?_⟩
  obtain rfl := Option.some.inj (here.symm.trans found)
  exact condition

theorem ends_iff {current : Ref} (started : sm.started = true) (here : sm.current = some current)
    (responses : Responses) :
    Ends sm responses ↔
      ((sm.memory current).excution.isSome ∧ responses.excution = stateFinish) ∨
        current = .finish := by
  refine ⟨fun ⟨_, place, found, cause⟩ => ?_, fun cause => ⟨started, current, here, cause⟩⟩
  obtain rfl := Option.some.inj (here.symm.trans found)
  exact cause

theorem Finishing.of_idle {responses : Responses} (idle : sm.finished = false →
    ¬ Ends sm responses) : Finishing sm (.update responses) sm [] := by
  refine ⟨fun unfinished => ?_, fun unfinished other same ends => ?_,
    fun done _ => ⟨done, rfl, rfl⟩⟩
  · rw [unfinished]
    refine ⟨Bool.noConfusion, fun ⟨other, same, ends⟩ => ?_⟩
    obtain rfl := Input.update.inj same
    exact absurd ends (idle unfinished)
  · obtain rfl := Input.update.inj same
    exact absurd ends (idle unfinished)

/-- An update of a running machine finishes it as it should if and only if it is sane. -/
theorem finishing_running_iff (sound : Sound vec sm) {current : Ref}
    (started : sm.started = true) (unfinished : sm.finished = false)
    (here : sm.current = some current) {responses : Responses}
    (updated : sm.update vec responses = some (sm', events)) :
    Finishing sm (.update responses) sm' events ↔ Sane vec sm (.update responses) := by
  rw [update_of_running started unfinished here] at updated
  obtain ⟨⟨last, later⟩, scanned, same⟩ := Option.map_eq_some_iff.mp updated
  obtain ⟨rfl, rfl⟩ := Prod.mk.inj same
  rw [sane_update_iff started unfinished here]
  have ends := ends_iff started here responses
  by_cases returns : (sm.memory current).excution.isSome ∧ responses.excution = stateFinish
  · rw [if_pos returns] at scanned
    have finished : last.finished = true := by
      obtain ⟨_, _, rfl⟩ := scan_keeps scanned
      rfl
    have ending : Ends sm responses := ends.mpr (.inl returns)
    have still : sm.finish.current = some current := here
    have apart : current ≠ .finish := by
      rintro rfl
      rw [sound.finish] at returns
      exact Bool.noConfusion returns.1
    refine ⟨fun right => ⟨apart, fun _ _ => ?_⟩, fun sane => ⟨fun _ => ?_, ?_, fun done => ?_⟩⟩
    · by_contra transitions
      refine scan_asks still (sound.triggered current) transitions scanned ?_
      have quiet := (right.silent unfinished responses rfl ending).2 current here
      exact List.append_right_eq_self.mp quiet
    · exact ⟨fun _ => ⟨responses, rfl, ending⟩, fun _ => finished⟩
    · intro _ other same _
      rw [scan_of_empty still (sane.2 returns.1 returns.2)] at scanned
      obtain ⟨rfl, rfl⟩ := Prod.mk.inj (Option.some.inj scanned)
      refine ⟨rfl, fun place found => ?_⟩
      obtain rfl := Option.some.inj (here.symm.trans found)
      exact List.append_nil _
    · rw [unfinished] at done
      cases done
  · rw [if_neg returns] at scanned
    have ongoing : last.finished = false := by
      obtain ⟨_, _, rfl⟩ := scan_keeps scanned
      exact unfinished
    have never (apart : current ≠ .finish) (other : Responses)
        (same : Input.update responses = .update other) : ¬ Ends sm other := by
      obtain rfl := Input.update.inj same
      exact fun ending => (ends.mp ending).elim returns apart
    refine ⟨fun right => ⟨?_, fun set result => absurd ⟨set, result⟩ returns⟩, fun sane =>
      ⟨fun _ => ?_, fun _ other same ending => absurd ending (never sane.1 other same),
        fun done => ?_⟩⟩
    · rintro rfl
      have finished := (right.reached unfinished).mpr ⟨responses, rfl, ends.mpr (.inr rfl)⟩
      rw [ongoing] at finished
      cases finished
    · rw [ongoing]
      exact ⟨Bool.noConfusion, fun ⟨other, same, ending⟩ => absurd ending (never sane.1 other same)⟩
    · rw [unfinished] at done
      cases done

theorem finishing_update_iff (sound : Sound vec sm) {responses : Responses}
    (updated : sm.update vec responses = some (sm', events)) :
    Finishing sm (.update responses) sm' events ↔ Sane vec sm (.update responses) := by
  have idle (alone : sm.update vec responses = some (sm, []))
      (never : sm.finished = false → ¬ Ends sm responses)
      (sane : Sane vec sm (.update responses)) :
      Finishing sm (.update responses) sm' events ↔ Sane vec sm (.update responses) := by
    rw [alone] at updated
    obtain ⟨rfl, rfl⟩ := Prod.mk.inj (Option.some.inj updated)
    exact iff_of_true (.of_idle never) sane
  cases started : sm.started with
  | false =>
    refine idle (update_of_unstarted started responses) (fun _ ends => ?_)
      fun running => ?_
    · exact Bool.noConfusion (started.symm.trans ends.1)
    · exact Bool.noConfusion (started.symm.trans running)
  | true =>
    cases finished : sm.finished with
    | true =>
      refine idle (update_of_finished finished responses) (fun unfinished => ?_)
        fun _ unfinished => ?_
      · exact Bool.noConfusion (finished.symm.trans unfinished)
      · exact Bool.noConfusion (finished.symm.trans unfinished)
    | false =>
      cases here : sm.current with
      | none =>
        have nowhere (current : Ref) : sm.current ≠ some current := by
          rw [here]
          exact Option.some_ne_none current ∘ Eq.symm
        refine idle ?_ (fun _ ⟨_, current, found, _⟩ => absurd found (nowhere current))
          fun _ _ current found => absurd found (nowhere current)
        have going : ¬ sm.started = false := by
          rw [started]
          exact Bool.noConfusion
        have ongoing : ¬ sm.finished = true := by
          rw [finished]
          exact Bool.noConfusion
        rw [AStateMachine.update, if_neg going, if_neg ongoing, here]
        exact if_neg going
      | some current => exact finishing_running_iff sound started finished here updated

/-- **One step** finishes the machine as it should if and only if it is sane. -/
theorem finishing_iff (sound : Sound vec sm)
    (stepped : (control vec).step sm input = some (sm', events)) :
    Finishing sm input sm' events ↔ Sane vec sm input := by
  rcases builds_or vec sm input with
    ⟨call, built, other⟩ | ⟨s, rfl⟩ | ⟨s, rfl⟩ | ⟨responses, rfl⟩
  · rw [built] at stepped
    obtain ⟨rfl, rfl⟩ := Prod.mk.inj (Option.some.inj stepped)
    obtain ⟨_, finished, current⟩ := build_keeps sm call
    exact iff_of_true (.of_same other finished current rfl) (sane_of_other other)
  · refine iff_of_true ?_ (sane_of_other fun _ => Input.noConfusion)
    cases started : sm.started with
    | true =>
      obtain ⟨rfl, rfl⟩ := Prod.mk.inj (Option.some.inj ((if_pos started).symm.trans stepped))
      exact .of_same (fun _ => Input.noConfusion) rfl rfl rfl
    | false =>
      have going : ¬ sm.started = true := Bool.eq_false_iff.mp started
      have finished : sm.finished = false := Bool.eq_false_iff.mpr (going ∘ sound.started)
      obtain ⟨s, rfl, same⟩ := Option.map_eq_some_iff.mp ((if_neg going).symm.trans stepped)
      obtain ⟨rfl, rfl⟩ := Prod.mk.inj same
      exact .of_opened (fun _ => Input.noConfusion) finished fun _ => finished
  · refine iff_of_true ?_ (sane_of_other fun _ => Input.noConfusion)
    obtain ⟨s, rfl, same⟩ := Option.map_eq_some_iff.mp stepped
    obtain ⟨rfl, rfl⟩ := Prod.mk.inj same
    exact .of_opened (fun _ => Input.noConfusion) rfl fun stays => absurd rfl (stays (some s))
  · exact finishing_update_iff sound stepped

/-! ### Runs -/

theorem Sound.next (sound : Sound vec sm)
    (stepped : (control vec).step sm input = some (sm', events)) : Sound vec sm' := by
  rcases builds_or vec sm input with
    ⟨call, built, _⟩ | ⟨s, rfl⟩ | ⟨s, rfl⟩ | ⟨responses, rfl⟩
  · rw [built] at stepped
    obtain ⟨rfl, -⟩ := Prod.mk.inj (Option.some.inj stepped)
    cases call with
    | addState s => exact ⟨sound.finish, sound.triggered, sound.started⟩
    | addTransition1 source target condition => exact sound.addTransition1 source target condition
  · cases started : sm.started with
    | true =>
      obtain ⟨rfl, -⟩ := Prod.mk.inj (Option.some.inj ((if_pos started).symm.trans stepped))
      exact sound
    | false =>
      have going : ¬ sm.started = true := Bool.eq_false_iff.mp started
      obtain ⟨s, rfl, same⟩ := Option.map_eq_some_iff.mp ((if_neg going).symm.trans stepped)
      obtain ⟨rfl, -⟩ := Prod.mk.inj same
      exact ⟨sound.finish, sound.triggered, fun _ => rfl⟩
  · obtain ⟨s, rfl, same⟩ := Option.map_eq_some_iff.mp stepped
    obtain ⟨rfl, -⟩ := Prod.mk.inj same
    exact ⟨sound.finish, sound.triggered, Bool.noConfusion⟩
  · rcases update_keeps stepped with rfl | ⟨started, _, _, _, rfl⟩
    · exact sound
    · exact ⟨sound.finish, sound.triggered, fun _ => started⟩

/-- **Finishing is final and reachable** in a run if and only if its updates are sane. -/
theorem finished_final_iff {memory : Ref → AState V} (fresh : Fresh vec memory) (address : ℕ)
    {inputs : List Input} {outs : List Event} {last : AStateMachine V} :
    (control vec).RunOn (FinishesRight vec) (.init vec memory address) inputs outs last ↔
      (control vec).RunOn (Sane vec) (.init vec memory address) inputs outs last := by
  refine Machine.RunOn.guard_iff_of_invariant (Sound vec)
    (fun state input next output sound stepped => sound.next stepped) ?_
    (sound_init fresh address)
  intro state input next output sound stepped
  refine ⟨fun right => ?_, fun sane other events again => ?_⟩
  · exact (finishing_iff sound stepped).mp (right next output stepped)
  · exact (finishing_iff sound again).mpr sane

/-! ### Two states, one of which goes to the default finish state -/

instance (sm : AStateMachine List) (input : Input) : Decidable (Sane .list sm input) :=
  match input with
  | .update responses => inferInstanceAs (Decidable (sm.started = true → sm.finished = false →
      ∀ current ∈ sm.current, current ≠ .finish ∧ ((sm.memory current).excution.isSome →
        responses.excution = stateFinish → (sm.memory current).transitions = [])))
  | .build _ | .addTransition2 .. | .addTransition3 .. | .addTransition4 .. | .start _
  | .restart _ => .isTrue trivial

/-- Every state has an `excution`. -/
def running : Ref → AState List := fun _ => aStateInit .list ⟨0, "run"⟩ (some 1) none none

theorem running_fresh : Fresh .list running := fun _ => ⟨_, _, _, _, rfl⟩

/-- One state goes to another, which has no transitions and returns `stateFinish`. -/
def finishingInputs : List Input :=
  [.build (.addState (.user 0)), .build (.addState (.user 1)),
    .build (.addTransition1 (some (.user 0)) (some (.user 1)) (some 2)), .start (some (.user 0)),
    .update ⟨0, fun _ => true⟩, .update ⟨stateFinish, fun _ => true⟩, .update ⟨0, fun _ => true⟩]

theorem finished_final_two_states :
    ∃ outs last,
      (control CVector.list).RunOn (FinishesRight .list) (.init .list running 10) finishingInputs
        outs last ∧ last.finished = true ∧ last.current = some (.user 1) := by
  obtain ⟨outs, last, run, checked⟩ := Machine.exists_run (control CVector.list) (Sane .list)
    (.init .list running 10) finishingInputs
    (fun last _ => last.finished = true ∧ last.current = some (.user 1)) (by decide +kernel)
  exact ⟨outs, last, (finished_final_iff running_fresh 10).mpr run, of_decide_eq_true checked⟩

/-- One state goes to `NULL`. -/
def missingInputs : List Input :=
  [.build (.addState (.user 0)), .build (.addTransition1 (some (.user 0)) none (some 2)),
    .start (some (.user 0)), .update ⟨0, fun _ => true⟩]

/-- The update in the default finish state does not finish the machine. -/
theorem finish_missed :
    ∃ outs last,
      (control CVector.list).Run (.init .list running 10)
        (missingInputs ++ [.update ⟨0, fun _ => true⟩]) outs last ∧
      ¬ (control CVector.list).RunOn (FinishesRight .list) (.init .list running 10)
        (missingInputs ++ [.update ⟨0, fun _ => true⟩]) outs last := by
  obtain ⟨early, sm, head, checked⟩ := Machine.exists_run (control CVector.list) (fun _ _ => True)
    (.init .list running 10) missingInputs
    (fun sm _ => sm.started = true ∧ sm.finished = false ∧ sm.current = some .finish)
    (by decide +kernel)
  obtain ⟨outs, last, run, -⟩ := Machine.exists_run (control CVector.list) (fun _ _ => True)
    (.init .list running 10) (missingInputs ++ [.update ⟨0, fun _ => true⟩]) (fun _ _ => true)
    (by decide +kernel)
  refine ⟨outs, last, run, fun right => ?_⟩
  obtain ⟨started, unfinished, here⟩ := of_decide_eq_true checked
  have sound : Sound .list sm := head.invariant (Sound .list)
    (fun _ _ _ _ _ sound stepped => sound.next stepped) (sound_init running_fresh 10)
  obtain ⟨middle, _, _, _, first, second⟩ := right.split
  obtain ⟨-, rfl⟩ := Machine.Run.unique head (first.weaken fun _ _ _ => trivial)
  obtain ⟨next, events, _, _, meets, stepped, _⟩ := second.uncons
  have sane := (finishing_iff sound stepped).mp (meets next events stepped)
  exact (sane started unfinished .finish here).1 rfl

end Robocon.StateMachine
