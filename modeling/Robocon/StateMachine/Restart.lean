/-
**Restarting a state machine.**

`observed` shows, for each call, the functions that it called and the `current` and `previous` that
it left.

* `Run.builds` — a machine is, up to where it stands, what its building calls alone make of a fresh
  one.
* `restart_trace_iff` — after `aStateMachine_restart` a machine shows what a fresh one shows after
  `aStateMachine_start` exactly if no update follows, or the state has nothing to do in one.

`aStateMachine_restart` leaves `started` cleared, so the updates after it do nothing
(`restart_silent`).
-/

import Robocon.StateMachine.Finish

namespace Robocon.StateMachine

open Lib

variable {V : Type → Type} {vec : CVector V}

/-! ### What the users see -/

/-- What one call shows: the functions called, `current` and `previous`. -/
structure Observation where
  events : List Event
  current : Option Ref
  previous : Option Ref
  deriving DecidableEq

variable (vec) in
/-- The state machine, seen from outside. -/
def observed : Machine (AStateMachine V) Input Observation where
  step sm input := ((control vec).step sm input).map fun next =>
    (next.1, [⟨next.2, next.1.current, next.1.previous⟩])

variable (vec) in
/-- The two machines show the same under their calls. -/
def SameTrace (sm sm' : AStateMachine V) (inputs inputs' : List Input) : Prop :=
  ∀ seen, (∃ last, (observed vec).Run sm inputs seen last) ↔
    ∃ last, (observed vec).Run sm' inputs' seen last

/-- The calls that build the machine. -/
def Input.builds : Input → Bool
  | .build _ | .addTransition2 .. | .addTransition3 .. | .addTransition4 .. => true
  | .start _ | .restart _ | .update _ => false

/-- The machine before it is started. -/
def AStateMachine.unstarted (sm : AStateMachine V) : AStateMachine V :=
  { sm with started := false, finished := false, current := none, previous := none }

/-- The machine once it has been started in a state. -/
def AStateMachine.startedIn (sm : AStateMachine V) (s : Ref) : AStateMachine V :=
  { sm with started := true, finished := false, current := some s, previous := none }

/-- The machine once it has been restarted in a state. -/
def AStateMachine.restartedIn (sm : AStateMachine V) (s : Ref) : AStateMachine V :=
  { sm with started := false, finished := false, current := some s, previous := none }

variable {sm sm' : AStateMachine V} {input : Input} {events : List Event}

/-! ### A fresh machine with the same graph -/

theorem build_unstarted (sm : AStateMachine V) (call : Build) :
    sm.unstarted.build vec call = (sm.build vec call).unstarted := by
  cases call with
  | addState s => rfl
  | addTransition1 source target condition =>
    cases source with
    | none => rfl
    | some source =>
      unfold AStateMachine.build AStateMachine.addTransition1
      simp only
      by_cases added : sm.isAdded vec (some source)
      · have added' : sm.unstarted.isAdded vec (some source) := added
        rw [if_pos added, if_pos added']
        rfl
      · have added' : ¬ sm.unstarted.isAdded vec (some source) := added
        rw [if_neg added, if_neg added']

/-- A building call does the same to the fresh machine. -/
theorem step_of_builds (building : input.builds = true)
    (stepped : (control vec).step sm input = some (sm', events)) :
    (control vec).step sm.unstarted input = some (sm'.unstarted, []) := by
  have same (call : Build)
      (next : some (sm.build vec call, ([] : List Event)) = some (sm', events)) :
      some (sm.unstarted.build vec call, ([] : List Event)) = some (sm'.unstarted, []) := by
    obtain ⟨rfl, -⟩ := Prod.mk.inj (Option.some.inj next)
    rw [build_unstarted]
  cases input with
  | build call => exact same call stepped
  | addTransition2 fromName toName condition =>
    exact same (.addTransition1 (sm.convertState vec fromName) (sm.convertState vec toName)
      condition) stepped
  | addTransition3 source toName condition =>
    exact same (.addTransition1 source (sm.convertState vec toName) condition) stepped
  | addTransition4 fromName target condition =>
    exact same (.addTransition1 (sm.convertState vec fromName) target condition) stepped
  | start s => cases building
  | restart s => cases building
  | update responses => cases building

theorem step_of_other (other : input.builds = false)
    (stepped : (control vec).step sm input = some (sm', events)) :
    sm'.unstarted = sm.unstarted := by
  cases input with
  | build call => cases other
  | addTransition2 fromName toName condition => cases other
  | addTransition3 source toName condition => cases other
  | addTransition4 fromName target condition => cases other
  | start s =>
    by_cases started : sm.started = true
    · obtain ⟨rfl, -⟩ := Prod.mk.inj (Option.some.inj ((if_pos started).symm.trans stepped))
      rfl
    · obtain ⟨s, -, same⟩ := Option.map_eq_some_iff.mp ((if_neg started).symm.trans stepped)
      obtain ⟨rfl, -⟩ := Prod.mk.inj same
      rfl
  | restart s =>
    obtain ⟨s, -, same⟩ := Option.map_eq_some_iff.mp stepped
    obtain ⟨rfl, -⟩ := Prod.mk.inj same
    rfl
  | update responses =>
    rcases update_keeps stepped with rfl | ⟨-, _, _, _, rfl⟩
    · rfl
    · rfl

/-- A machine is, up to where it stands, what its building calls make of a fresh one. -/
theorem run_builds {inputs : List Input} {outs : List Event}
    (run : (control vec).Run sm inputs outs sm') :
    (control vec).Run sm.unstarted (inputs.filter Input.builds) [] sm'.unstarted := by
  induction run with
  | nil sm => exact .nil _
  | @cons sm middle last input inputs output outputs _ step _ ih =>
    cases building : input.builds with
    | true =>
      rw [List.filter_cons_of_pos building]
      exact .cons trivial (step_of_builds building step) ih
    | false =>
      rw [List.filter_cons_of_neg (Bool.eq_false_iff.mp building), ← step_of_other building step]
      exact ih

/-! ### After a start and after a restart -/

/-- A machine whose updates show the same each time and leave it where it is. -/
theorem still_run {seen : Observation}
    (still : ∀ responses, (observed vec).step sm (.update responses) = some (sm, [seen]))
    (responses : List Responses) :
    (observed vec).Run sm (responses.map .update) (List.replicate responses.length seen) sm := by
  induction responses with
  | nil => exact .nil sm
  | cons first rest ih => exact .cons trivial (still first) ih

/-- The updates after `aStateMachine_restart` do nothing. -/
theorem restart_silent (sm : AStateMachine V) (s : Ref) (responses : Responses) :
    (observed vec).step (sm.restartedIn s) (.update responses) =
      some (sm.restartedIn s, [⟨[], some s, none⟩]) := rfl

/-- Nor do those after `aStateMachine_start`, in a state without `excution` and transitions. -/
theorem start_silent {s : Ref} (excution : (sm.memory s).excution = none)
    (empty : vec.toList (sm.memory s).transitions = []) (responses : Responses) :
    (observed vec).step (sm.startedIn s) (.update responses) =
      some (sm.startedIn s, [⟨[], some s, none⟩]) := by
  have here : (sm.startedIn s).current = some s := rfl
  have updated : (sm.startedIn s).update vec responses = some (sm.startedIn s, []) := by
    rw [update_of_running rfl rfl here, if_neg, scan_of_empty here empty]
    · show some (sm.startedIn s, (sm.memory s).callExcution s ++ []) = _
      rw [AState.callExcution, excution]
      rfl
    · show ¬ ((sm.memory s).excution.isSome ∧ _)
      rw [excution]
      exact fun both => Bool.noConfusion both.1
  show ((sm.startedIn s).update vec responses).map _ = _
  rw [updated]
  rfl

/-- In any other state the first update after `aStateMachine_start` calls a function. -/
theorem silent_of_start {s : Ref} {responses : Responses}
    (triggered : ∀ t ∈ vec.toList (sm.memory s).transitions, t.trigger = true)
    (updated : (sm.startedIn s).update vec responses = some (sm', [])) :
    (sm.memory s).excution = none ∧ vec.toList (sm.memory s).transitions = [] := by
  have here : (sm.startedIn s).current = some s := rfl
  rw [update_of_running rfl rfl here] at updated
  obtain ⟨⟨last, later⟩, scanned, same⟩ := Option.map_eq_some_iff.mp updated
  obtain ⟨calls, asks⟩ := List.append_eq_nil_iff.mp (Prod.mk.inj same).2
  have excution : (sm.memory s).excution = none := by
    by_contra set
    have called : (sm.memory s).excution.isSome := Option.isSome_iff_ne_none.mpr set
    exact absurd ((if_pos called).symm.trans calls) (List.cons_ne_nil _ _)
  refine ⟨excution, ?_⟩
  by_contra transitions
  rw [if_neg] at scanned
  · exact scan_asks here triggered transitions scanned asks
  · show ¬ ((sm.memory s).excution.isSome ∧ _)
    rw [excution]
    exact fun both => Bool.noConfusion both.1

/-- **Restart and start** show the same exactly if no update follows, or the state has nothing to do
in one. -/
theorem sameTrace_iff
    {s : Ref} (triggered : ∀ t ∈ vec.toList (sm.memory s).transitions, t.trigger = true)
    (responses : List Responses) :
    SameTrace vec sm sm.unstarted (.restart (some s) :: responses.map .update)
        (.start (some s) :: responses.map .update) ↔
      responses = [] ∨
        (sm.memory s).excution = none ∧ vec.toList (sm.memory s).transitions = [] := by
  have restarted : (observed vec).step sm (.restart (some s)) =
      some (sm.restartedIn s, [⟨(sm.memory s).callEntry s, some s, none⟩]) := rfl
  have started : (observed vec).step sm.unstarted (.start (some s)) =
      some (sm.startedIn s, [⟨(sm.memory s).callEntry s, some s, none⟩]) := rfl
  have silent : (observed vec).Run sm (.restart (some s) :: responses.map .update)
      (⟨(sm.memory s).callEntry s, some s, none⟩ ::
        List.replicate responses.length ⟨[], some s, none⟩) (sm.restartedIn s) :=
    .cons trivial restarted (still_run (restart_silent sm s) responses)
  refine ⟨fun same => ?_, fun nothing seen => ?_⟩
  · cases responses with
    | nil => exact .inl rfl
    | cons first rest =>
      obtain ⟨last, run⟩ := (same _).mp ⟨_, silent⟩
      obtain ⟨middle, _, outs, split, _, first_step, run⟩ := run.uncons
      rw [started] at first_step
      obtain ⟨rfl, rfl⟩ := Prod.mk.inj (Option.some.inj first_step)
      obtain rfl := (List.cons_inj_right _).mp split
      obtain ⟨middle, _, outs, split, _, second_step, _⟩ := run.uncons
      obtain ⟨⟨next, events⟩, updated, shown⟩ := Option.map_eq_some_iff.mp second_step
      obtain ⟨rfl, rfl⟩ := Prod.mk.inj shown
      obtain rfl : [] = events := congrArg Observation.events (List.cons.inj split).1
      exact .inr (silent_of_start triggered updated)
  · have silent' : (observed vec).Run sm.unstarted (.start (some s) :: responses.map .update)
        (⟨(sm.memory s).callEntry s, some s, none⟩ ::
          List.replicate responses.length ⟨[], some s, none⟩) (sm.startedIn s) := by
      rcases nothing with rfl | ⟨excution, empty⟩
      · exact .cons trivial started (.nil _)
      · exact .cons trivial started (still_run (start_silent excution empty) responses)
    refine ⟨fun ⟨last, run⟩ => ?_, fun ⟨last, run⟩ => ?_⟩
    · rw [(silent.unique run).1]
      exact ⟨_, silent'⟩
    · rw [(silent'.unique run).1]
      exact ⟨_, silent⟩

/-- **Restart after any run.** The machine, once restarted, is compared with a fresh one that is
built the same way and started. -/
theorem restart_trace_iff {memory : Ref → AState V} (fresh : Fresh vec memory) (address : ℕ)
    {inputs : List Input} {outs : List Event}
    (run : (control vec).Run (.init vec memory address) inputs outs sm) (s : Ref)
    (responses : List Responses) :
    ∃ sm₀, (control vec).Run (.init vec memory address) (inputs.filter Input.builds) [] sm₀ ∧
      (SameTrace vec sm sm₀ (.restart (some s) :: responses.map .update)
          (.start (some s) :: responses.map .update) ↔
        responses = [] ∨
          (sm.memory s).excution = none ∧ vec.toList (sm.memory s).transitions = []) := by
  have sound : Sound vec sm := run.invariant (Sound vec)
    (fun _ _ _ _ _ sound stepped => sound.next stepped) (sound_init fresh address)
  exact ⟨sm.unstarted, run_builds run, sameTrace_iff (sound.triggered s) responses⟩

/-! ### A state with nothing to do, and one with an `excution` -/

/-- The second state has no functions. -/
def resting : Ref → AState List
  | .user 1 => aStateInit .list ⟨5, "rest"⟩ none none none
  | _ => aStateInit .list ⟨0, "run"⟩ (some 1) none none

theorem resting_fresh : Fresh .list resting := by
  intro s
  unfold resting
  split
  · exact ⟨_, _, _, _, rfl⟩
  · exact ⟨_, _, _, _, rfl⟩

/-- One state goes to the other. -/
def restingInputs : List Input :=
  [.build (.addState (.user 0)), .build (.addState (.user 1)),
    .build (.addTransition1 (some (.user 0)) (some (.user 1)) (some 2)), .start (some (.user 0)),
    .update ⟨0, fun _ => true⟩]

theorem restart_trace_resting :
    ∃ outs sm sm₀, (control CVector.list).Run (.init .list resting 10) restingInputs outs sm ∧
      (control CVector.list).Run (.init .list resting 10) (restingInputs.filter Input.builds) []
        sm₀ ∧
      SameTrace .list sm sm₀ [.restart (some (.user 1)), .update ⟨0, fun _ => true⟩]
        [.start (some (.user 1)), .update ⟨0, fun _ => true⟩] := by
  obtain ⟨outs, sm, run, checked⟩ := Machine.exists_run (control CVector.list) (fun _ _ => True)
    (.init .list resting 10) restingInputs
    (fun sm _ => (sm.memory (.user 1)).excution = none ∧ (sm.memory (.user 1)).transitions = [])
    (by decide +kernel)
  obtain ⟨sm₀, building, same⟩ :=
    restart_trace_iff resting_fresh 10 run (.user 1) [⟨0, fun _ => true⟩]
  exact ⟨outs, sm, sm₀, run, building, same.mpr (.inr (of_decide_eq_true checked))⟩

/-- The update after the restart does not execute the first state. -/
theorem restart_differs :
    ∃ outs sm sm₀, (control CVector.list).Run (.init .list resting 10) restingInputs outs sm ∧
      (control CVector.list).Run (.init .list resting 10) (restingInputs.filter Input.builds) []
        sm₀ ∧
      ¬ SameTrace .list sm sm₀ [.restart (some (.user 0)), .update ⟨0, fun _ => true⟩]
        [.start (some (.user 0)), .update ⟨0, fun _ => true⟩] := by
  obtain ⟨outs, sm, run, checked⟩ := Machine.exists_run (control CVector.list) (fun _ _ => True)
    (.init .list resting 10) restingInputs (fun sm _ => (sm.memory (.user 0)).excution ≠ none)
    (by decide +kernel)
  have sound : Sound .list sm := Machine.RunOn.invariant (Sound .list)
    (fun _ _ _ _ _ sound stepped => sound.next stepped) run (sound_init resting_fresh 10)
  refine ⟨outs, sm, sm.unstarted, run, run_builds run, fun same => ?_⟩
  rcases (sameTrace_iff (sound.triggered (.user 0)) [⟨0, fun _ => true⟩]).mp same with
    nothing | ⟨excution, -⟩
  · cases nothing
  · exact of_decide_eq_true checked excution

end Robocon.StateMachine
